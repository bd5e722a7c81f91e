import OmapHal.Core.Memory
import OmapHal.CryptoSst.Context

/-!
# Attribute templates in a buffer

`pkcs11_object.c` sends one or two attribute templates in one buffer: for each template the number
of its attributes and one item for each of them, and behind all the items the values. A first pass
adds up the sizes, a second one copies. A write outside the buffer has no result.
-/

namespace OmapHal.CryptoSst

open OmapHal.Core (Memory encode decode)

/-- An attribute. Where `pValue` is not `NULL` it points to `ulValueLen` bytes. -/
structure CK_ATTRIBUTE where
  type : UInt32
  pValue : Option (List UInt8)
  ulValueLen : UInt32
  length_value : ∀ value ∈ pValue, value.length = ulValueLen.toNat
  deriving DecidableEq

/-- An attribute template, of `ulCount` attributes. -/
abbrev Template := List CK_ATTRIBUTE

def PKCS11_GET_SIZE_WITH_ALIGNMENT (a : UInt32) : UInt32 := (a + 3) &&& ~~~3

/-- One attribute in the buffer. -/
structure INPUT_TEMPLATE_ITEM where
  attributeType : UInt32
  dataOffset : BitVec 30
  dataParamIndex : BitVec 2
  dataValueLen : UInt32
  deriving DecidableEq, Repr

/-- `sizeof(INPUT_TEMPLATE_ITEM)`. -/
def ITEM_SIZE : Nat := 12

/-- The item in memory. -/
def INPUT_TEMPLATE_ITEM.bytes (sItem : INPUT_TEMPLATE_ITEM) : List UInt8 :=
  encode 4 sItem.attributeType.toNat ++
    (encode 4 (sItem.dataOffset.toNat + sItem.dataParamIndex.toNat * 2 ^ 30) ++
      encode 4 sItem.dataValueLen.toNat)

/-! ### The sizes -/

/-- The loop of `static_analyzeTemplate`, with `nValuesSize`. -/
def analyzeValues (pBufferSize : UInt32) : UInt32 → Template → Option UInt32
  | nValuesSize, [] => some nValuesSize
  | nValuesSize, attr :: rest =>
    -- offsets above 0x40000000 are not supported
    if pBufferSize + nValuesSize > 0x40000000 then none
    else analyzeValues pBufferSize
      (nValuesSize + PKCS11_GET_SIZE_WITH_ALIGNMENT attr.ulValueLen) rest

/-- The data offset and the buffer size with one more template, `none` for `CKR_DEVICE_ERROR`. -/
def static_analyzeTemplate (sizes : UInt32 × UInt32) (pTemplate : Template) :
    Option (UInt32 × UInt32) :=
  let (pDataOffset, pBufferSize) := sizes
  let nItemsSize : UInt32 := 4
  if pTemplate.length = 0 then some (pDataOffset + nItemsSize, pBufferSize + nItemsSize)
  else
    let nItemsSize := nItemsSize + UInt32.ofNat (ITEM_SIZE * pTemplate.length)
    (analyzeValues pBufferSize 0 pTemplate).map fun nValuesSize =>
      (pDataOffset + nItemsSize, pBufferSize + (nItemsSize + nValuesSize))

/-! ### The copy -/

/-- The buffer while it is filled, with the offsets of its two cursors. -/
structure Cursors where
  pBuffer : Memory
  pAttributeCursor : Nat
  pDataCursor : Nat

/-- A copy into the buffer. -/
def memcpy (nBufferSize : Nat) (pBuffer : Memory) (cursor : Nat) (bytes : List UInt8) :
    Option Memory :=
  if cursor + bytes.length ≤ nBufferSize then some (pBuffer.write cursor bytes) else none

/-- The item for an attribute whose value is copied to an offset; zero stands for `NULL`. -/
def CK_ATTRIBUTE.item (attr : CK_ATTRIBUTE) (nParamIndex : Nat) (offset : Nat) :
    INPUT_TEMPLATE_ITEM where
  attributeType := attr.type
  dataOffset := if attr.pValue = none then 0 else BitVec.ofNat 30 offset
  dataParamIndex := BitVec.ofNat 2 nParamIndex
  dataValueLen := attr.ulValueLen

/-- One turn of the loop of `static_copyTemplate`. -/
def copyAttribute (nBufferSize nParamIndex : Nat) (c : Cursors) (attr : CK_ATTRIBUTE) :
    Option Cursors := do
  let sItem := attr.item nParamIndex c.pDataCursor
  let pBuffer ← memcpy nBufferSize c.pBuffer c.pAttributeCursor sItem.bytes
  match attr.pValue with
  | none => some ⟨pBuffer, c.pAttributeCursor + ITEM_SIZE, c.pDataCursor⟩
  | some value =>
    let pBuffer ← memcpy nBufferSize pBuffer c.pDataCursor value
    some ⟨pBuffer, c.pAttributeCursor + ITEM_SIZE,
      c.pDataCursor + (PKCS11_GET_SIZE_WITH_ALIGNMENT attr.ulValueLen).toNat⟩

def static_copyTemplate (nBufferSize nParamIndex : Nat) (c : Cursors) (pTemplate : Template) :
    Option Cursors := do
  let pBuffer ← memcpy nBufferSize c.pBuffer c.pAttributeCursor (encode 4 pTemplate.length)
  pTemplate.foldlM (copyAttribute nBufferSize nParamIndex)
    ⟨pBuffer, c.pAttributeCursor + 4, c.pDataCursor⟩

/-! ### The encoders -/

/-- The buffer, `none` for `NULL`, and its size; or the error. -/
abbrev Encoding := Except UInt32 (Option Memory × UInt32)

/-- What the two encoders do with the templates of one buffer. `malloc` is the storage, if there is
any, and `prepare` what is done to it before the copy. -/
def encodeTemplates (malloc : Option Memory) (prepare : Memory → Memory) (nParamIndex : Nat)
    (templates : List Template) : Option Encoding :=
  match templates.foldlM static_analyzeTemplate (0, 0) with
  | none => some (.error CKR_DEVICE_ERROR)
  | some (nDataOffset, nBufferSize) =>
    match malloc with
    | none => some (.error CKR_DEVICE_MEMORY)
    | some pBuffer => do
      let c ← templates.foldlM (static_copyTemplate nBufferSize.toNat nParamIndex)
        ⟨prepare pBuffer, 0, nDataOffset.toNat⟩
      some (.ok (some c.pBuffer, nBufferSize))

def static_encodeTwoTemplates (malloc : Option Memory) (nParamIndex : Nat)
    (pTemplate1 pTemplate2 : Template) : Option Encoding :=
  encodeTemplates malloc (fun _ _ => 0) nParamIndex [pTemplate1, pTemplate2]

def static_encodeTemplate (malloc : Option Memory) (nParamIndex : Nat)
    (pTemplate : Option Template) : Option Encoding :=
  match pTemplate with
  | none | some [] => some (.ok (none, 0))
  | some (attr :: rest) => encodeTemplates malloc id nParamIndex [attr :: rest]

/-! ### Decoding -/

/-- The item that stands at an offset. -/
def readItem (m : Memory) (a : Nat) : INPUT_TEMPLATE_ITEM where
  attributeType := UInt32.ofNat (decode (m.read a 4))
  dataOffset := BitVec.ofNat 30 (decode (m.read (a + 4) 4))
  dataParamIndex := BitVec.ofNat 2 (decode (m.read (a + 4) 4) / 2 ^ 30)
  dataValueLen := UInt32.ofNat (decode (m.read (a + 8) 4))

/-- So many items from an offset on. -/
def readItems (m : Memory) : Nat → Nat → List INPUT_TEMPLATE_ITEM
  | _, 0 => []
  | a, count + 1 => readItem m a :: readItems m (a + ITEM_SIZE) count

/-- So many templates, each behind its number of attributes. -/
def readTemplates (m : Memory) : Nat → Nat → List (List INPUT_TEMPLATE_ITEM)
  | _, 0 => []
  | a, k + 1 =>
    let ulCount := decode (m.read a 4)
    readItems m (a + 4) ulCount :: readTemplates m (a + 4 + ITEM_SIZE * ulCount) k

/-- The attribute of an item, with the value at its offset. -/
def INPUT_TEMPLATE_ITEM.toAttribute (sItem : INPUT_TEMPLATE_ITEM) (m : Memory) : CK_ATTRIBUTE where
  type := sItem.attributeType
  pValue := if sItem.dataOffset = 0 then none
    else some (m.read sItem.dataOffset.toNat sItem.dataValueLen.toNat)
  ulValueLen := sItem.dataValueLen
  length_value value hvalue := by
    split at hvalue
    · cases hvalue
    · rw [← Option.some.inj hvalue, Memory.length_read]

/-- The values in the buffer, by offset and length. -/
def regions (items : List INPUT_TEMPLATE_ITEM) : List (Nat × Nat) :=
  (items.filter fun sItem => sItem.dataOffset ≠ 0).map fun sItem =>
    (sItem.dataOffset.toNat, sItem.dataValueLen.toNat)

/-! ### What the encoders promise -/

/-- The length of a value with its padding. -/
def CK_ATTRIBUTE.room (attr : CK_ATTRIBUTE) : Nat := (attr.ulValueLen.toNat + 3) / 4 * 4

def valuesSize (pTemplate : Template) : Nat := (pTemplate.map CK_ATTRIBUTE.room).sum

def itemsSize (pTemplate : Template) : Nat := 4 + ITEM_SIZE * pTemplate.length

/-- The size of the buffer, in numbers without a bound. -/
def totalSize (templates : List Template) : Nat :=
  (templates.map fun pTemplate => itemsSize pTemplate + valuesSize pTemplate).sum

/-- Where the values go from an offset on, zero for `NULL`. -/
def places : Nat → Template → List Nat
  | _, [] => []
  | offset, attr :: rest =>
    if attr.pValue = none then 0 :: places offset rest
    else offset :: places (offset + attr.room) rest

/-- The values start behind all the items. -/
def dataPlaces (templates : List Template) : List Nat :=
  places (templates.map itemsSize).sum templates.flatten

/-- The buffer holds the templates: decoding recovers them in order, no size or offset has wrapped,
and the values stand apart, aligned and inside the buffer. -/
structure Holds (templates : List Template) (pBuffer : Memory) (nBufferSize : Nat) : Prop where
  size : nBufferSize = totalSize templates
  decodes : (readTemplates pBuffer 0 templates.length).map
    (List.map fun sItem => sItem.toAttribute pBuffer) = templates
  offsets : (readTemplates pBuffer 0 templates.length).flatten.map
    (fun sItem => sItem.dataOffset.toNat) = dataPlaces templates
  apart : (regions (readTemplates pBuffer 0 templates.length).flatten).Pairwise
    fun r q => Memory.Apart r.1 r.2 q.1 q.2
  aligned : ∀ r ∈ regions (readTemplates pBuffer 0 templates.length).flatten, 4 ∣ r.1
  inside : ∀ r ∈ regions (readTemplates pBuffer 0 templates.length).flatten,
    r.1 + r.2 ≤ nBufferSize

/-- An encoding that is accepted holds the templates. -/
def Promised (templates : List Template) : Option Encoding → Prop
  | none => False
  | some (.error _) => True
  | some (.ok (none, nBufferSize)) => templates.flatten = [] ∧ nBufferSize = 0
  | some (.ok (some pBuffer, nBufferSize)) => Holds templates pBuffer nBufferSize.toNat

end OmapHal.CryptoSst
