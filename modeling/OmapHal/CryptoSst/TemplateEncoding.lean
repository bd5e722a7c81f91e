import OmapHal.CryptoSst.Template

/-!
# The encoding of templates

The first pass computes the sizes modulo 2^32 and rejects what passes the limit on the way. The
second pass lays the items and the values down one behind the other. Where all sizes and offsets
fit, the buffer reads back as the templates.
-/

namespace OmapHal.CryptoSst

open List Option Nat

open OmapHal.Core (Memory encode decode)

/-! ### Sizes -/

/-- Clearing the two low bits rounds down to a multiple of four. -/
private theorem toNat_and_not_three (x : UInt32) : (x &&& ~~~3).toNat = x.toNat / 4 * 4 := by
  have hnot : (~~~(3 : UInt32)).toNat = 2 ^ 32 - 4 := by decide
  have hlt := x.toNat_lt
  have hhigh : (x.toNat &&& (2 ^ 32 - 4)) / 2 ^ 2 = x.toNat / 2 ^ 2 := by
    rw [and_div_two_pow]
    exact and_two_pow_sub_one_of_lt_two_pow (n := 30) (by omega)
  have hlow : (x.toNat &&& (2 ^ 32 - 4)) % 2 ^ 2 = 0 := by
    rw [and_mod_two_pow]
    exact and_zero _
  rw [UInt32.toNat_and, hnot]
  omega

theorem toNat_aligned (a : UInt32) :
    (PKCS11_GET_SIZE_WITH_ALIGNMENT a).toNat = (a.toNat + 3) / 4 * 4 % 2 ^ 32 := by
  have hthree : (3 : UInt32).toNat = 3 := rfl
  rw [PKCS11_GET_SIZE_WITH_ALIGNMENT, toNat_and_not_three, UInt32.toNat_add, hthree]
  omega

@[simp] theorem valuesSize_nil : valuesSize [] = 0 := rfl

@[simp] theorem valuesSize_cons (attr : CK_ATTRIBUTE) (rest : Template) :
    valuesSize (attr :: rest) = attr.room + valuesSize rest := rfl

/-- The sizes before some attribute pass the limit of the offsets, as the 32-bit sum shows them. -/
def TooLong (before : Nat) (pTemplate : Template) : Prop :=
  ∃ i < pTemplate.length, 0x40000000 < (before + valuesSize (pTemplate.take i)) % 2 ^ 32

theorem tooLong_cons (before : Nat) (attr : CK_ATTRIBUTE) (rest : Template) :
    TooLong before (attr :: rest) ↔
      0x40000000 < before % 2 ^ 32 ∨ TooLong (before + attr.room) rest := by
  constructor
  · rintro ⟨i, hi, hlong⟩
    cases i with
    | zero => exact .inl (by simpa using hlong)
    | succ i =>
      refine .inr ⟨i, lt_of_succ_lt_succ hi, ?_⟩
      rwa [take_succ_cons, valuesSize_cons, ← add_assoc] at hlong
  · rintro (hlong | ⟨i, hi, hlong⟩)
    · exact ⟨0, succ_pos _, by simpa using hlong⟩
    · refine ⟨i + 1, succ_lt_succ hi, ?_⟩
      rwa [take_succ_cons, valuesSize_cons, ← add_assoc]

theorem tooLong_congr {b c : Nat} (h : b % 2 ^ 32 = c % 2 ^ 32) (pTemplate : Template) :
    TooLong b pTemplate ↔ TooLong c pTemplate := by
  have hsum : ∀ v, (b + v) % 2 ^ 32 = (c + v) % 2 ^ 32 := fun v => by omega
  simp only [TooLong, hsum]

/-- The first pass over the values: the sum modulo 2^32, or an error. -/
theorem analyzeValues_eq (pBufferSize : UInt32) (pTemplate : Template) (nValuesSize : UInt32) :
    (analyzeValues pBufferSize nValuesSize pTemplate = none ↔
        TooLong (pBufferSize.toNat + nValuesSize.toNat) pTemplate) ∧
      ∀ n ∈ analyzeValues pBufferSize nValuesSize pTemplate,
        n.toNat = (nValuesSize.toNat + valuesSize pTemplate) % 2 ^ 32 := by
  induction pTemplate generalizing nValuesSize with
  | nil =>
    constructor
    · exact iff_of_false (some_ne_none _) fun ⟨i, hi, _⟩ => not_lt_zero i hi
    · rintro n ⟨⟩
      exact (mod_eq_of_lt nValuesSize.toNat_lt).symm
  | cons attr rest ih =>
    have hlimit : pBufferSize + nValuesSize > 0x40000000 ↔
        0x40000000 < (pBufferSize.toNat + nValuesSize.toNat) % 2 ^ 32 := by
      rw [gt_iff_lt, UInt32.lt_iff_toNat_lt, UInt32.toNat_add]
      rfl
    have hsum : (nValuesSize + PKCS11_GET_SIZE_WITH_ALIGNMENT attr.ulValueLen).toNat =
        (nValuesSize.toNat + attr.room) % 2 ^ 32 := by
      rw [UInt32.toNat_add, toNat_aligned, add_mod_mod]
      rfl
    obtain ⟨hnone, hsome⟩ := ih (nValuesSize + PKCS11_GET_SIZE_WITH_ALIGNMENT attr.ulValueLen)
    rw [hsum] at hnone hsome
    rw [tooLong_cons, analyzeValues, ← hlimit]
    by_cases hlong : pBufferSize + nValuesSize > 0x40000000
    · rw [if_pos hlong]
      exact ⟨iff_of_true rfl (.inl hlong), fun n hn => nomatch hn⟩
    · rw [if_neg hlong, or_iff_right hlong, hnone]
      refine ⟨tooLong_congr (by omega) rest, fun n hn => ?_⟩
      rw [hsome n hn, valuesSize_cons]
      omega

/-- The size of one template, items and values. -/
def templateSize (pTemplate : Template) : Nat := itemsSize pTemplate + valuesSize pTemplate

/-- The first pass over a template. -/
theorem static_analyzeTemplate_eq (sizes : UInt32 × UInt32) (pTemplate : Template) :
    (static_analyzeTemplate sizes pTemplate = none ↔ TooLong sizes.2.toNat pTemplate) ∧
      ∀ after ∈ static_analyzeTemplate sizes pTemplate,
        after.1.toNat = (sizes.1.toNat + itemsSize pTemplate) % 2 ^ 32 ∧
          after.2.toNat = (sizes.2.toNat + templateSize pTemplate) % 2 ^ 32 := by
  cases pTemplate with
  | nil =>
    constructor
    · exact iff_of_false (some_ne_none _) fun ⟨i, hi, _⟩ => not_lt_zero i hi
    · rintro after ⟨⟩
      exact ⟨UInt32.toNat_add _ _, UInt32.toNat_add _ _⟩
  | cons attr rest =>
    obtain ⟨hnone, hsome⟩ := analyzeValues_eq sizes.2 (attr :: rest) 0
    have hitems : (4 + UInt32.ofNat (ITEM_SIZE * (attr :: rest).length)).toNat =
        itemsSize (attr :: rest) % 2 ^ 32 := by
      rw [UInt32.toNat_add, UInt32.toNat_ofNat', add_mod_mod]
      rfl
    simp only [static_analyzeTemplate, length_cons, succ_ne_zero, if_false, map_eq_none_iff]
    refine ⟨hnone, fun after hafter => ?_⟩
    obtain ⟨n, hn, rfl⟩ := map_eq_some_iff.mp hafter
    have hvalues := hsome n hn
    rw [length_cons] at hitems
    generalize 4 + UInt32.ofNat (ITEM_SIZE * (rest.length + 1)) = nItemsSize at hitems ⊢
    rw [UInt32.toNat_add, UInt32.toNat_add, UInt32.toNat_add, hitems, hvalues, templateSize]
    constructor
    · omega
    · have hzero : (0 : UInt32).toNat = 0 := rfl
      omega

/-- Some template is rejected where so many bytes stand before it. -/
def Rejected : Nat → List Template → Prop
  | _, [] => False
  | before, pTemplate :: rest =>
    TooLong before pTemplate ∨ Rejected (before + templateSize pTemplate) rest

theorem rejected_congr {b c : Nat} (h : b % 2 ^ 32 = c % 2 ^ 32) (templates : List Template) :
    Rejected b templates ↔ Rejected c templates := by
  induction templates generalizing b c with
  | nil => exact Iff.rfl
  | cons pTemplate rest ih => exact or_congr (tooLong_congr h pTemplate) (ih (by omega))

@[simp] theorem totalSize_cons (pTemplate : Template) (rest : List Template) :
    totalSize (pTemplate :: rest) = templateSize pTemplate + totalSize rest := rfl

/-- The first pass over all the templates. -/
theorem analyzeTemplates_eq (templates : List Template) (sizes : UInt32 × UInt32) :
    (templates.foldlM static_analyzeTemplate sizes = none ↔ Rejected sizes.2.toNat templates) ∧
      ∀ after ∈ templates.foldlM static_analyzeTemplate sizes,
        after.1.toNat = (sizes.1.toNat + (templates.map itemsSize).sum) % 2 ^ 32 ∧
          after.2.toNat = (sizes.2.toNat + totalSize templates) % 2 ^ 32 := by
  induction templates generalizing sizes with
  | nil =>
    constructor
    · exact iff_of_false (some_ne_none _) id
    · rintro after ⟨⟩
      exact ⟨(mod_eq_of_lt sizes.1.toNat_lt).symm, (mod_eq_of_lt sizes.2.toNat_lt).symm⟩
  | cons pTemplate rest ih =>
    obtain ⟨hnone, hsome⟩ := static_analyzeTemplate_eq sizes pTemplate
    rw [foldlM_cons, Rejected]
    cases hstep : static_analyzeTemplate sizes pTemplate with
    | none => exact ⟨iff_of_true rfl (.inl (hnone.mp hstep)), fun after hafter => nomatch hafter⟩
    | some sizes' =>
      obtain ⟨hoffset, hsize⟩ := hsome sizes' hstep
      obtain ⟨hnone', hsome'⟩ := ih sizes'
      have hfits : ¬ TooLong sizes.2.toNat pTemplate := fun h => by
        rw [hnone.mpr h] at hstep
        cases hstep
      rw [bind_eq_bind, bind_some, or_iff_right hfits, hnone', totalSize_cons, map_cons, sum_cons]
      refine ⟨rejected_congr (by omega) rest, fun after hafter => ?_⟩
      obtain ⟨hoffset', hsize'⟩ := hsome' after hafter
      constructor
      · omega
      · omega

theorem room_le_valuesSize {attr : CK_ATTRIBUTE} {pTemplate : Template}
    (h : attr ∈ pTemplate) : attr.room ≤ valuesSize pTemplate :=
  le_sum_of_mem (mem_map_of_mem h)

theorem templateSize_le {pTemplate : Template} {templates : List Template}
    (h : pTemplate ∈ templates) : templateSize pTemplate ≤ totalSize templates :=
  le_sum_of_mem (mem_map_of_mem (f := templateSize) h)

/-! ### Items in memory -/

variable {m m' : Memory} {nParamIndex nBufferSize a d : Nat} {attr : CK_ATTRIBUTE}
  {rest t : Template}

@[simp] theorem length_bytes (sItem : INPUT_TEMPLATE_ITEM) : sItem.bytes.length = ITEM_SIZE := by
  simp [INPUT_TEMPLATE_ITEM.bytes, ITEM_SIZE]

/-- An item reads back where its bytes stand. -/
theorem readItem_of_bytes {sItem : INPUT_TEMPLATE_ITEM} (h : m.read a ITEM_SIZE = sItem.bytes) :
    readItem m a = sItem := by
  have hsplit : m.read a ITEM_SIZE = m.read a 4 ++ (m.read (a + 4) 4 ++ m.read (a + 8) 4) := by
    rw [show ITEM_SIZE = 4 + (4 + 4) from rfl, Memory.read_append, Memory.read_append]
  rw [hsplit, INPUT_TEMPLATE_ITEM.bytes] at h
  obtain ⟨htype, hrest⟩ := append_inj h (by simp)
  obtain ⟨hword, hlen⟩ := append_inj hrest (by simp)
  have hoffset := sItem.dataOffset.isLt
  have hparam := sItem.dataParamIndex.isLt
  have hdecode : decode (encode 4 (sItem.dataOffset.toNat + sItem.dataParamIndex.toNat * 2 ^ 30)) =
      sItem.dataOffset.toNat + sItem.dataParamIndex.toNat * 2 ^ 30 :=
    Core.decode_encode_of_lt (by omega)
  rw [readItem, htype, hword, hlen, hdecode, Core.decode_encode_of_lt sItem.attributeType.toNat_lt,
    Core.decode_encode_of_lt sItem.dataValueLen.toNat_lt, UInt32.ofNat_toNat, UInt32.ofNat_toNat]
  have hlow : BitVec.ofNat 30 (sItem.dataOffset.toNat + sItem.dataParamIndex.toNat * 2 ^ 30) =
      sItem.dataOffset := by
    apply BitVec.eq_of_toNat_eq
    rw [BitVec.toNat_ofNat]
    omega
  have hhigh : BitVec.ofNat 2 ((sItem.dataOffset.toNat + sItem.dataParamIndex.toNat * 2 ^ 30) /
      2 ^ 30) = sItem.dataParamIndex := by
    apply BitVec.eq_of_toNat_eq
    rw [BitVec.toNat_ofNat]
    omega
  rw [hlow, hhigh]

/-- What a value takes of the buffer. -/
def CK_ATTRIBUTE.span (attr : CK_ATTRIBUTE) : Nat := if attr.pValue = none then 0 else attr.room

def span (pTemplate : Template) : Nat := (pTemplate.map CK_ATTRIBUTE.span).sum

@[simp] theorem span_nil : span [] = 0 := rfl

@[simp] theorem span_cons (attr : CK_ATTRIBUTE) (rest : Template) :
    span (attr :: rest) = attr.span + span rest := rfl

theorem CK_ATTRIBUTE.span_le (attr : CK_ATTRIBUTE) : attr.span ≤ attr.room := by
  unfold CK_ATTRIBUTE.span
  split
  · exact zero_le _
  · exact le_refl _

theorem CK_ATTRIBUTE.length_le_span {value : List UInt8} (hvalue : attr.pValue = some value) :
    value.length ≤ attr.span := by
  rw [CK_ATTRIBUTE.span, if_neg (by simp [hvalue]), attr.length_value value hvalue,
    CK_ATTRIBUTE.room]
  omega

/-- The second pass has been over the attributes: their items stand from one offset on, and their
values from another one. -/
def Laid (m : Memory) (nParamIndex : Nat) : Nat → Nat → Template → Prop
  | _, _, [] => True
  | a, d, attr :: rest =>
    readItem m a = attr.item nParamIndex d ∧
      (∀ value ∈ attr.pValue, m.read d value.length = value) ∧
        Laid m nParamIndex (a + ITEM_SIZE) (d + attr.span) rest

/-- Two memories are the same outside two ranges. -/
def SameOutside (m m' : Memory) (a n d k : Nat) : Prop :=
  ∀ x, (x < a ∨ a + n ≤ x) → (x < d ∨ d + k ≤ x) → m' x = m x

private theorem readItem_congr (h : ∀ x, a ≤ x → x < a + ITEM_SIZE → m' x = m x) :
    readItem m' a = readItem m a := by
  have hrange : ∀ {b}, a ≤ b → b + 4 ≤ a + ITEM_SIZE → m'.read b 4 = m.read b 4 :=
    fun hb hb' => Memory.read_congr fun x hx hx' => h x (by omega) (by omega)
  simp only [ITEM_SIZE] at hrange
  rw [readItem, readItem, hrange (by omega) (by omega), hrange (by omega) (by omega),
    hrange (by omega) (by omega)]

theorem Laid.congr (h : Laid m nParamIndex a d t)
    (hitems : ∀ x, a ≤ x → x < a + ITEM_SIZE * t.length → m' x = m x)
    (hvalues : ∀ x, d ≤ x → x < d + span t → m' x = m x) : Laid m' nParamIndex a d t := by
  induction t generalizing a d with
  | nil => trivial
  | cons attr rest ih =>
    obtain ⟨hitem, hvalue, hrest⟩ := h
    rw [length_cons, mul_succ] at hitems
    rw [span_cons] at hvalues
    refine ⟨?_, fun value hsome => ?_, ih hrest (fun x hx hx' => hitems x (by omega) (by omega))
      fun x hx hx' => hvalues x (by omega) (by omega)⟩
    · rw [← hitem]
      exact readItem_congr fun x hx hx' => hitems x hx (by omega)
    · have hle := attr.length_le_span hsome
      rw [Memory.read_congr fun x hx hx' => hvalues x hx (by omega)]
      exact hvalue value hsome

/-! ### The second pass -/

theorem memcpy_eq {cursor : Nat} {bytes : List UInt8} (h : cursor + bytes.length ≤ nBufferSize) :
    memcpy nBufferSize m cursor bytes = some (m.write cursor bytes) :=
  if_pos h

private theorem read_write_self (m : Memory) (a : Nat) (bytes : List UInt8) :
    (m.write a bytes).read a bytes.length = bytes := by
  simpa using Memory.read_write_prefix m a bytes []

variable (m nParamIndex) in
/-- One attribute is laid down in its two places. -/
theorem copyAttribute_spec (ha : a + ITEM_SIZE ≤ d) (hd : d + attr.span ≤ nBufferSize)
    (hroom : attr.room < 2 ^ 32) :
    ∃ m', copyAttribute nBufferSize nParamIndex ⟨m, a, d⟩ attr =
        some ⟨m', a + ITEM_SIZE, d + attr.span⟩ ∧
      Laid m' nParamIndex a d [attr] ∧ SameOutside m m' a ITEM_SIZE d attr.span := by
  have hbytes := length_bytes (attr.item nParamIndex d)
  have hcopy : memcpy nBufferSize m a (attr.item nParamIndex d).bytes =
      some (m.write a (attr.item nParamIndex d).bytes) := memcpy_eq (by omega)
  have hitem := read_write_self m a (attr.item nParamIndex d).bytes
  rw [hbytes] at hitem
  cases hvalue : attr.pValue with
  | none =>
    have hspan : attr.span = 0 := if_pos hvalue
    refine ⟨m.write a (attr.item nParamIndex d).bytes, ?_, ⟨readItem_of_bytes hitem, ?_, trivial⟩,
      fun x hx _ => Memory.write_of_outside (by omega)⟩
    · simp only [copyAttribute, hcopy, hvalue, hspan, bind_eq_bind, bind_some, add_zero]
    · simp [hvalue]
  | some value =>
    have hspan : attr.span = attr.room := if_neg (by simp [hvalue])
    have hle := attr.length_le_span hvalue
    have hcopy' : memcpy nBufferSize (m.write a (attr.item nParamIndex d).bytes) d value =
        some ((m.write a (attr.item nParamIndex d).bytes).write d value) := memcpy_eq (by omega)
    have hadvance : (PKCS11_GET_SIZE_WITH_ALIGNMENT attr.ulValueLen).toNat = attr.room := by
      rw [toNat_aligned]
      exact mod_eq_of_lt hroom
    refine ⟨(m.write a (attr.item nParamIndex d).bytes).write d value, ?_, ⟨?_, ?_, trivial⟩,
      fun x hx hx' => ?_⟩
    · simp only [copyAttribute, hcopy, hcopy', hvalue, hspan, hadvance, bind_eq_bind, bind_some]
    · apply readItem_of_bytes
      rw [Memory.read_congr fun x _ hx => Memory.write_of_outside (by omega)]
      exact hitem
    · intro value' hvalue'
      obtain rfl : value = value' := some.inj (hvalue.symm.trans hvalue')
      exact read_write_self _ d value
    · rw [Memory.write_of_outside (by omega), Memory.write_of_outside (by omega)]

theorem SameOutside.trans {m'' : Memory} {n k n' k' a' d' : Nat} (h : SameOutside m m' a n d k)
    (h' : SameOutside m' m'' a' n' d' k') {n'' k'' : Nat} (ha : a ≤ a' ∧ a' + n' ≤ a + n'')
    (hd : d ≤ d' ∧ d' + k' ≤ d + k'') (hn : n ≤ n'') (hk : k ≤ k'') :
    SameOutside m m'' a n'' d k'' := fun x hx hx' =>
  (h' x (by omega) (by omega)).trans (h x (by omega) (by omega))

variable (m nParamIndex) in
/-- The attributes are laid down in turn. -/
theorem copyAttributes_spec (ha : a + ITEM_SIZE * t.length ≤ d) (hd : d + span t ≤ nBufferSize)
    (hroom : ∀ attr ∈ t, attr.room < 2 ^ 32) :
    ∃ m', t.foldlM (copyAttribute nBufferSize nParamIndex) ⟨m, a, d⟩ =
        some ⟨m', a + ITEM_SIZE * t.length, d + span t⟩ ∧
      Laid m' nParamIndex a d t ∧ SameOutside m m' a (ITEM_SIZE * t.length) d (span t) := by
  induction t generalizing m a d with
  | nil => exact ⟨m, rfl, trivial, fun x _ _ => rfl⟩
  | cons attr rest ih =>
    rw [length_cons, mul_succ] at ha
    rw [span_cons] at hd
    obtain ⟨m₁, hstep, ⟨hitem, hvalue, -⟩, hsame⟩ := copyAttribute_spec m nParamIndex
      (show a + ITEM_SIZE ≤ d by omega)
      (show d + attr.span ≤ nBufferSize by omega) (hroom attr mem_cons_self)
    obtain ⟨m₂, hrun, hlaid, hsame'⟩ := ih (m := m₁) (a := a + ITEM_SIZE) (d := d + attr.span)
      (by omega) (by omega) fun other hother => hroom other (mem_cons_of_mem attr hother)
    refine ⟨m₂, ?_, ⟨?_, fun value hsome => ?_, hlaid⟩, ?_⟩
    · rw [foldlM_cons, hstep, bind_eq_bind, bind_some, hrun, length_cons, mul_succ, span_cons]
      congr 2 <;> omega
    · rw [← hitem]
      exact readItem_congr fun x hx hx' => hsame' x (by omega) (by omega)
    · have hle := attr.length_le_span hsome
      rw [Memory.read_congr fun x hx hx' => hsame' x (by omega) (by omega)]
      exact hvalue value hsome
    · rw [length_cons, mul_succ, span_cons]
      exact hsame.trans hsame' (by omega) (by omega) (by omega) (by omega)

/-- A template is laid down behind the number of its attributes. -/
def LaidTemplates (m : Memory) (nParamIndex : Nat) : Nat → Nat → List Template → Prop
  | _, _, [] => True
  | a, d, pTemplate :: rest =>
    decode (m.read a 4) = pTemplate.length ∧ Laid m nParamIndex (a + 4) d pTemplate ∧
      LaidTemplates m nParamIndex (a + itemsSize pTemplate) (d + span pTemplate) rest

variable (m nParamIndex) in
/-- The template is laid down. -/
theorem copyTemplate_spec (ha : a + itemsSize t ≤ d) (hd : d + span t ≤ nBufferSize)
    (hroom : ∀ attr ∈ t, attr.room < 2 ^ 32) (hcount : t.length < 2 ^ 32) :
    ∃ m', static_copyTemplate nBufferSize nParamIndex ⟨m, a, d⟩ t =
        some ⟨m', a + itemsSize t, d + span t⟩ ∧
      LaidTemplates m' nParamIndex a d [t] ∧ SameOutside m m' a (itemsSize t) d (span t) := by
  unfold itemsSize at ha ⊢
  have hcopy : memcpy nBufferSize m a (encode 4 t.length) = some (m.write a (encode 4 t.length)) :=
    memcpy_eq (by rw [Core.length_encode]; omega)
  obtain ⟨m', hrun, hlaid, hsame⟩ := copyAttributes_spec
    (m.write a (encode 4 t.length)) nParamIndex (a := a + 4) (d := d) (by omega) hd hroom
  refine ⟨m', ?_, ⟨?_, hlaid, trivial⟩, fun x hx hx' => ?_⟩
  · rw [static_copyTemplate, hcopy, bind_eq_bind, bind_some, hrun, add_assoc]
  · have hread := read_write_self m a (encode 4 t.length)
    rw [Core.length_encode] at hread
    rw [Memory.read_congr fun x hx hx' => hsame x (by omega) (by omega), hread,
      Core.decode_encode_of_lt (by omega)]
  · rw [hsame x (by omega) (by omega), Memory.write_of_outside]
    rw [Core.length_encode]
    omega

theorem LaidTemplates.congr {templates : List Template}
    (h : LaidTemplates m nParamIndex a d templates)
    (hitems : ∀ x, a ≤ x → x < a + (templates.map itemsSize).sum → m' x = m x)
    (hvalues : ∀ x, d ≤ x → x < d + (templates.map span).sum → m' x = m x) :
    LaidTemplates m' nParamIndex a d templates := by
  induction templates generalizing a d with
  | nil => trivial
  | cons pTemplate rest ih =>
    obtain ⟨hcount, hlaid, hrest⟩ := h
    rw [map_cons, sum_cons] at hitems hvalues
    have hsize : itemsSize pTemplate = 4 + ITEM_SIZE * pTemplate.length := rfl
    refine ⟨?_, hlaid.congr (fun x hx hx' => hitems x (by omega) (by omega))
      fun x hx hx' => hvalues x hx (by omega), ih hrest
        (fun x hx hx' => hitems x (by omega) (by omega))
          fun x hx hx' => hvalues x (by omega) (by omega)⟩
    rw [Memory.read_congr fun x hx hx' => hitems x hx (by omega)]
    exact hcount

variable (m nParamIndex) in
theorem copyTemplates_spec {templates : List Template}
    (ha : a + (templates.map itemsSize).sum ≤ d)
    (hd : d + (templates.map span).sum ≤ nBufferSize)
    (hroom : ∀ t ∈ templates, ∀ attr ∈ t, attr.room < 2 ^ 32)
    (hcount : ∀ t ∈ templates, t.length < 2 ^ 32) :
    ∃ c, templates.foldlM (static_copyTemplate nBufferSize nParamIndex) ⟨m, a, d⟩ = some c ∧
      LaidTemplates c.pBuffer nParamIndex a d templates ∧
        SameOutside m c.pBuffer a (templates.map itemsSize).sum d (templates.map span).sum := by
  induction templates generalizing m a d with
  | nil => exact ⟨⟨m, a, d⟩, rfl, trivial, fun x _ _ => rfl⟩
  | cons pTemplate rest ih =>
    rw [map_cons, sum_cons] at ha hd
    obtain ⟨m₁, hstep, ⟨hnumber, hlaid, -⟩, hsame⟩ := copyTemplate_spec m nParamIndex
      (show a + itemsSize pTemplate ≤ d by omega)
      (show d + span pTemplate ≤ nBufferSize by omega) (hroom pTemplate mem_cons_self)
      (hcount pTemplate mem_cons_self)
    obtain ⟨c, hrun, hrest, hsame'⟩ := ih (m := m₁) (a := a + itemsSize pTemplate)
      (d := d + span pTemplate) (by omega) (by omega)
      (fun t ht => hroom t (mem_cons_of_mem pTemplate ht))
      fun t ht => hcount t (mem_cons_of_mem pTemplate ht)
    have hkeep : LaidTemplates c.pBuffer nParamIndex a d [pTemplate] :=
      LaidTemplates.congr ⟨hnumber, hlaid, trivial⟩
        (fun x hx hx' => hsame' x (by simp at hx'; omega) (by simp at hx'; omega))
        fun x hx hx' => hsame' x (by simp at hx'; omega) (by simp at hx'; omega)
    refine ⟨c, ?_, ⟨hkeep.1, hkeep.2.1, hrest⟩, ?_⟩
    · rw [foldlM_cons, hstep, bind_eq_bind, bind_some, hrun]
    · rw [map_cons, sum_cons, map_cons, sum_cons]
      exact hsame.trans hsame' (by omega) (by omega) (by omega) (by omega)

/-! ### Decoding -/

/-- The items of attributes whose values go to an offset. -/
def itemsAt (nParamIndex : Nat) : Nat → Template → List INPUT_TEMPLATE_ITEM
  | _, [] => []
  | d, attr :: rest => attr.item nParamIndex d :: itemsAt nParamIndex (d + attr.span) rest

theorem Laid.readItems_eq (h : Laid m nParamIndex a d t) :
    readItems m a t.length = itemsAt nParamIndex d t := by
  induction t generalizing a d with
  | nil => rfl
  | cons attr rest ih => rw [length_cons, readItems, itemsAt, h.1, ih h.2.2]

theorem span_append (t rest : Template) : span (t ++ rest) = span t + span rest := by
  simp [span]

theorem itemsAt_append (t rest : Template) :
    itemsAt nParamIndex d (t ++ rest) =
      itemsAt nParamIndex d t ++ itemsAt nParamIndex (d + span t) rest := by
  induction t generalizing d with
  | nil => rfl
  | cons attr t ih => rw [cons_append, itemsAt, itemsAt, ih, span_cons, add_assoc, cons_append]

theorem places_cons (d : Nat) (attr : CK_ATTRIBUTE) (rest : Template) :
    places d (attr :: rest) =
      (if attr.pValue = none then 0 else d) :: places (d + attr.span) rest := by
  rw [places, CK_ATTRIBUTE.span]
  split <;> rfl

/-- The offsets fit into their field. -/
def OffsetsFit (d : Nat) (t : Template) : Prop := ∀ p ∈ places d t, p < 2 ^ 30

theorem OffsetsFit.cons (h : OffsetsFit d (attr :: rest)) :
    (attr.pValue ≠ none → d < 2 ^ 30) ∧ OffsetsFit (d + attr.span) rest := by
  rw [OffsetsFit, places_cons, forall_mem_cons] at h
  exact ⟨fun hvalue => by simpa [hvalue] using h.1, h.2⟩

theorem OffsetsFit.append (h : OffsetsFit d (t ++ rest)) :
    OffsetsFit d t ∧ OffsetsFit (d + span t) rest := by
  induction t generalizing d with
  | nil => exact ⟨fun p hp => absurd hp not_mem_nil, h⟩
  | cons attr t ih =>
    rw [cons_append, OffsetsFit, places_cons, forall_mem_cons] at h
    obtain ⟨ht, hrest⟩ := ih h.2
    refine ⟨?_, by rwa [span_cons, ← add_assoc]⟩
    rw [OffsetsFit, places_cons, forall_mem_cons]
    exact ⟨h.1, ht⟩

variable (nParamIndex) in
/-- The offset that an item records, as long as it fits. -/
theorem item_dataOffset (hd : attr.pValue ≠ none → d < 2 ^ 30) :
    (attr.item nParamIndex d).dataOffset.toNat = if attr.pValue = none then 0 else d := by
  rw [CK_ATTRIBUTE.item]
  by_cases hvalue : attr.pValue = none
  · simp [hvalue]
  · rw [if_neg hvalue, if_neg hvalue, BitVec.toNat_ofNat, mod_eq_of_lt (hd hvalue)]

theorem itemsAt_offsets (h : OffsetsFit d t) :
    (itemsAt nParamIndex d t).map (fun sItem => sItem.dataOffset.toNat) = places d t := by
  induction t generalizing d with
  | nil => rfl
  | cons attr rest ih =>
    rw [itemsAt, map_cons, ih h.cons.2, places_cons, item_dataOffset _ h.cons.1]

/-- A value is absent exactly where the item records no offset. -/
theorem item_dataOffset_eq_zero (hpos : 0 < d) (hd : attr.pValue ≠ none → d < 2 ^ 30) :
    (attr.item nParamIndex d).dataOffset = 0 ↔ attr.pValue = none := by
  have hoffset := item_dataOffset nParamIndex hd
  rw [← BitVec.toNat_inj, hoffset]
  by_cases hvalue : attr.pValue = none
  · simp [hvalue]
  · simp [hvalue, ne_of_gt hpos]

theorem CK_ATTRIBUTE.eq_of_fields {b : CK_ATTRIBUTE} (htype : attr.type = b.type)
    (hvalue : attr.pValue = b.pValue) (hlen : attr.ulValueLen = b.ulValueLen) : attr = b := by
  cases attr
  cases b
  simp_all

theorem toAttribute_item (hpos : 0 < d) (hd : attr.pValue ≠ none → d < 2 ^ 30)
    (hread : ∀ value ∈ attr.pValue, m.read d value.length = value) :
    (attr.item nParamIndex d).toAttribute m = attr := by
  refine CK_ATTRIBUTE.eq_of_fields rfl ?_ rfl
  cases hvalue : attr.pValue with
  | none => exact if_pos ((item_dataOffset_eq_zero hpos hd).mpr hvalue)
  | some value =>
    have hne : (attr.item nParamIndex d).dataOffset ≠ 0 := fun hzero => by
      rw [item_dataOffset_eq_zero hpos hd, hvalue] at hzero
      cases hzero
    have hlen : (attr.item nParamIndex d).dataValueLen.toNat = value.length :=
      (attr.length_value value hvalue).symm
    refine (if_neg hne).trans ?_
    rw [item_dataOffset _ hd, if_neg (by simp [hvalue]), hlen, hread value hvalue]

theorem Laid.decodes (h : Laid m nParamIndex a d t) (hpos : 0 < d) (hfit : OffsetsFit d t) :
    (readItems m a t.length).map (fun sItem => sItem.toAttribute m) = t := by
  rw [h.readItems_eq]
  induction t generalizing a d with
  | nil => rfl
  | cons attr rest ih =>
    rw [itemsAt, map_cons, toAttribute_item hpos hfit.cons.1 h.2.1,
      ih h.2.2 (Nat.add_pos_left hpos _) hfit.cons.2]

/-- What is laid down reads back. -/
theorem LaidTemplates.readTemplates_eq {templates : List Template}
    (h : LaidTemplates m nParamIndex a d templates) (hpos : 0 < d)
    (hfit : OffsetsFit d templates.flatten) :
    (readTemplates m a templates.length).flatten = itemsAt nParamIndex d templates.flatten ∧
      (readTemplates m a templates.length).map (List.map fun sItem => sItem.toAttribute m) =
        templates := by
  induction templates generalizing a d with
  | nil => exact ⟨rfl, rfl⟩
  | cons pTemplate rest ih =>
    obtain ⟨hcount, hlaid, hrest⟩ := h
    rw [flatten_cons] at hfit
    obtain ⟨hfit, hfit'⟩ := hfit.append
    obtain ⟨hitems, hdecodes⟩ := ih hrest (Nat.add_pos_left hpos _) hfit'
    rw [length_cons, readTemplates, hcount, add_assoc, ← itemsSize]
    constructor
    · rw [flatten_cons, flatten_cons, itemsAt_append, hlaid.readItems_eq, hitems]
    · rw [map_cons, hlaid.decodes hpos hfit, hdecodes]

/-! ### The regions of the values -/

private theorem regions_cons (sItem : INPUT_TEMPLATE_ITEM) (items : List INPUT_TEMPLATE_ITEM) :
    regions (sItem :: items) =
      (if sItem.dataOffset = 0 then [] else
        [(sItem.dataOffset.toNat, sItem.dataValueLen.toNat)]) ++ regions items := by
  by_cases hzero : sItem.dataOffset = 0
  · rw [regions, filter_cons_of_neg (by simpa using hzero), if_pos hzero, nil_append, regions]
  · rw [regions, filter_cons_of_pos (by simpa using hzero), if_neg hzero, map_cons,
      singleton_append, regions]

theorem CK_ATTRIBUTE.ulValueLen_le (attr : CK_ATTRIBUTE) (hvalue : attr.pValue ≠ none) :
    attr.ulValueLen.toNat ≤ attr.span := by
  rw [CK_ATTRIBUTE.span, if_neg hvalue, CK_ATTRIBUTE.room]
  omega

theorem CK_ATTRIBUTE.four_dvd_span (attr : CK_ATTRIBUTE) : 4 ∣ attr.span := by
  unfold CK_ATTRIBUTE.span CK_ATTRIBUTE.room
  split
  · exact dvd_zero 4
  · exact dvd_mul_left 4 _

variable (nParamIndex) in
/-- The values stand apart, aligned, and from their offset up to the end of the last one. -/
theorem regions_itemsAt (hpos : 0 < d) (hfit : OffsetsFit d t) (haligned : 4 ∣ d) :
    (regions (itemsAt nParamIndex d t)).Pairwise
        (fun r q => Memory.Apart r.1 r.2 q.1 q.2) ∧
      ∀ r ∈ regions (itemsAt nParamIndex d t), 4 ∣ r.1 ∧ d ≤ r.1 ∧ r.1 + r.2 ≤ d + span t := by
  induction t generalizing d with
  | nil => exact ⟨Pairwise.nil, fun r hr => nomatch hr⟩
  | cons attr rest ih =>
    obtain ⟨hapart, hall⟩ := ih (Nat.add_pos_left hpos attr.span) hfit.cons.2
      ((Nat.dvd_add_right haligned).mpr attr.four_dvd_span)
    have hlater : ∀ r ∈ regions (itemsAt nParamIndex (d + attr.span) rest),
        4 ∣ r.1 ∧ d ≤ r.1 ∧ r.1 + r.2 ≤ d + span (attr :: rest) := fun r hr => by
      have hr := hall r hr
      rw [span_cons]
      omega
    rw [itemsAt, regions_cons]
    by_cases hvalue : attr.pValue = none
    · rw [if_pos ((item_dataOffset_eq_zero hpos hfit.cons.1).mpr hvalue), nil_append]
      exact ⟨hapart, hlater⟩
    · have hlen := attr.ulValueLen_le hvalue
      rw [if_neg (mt (item_dataOffset_eq_zero hpos hfit.cons.1).mp hvalue),
        item_dataOffset _ hfit.cons.1, if_neg hvalue, singleton_append]
      refine ⟨pairwise_cons.mpr ⟨fun r hr => .inl ?_, hapart⟩, ?_⟩
      · have hr := hall r hr
        exact Nat.le_trans (Nat.add_le_add_left hlen d) hr.2.1
      · rw [forall_mem_cons]
        refine ⟨⟨haligned, le_refl d, ?_⟩, hlater⟩
        rw [span_cons]
        exact Nat.add_le_add_left (Nat.le_trans hlen (Nat.le_add_right _ _)) d

/-! ### The encoders -/

/-- The whole buffer has a 32-bit size, and every offset of a value fits into its field. -/
def TemplatesFit (templates : List Template) : Prop :=
  totalSize templates < 2 ^ 32 ∧ ∀ p ∈ dataPlaces templates, p < 2 ^ 30

theorem span_le_valuesSize (t : Template) : span t ≤ valuesSize t :=
  sum_le_sum fun attr _ => attr.span_le

theorem sums_le_totalSize (templates : List Template) :
    (templates.map itemsSize).sum + (templates.map span).sum ≤ totalSize templates := by
  induction templates with
  | nil => exact le_refl 0
  | cons pTemplate rest ih =>
    have hspan := span_le_valuesSize pTemplate
    rw [map_cons, sum_cons, map_cons, sum_cons, totalSize_cons, templateSize]
    omega

theorem span_flatten (templates : List Template) :
    span templates.flatten = (templates.map span).sum := by
  induction templates with
  | nil => rfl
  | cons pTemplate rest ih => rw [flatten_cons, span_append, ih, map_cons, sum_cons]

theorem four_dvd_itemsSize (templates : List Template) : 4 ∣ (templates.map itemsSize).sum := by
  induction templates with
  | nil => exact dvd_zero 4
  | cons t rest ih =>
    rw [map_cons, sum_cons, itemsSize, ITEM_SIZE]
    omega

/-- Templates that fit are laid down as promised. -/
theorem holds_of_laid {templates : List Template} (hne : templates ≠ [])
    (hfit : TemplatesFit templates)
    (hlaid : LaidTemplates m nParamIndex 0 (templates.map itemsSize).sum templates) :
    Holds templates m (totalSize templates) := by
  have hpos : 0 < (templates.map itemsSize).sum := by
    obtain ⟨t, rest, rfl⟩ := exists_cons_of_ne_nil hne
    rw [map_cons, sum_cons, itemsSize]
    omega
  obtain ⟨hitems, hdecodes⟩ := hlaid.readTemplates_eq hpos hfit.2
  obtain ⟨hapart, hall⟩ := regions_itemsAt nParamIndex hpos hfit.2
    (four_dvd_itemsSize templates)
  rw [← hitems] at hapart hall
  refine ⟨rfl, hdecodes, ?_, hapart, fun r hr => (hall r hr).1, fun r hr => ?_⟩
  · rw [hitems]
    exact itemsAt_offsets hfit.2
  · rw [span_flatten] at hall
    exact le_trans (hall r hr).2.2 (sums_le_totalSize templates)

/-- An encoder keeps its promise exactly if it has no storage, or rejects, or everything fits. -/
theorem encodeTemplates_promised_iff (malloc : Option Memory) (prepare : Memory → Memory)
    (nParamIndex : Nat) {templates : List Template} (hne : templates ≠ []) :
    Promised templates (encodeTemplates malloc prepare nParamIndex templates) ↔
      malloc = none ∨ Rejected 0 templates ∨ TemplatesFit templates := by
  obtain ⟨hnone, hsome⟩ := analyzeTemplates_eq templates (0, 0)
  have hzero : (0 : UInt32).toNat = 0 := rfl
  rw [hzero] at hnone hsome
  unfold encodeTemplates
  cases hsizes : templates.foldlM static_analyzeTemplate (0, 0) with
  | none => exact iff_of_true trivial (.inr (.inl (hnone.mp hsizes)))
  | some sizes =>
    obtain ⟨hoffset, hsize⟩ := hsome sizes hsizes
    rw [zero_add] at hoffset hsize
    cases malloc with
    | none => exact iff_of_true trivial (.inl rfl)
    | some pBuffer =>
      have haccepted : ¬ Rejected 0 templates := fun h => by
        rw [hnone.mpr h] at hsizes
        cases hsizes
      rw [or_iff_right (some_ne_none pBuffer), or_iff_right haccepted]
      constructor
      · intro h
        dsimp only at h
        cases hcopy : templates.foldlM (static_copyTemplate sizes.2.toNat nParamIndex)
            ⟨prepare pBuffer, 0, sizes.1.toNat⟩ with
        | none =>
          rw [hcopy] at h
          exact h.elim
        | some c =>
          rw [hcopy] at h
          have hholds : Holds templates c.pBuffer sizes.2.toNat := h
          refine ⟨hholds.size ▸ sizes.2.toNat_lt, fun p hp => ?_⟩
          rw [← hholds.offsets] at hp
          obtain ⟨sItem, -, rfl⟩ := mem_map.mp hp
          exact sItem.dataOffset.isLt
      · intro hfit
        have hsums := sums_le_totalSize templates
        have htotal := hfit.1
        rw [mod_eq_of_lt (by omega)] at hoffset hsize
        have hroom : ∀ t ∈ templates, ∀ attr ∈ t, attr.room < 2 ^ 32 := fun t ht attr hattr => by
          have hle := room_le_valuesSize hattr
          have hle' := templateSize_le ht
          rw [templateSize] at hle'
          omega
        have hcount : ∀ t ∈ templates, t.length < 2 ^ 32 := fun t ht => by
          have hle := templateSize_le ht
          rw [templateSize, itemsSize, ITEM_SIZE] at hle
          omega
        obtain ⟨c, hcopy, hlaid, -⟩ := copyTemplates_spec (prepare pBuffer) nParamIndex (a := 0)
          (show _ ≤ sizes.1.toNat by omega) (show _ ≤ sizes.2.toNat by omega) hroom hcount
        rw [hoffset] at hlaid
        have hholds := holds_of_laid hne hfit hlaid
        rw [← hsize] at hholds
        dsimp only
        rw [hcopy]
        exact hholds

theorem templatesFit_empty : TemplatesFit [[]] :=
  ⟨by decide, fun p hp => absurd hp not_mem_nil⟩

/-- Both encoders keep their promise exactly if there is no storage, or some attribute is reached
with too many bytes before it, or everything fits. -/
theorem encoders_promised_iff (malloc : Option Memory) (nParamIndex : Nat)
    (pTemplate1 pTemplate2 : Template) (pTemplate : Option Template) :
    (Promised [pTemplate1, pTemplate2]
        (static_encodeTwoTemplates malloc nParamIndex pTemplate1 pTemplate2) ↔
      malloc = none ∨ Rejected 0 [pTemplate1, pTemplate2] ∨ TemplatesFit [pTemplate1, pTemplate2]) ∧
    (Promised [pTemplate.getD []] (static_encodeTemplate malloc nParamIndex pTemplate) ↔
      malloc = none ∨ Rejected 0 [pTemplate.getD []] ∨ TemplatesFit [pTemplate.getD []]) := by
  refine ⟨encodeTemplates_promised_iff malloc _ nParamIndex (cons_ne_nil _ _), ?_⟩
  match pTemplate with
  | none | some [] =>
    exact iff_of_true ⟨rfl, rfl⟩ (.inr (.inr templatesFit_empty))
  | some (attr :: rest) =>
    exact encodeTemplates_promised_iff malloc _ nParamIndex (cons_ne_nil _ _)

/-- An attribute without a value whose length is unavailable, as callers that ask for it pass. -/
def unavailable : CK_ATTRIBUTE := ⟨0, none, 0xFFFFFFFF, by simp⟩

/-- The rounded length wraps to zero, and the templates are accepted. -/
theorem unavailable_not_promised :
    ¬ ∀ (malloc : Option Memory) (nParamIndex : Nat) (pTemplate1 pTemplate2 : Template),
      Promised [pTemplate1, pTemplate2]
        (static_encodeTwoTemplates malloc nParamIndex pTemplate1 pTemplate2) := by
  intro h
  have hpromised := h (some fun _ => 0) 0 [unavailable] []
  rw [static_encodeTwoTemplates, encodeTemplates_promised_iff _ _ _ (cons_ne_nil _ _)]
    at hpromised
  rcases hpromised with hnone | (⟨i, hi, hlong⟩ | ⟨i, hi, -⟩ | hrest) | hfit
  · cases hnone
  · obtain rfl : i = 0 := by simpa using hi
    simp at hlong
  · exact not_lt_zero i hi
  · exact hrest
  · have htotal := hfit.1
    revert htotal
    decide

end OmapHal.CryptoSst
