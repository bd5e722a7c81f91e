import OmapHal.Manifest.Tokenizer

/-!
# Items without duplicates

In a source manifest each item that is read is compared with earlier ones, which are read once
more by the same tokenizer on the same context; the context is restored by hand.
-/

namespace OmapHal.Manifest

variable (c : Context)

/-- The bytes of a name. -/
def Context.name (item : Item) : List UInt8 :=
  (c.pManifestContent.drop item.pName).take item.nNameLength

/-- The comparison with an item that is read again: section headers with section headers, and
properties with properties. -/
def isDuplicate (item dup : Item) : Bool :=
  if c.nType = .SOURCE_WITH_SECTIONS ∧ item.pValue = none then
    dup.pValue = none && static_sectionNameEqualCaseInsensitive (c.name item) (c.name dup)
  else dup.nNameLength = item.nNameLength && c.name dup = c.name item

/-- The loop over the items before `nOriginalOffset`: whether a duplicate was found, the items
read, and the context that is left. A failed call leaves the offset, and the loop, where it is;
each other turn moves on, so there are no more turns than bytes. -/
def scanEarlier (item : Item) (nOriginalOffset : Nat) :
    Nat → Context → Option (Bool × List Item × Context)
  | 0, _ => none
  | turns + 1, c =>
    if c.nOffset < nOriginalOffset then
      match static_libManifest2GetNextItemInternal c with
      | none => none
      | some dup =>
        if isDuplicate c item dup.item then some (true, [dup.item], dup.context)
        else if dup.nResult = .S_SUCCESS then
          (scanEarlier item nOriginalOffset turns dup.context).map fun scan =>
            (scan.1, dup.item :: scan.2.1, scan.2.2)
        else none
    else some (false, [], c)

/-- Where the comparison starts: at the start of the file for a section header or a manifest
without sections, else at the start of the section. -/
def scanStart (item : Item) : Nat :=
  if c.nType = .SOURCE then 0
  else if item.pValue = none then 0
  else c.nSectionStartOffset

/-- The items read again for an item that was read from `nOriginalOffset`. -/
def rescan (read : Read) (nOriginalOffset : Nat) : Option (Bool × List Item × Context) :=
  scanEarlier read.item nOriginalOffset (nOriginalOffset + 1)
    { read.context with nOffset := scanStart read.context read.item }

/-- The fields that are saved before the loop and put back after it. -/
def Context.restore (scanned saved : Context) : Context :=
  { scanned with
    nOffset := saved.nOffset
    nLine := saved.nLine
    nSectionStartOffset := saved.nSectionStartOffset }

def libManifest2GetNextItem : Option Read :=
  if c.nType = .COMPILED then static_libManifest2GetNextItemInternal c
  else
    match static_libManifest2GetNextItemInternal c with
    | none => none
    | some read =>
      if read.nResult ≠ .S_SUCCESS then some read
      else if read.context.nType = .SOURCE_WITH_SECTIONS ∧ read.item.pValue.isSome ∧
          read.context.nSectionStartOffset = 0 then
        some ⟨.S_ERROR_BAD_FORMAT, .null, read.context⟩
      else
        (rescan read c.nOffset).map fun scan =>
          if scan.1 then ⟨.S_ERROR_BAD_FORMAT, .null, scan.2.2.restore read.context⟩
          else ⟨.S_SUCCESS, read.item, scan.2.2.restore read.context⟩

/-- The loop of the check, with the items that it sees. Each turn but the last moves on. -/
def checkItems : Nat → Context → Option (S_RESULT × List Item × Context)
  | 0, _ => none
  | turns + 1, c =>
    match libManifest2GetNextItem c with
    | none => none
    | some read =>
      match read.nResult with
      | .S_ERROR_ITEM_NOT_FOUND => some (.S_SUCCESS, [], read.context)
      | .S_ERROR_BAD_FORMAT => some (.S_ERROR_BAD_FORMAT, [], read.context)
      | .S_SUCCESS =>
        (checkItems turns read.context).map fun seen =>
          (seen.1, read.item :: seen.2.1, seen.2.2)

/-- What the check sees, from the start of the file. -/
def itemsChecked : Option (S_RESULT × List Item × Context) :=
  checkItems (c.pManifestContent.length + 1)
    { c with nOffset := 0, nLine := 1, nSectionStartOffset := 0 }

/-- The result, the count of the items if it is a success, and the context that is left. -/
def libManifest2CheckFormat : Option (S_RESULT × Option Nat × Context) :=
  (itemsChecked c).map fun seen =>
    (seen.1, if seen.1 = .S_SUCCESS then some seen.2.1.length else none, seen.2.2)

end OmapHal.Manifest
