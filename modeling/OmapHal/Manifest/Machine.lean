import OmapHal.Core.Machine
import OmapHal.Manifest.Tokenizer

/-!
# The tokenizer as a machine

`static_libManifest2GetNextItemInternal` turn by turn: a configuration stands at the head of a loop
of the source, with the local variables, and a step is one turn. A byte is read from the content by
its offset, and a step that reads outside the content is not defined.
-/

namespace OmapHal.Manifest

open OmapHal.Core (Goes Reaches Returns)

/-- The heads of the loops, the entry, and the place where an item starts. -/
inductive Place where
  | entry | lines | comment | blankLine | item | sectionName | afterHeader | name | colon | value
  deriving DecidableEq, Repr

/-- The local variables, with the line count of the context. -/
structure Machine where
  place : Place
  pCurrent : Nat
  nLine : Nat
  pName : Nat
  nNameLength : Nat
  pValue : Nat
  pLastNonWhitespaceChar : Nat
  nCurrentSequenceCount : Nat
  nCurrentChar : Nat
  deriving DecidableEq, Repr

variable (c : Context) (m : Machine)

/-- The byte at `pCurrent`. -/
def Context.at (pCurrent : Nat) : Option UInt8 := c.pManifestContent[pCurrent]?

def Context.pEnd : Nat := c.pManifestContent.length

/-- The label `error`. -/
def Machine.error (nResult : S_RESULT) : Option (Machine ⊕ Read) :=
  some (.inr ⟨nResult, .null, { c with nLine := m.nLine }⟩)

def Machine.goto (place : Place) (pCurrent : Nat) : Option (Machine ⊕ Read) :=
  some (.inl { m with place := place, pCurrent := pCurrent })

/-- The success of a section header. -/
def Machine.endHeader : Option (Machine ⊕ Read) :=
  some (.inr ⟨.S_SUCCESS, ⟨m.pName, m.nNameLength, none, 0⟩,
    { c with nOffset := m.pCurrent, nLine := m.nLine, nSectionStartOffset := m.pCurrent }⟩)

/-- The label `end`. -/
def Machine.endValue (pCurrent lines : Nat) : Option (Machine ⊕ Read) :=
  some (.inr ⟨.S_SUCCESS,
    ⟨m.pName, m.nNameLength, some m.pValue, m.pLastNonWhitespaceChar + 1 - m.pValue⟩,
    { c with nOffset := pCurrent, nLine := m.nLine + lines }⟩)

/-- The line feed that may follow a carriage return, at `pCurrent`. -/
def Context.pastLineFeed (pCurrent : Nat) : Option Nat :=
  if pCurrent < c.pEnd then do
    let x ← c.at pCurrent
    some (if x = CHAR_LF then pCurrent + 1 else pCurrent)
  else some pCurrent

def stepEntry : Option (Machine ⊕ Read) :=
  if c.nType = .COMPILED then m.goto .item m.pCurrent
  else if m.pCurrent = 0 ∧ 3 ≤ c.pEnd then do
    let x ← c.at 0
    let y ← c.at 1
    let z ← c.at 2
    m.goto .lines (if x = 0xEF ∧ y = 0xBB ∧ z = 0xBF then 3 else 0)
  else m.goto .lines m.pCurrent

def stepLines : Option (Machine ⊕ Read) :=
  if m.pCurrent < c.pEnd then do
    let x ← c.at m.pCurrent
    if x = '#'.toUInt8 then m.goto .comment (m.pCurrent + 1)
    else if x = CHAR_CR then do
      let pCurrent ← c.pastLineFeed (m.pCurrent + 1)
      Machine.goto { m with nLine := m.nLine + 1 } .lines pCurrent
    else if x = CHAR_LF then Machine.goto { m with nLine := m.nLine + 1 } .lines (m.pCurrent + 1)
    else if isBlank x then m.goto .blankLine (m.pCurrent + 1)
    else m.goto .item m.pCurrent
  else m.goto .item m.pCurrent

def stepComment : Option (Machine ⊕ Read) :=
  if m.pCurrent < c.pEnd then do
    let x ← c.at m.pCurrent
    if isLineEnd x then m.goto .lines m.pCurrent
    else if x = 0 then m.error c .S_ERROR_BAD_FORMAT
    else m.goto .comment (m.pCurrent + 1)
  else m.goto .lines m.pCurrent

def stepBlankLine : Option (Machine ⊕ Read) :=
  if m.pCurrent < c.pEnd then do
    let x ← c.at m.pCurrent
    if isLineEnd x then m.goto .lines m.pCurrent
    else if !isBlank x then m.error c .S_ERROR_BAD_FORMAT
    else m.goto .blankLine (m.pCurrent + 1)
  else m.goto .lines m.pCurrent

def stepProperty (x : UInt8) : Option (Machine ⊕ Read) :=
  if static_checkCharacter x .CHARACTER_NAME_FIRST then
    Machine.goto
      { m with pName := m.pCurrent, pLastNonWhitespaceChar := m.pCurrent + 1 } .name
      (m.pCurrent + 1)
  else m.error c .S_ERROR_BAD_FORMAT

def stepItem : Option (Machine ⊕ Read) :=
  if m.pCurrent ≥ c.pEnd then m.error c .S_ERROR_ITEM_NOT_FOUND
  else do
    let x ← c.at m.pCurrent
    if c.nType = .SOURCE_WITH_SECTIONS then
      if x = '['.toUInt8 then
        Machine.goto { m with pName := m.pCurrent + 1 } .sectionName (m.pCurrent + 1)
      else if c.nSectionStartOffset = 0 then m.error c .S_ERROR_BAD_FORMAT
      else stepProperty c m x
    else stepProperty c m x

def stepSectionName : Option (Machine ⊕ Read) :=
  if m.pCurrent ≥ c.pEnd then m.error c .S_ERROR_BAD_FORMAT
  else do
    let x ← c.at m.pCurrent
    if x = ']'.toUInt8 then
      Machine.goto { m with nNameLength := m.pCurrent - m.pName } .afterHeader (m.pCurrent + 1)
    else if !static_checkCharacter x .CHARACTER_SECTION_NAME then m.error c .S_ERROR_BAD_FORMAT
    else m.goto .sectionName (m.pCurrent + 1)

/-- Behind a section header any other character is logged, and nothing else happens. -/
def stepAfterHeader : Option (Machine ⊕ Read) :=
  if m.pCurrent < c.pEnd then do
    let x ← c.at m.pCurrent
    if isBlank x then m.goto .afterHeader (m.pCurrent + 1)
    else if isLineEnd x then m.endHeader c
    else m.goto .afterHeader m.pCurrent
  else m.endHeader c

def stepName : Option (Machine ⊕ Read) :=
  if m.pCurrent = c.pEnd then m.error c .S_ERROR_BAD_FORMAT
  else do
    let x ← c.at m.pCurrent
    if x = ':'.toUInt8 then
      Machine.goto { m with nNameLength := m.pLastNonWhitespaceChar - m.pName } .colon
        (m.pCurrent + 1)
    else if c.nType ≠ .COMPILED ∧ isBlank x then m.goto .name (m.pCurrent + 1)
    else if !static_checkCharacter x .CHARACTER_NAME_SUBSEQUENT then
      m.error c .S_ERROR_BAD_FORMAT
    else if c.nType ≠ .COMPILED ∧ m.pCurrent ≠ m.pLastNonWhitespaceChar then
      m.error c .S_ERROR_BAD_FORMAT
    else
      Machine.goto { m with pLastNonWhitespaceChar := m.pCurrent + 1 } .name (m.pCurrent + 1)

/-- The start of the value. -/
def Machine.startValue : Option (Machine ⊕ Read) :=
  Machine.goto { m with
    pValue := m.pCurrent
    pLastNonWhitespaceChar := m.pCurrent - 1
    nCurrentSequenceCount := 0
    nCurrentChar := 0 } .value m.pCurrent

def stepColon : Option (Machine ⊕ Read) :=
  if m.pCurrent < c.pEnd then do
    let x ← c.at m.pCurrent
    if isBlank x then m.goto .colon (m.pCurrent + 1) else m.startValue
  else m.startValue

def stepValue : Option (Machine ⊕ Read) :=
  if m.pCurrent < c.pEnd then do
    let x ← c.at m.pCurrent
    match sequenceStep x.toNat m.nCurrentSequenceCount m.nCurrentChar with
    | none => m.error c .S_ERROR_BAD_FORMAT
    | some (count, char) =>
      if count = 0 ∧ illegalCodePoint char then m.error c .S_ERROR_BAD_FORMAT
      else if count = 0 ∧ x = CHAR_CR then
        if c.nType = .COMPILED then do
          let pCurrent ← c.pastLineFeed (m.pCurrent + 1)
          m.endValue c pCurrent 1
        else m.endValue c m.pCurrent 0
      else if count = 0 ∧ x = CHAR_LF then
        if c.nType = .COMPILED then m.endValue c (m.pCurrent + 1) 1
        else m.endValue c m.pCurrent 0
      else
        Machine.goto { m with
          pLastNonWhitespaceChar := if isBlank x then m.pLastNonWhitespaceChar else m.pCurrent
          nCurrentSequenceCount := count
          nCurrentChar := char } .value (m.pCurrent + 1)
  else if m.nCurrentSequenceCount ≠ 0 then m.error c .S_ERROR_BAD_FORMAT
  else m.endValue c m.pCurrent 0

/-- One turn of the loop at which the machine stands. -/
def turn : Option (Machine ⊕ Read) :=
  match m.place with
  | .entry => stepEntry c m
  | .lines => stepLines c m
  | .comment => stepComment c m
  | .blankLine => stepBlankLine c m
  | .item => stepItem c m
  | .sectionName => stepSectionName c m
  | .afterHeader => stepAfterHeader c m
  | .name => stepName c m
  | .colon => stepColon c m
  | .value => stepValue c m

/-- The entry of the function. -/
def Context.entry : Machine := ⟨.entry, c.nOffset, c.nLine, 0, 0, 0, 0, 0, 0⟩

end OmapHal.Manifest
