import Mathlib.Data.List.Basic
import Mathlib.Tactic.Cases

/-!
# Reading one item of a manifest

`lib_manifest2.c`. A pointer into the content is an offset; the bytes from a pointer to the end
are kept beside it. A loop of the source consumes these bytes, so it is a recursion on them. One
loop can stay at a byte for ever; its answer there is `none`.
-/

namespace OmapHal.Manifest

def CHAR_CR : UInt8 := 0x0D
def CHAR_LF : UInt8 := 0x0A
def CHAR_TAB : UInt8 := 0x09

inductive S_RESULT where
  | S_SUCCESS | S_ERROR_ITEM_NOT_FOUND | S_ERROR_BAD_FORMAT
  deriving DecidableEq, Repr

/-- `LIB_MANIFEST2_TYPE_COMPILED` and the other two types of input. -/
inductive ManifestType where
  | COMPILED | SOURCE | SOURCE_WITH_SECTIONS
  deriving DecidableEq, Repr

/-- `LIB_MANIFEST2_CONTEXT`, less the name that only messages use. -/
structure Context where
  nType : ManifestType
  pManifestContent : List UInt8
  nOffset : Nat
  nLine : Nat
  nSectionStartOffset : Nat
  deriving DecidableEq, Repr

def libManifest2InitContext (c : Context) : Context :=
  { c with nOffset := 0, nLine := 1, nSectionStartOffset := 0 }

/-- The kinds of characters that names are checked for. -/
inductive CharacterType where
  | CHARACTER_NAME_FIRST | CHARACTER_NAME_SUBSEQUENT | CHARACTER_SECTION_NAME
  deriving DecidableEq, Repr

def static_checkCharacter (x : UInt8) (nType : CharacterType) : Bool :=
  if 'a'.toUInt8 ≤ x ∧ x ≤ 'z'.toUInt8 then true
  else if 'A'.toUInt8 ≤ x ∧ x ≤ 'Z'.toUInt8 then true
  else if '0'.toUInt8 ≤ x ∧ x ≤ '9'.toUInt8 then true
  else if nType = .CHARACTER_NAME_FIRST then false
  else if x = '_'.toUInt8 ∨ x = '.'.toUInt8 ∨ x = '-'.toUInt8 then true
  else if nType = .CHARACTER_NAME_SUBSEQUENT then false
  else x = ' '.toUInt8

def static_sectionNameEqualCaseInsensitive (pName1 pName2 : List UInt8) : Bool :=
  pName1.length == pName2.length &&
    (pName1.zip pName2).all fun x => x.1 &&& 0xDF == x.2 &&& 0xDF

def isBlank (x : UInt8) : Bool := x = ' '.toUInt8 || x = CHAR_TAB

def isLineEnd (x : UInt8) : Bool := x = CHAR_CR || x = CHAR_LF

theorem isBlank_iff {x : UInt8} : isBlank x ↔ x = ' '.toUInt8 ∨ x = CHAR_TAB := by
  simp [isBlank]

theorem isLineEnd_iff {x : UInt8} : isLineEnd x ↔ x = CHAR_CR ∨ x = CHAR_LF := by
  simp [isLineEnd]

/-- A comment, up to the end of its line; `none` at a NUL. -/
def skipComment : List UInt8 → Option (List UInt8)
  | [] => some []
  | x :: rest =>
    if isLineEnd x then some (x :: rest)
    else if x = 0 then none
    else skipComment rest

/-- The rest of a line that starts with white space; `none` at any other character. -/
def skipBlankLine : List UInt8 → Option (List UInt8)
  | [] => some []
  | x :: rest =>
    if isLineEnd x then some (x :: rest)
    else if isBlank x then skipBlankLine rest
    else none

/-- The line feed that may follow a carriage return. -/
def skipLineFeed : List UInt8 → List UInt8
  | [] => []
  | x :: rest => if x = CHAR_LF then rest else x :: rest

/-- Comments and empty lines: what is left, or `none` at an error, and the lines ended. Each turn
takes a byte at least, so there are no more turns than bytes. -/
def skipLines : Nat → List UInt8 → Option (List UInt8) × Nat
  | 0, rest => (some rest, 0)
  | _ + 1, [] => (some [], 0)
  | turns + 1, x :: rest =>
    if x = '#'.toUInt8 then
      match skipComment rest with
      | some rest => skipLines turns rest
      | none => (none, 0)
    else if x = CHAR_CR then
      let (left, lines) := skipLines turns (skipLineFeed rest)
      (left, lines + 1)
    else if x = CHAR_LF then
      let (left, lines) := skipLines turns rest
      (left, lines + 1)
    else if isBlank x then
      match skipBlankLine rest with
      | some rest => skipLines turns rest
      | none => (none, 0)
    else (some (x :: rest), 0)

/-- The length of a section name and what follows its bracket. -/
def scanSectionName : List UInt8 → Option (Nat × List UInt8)
  | [] => none
  | x :: rest =>
    if x = ']'.toUInt8 then some (0, rest)
    else if static_checkCharacter x .CHARACTER_SECTION_NAME then
      (scanSectionName rest).map fun found => (found.1 + 1, found.2)
    else none

/-- The white space after a section header. At any other character an error is logged, and the
loop neither moves on nor leaves. -/
def skipAfterHeader : List UInt8 → Option (List UInt8)
  | [] => some []
  | x :: rest =>
    if isBlank x then skipAfterHeader rest
    else if isLineEnd x then some (x :: rest)
    else none

/-- A property name after its first character: the end of the name and what follows the colon.
In a source manifest white space may stand before the colon only. -/
def scanName (compiled : Bool) (pCurrent pLastNonWhitespaceChar : Nat) :
    List UInt8 → Option (Nat × List UInt8)
  | [] => none
  | x :: rest =>
    if x = ':'.toUInt8 then some (pLastNonWhitespaceChar, rest)
    else if !compiled && isBlank x then
      scanName compiled (pCurrent + 1) pLastNonWhitespaceChar rest
    else if !static_checkCharacter x .CHARACTER_NAME_SUBSEQUENT then none
    else if !compiled && pCurrent ≠ pLastNonWhitespaceChar then none
    else scanName compiled (pCurrent + 1) (pCurrent + 1) rest

/-- One byte of UTF-8: the continuation bytes still expected and the character so far. -/
def sequenceStep (x nCurrentSequenceCount nCurrentChar : Nat) : Option (Nat × Nat) :=
  if x &&& 0x80 = 0 then
    if nCurrentSequenceCount ≠ 0 then none
    else if x = 0 then none
    else some (nCurrentSequenceCount, x)
  else if x &&& 0xC0 = 0xC0 then
    if nCurrentSequenceCount ≠ 0 then none
    else if x &&& 0xE0 = 0xC0 then
      if x &&& 0x1E = 0 then none else some (1, x &&& 0x1F)
    else if x &&& 0xF0 = 0xE0 then some (2, x &&& 0x0F)
    else if x &&& 0xF8 = 0xF0 then some (3, x &&& 0x07)
    else none
  else if x &&& 0xC0 = 0x80 then
    if nCurrentSequenceCount = 0 then none
    else if nCurrentSequenceCount = 2 ∧ nCurrentChar = 0 ∧ x &&& 0x20 = 0 then none
    else if nCurrentSequenceCount = 3 ∧ nCurrentChar = 0 ∧ x &&& 0x30 = 0 then none
    else some (nCurrentSequenceCount - 1, nCurrentChar <<< 6 ||| x &&& 0x3F)
  else none

/-- A code point that no UTF-8 sequence may stand for. -/
def illegalCodePoint (nCurrentChar : Nat) : Bool :=
  0xD800 ≤ nCurrentChar && nCurrentChar < 0xE000 || 0x110000 ≤ nCurrentChar

/-- A value, from its first character: where it is left, its last character that is not white
space, and the lines ended. Only in a compiled manifest is the end of the line taken too. -/
def scanValue (compiled : Bool) (pCurrent pLastNonWhitespaceChar nCurrentSequenceCount
    nCurrentChar : Nat) : List UInt8 → Option (Nat × Nat × Nat)
  | [] =>
    if nCurrentSequenceCount ≠ 0 then none else some (pCurrent, pLastNonWhitespaceChar, 0)
  | x :: rest =>
    match sequenceStep x.toNat nCurrentSequenceCount nCurrentChar with
    | none => none
    | some (count, char) =>
      if count = 0 ∧ illegalCodePoint char then none
      else if count = 0 ∧ x = CHAR_CR then
        if compiled then
          some (pCurrent + 1 + (rest.length - (skipLineFeed rest).length),
            pLastNonWhitespaceChar, 1)
        else some (pCurrent, pLastNonWhitespaceChar, 0)
      else if count = 0 ∧ x = CHAR_LF then
        if compiled then some (pCurrent + 1, pLastNonWhitespaceChar, 1)
        else some (pCurrent, pLastNonWhitespaceChar, 0)
      else
        scanValue compiled (pCurrent + 1)
          (if isBlank x then pLastNonWhitespaceChar else pCurrent) count char rest

/-- What is returned through the pointers; a value of `none` is a null pointer. -/
structure Item where
  pName : Nat
  nNameLength : Nat
  pValue : Option Nat
  nValueLength : Nat
  deriving DecidableEq, Repr

/-- What is returned at an error. -/
def Item.null : Item := ⟨0, 0, none, 0⟩

/-- The result of a call, with the context that it leaves. -/
structure Read where
  nResult : S_RESULT
  item : Item
  context : Context
  deriving DecidableEq, Repr

variable (c : Context)

/-- The bytes from the offset on. -/
def Context.rest : List UInt8 := c.pManifestContent.drop c.nOffset

/-- The offset of the bytes that are left. -/
def Context.offsetOf (rest : List UInt8) : Nat := c.pManifestContent.length - rest.length

/-- The leading byte order mark is skipped at the start. -/
def Context.afterBom : List UInt8 :=
  if c.nOffset = 0 ∧ [0xEF, 0xBB, 0xBF].isPrefixOf c.rest then c.rest.drop 3 else c.rest

/-- What is left where the next item starts, and the lines ended before it. -/
def Context.toItem : Option (List UInt8) × Nat :=
  if c.nType = .COMPILED then (some c.rest, 0)
  else skipLines c.afterBom.length c.afterBom

def Context.badFormat : Option Read := some ⟨.S_ERROR_BAD_FORMAT, .null, c⟩

/-- A section header, after its opening bracket. -/
def readSection (rest : List UInt8) : Option Read :=
  match scanSectionName rest with
  | none => c.badFormat
  | some (nNameLength, afterName) =>
    (skipAfterHeader afterName).map fun left =>
      ⟨.S_SUCCESS, ⟨c.offsetOf rest, nNameLength, none, 0⟩,
        { c with nOffset := c.offsetOf left, nSectionStartOffset := c.offsetOf left }⟩

/-- A property, at its first character. -/
def readProperty (x : UInt8) (rest : List UInt8) : Option Read :=
  let compiled := c.nType = .COMPILED
  let pName := c.offsetOf (x :: rest)
  if static_checkCharacter x .CHARACTER_NAME_FIRST then
    match scanName compiled (pName + 1) (pName + 1) rest with
    | none => c.badFormat
    | some (nameEnd, afterColon) =>
      let value := afterColon.dropWhile isBlank
      let pValue := c.offsetOf value
      match scanValue compiled pValue (pValue - 1) 0 0 value with
      | none => c.badFormat
      | some (pCurrent, pLastNonWhitespaceChar, lines) =>
        some ⟨.S_SUCCESS,
          ⟨pName, nameEnd - pName, some pValue, pLastNonWhitespaceChar + 1 - pValue⟩,
          { c with nOffset := pCurrent, nLine := c.nLine + lines }⟩
  else c.badFormat

/-- The next item, `none` if the call does not return. -/
def static_libManifest2GetNextItemInternal : Option Read :=
  let (left, lines) := c.toItem
  let c := { c with nLine := c.nLine + lines }
  match left with
  | none => c.badFormat
  | some [] => some ⟨.S_ERROR_ITEM_NOT_FOUND, .null, c⟩
  | some (x :: rest) =>
    if c.nType = .SOURCE_WITH_SECTIONS then
      if x = '['.toUInt8 then readSection c rest
      else if c.nSectionStartOffset = 0 then c.badFormat
      else readProperty c x rest
    else readProperty c x rest

end OmapHal.Manifest
