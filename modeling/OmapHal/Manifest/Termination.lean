import OmapHal.Manifest.Machine
import OmapHal.Manifest.Progress

/-!
# The machine and the tokenizer

Each loop of the machine does what the recursion on the bytes says, whatever the content. The loop
behind a section header is the one that may not be left.
-/

namespace OmapHal.Manifest

open List Option

open OmapHal.Core (Goes Reaches Returns Safe)

variable {c : Context} {m : Machine} {rest left : List UInt8} {x : UInt8}

/-- The machine at a place, in front of the bytes that are left. -/
def Machine.stand (m : Machine) (c : Context) (place : Place) (rest : List UInt8) : Machine :=
  { m with place := place, pCurrent := c.offsetOf rest }

/-- What is returned at the label `error`. -/
def Machine.failed (m : Machine) (c : Context) (nResult : S_RESULT) : Read :=
  ⟨nResult, .null, { c with nLine := m.nLine }⟩

private theorem offsetOf_nil : c.offsetOf [] = c.pEnd := rfl

theorem offsetOf_lt (h : x :: rest <:+ c.pManifestContent) : c.offsetOf (x :: rest) < c.pEnd := by
  have hlength := h.length_le
  rw [length_cons] at hlength
  rw [Context.offsetOf, Context.pEnd, length_cons]
  omega

theorem offsetOf_succ (h : x :: rest <:+ c.pManifestContent) :
    c.offsetOf (x :: rest) + 1 = c.offsetOf rest := by
  have hlength := h.length_le
  rw [length_cons] at hlength
  rw [Context.offsetOf, Context.offsetOf, length_cons]
  omega

theorem at_offsetOf (h : x :: rest <:+ c.pManifestContent) :
    c.at (c.offsetOf (x :: rest)) = some x := by
  have hdrop := drop_offsetOf h
  rw [Context.at, ← head?_drop, hdrop]
  rfl

private theorem suffix_of_cons (h : x :: rest <:+ c.pManifestContent) :
    rest <:+ c.pManifestContent :=
  (suffix_cons x rest).trans h

/-! ### The bytes before an item -/

theorem comment_spec (h : rest <:+ c.pManifestContent) : match skipComment rest with
    | some left => Reaches (turn c) (m.stand c .comment rest) (m.stand c .lines left)
    | none => Returns (turn c) (m.stand c .comment rest) (m.failed c .S_ERROR_BAD_FORMAT) := by
  induction rest with
  | nil =>
    refine Reaches.single ?_
    simp [Goes, turn, stepComment, Machine.stand, Machine.goto, offsetOf_nil]
  | cons x rest ih =>
    have hturn : turn c (m.stand c .comment (x :: rest)) =
        if isLineEnd x then some (.inl (m.stand c .lines (x :: rest)))
        else if x = 0 then some (.inr (m.failed c .S_ERROR_BAD_FORMAT))
        else some (.inl (m.stand c .comment rest)) := by
      simp [turn, stepComment, Machine.stand, Machine.goto, Machine.error, Machine.failed,
        offsetOf_lt h, at_offsetOf h, offsetOf_succ h]
    rw [skipComment]
    by_cases hend : isLineEnd x
    · rw [if_pos hend] at hturn ⊢
      exact Reaches.single hturn
    rw [if_neg hend] at hturn ⊢
    by_cases hzero : x = 0
    · rw [if_pos hzero] at hturn ⊢
      exact Returns.last hturn
    · rw [if_neg hzero] at hturn ⊢
      have hrest := ih (suffix_of_cons h)
      cases hskip : skipComment rest with
      | some left =>
        rw [hskip] at hrest
        exact Reaches.head hturn hrest
      | none =>
        rw [hskip] at hrest
        exact Returns.head hturn hrest

theorem blankLine_spec (h : rest <:+ c.pManifestContent) : match skipBlankLine rest with
    | some left => Reaches (turn c) (m.stand c .blankLine rest) (m.stand c .lines left)
    | none => Returns (turn c) (m.stand c .blankLine rest) (m.failed c .S_ERROR_BAD_FORMAT) := by
  induction rest with
  | nil =>
    refine Reaches.single ?_
    simp [Goes, turn, stepBlankLine, Machine.stand, Machine.goto, offsetOf_nil]
  | cons x rest ih =>
    have hturn : turn c (m.stand c .blankLine (x :: rest)) =
        if isLineEnd x then some (.inl (m.stand c .lines (x :: rest)))
        else if isBlank x then some (.inl (m.stand c .blankLine rest))
        else some (.inr (m.failed c .S_ERROR_BAD_FORMAT)) := by
      by_cases hblank : isBlank x = true <;>
        simp [turn, stepBlankLine, Machine.stand, Machine.goto, Machine.error, Machine.failed,
          offsetOf_lt h, at_offsetOf h, offsetOf_succ h, hblank]
    rw [skipBlankLine]
    by_cases hend : isLineEnd x
    · rw [if_pos hend] at hturn ⊢
      exact Reaches.single hturn
    rw [if_neg hend] at hturn ⊢
    by_cases hblank : isBlank x
    · rw [if_pos hblank] at hturn ⊢
      have hrest := ih (suffix_of_cons h)
      cases hskip : skipBlankLine rest with
      | some left =>
        rw [hskip] at hrest
        exact Reaches.head hturn hrest
      | none =>
        rw [hskip] at hrest
        exact Returns.head hturn hrest
    · rw [if_neg hblank] at hturn ⊢
      exact Returns.last hturn

private theorem pastLineFeed_eq (h : rest <:+ c.pManifestContent) :
    c.pastLineFeed (c.offsetOf rest) = some (c.offsetOf (skipLineFeed rest)) := by
  cases rest with
  | nil => simp [Context.pastLineFeed, offsetOf_nil, skipLineFeed]
  | cons x rest =>
    rw [Context.pastLineFeed, if_pos (offsetOf_lt h), at_offsetOf h, skipLineFeed]
    by_cases hx : x = CHAR_LF
    · rw [if_pos hx, ← offsetOf_succ h]
      exact congrArg some (if_pos hx)
    · rw [if_neg hx]
      exact congrArg some (if_neg hx)

/-- The turn at the start of a line. -/
theorem turn_lines (h : x :: rest <:+ c.pManifestContent) :
    turn c (m.stand c .lines (x :: rest)) =
      if x = '#'.toUInt8 then some (.inl (m.stand c .comment rest))
      else if x = CHAR_CR then
        some (.inl (Machine.stand { m with nLine := m.nLine + 1 } c .lines (skipLineFeed rest)))
      else if x = CHAR_LF then
        some (.inl (Machine.stand { m with nLine := m.nLine + 1 } c .lines rest))
      else if isBlank x then some (.inl (m.stand c .blankLine rest))
      else some (.inl (m.stand c .item (x :: rest))) := by
  simp [turn, stepLines, Machine.stand, Machine.goto, offsetOf_lt h, at_offsetOf h,
    offsetOf_succ h, pastLineFeed_eq (suffix_of_cons h)]

theorem turn_lines_nil : turn c (m.stand c .lines []) = some (.inl (m.stand c .item [])) := by
  simp [turn, stepLines, Machine.stand, Machine.goto, offsetOf_nil]

/-- What the lines before an item come to: the item, or an error. -/
def LinesTo (c : Context) (m : Machine) (a : Machine) : Option (List UInt8) × Nat → Prop
  | (some left, lines) =>
    Reaches (turn c) a (Machine.stand { m with nLine := m.nLine + lines } c .item left)
  | (none, lines) => Returns (turn c) a
    (Machine.failed { m with nLine := m.nLine + lines } c .S_ERROR_BAD_FORMAT)

theorem LinesTo.of_reaches {a b : Machine} {found : Option (List UInt8) × Nat}
    (h : Reaches (turn c) a b) (hfound : LinesTo c m b found) : LinesTo c m a found := by
  obtain ⟨left, lines⟩ := found
  cases left with
  | none => exact h.returns hfound
  | some left => exact h.trans hfound

theorem LinesTo.succ {a : Machine} {found : Option (List UInt8) × Nat}
    (h : LinesTo c { m with nLine := m.nLine + 1 } a found) :
    LinesTo c m a (found.1, found.2 + 1) := by
  obtain ⟨left, lines⟩ := found
  have hline : m.nLine + (lines + 1) = m.nLine + 1 + lines := by omega
  cases left with
  | none =>
    rw [LinesTo, hline]
    exact h
  | some left =>
    rw [LinesTo, hline]
    exact h

/-- The turns between two items. -/
theorem lines_spec {turns : Nat} (h : rest <:+ c.pManifestContent) (hturns : rest.length ≤ turns) :
    LinesTo c m (m.stand c .lines rest) (skipLines turns rest) := by
  induction turns generalizing m rest with
  | zero =>
    obtain rfl := eq_nil_of_length_eq_zero (Nat.le_zero.mp hturns)
    exact Reaches.single turn_lines_nil
  | succ turns ih =>
    cases rest with
    | nil => exact Reaches.single turn_lines_nil
    | cons x rest =>
      have hrest := suffix_of_cons h
      have hlength : rest.length ≤ turns := Nat.le_of_succ_le_succ hturns
      have hturn := turn_lines (m := m) h
      rw [skipLines]
      by_cases hcomment : x = '#'.toUInt8
      · rw [if_pos hcomment] at hturn ⊢
        have hspec := comment_spec (m := m) hrest
        cases hskip : skipComment rest with
        | none =>
          rw [hskip] at hspec
          exact Returns.head hturn hspec
        | some left =>
          rw [hskip] at hspec
          have hleft := skipComment_suffix hskip
          exact (ih (hleft.trans hrest) (Nat.le_trans hleft.length_le hlength)).of_reaches
            (Reaches.head hturn hspec)
      rw [if_neg hcomment] at hturn ⊢
      by_cases hcr : x = CHAR_CR
      · rw [if_pos hcr] at hturn ⊢
        have hfeed := skipLineFeed_suffix rest
        exact (ih (hfeed.trans hrest) (Nat.le_trans hfeed.length_le hlength)).succ.of_reaches
          (Reaches.single hturn)
      rw [if_neg hcr] at hturn ⊢
      by_cases hlf : x = CHAR_LF
      · rw [if_pos hlf] at hturn ⊢
        exact (ih hrest hlength).succ.of_reaches (Reaches.single hturn)
      rw [if_neg hlf] at hturn ⊢
      by_cases hblank : isBlank x
      · rw [if_pos hblank] at hturn ⊢
        have hspec := blankLine_spec (m := m) hrest
        cases hskip : skipBlankLine rest with
        | none =>
          rw [hskip] at hspec
          exact Returns.head hturn hspec
        | some left =>
          rw [hskip] at hspec
          have hleft := skipBlankLine_suffix hskip
          exact (ih (hleft.trans hrest) (Nat.le_trans hleft.length_le hlength)).of_reaches
            (Reaches.head hturn hspec)
      · rw [if_neg hblank] at hturn ⊢
        exact Reaches.single hturn

/-! ### A section header -/

/-- The turns of a section's name. -/
theorem sectionName_spec (h : rest <:+ c.pManifestContent) : match scanSectionName rest with
    | some (n, left) => Reaches (turn c) (m.stand c .sectionName rest) (Machine.stand
        { m with nNameLength := c.offsetOf rest + n - m.pName } c .afterHeader left)
    | none => Returns (turn c) (m.stand c .sectionName rest)
        (m.failed c .S_ERROR_BAD_FORMAT) := by
  induction rest with
  | nil =>
    refine Returns.last ?_
    simp [turn, stepSectionName, Machine.stand, Machine.error, Machine.failed, offsetOf_nil]
  | cons x rest ih =>
    have hturn : turn c (m.stand c .sectionName (x :: rest)) =
        if x = ']'.toUInt8 then some (.inl (Machine.stand
          { m with nNameLength := c.offsetOf (x :: rest) - m.pName } c .afterHeader rest))
        else if static_checkCharacter x .CHARACTER_SECTION_NAME then
          some (.inl (m.stand c .sectionName rest))
        else some (.inr (m.failed c .S_ERROR_BAD_FORMAT)) := by
      by_cases hcheck : static_checkCharacter x .CHARACTER_SECTION_NAME = true <;>
        simp [turn, stepSectionName, Machine.stand, Machine.goto, Machine.error, Machine.failed,
          Nat.not_le.mpr (offsetOf_lt h), at_offsetOf h, offsetOf_succ h, hcheck]
    rw [scanSectionName]
    by_cases hend : x = ']'.toUInt8
    · rw [if_pos hend] at hturn ⊢
      exact Reaches.single hturn
    rw [if_neg hend] at hturn ⊢
    by_cases hcheck : static_checkCharacter x .CHARACTER_SECTION_NAME
    · rw [if_pos hcheck] at hturn ⊢
      have hrest := ih (suffix_of_cons h)
      cases hscan : scanSectionName rest with
      | none =>
        rw [hscan] at hrest
        exact Returns.head hturn hrest
      | some found =>
        obtain ⟨n, left⟩ := found
        rw [hscan] at hrest
        have hlength : c.offsetOf (x :: rest) + (n + 1) = c.offsetOf rest + n := by
          rw [← offsetOf_succ h]
          omega
        simp only [map_some, hlength]
        exact Reaches.head hturn hrest
    · rw [if_neg hcheck] at hturn ⊢
      exact Returns.last hturn

/-- Behind a section header the loop returns, or it stays where it is. -/
theorem afterHeader_spec (h : rest <:+ c.pManifestContent) : match skipAfterHeader rest with
    | some left => Returns (turn c) (m.stand c .afterHeader rest)
        ⟨.S_SUCCESS, ⟨m.pName, m.nNameLength, none, 0⟩, { c with
          nOffset := c.offsetOf left
          nLine := m.nLine
          nSectionStartOffset := c.offsetOf left }⟩
    | none => ∃ b, Reaches (turn c) (m.stand c .afterHeader rest) b ∧ Goes (turn c) b b := by
  induction rest with
  | nil =>
    refine Returns.last ?_
    simp [turn, stepAfterHeader, Machine.stand, Machine.endHeader, offsetOf_nil]
  | cons x rest ih =>
    have hturn : turn c (m.stand c .afterHeader (x :: rest)) =
        if isBlank x then some (.inl (m.stand c .afterHeader rest))
        else if isLineEnd x then some (.inr ⟨.S_SUCCESS, ⟨m.pName, m.nNameLength, none, 0⟩, { c with
          nOffset := c.offsetOf (x :: rest)
          nLine := m.nLine
          nSectionStartOffset := c.offsetOf (x :: rest) }⟩)
        else some (.inl (m.stand c .afterHeader (x :: rest))) := by
      simp [turn, stepAfterHeader, Machine.stand, Machine.goto, Machine.endHeader,
        offsetOf_lt h, at_offsetOf h, offsetOf_succ h]
    rw [skipAfterHeader]
    by_cases hblank : isBlank x
    · rw [if_pos hblank] at hturn ⊢
      have hrest := ih (suffix_of_cons h)
      cases hskip : skipAfterHeader rest with
      | none =>
        rw [hskip] at hrest
        obtain ⟨b, hb, hself⟩ := hrest
        exact ⟨b, Reaches.head hturn hb, hself⟩
      | some left =>
        rw [hskip] at hrest
        exact Returns.head hturn hrest
    rw [if_neg hblank] at hturn ⊢
    by_cases hend : isLineEnd x
    · rw [if_pos hend] at hturn ⊢
      exact Returns.last hturn
    · rw [if_neg hend] at hturn ⊢
      exact ⟨_, Reaches.refl, hturn⟩

/-! ### A property -/

/-- The turns of a property's name. -/
theorem name_spec (pLast : Nat) (h : rest <:+ c.pManifestContent) :
    match scanName (c.nType = .COMPILED) (c.offsetOf rest) pLast rest with
    | some (nameEnd, left) => ∃ last, Reaches (turn c)
        (Machine.stand { m with pLastNonWhitespaceChar := pLast } c .name rest)
        (Machine.stand { m with
          pLastNonWhitespaceChar := last
          nNameLength := nameEnd - m.pName } c .colon left)
    | none => Returns (turn c)
        (Machine.stand { m with pLastNonWhitespaceChar := pLast } c .name rest)
        (m.failed c .S_ERROR_BAD_FORMAT) := by
  induction rest generalizing pLast with
  | nil =>
    refine Returns.last ?_
    simp [turn, stepName, Machine.stand, Machine.error, Machine.failed, offsetOf_nil]
  | cons x rest ih =>
    have hturn : turn c (Machine.stand { m with pLastNonWhitespaceChar := pLast } c .name
        (x :: rest)) =
        if x = ':'.toUInt8 then some (.inl (Machine.stand { m with
          pLastNonWhitespaceChar := pLast
          nNameLength := pLast - m.pName } c .colon rest))
        else if !decide (c.nType = .COMPILED) && isBlank x then
          some (.inl (Machine.stand { m with pLastNonWhitespaceChar := pLast } c .name rest))
        else if !static_checkCharacter x .CHARACTER_NAME_SUBSEQUENT then
          some (.inr (m.failed c .S_ERROR_BAD_FORMAT))
        else if !decide (c.nType = .COMPILED) && c.offsetOf (x :: rest) ≠ pLast then
          some (.inr (m.failed c .S_ERROR_BAD_FORMAT))
        else some (.inl (Machine.stand { m with
          pLastNonWhitespaceChar := c.offsetOf rest } c .name rest)) := by
      simp [turn, stepName, Machine.stand, Machine.goto, Machine.error, Machine.failed,
        Nat.ne_of_lt (offsetOf_lt h), at_offsetOf h, offsetOf_succ h]
    have hrest := suffix_of_cons h
    rw [scanName]
    by_cases hcolon : x = ':'.toUInt8
    · rw [if_pos hcolon] at hturn ⊢
      exact ⟨pLast, Reaches.single hturn⟩
    rw [if_neg hcolon] at hturn ⊢
    by_cases hblank : (!decide (c.nType = .COMPILED) && isBlank x)
    · rw [if_pos hblank] at hturn ⊢
      rw [offsetOf_succ h]
      have hspec := ih pLast hrest
      split at hspec
      · obtain ⟨last, hreaches⟩ := hspec
        exact ⟨last, Reaches.head hturn hreaches⟩
      · exact Returns.head hturn hspec
    rw [if_neg hblank] at hturn ⊢
    by_cases hcheck : (!static_checkCharacter x .CHARACTER_NAME_SUBSEQUENT)
    · rw [if_pos hcheck] at hturn ⊢
      exact Returns.last hturn
    rw [if_neg hcheck] at hturn ⊢
    by_cases hspace : (!decide (c.nType = .COMPILED) && c.offsetOf (x :: rest) ≠ pLast)
    · rw [if_pos hspace] at hturn ⊢
      exact Returns.last hturn
    · rw [if_neg hspace] at hturn ⊢
      rw [offsetOf_succ h]
      have hspec := ih (c.offsetOf rest) hrest
      split at hspec
      · obtain ⟨last, hreaches⟩ := hspec
        exact ⟨last, Reaches.head hturn hreaches⟩
      · exact Returns.head hturn hspec

/-- The machine in the middle of a value. -/
def Machine.inValue (m : Machine) (c : Context) (last count char : Nat) (rest : List UInt8) :
    Machine :=
  Machine.stand { m with
    pLastNonWhitespaceChar := last
    nCurrentSequenceCount := count
    nCurrentChar := char } c .value rest

theorem colon_spec (h : rest <:+ c.pManifestContent) :
    Reaches (turn c) (m.stand c .colon rest)
      (Machine.inValue { m with pValue := c.offsetOf (rest.dropWhile isBlank) } c
        (c.offsetOf (rest.dropWhile isBlank) - 1) 0 0 (rest.dropWhile isBlank)) := by
  induction rest with
  | nil =>
    refine Reaches.single ?_
    simp [Goes, turn, stepColon, Machine.startValue, Machine.stand, Machine.goto, Machine.inValue,
      offsetOf_nil]
  | cons x rest ih =>
    by_cases hblank : isBlank x
    · rw [dropWhile_cons_of_pos hblank]
      refine Reaches.head ?_ (ih (suffix_of_cons h))
      simp [Goes, turn, stepColon, Machine.stand, Machine.goto, offsetOf_lt h, at_offsetOf h,
        offsetOf_succ h, hblank]
    · rw [dropWhile_cons_of_neg hblank]
      refine Reaches.single ?_
      simp [Goes, turn, stepColon, Machine.startValue, Machine.stand, Machine.goto,
        Machine.inValue, offsetOf_lt h, at_offsetOf h, hblank]

/-- The success of a property. -/
def Machine.succeeded (m : Machine) (c : Context) (pEnd last lines : Nat) : Read :=
  ⟨.S_SUCCESS, ⟨m.pName, m.nNameLength, some m.pValue, last + 1 - m.pValue⟩,
    { c with nOffset := pEnd, nLine := m.nLine + lines }⟩

theorem turn_value (last count char : Nat) (h : x :: rest <:+ c.pManifestContent) :
    turn c (m.inValue c last count char (x :: rest)) =
      match sequenceStep x.toNat count char with
      | none => some (.inr (m.failed c .S_ERROR_BAD_FORMAT))
      | some (count, char) =>
        if count = 0 ∧ illegalCodePoint char then some (.inr (m.failed c .S_ERROR_BAD_FORMAT))
        else if count = 0 ∧ x = CHAR_CR then
          if c.nType = .COMPILED then
            some (.inr (m.succeeded c (c.offsetOf (skipLineFeed rest)) last 1))
          else some (.inr (m.succeeded c (c.offsetOf (x :: rest)) last 0))
        else if count = 0 ∧ x = CHAR_LF then
          if c.nType = .COMPILED then some (.inr (m.succeeded c (c.offsetOf rest) last 1))
          else some (.inr (m.succeeded c (c.offsetOf (x :: rest)) last 0))
        else some (.inl (m.inValue c (if isBlank x then last else c.offsetOf (x :: rest)) count char
          rest)) := by
  cases hnext : sequenceStep x.toNat count char <;>
    simp only [turn, stepValue, Machine.inValue, Machine.stand, Machine.goto, Machine.error,
      Machine.failed, Machine.endValue, Machine.succeeded, if_pos (offsetOf_lt h), at_offsetOf h,
      offsetOf_succ h, pastLineFeed_eq (suffix_of_cons h), bind_eq_bind, bind_some,
      Nat.add_zero, hnext]

/-- The turns of a value. -/
theorem value_spec {last count char : Nat} (h : rest <:+ c.pManifestContent) :
    Returns (turn c) (m.inValue c last count char rest)
      (match scanValue (c.nType = .COMPILED) (c.offsetOf rest) last count char rest with
      | some (pEnd, last, lines) => m.succeeded c pEnd last lines
      | none => m.failed c .S_ERROR_BAD_FORMAT) := by
  induction rest generalizing last count char with
  | nil =>
    refine Returns.last ?_
    by_cases hcount : count = 0 <;>
      simp [turn, stepValue, Machine.inValue, Machine.stand, Machine.error, Machine.endValue,
        Machine.failed, Machine.succeeded, offsetOf_nil, scanValue, hcount]
  | cons x rest ih =>
    have hturn := turn_value (m := m) last count char h
    have hfeed : c.offsetOf (x :: rest) + 1 + (rest.length - (skipLineFeed rest).length) =
        c.offsetOf (skipLineFeed rest) := by
      have hlength := (suffix_of_cons h).length_le
      have hlength' := (skipLineFeed_suffix rest).length_le
      rw [offsetOf_succ h, Context.offsetOf, Context.offsetOf]
      omega
    rw [scanValue]
    cases hstep : sequenceStep x.toNat count char with
    | none =>
      rw [hstep] at hturn
      exact Returns.last hturn
    | some found =>
      obtain ⟨count', char'⟩ := found
      rw [hstep] at hturn
      dsimp only at hturn ⊢
      by_cases hill : count' = 0 ∧ illegalCodePoint char' = true
      · rw [if_pos hill] at hturn ⊢
        exact Returns.last hturn
      rw [if_neg hill] at hturn ⊢
      by_cases hcr : count' = 0 ∧ x = CHAR_CR
      · rw [if_pos hcr] at hturn ⊢
        by_cases htype : c.nType = .COMPILED
        · rw [if_pos htype] at hturn
          simp only [htype, decide_true, if_true, hfeed]
          exact Returns.last hturn
        · rw [if_neg htype] at hturn
          simp only [htype, decide_false, Bool.false_eq_true, if_false]
          exact Returns.last hturn
      rw [if_neg hcr] at hturn ⊢
      by_cases hlf : count' = 0 ∧ x = CHAR_LF
      · rw [if_pos hlf] at hturn ⊢
        by_cases htype : c.nType = .COMPILED
        · rw [if_pos htype] at hturn
          simp only [htype, decide_true, if_true, offsetOf_succ h]
          exact Returns.last hturn
        · rw [if_neg htype] at hturn
          simp only [htype, decide_false, Bool.false_eq_true, if_false]
          exact Returns.last hturn
      · rw [if_neg hlf] at hturn ⊢
        rw [offsetOf_succ h]
        exact Returns.head hturn (ih (suffix_of_cons h))

/-! ### An item -/

/-- The machine does what a call of the tokenizer is said to do: it returns, or it stays for ever
where it comes to. -/
def Outcome (c : Context) (a : Machine) : Option Read → Prop
  | some r => Returns (turn c) a r
  | none => ∃ b, Reaches (turn c) a b ∧ Goes (turn c) b b

theorem Outcome.of_reaches {a b : Machine} {found : Option Read} (h : Reaches (turn c) a b)
    (hfound : Outcome c b found) : Outcome c a found := by
  cases found with
  | some r => exact h.returns hfound
  | none =>
    obtain ⟨d, hd, hself⟩ := hfound
    exact ⟨d, h.trans hd, hself⟩

/-- The turns of a property. -/
theorem property_spec (h : x :: rest <:+ c.pManifestContent) {a : Machine}
    (ha : turn c a = stepProperty c (m.stand c .item (x :: rest)) x) :
    Outcome c a (readProperty { c with nLine := m.nLine } x rest) := by
  have hrest := suffix_of_cons h
  have hoffset : ∀ left, Context.offsetOf { c with nLine := m.nLine } left = c.offsetOf left :=
    fun _ => rfl
  rw [readProperty]
  simp only [hoffset]
  by_cases hfirst : static_checkCharacter x .CHARACTER_NAME_FIRST
  · have hgo : Goes (turn c) a (Machine.stand { m with
        pName := c.offsetOf (x :: rest)
        pLastNonWhitespaceChar := c.offsetOf rest } c .name rest) := by
      rw [Goes, ha]
      simp [stepProperty, hfirst, Machine.stand, Machine.goto, offsetOf_succ h]
    rw [if_pos hfirst]
    have hname := name_spec (m := { m with pName := c.offsetOf (x :: rest) }) (c.offsetOf rest)
      hrest
    rw [offsetOf_succ h]
    cases hscan : scanName (c.nType = .COMPILED) (c.offsetOf rest) (c.offsetOf rest) rest with
    | none =>
      rw [hscan] at hname
      exact Returns.head hgo hname
    | some found =>
      obtain ⟨nameEnd, afterColon⟩ := found
      rw [hscan] at hname
      obtain ⟨last, hcolon⟩ := hname
      have hafter := (scanName_suffix hscan).trans hrest
      have hvalue := (dropWhile_suffix (l := afterColon) isBlank).trans hafter
      have hreaches := (Reaches.head hgo hcolon).trans (colon_spec hafter)
      have hreturns := hreaches.returns (value_spec hvalue)
      dsimp only at hreturns ⊢
      split at hreturns
      · next heq =>
        rw [heq]
        exact hreturns
      · next heq =>
        rw [heq]
        exact hreturns
  · rw [if_neg hfirst]
    refine Returns.last (ha.trans ?_)
    simp [stepProperty, hfirst, Machine.stand, Machine.error]

/-- The turns of a section header. -/
theorem section_spec (h : rest <:+ c.pManifestContent) {a : Machine} (ha : Goes (turn c) a
    (Machine.stand { m with pName := c.offsetOf rest } c .sectionName rest)) :
    Outcome c a (readSection { c with nLine := m.nLine } rest) := by
  have hname := sectionName_spec (m := { m with pName := c.offsetOf rest }) h
  rw [readSection]
  cases hscan : scanSectionName rest with
  | none =>
    rw [hscan] at hname
    exact Returns.head ha hname
  | some found =>
    obtain ⟨n, afterName⟩ := found
    rw [hscan] at hname
    have hafter : afterName <:+ c.pManifestContent := by
      obtain ⟨name, rfl, -⟩ := scanSectionName_eq hscan
      exact ((suffix_cons _ _).trans (suffix_append name _)).trans h
    have hlength : c.offsetOf rest + n - c.offsetOf rest = n := by omega
    have hheader := afterHeader_spec (m := { m with
      pName := c.offsetOf rest
      nNameLength := n }) hafter
    dsimp only at hname
    rw [hlength] at hname
    dsimp only
    split at hheader
    · next heq =>
      rw [heq]
      exact Returns.head ha (hname.returns hheader)
    · next heq =>
      rw [heq]
      obtain ⟨b, hb, hself⟩ := hheader
      exact ⟨b, (Reaches.head ha hname).trans hb, hself⟩

/-- What is read where an item starts. -/
def readItem (c : Context) : List UInt8 → Option Read
  | [] => some ⟨.S_ERROR_ITEM_NOT_FOUND, .null, c⟩
  | x :: rest =>
    if c.nType = .SOURCE_WITH_SECTIONS then
      if x = '['.toUInt8 then readSection c rest
      else if c.nSectionStartOffset = 0 then c.badFormat
      else readProperty c x rest
    else readProperty c x rest

theorem internal_eq (c : Context) : static_libManifest2GetNextItemInternal c =
    match c.toItem with
    | (none, lines) => Context.badFormat { c with nLine := c.nLine + lines }
    | (some left, lines) => readItem { c with nLine := c.nLine + lines } left := by
  rw [static_libManifest2GetNextItemInternal]
  obtain ⟨left, lines⟩ := c.toItem
  cases left with
  | none => rfl
  | some left => cases left <;> rfl

/-- The turns of an item. -/
theorem item_spec (h : rest <:+ c.pManifestContent) :
    Outcome c (m.stand c .item rest) (readItem { c with nLine := m.nLine } rest) := by
  cases rest with
  | nil =>
    refine Returns.last ?_
    simp [turn, stepItem, Machine.stand, Machine.error, offsetOf_nil]
  | cons x rest =>
    have hturn : turn c (m.stand c .item (x :: rest)) =
        if c.nType = .SOURCE_WITH_SECTIONS then
          if x = '['.toUInt8 then some (.inl
            (Machine.stand { m with pName := c.offsetOf rest } c .sectionName rest))
          else if c.nSectionStartOffset = 0 then some (.inr (m.failed c .S_ERROR_BAD_FORMAT))
          else stepProperty c (m.stand c .item (x :: rest)) x
        else stepProperty c (m.stand c .item (x :: rest)) x := by
      simp [turn, stepItem, Machine.stand, Machine.goto, Machine.error, Machine.failed,
        Nat.not_le.mpr (offsetOf_lt h), at_offsetOf h, offsetOf_succ h]
    rw [readItem]
    by_cases htype : c.nType = .SOURCE_WITH_SECTIONS
    · rw [if_pos htype] at hturn ⊢
      by_cases hbracket : x = '['.toUInt8
      · rw [if_pos hbracket] at hturn ⊢
        exact section_spec (suffix_of_cons h) hturn
      rw [if_neg hbracket] at hturn ⊢
      by_cases hsection : c.nSectionStartOffset = 0
      · rw [if_pos hsection] at hturn ⊢
        exact Returns.last hturn
      · rw [if_neg hsection] at hturn ⊢
        exact property_spec h hturn
    · rw [if_neg htype] at hturn ⊢
      exact property_spec h hturn

/-! ### A call -/

theorem item_past_end (hplace : m.place = .item) (h : c.pEnd ≤ m.pCurrent) :
    Returns (turn c) m (m.failed c .S_ERROR_ITEM_NOT_FOUND) := by
  refine Returns.last ?_
  rw [turn, hplace]
  exact if_pos h

theorem lines_past_end (hplace : m.place = .lines) (h : c.pEnd ≤ m.pCurrent) :
    Returns (turn c) m (m.failed c .S_ERROR_ITEM_NOT_FOUND) := by
  have hgo : Goes (turn c) m { m with place := .item } := by
    rw [Goes, turn, hplace]
    exact if_neg (Nat.not_lt.mpr h)
  have hitem : Returns (turn c) { m with place := .item } _ := item_past_end rfl h
  exact Returns.head hgo hitem

private theorem offsetOf_drop {n : Nat} (h : n ≤ c.pEnd) :
    c.offsetOf (c.pManifestContent.drop n) = n := by
  rw [Context.offsetOf, length_drop]
  rw [Context.pEnd] at h
  omega

/-- The byte order mark is three bytes of the content. -/
theorem bom_iff (h : 3 ≤ c.pEnd) : ∃ x y z, (c.at 0 = some x ∧ c.at 1 = some y ∧ c.at 2 = some z) ∧
    ([0xEF, 0xBB, 0xBF].isPrefixOf c.pManifestContent ↔ x = 0xEF ∧ y = 0xBB ∧ z = 0xBF) := by
  rw [Context.pEnd] at h
  match hcontent : c.pManifestContent, h with
  | x :: y :: z :: tail, _ =>
    refine ⟨x, y, z, ?_, ?_⟩
    · simp [Context.at, hcontent]
    · rw [ isPrefixOf_iff_prefix, cons_prefix_cons, cons_prefix_cons,
        cons_prefix_cons, and_iff_left nil_prefix]
      simp only [eq_comm]

/-- Behind the byte order mark, if the type looks for one. -/
theorem entry_lines (htype : c.nType ≠ .COMPILED) (h : c.nOffset ≤ c.pEnd) :
    Goes (turn c) c.entry (c.entry.stand c .lines c.afterBom) := by
  have hrest : c.offsetOf c.rest = c.nOffset := offsetOf_drop h
  rw [Goes, turn, Context.entry]
  rw [stepEntry, if_neg htype, Context.afterBom]
  by_cases hboth : c.nOffset = 0 ∧ 3 ≤ c.pEnd
  · have hall : c.rest = c.pManifestContent := by rw [Context.rest, hboth.1, drop_zero]
    obtain ⟨x, y, z, ⟨hx, hy, hz⟩, hbom⟩ := bom_iff hboth.2
    rw [if_pos hboth, hall]
    simp only [hx, hy, hz, bind_eq_bind, bind_some, Machine.goto, Machine.stand]
    by_cases hmark : x = 0xEF ∧ y = 0xBB ∧ z = 0xBF
    · rw [if_pos hmark, if_pos ⟨hboth.1, hbom.mpr hmark⟩, offsetOf_drop hboth.2]
    · rw [if_neg hmark, if_neg fun hprefix => hmark (hbom.mp hprefix.2), ← hall, hrest, hboth.1]
  · have hno : ¬ (c.nOffset = 0 ∧ [0xEF, 0xBB, 0xBF].isPrefixOf c.rest) := by
      rintro ⟨hzero, hprefix⟩
      have hlength := ( isPrefixOf_iff_prefix.mp hprefix).length_le
      rw [length_rest, hzero] at hlength
      exact hboth ⟨hzero, hlength⟩
    rw [if_neg hboth, if_neg hno, Machine.stand, hrest]
    rfl

theorem afterBom_suffix (c : Context) : c.afterBom <:+ c.pManifestContent := by
  rw [Context.afterBom]
  split
  · exact (drop_suffix 3 c.rest).trans (rest_suffix c)
  · exact rest_suffix c

/-- An offset behind the content is the end of the file. -/
theorem internal_past_end (h : c.pEnd < c.nOffset) :
    static_libManifest2GetNextItemInternal c = some (c.entry.failed c .S_ERROR_ITEM_NOT_FOUND) := by
  have hrest : c.rest = [] := drop_eq_nil_of_le (Nat.le_of_lt h)
  have hbom : c.afterBom = [] := by
    rw [Context.afterBom, if_neg fun hboth => absurd hboth.1 (Nat.ne_of_gt (Nat.zero_lt_of_lt h)),
      hrest]
  have hitem : c.toItem = (some [], 0) := by
    rw [Context.toItem, hrest, hbom]
    split <;> rfl
  rw [internal_eq, hitem]
  rfl

/-- The machine does what the tokenizer is said to do. -/
theorem entry_spec (c : Context) :
    Outcome c c.entry (static_libManifest2GetNextItemInternal c) := by
  rcases Nat.lt_or_ge c.pEnd c.nOffset with hpast | hin
  · rw [internal_past_end hpast]
    by_cases htype : c.nType = .COMPILED
    · have hgo : Goes (turn c) c.entry { c.entry with place := .item } := if_pos htype
      have hitem : Returns (turn c) { c.entry with place := .item } _ :=
        item_past_end rfl (Nat.le_of_lt hpast)
      exact Returns.head hgo hitem
    · have hgo : Goes (turn c) c.entry { c.entry with place := .lines } := by
        refine (if_neg htype).trans (if_neg fun hboth => ?_)
        exact absurd hboth.1 (Nat.ne_of_gt (Nat.zero_lt_of_lt hpast))
      have hlines : Returns (turn c) { c.entry with place := .lines } _ :=
        lines_past_end rfl (Nat.le_of_lt hpast)
      exact Returns.head hgo hlines
  · have hrest : c.offsetOf c.rest = c.nOffset := offsetOf_drop hin
    rw [internal_eq, Context.toItem]
    by_cases htype : c.nType = .COMPILED
    · rw [if_pos htype]
      have hgo : Goes (turn c) c.entry (c.entry.stand c .item c.rest) := by
        refine (if_pos htype).trans ?_
        rw [Machine.stand, hrest]
        rfl
      exact (item_spec (m := c.entry) (rest_suffix c)).of_reaches (Reaches.single hgo)
    · rw [if_neg htype]
      have hlines := lines_spec (m := c.entry) (afterBom_suffix c) (Nat.le_refl _)
      have hskip : ∀ left, (skipLines c.afterBom.length c.afterBom).1 = some left →
          left <:+ c.afterBom := fun _ => skipLines_suffix
      have hgo := entry_lines htype hin
      generalize skipLines c.afterBom.length c.afterBom = found at hlines hskip
      obtain ⟨left, lines⟩ := found
      cases left with
      | none => exact Returns.head hgo hlines
      | some left =>
        have hleft := (hskip left rfl).trans (afterBom_suffix c)
        exact (item_spec hleft).of_reaches (Reaches.head hgo hlines)

end OmapHal.Manifest
