import OmapHal.Manifest.Termination

/-!
# Calls that do not return

The tokenizer stays for ever behind a section header that other characters follow on its line, and
there only.
-/

namespace OmapHal.Manifest

open List Nat Option

open OmapHal.Core (Goes Reaches Returns Safe)

variable {e : UInt8}

variable {c : Context} {rest left l : List UInt8} {x : UInt8} {turns n : Nat}

/-- A line in front of an item: white space, or a comment. -/
def Ignored (line : List UInt8) : Prop :=
  ∃ text e, line = text ++ [e] ∧ isLineEnd e = true ∧
    ((∀ y ∈ text, isBlank y = true) ∨
      ∃ comment, text = '#'.toUInt8 :: comment ∧ ∀ y ∈ comment, isLineEnd y = false ∧ y ≠ 0)

/-- Other characters stand behind the section header that is the next item. -/
def Stalls (c : Context) : Prop :=
  c.nType = .SOURCE_WITH_SECTIONS ∧ ∃ lines name blanks x more,
    c.afterBom = List.flatten lines ++
      '['.toUInt8 :: (name ++ ']'.toUInt8 :: (blanks ++ x :: more)) ∧
    (∀ line ∈ lines, Ignored line) ∧
    (∀ y ∈ name, static_checkCharacter y .CHARACTER_SECTION_NAME = true) ∧
    (∀ y ∈ blanks, isBlank y = true) ∧ isBlank x = false ∧ isLineEnd x = false

/-! ### The section header -/

theorem scanSectionName_append {name : List UInt8}
    (h : ∀ y ∈ name, static_checkCharacter y .CHARACTER_SECTION_NAME) :
    scanSectionName (name ++ ']'.toUInt8 :: left) = some (name.length, left) := by
  induction name with
  | nil => exact if_pos rfl
  | cons y name ih =>
    have hy := h y List.mem_cons_self
    have hbracket : y ≠ ']'.toUInt8 := by
      rintro rfl
      revert hy
      decide
    rw [List.cons_append, scanSectionName, if_neg hbracket, if_pos hy,
      ih fun z hz => h z (List.mem_cons_of_mem y hz)]
    rfl

/-- What stalls the skipping behind a header. -/
theorem skipAfterHeader_eq_none_iff : skipAfterHeader rest = none ↔ ∃ blanks x more,
    rest = blanks ++ x :: more ∧ (∀ y ∈ blanks, isBlank y) ∧
      isBlank x = false ∧ isLineEnd x = false := by
  induction rest with
  | nil =>
    refine iff_of_false (by simp [skipAfterHeader]) ?_
    rintro ⟨blanks, x, more, heq, -⟩
    exact absurd heq (by simp)
  | cons y rest ih =>
    rw [skipAfterHeader]
    by_cases hblank : isBlank y
    · rw [if_pos hblank, ih]
      constructor
      · rintro ⟨blanks, x, more, rfl, hall, hx⟩
        refine ⟨y :: blanks, x, more, rfl, fun z hz => ?_, hx⟩
        rcases mem_cons.mp hz with rfl | hz
        · exact hblank
        · exact hall z hz
      · rintro ⟨blanks, x, more, heq, hall, hx, hx'⟩
        cases blanks with
        | nil =>
          obtain ⟨rfl, rfl⟩ := cons.inj heq
          exact absurd hblank (by simp [hx])
        | cons z blanks =>
          obtain ⟨rfl, rfl⟩ := cons.inj heq
          exact ⟨blanks, x, more, rfl, fun w hw => hall w (mem_cons_of_mem _ hw), hx, hx'⟩
    · rw [if_neg hblank]
      have hblank' := Bool.eq_false_iff.mpr hblank
      by_cases hend : isLineEnd y
      · rw [if_pos hend]
        refine iff_of_false (by simp) ?_
        rintro ⟨blanks, x, more, heq, hall, -, hx⟩
        cases blanks with
        | nil =>
          obtain ⟨rfl, rfl⟩ := cons.inj heq
          exact absurd hend (by simp [hx])
        | cons z blanks =>
          obtain ⟨rfl, rfl⟩ := cons.inj heq
          exact hblank (hall y mem_cons_self)
      · rw [if_neg hend]
        exact iff_of_true rfl
          ⟨[], y, rest, rfl, forall_mem_nil _, hblank', Bool.eq_false_iff.mpr hend⟩

/-! ### The lines before it -/

/-- Ignored lines stand in front of the bytes `l`. -/
def LinesBefore (l rest : List UInt8) : Prop :=
  ∃ lines : List (List UInt8), (∀ line ∈ lines, Ignored line) ∧ rest = lines.flatten ++ l

/-- A first byte that no line in front of an item starts with. -/
def Ordinary (x : UInt8) : Prop := x ≠ '#'.toUInt8 ∧ isLineEnd x = false ∧ isBlank x = false

private theorem not_blank_of_end (h : isLineEnd x) : isBlank x = false := by
  rcases isLineEnd_iff.mp h with rfl | rfl <;> rfl

private theorem ne_hash_of_end (h : isLineEnd x) : x ≠ '#'.toUInt8 := by
  rcases isLineEnd_iff.mp h with rfl | rfl <;> decide

/-- What may stand on an ignored line. -/
def IgnoredText (text : List UInt8) : Prop :=
  (∀ y ∈ text, isBlank y = true) ∨
    ∃ comment, text = '#'.toUInt8 :: comment ∧ ∀ y ∈ comment, isLineEnd y = false ∧ y ≠ 0

theorem ignoredText_start {text : List UInt8} {y : UInt8} (h : IgnoredText (y :: text)) :
    isLineEnd y = false := by
  refine Bool.eq_false_iff.mpr fun hend => ?_
  rcases h with hall | ⟨comment, heq, -⟩
  · exact absurd (hall y mem_cons_self) (by simp [not_blank_of_end hend])
  · exact ne_hash_of_end hend (cons.inj heq).1

theorem LinesBefore.line {text : List UInt8} (h : LinesBefore l rest)
    (htext : IgnoredText text) (he : isLineEnd e) :
    LinesBefore l (text ++ e :: rest) := by
  obtain ⟨lines, hall, rfl⟩ := h
  refine ⟨(text ++ [e]) :: lines, fun line hline => ?_, by simp⟩
  rcases mem_cons.mp hline with rfl | hline
  · exact ⟨text, e, rfl, he, htext⟩
  · exact hall line hline

theorem LinesBefore.lineEnd (h : LinesBefore l rest) (he : isLineEnd e) :
    LinesBefore l (e :: rest) := by
  have htext : IgnoredText [] := .inl nofun
  exact h.line htext he

/-- A line that starts with its end has nothing else. -/
theorem LinesBefore.tail (h : LinesBefore (x :: l) (e :: rest))
    (he : isLineEnd e) (hx : Ordinary x) : LinesBefore (x :: l) rest := by
  obtain ⟨lines, hall, heq⟩ := h
  cases lines with
  | nil =>
    obtain ⟨rfl, -⟩ := cons.inj heq
    exact absurd he (by simp [hx.2.1])
  | cons line lines =>
    obtain ⟨text, e', rfl, he', htext⟩ := hall line mem_cons_self
    cases text with
    | nil =>
      refine ⟨lines, fun line hline => hall line (mem_cons_of_mem _ hline), ?_⟩
      simpa using (cons.inj heq).2
    | cons y text =>
      obtain ⟨rfl, -⟩ := cons.inj heq
      exact absurd he (by simp [ignoredText_start htext])

theorem skipComment_eq (h : skipComment rest = some left) :
    ∃ comment, rest = comment ++ left ∧ (∀ y ∈ comment, isLineEnd y = false ∧ y ≠ 0) ∧
      ∀ y ∈ left.head?, isLineEnd y = true := by
  induction rest with
  | nil =>
    obtain rfl := some.inj h
    exact ⟨[], rfl, nofun, nofun⟩
  | cons y rest ih =>
    rw [skipComment] at h
    split at h
    · next hend =>
      obtain rfl := some.inj h
      refine ⟨[], rfl, nofun, fun z hz => ?_⟩
      obtain rfl := some.inj hz
      exact hend
    · next hend =>
      split at h
      · cases h
      · next hzero =>
        obtain ⟨comment, rfl, hall, hleft⟩ := ih h
        refine ⟨y :: comment, rfl, fun z hz => ?_, hleft⟩
        rcases mem_cons.mp hz with rfl | hz
        · exact ⟨Bool.eq_false_iff.mpr hend, hzero⟩
        · exact hall z hz

theorem skipBlankLine_eq (h : skipBlankLine rest = some left) :
    ∃ blanks, rest = blanks ++ left ∧ (∀ y ∈ blanks, isBlank y) ∧
      ∀ y ∈ left.head?, isLineEnd y = true := by
  induction rest with
  | nil =>
    obtain rfl := some.inj h
    exact ⟨[], rfl, nofun, nofun⟩
  | cons y rest ih =>
    rw [skipBlankLine] at h
    split at h
    · next hend =>
      obtain rfl := some.inj h
      refine ⟨[], rfl, nofun, fun z hz => ?_⟩
      obtain rfl := some.inj hz
      exact hend
    · split at h
      · next hblank =>
        obtain ⟨blanks, rfl, hall, hleft⟩ := ih h
        refine ⟨y :: blanks, rfl, fun z hz => ?_, hleft⟩
        rcases mem_cons.mp hz with rfl | hz
        · exact hblank
        · exact hall z hz
      · cases h

/-- Text in front of ignored lines that start with the end of a line is on the first of them. -/
theorem LinesBefore.text {text : List UInt8} (h : LinesBefore (x :: l) left)
    (htext : IgnoredText text) (hx : Ordinary x) (hend : ∀ y ∈ left.head?, isLineEnd y) :
    LinesBefore (x :: l) (text ++ left) := by
  cases left with
  | nil =>
    obtain ⟨lines, -, heq⟩ := h
    exact absurd heq (by simp)
  | cons e left =>
    have he := hend e rfl
    exact (h.tail he hx).line htext he

/-- Only ignored lines are skipped. -/
theorem linesBefore_of_skipLines (h : (skipLines turns rest).1 = some (x :: l))
    (hturns : rest.length ≤ turns) : LinesBefore (x :: l) rest ∧ Ordinary x := by
  induction turns generalizing rest with
  | zero =>
    obtain rfl := eq_nil_of_length_eq_zero (le_zero.mp hturns)
    cases h
  | succ turns ih =>
    cases rest with
    | nil => cases h
    | cons y rest =>
      have hlength : rest.length ≤ turns := le_of_succ_le_succ hturns
      rw [skipLines] at h
      split at h
      · next hhash =>
        subst hhash
        cases hskip : skipComment rest with
        | none =>
          rw [hskip] at h
          cases h
        | some left =>
          rw [hskip] at h
          obtain ⟨comment, rfl, hall, hend⟩ := skipComment_eq hskip
          rw [length_append] at hlength
          obtain ⟨hlines, hx⟩ := ih h (Nat.le_trans (Nat.le_add_left ..) hlength)
          have htext : IgnoredText ('#'.toUInt8 :: comment) := .inr ⟨comment, rfl, hall⟩
          exact ⟨hlines.text htext hx hend, hx⟩
      next hhash =>
      split at h
      · next hcr =>
        subst hcr
        have hfeed := skipLineFeed_suffix rest
        obtain ⟨hlines, hx⟩ := ih h (Nat.le_trans hfeed.length_le hlength)
        refine ⟨LinesBefore.lineEnd ?_ rfl, hx⟩
        cases rest with
        | nil => exact hlines
        | cons z rest =>
          rw [skipLineFeed] at hlines
          split at hlines
          · next hlf =>
            subst hlf
            exact hlines.lineEnd rfl
          · exact hlines
      next hcr =>
      split at h
      · next hlf =>
        subst hlf
        obtain ⟨hlines, hx⟩ := ih h hlength
        exact ⟨hlines.lineEnd rfl, hx⟩
      next hlf =>
      split at h
      · next hblank =>
        cases hskip : skipBlankLine rest with
        | none =>
          rw [hskip] at h
          cases h
        | some left =>
          rw [hskip] at h
          obtain ⟨blanks, rfl, hall, hend⟩ := skipBlankLine_eq hskip
          rw [length_append] at hlength
          obtain ⟨hlines, hx⟩ := ih h (Nat.le_trans (Nat.le_add_left ..) hlength)
          have htext : IgnoredText (y :: blanks) := .inl fun z hz => by
            rcases mem_cons.mp hz with rfl | hz
            · exact hblank
            · exact hall z hz
          exact ⟨hlines.text htext hx hend, hx⟩
      · next hblank =>
        obtain ⟨rfl, rfl⟩ := cons.inj (some.inj h)
        refine ⟨⟨[], forall_mem_nil _, rfl⟩, hhash, ?_, Bool.eq_false_iff.mpr hblank⟩
        exact Bool.eq_false_iff.mpr fun hend => (isLineEnd_iff.mp hend).elim hcr hlf

/-- However many turns are left, the bytes `l` are what the lines before an item come to. -/
def SkipsTo (l rest : List UInt8) : Prop :=
  ∀ turns, rest.length ≤ turns → (skipLines turns rest).1 = some l

theorem SkipsTo.lineEnd (h : SkipsTo l rest) (he : isLineEnd e) :
    SkipsTo l (e :: rest) := by
  intro turns hturns
  obtain ⟨turns, rfl⟩ : ∃ n, turns = n + 1 :=
    Nat.exists_eq_succ_of_ne_zero (Nat.ne_of_gt (Nat.zero_lt_of_lt hturns))
  have hlength : rest.length ≤ turns := le_of_succ_le_succ hturns
  rw [skipLines, if_neg (ne_hash_of_end he)]
  rcases isLineEnd_iff.mp he with rfl | rfl
  · rw [if_pos rfl]
    change (skipLines turns (skipLineFeed rest)).1 = some l
    -- the line feed that may follow is a line of its own
    cases rest with
    | nil => exact h turns hlength
    | cons y rest =>
      by_cases hlf : y = CHAR_LF
      · have hnext := h (turns + 1) (le_succ_of_le hlength)
        rw [skipLines, hlf, if_neg (by decide), if_neg (by decide), if_pos rfl] at hnext
        rw [skipLineFeed, if_pos hlf]
        exact hnext
      · rw [skipLineFeed, if_neg hlf]
        exact h turns hlength
  · rw [if_neg (by decide), if_pos rfl]
    exact h turns hlength

private theorem skipComment_append {comment : List UInt8}
    (hall : ∀ y ∈ comment, isLineEnd y = false ∧ y ≠ 0) (he : isLineEnd e) :
    skipComment (comment ++ e :: rest) = some (e :: rest) := by
  induction comment with
  | nil => exact if_pos he
  | cons y comment ih =>
    obtain ⟨hy, hzero⟩ := hall y mem_cons_self
    rw [cons_append, skipComment, if_neg (by simp [hy]), if_neg hzero]
    exact ih fun z hz => hall z (mem_cons_of_mem y hz)

private theorem skipBlankLine_append {blanks : List UInt8}
    (hall : ∀ y ∈ blanks, isBlank y) (he : isLineEnd e) :
    skipBlankLine (blanks ++ e :: rest) = some (e :: rest) := by
  induction blanks with
  | nil => exact if_pos he
  | cons y blanks ih =>
    have hy := hall y mem_cons_self
    have hend : ¬ isLineEnd y := fun hend => by
      rw [not_blank_of_end hend] at hy
      cases hy
    rw [cons_append, skipBlankLine, if_neg hend, if_pos hy]
    exact ih fun z hz => hall z (mem_cons_of_mem y hz)

/-- An ignored line is skipped. -/
theorem SkipsTo.line {line : List UInt8} (h : SkipsTo l rest) (hline : Ignored line) :
    SkipsTo l (line ++ rest) := by
  obtain ⟨text, e, rfl, he, htext⟩ := hline
  rw [append_assoc, singleton_append]
  have hend := h.lineEnd he
  cases text with
  | nil => exact hend
  | cons y text =>
    intro turns hturns
    obtain ⟨turns, rfl⟩ : ∃ n, turns = n + 1 :=
      Nat.exists_eq_succ_of_ne_zero (Nat.ne_of_gt (Nat.zero_lt_of_lt hturns))
    have hlength : (e :: rest).length ≤ turns := by
      rw [cons_append, length_cons, length_append] at hturns
      omega
    rw [cons_append, skipLines]
    rcases htext with hall | ⟨comment, heq, hall⟩
    · have hy := hall y mem_cons_self
      have hskip : skipBlankLine (text ++ e :: rest) = some (e :: rest) :=
        skipBlankLine_append (fun z hz => hall z (mem_cons_of_mem y hz)) he
      have hkind : y ≠ '#'.toUInt8 ∧ y ≠ CHAR_CR ∧ y ≠ CHAR_LF := by
        rcases isBlank_iff.mp hy with rfl | rfl <;> decide
      rw [if_neg hkind.1, if_neg hkind.2.1, if_neg hkind.2.2, if_pos hy, hskip]
      exact hend turns hlength
    · obtain ⟨rfl, rfl⟩ := cons.inj heq
      rw [if_pos rfl, skipComment_append hall he]
      exact hend turns hlength

theorem skipsTo_iff (hx : Ordinary x) : SkipsTo (x :: l) rest ↔ LinesBefore (x :: l) rest := by
  constructor
  · intro h
    exact (linesBefore_of_skipLines (h rest.length (Nat.le_refl _)) (Nat.le_refl _)).1
  · rintro ⟨lines, hall, rfl⟩
    induction lines with
    | nil =>
      intro turns hturns
      obtain ⟨turns, rfl⟩ : ∃ n, turns = n + 1 :=
        Nat.exists_eq_succ_of_ne_zero (Nat.ne_of_gt (Nat.zero_lt_of_lt hturns))
      have hcr : x ≠ CHAR_CR := fun h => absurd (isLineEnd_iff.mpr (.inl h)) (by simp [hx.2.1])
      have hlf : x ≠ CHAR_LF := fun h => absurd (isLineEnd_iff.mpr (.inr h)) (by simp [hx.2.1])
      rw [flatten_nil, nil_append, skipLines, if_neg hx.1, if_neg hcr, if_neg hlf,
        if_neg (by simp [hx.2.2])]
    | cons line lines ih =>
      rw [flatten_cons, append_assoc]
      exact (ih fun y hy => hall y (mem_cons_of_mem line hy)).line
        (hall line mem_cons_self)

theorem toItem_eq_some_iff (htype : c.nType ≠ .COMPILED) (hx : Ordinary x) :
    c.toItem.1 = some (x :: l) ↔ LinesBefore (x :: l) c.afterBom := by
  rw [Context.toItem, if_neg htype]
  constructor
  · intro h
    exact (linesBefore_of_skipLines h (Nat.le_refl _)).1
  · intro h
    exact (skipsTo_iff hx).mpr h _ (Nat.le_refl _)

/-! ### A call -/

theorem readProperty_ne_none : readProperty c x rest ≠ none := by
  rw [readProperty]
  split
  · split
    · exact some_ne_none _
    · dsimp only
      split <;> exact some_ne_none _
  · exact some_ne_none _

theorem readSection_eq_none_iff : readSection c rest = none ↔
    ∃ n left, scanSectionName rest = some (n, left) ∧ skipAfterHeader left = none := by
  rw [readSection]
  cases scanSectionName rest with
  | none => simp [Context.badFormat]
  | some found =>
    obtain ⟨n, left⟩ := found
    simp

/-- Only a section header stalls. -/
theorem readItem_eq_none_iff : readItem c rest = none ↔ c.nType = .SOURCE_WITH_SECTIONS ∧
    ∃ left, rest = '['.toUInt8 :: left ∧ readSection c left = none := by
  cases rest with
  | nil => simp [readItem]
  | cons x rest =>
    rw [readItem]
    by_cases htype : c.nType = .SOURCE_WITH_SECTIONS
    · rw [if_pos htype, and_iff_right htype]
      by_cases hbracket : x = '['.toUInt8
      · simp [hbracket]
      · rw [if_neg hbracket]
        refine iff_of_false ?_ ?_
        · split
          · exact Option.some_ne_none _
          · exact readProperty_ne_none
        · rintro ⟨left, heq, -⟩
          exact hbracket (List.cons.inj heq).1
    · rw [if_neg htype]
      exact iff_of_false readProperty_ne_none fun hboth => htype hboth.1

/-- The call does not come back exactly if it stalls. -/
theorem internal_eq_none_iff : static_libManifest2GetNextItemInternal c = none ↔ Stalls c := by
  have hbracket : Ordinary '['.toUInt8 := ⟨by decide, by decide, by decide⟩
  have hitem : static_libManifest2GetNextItemInternal c = none ↔
      c.nType = .SOURCE_WITH_SECTIONS ∧ ∃ left, c.toItem.1 = some ('['.toUInt8 :: left) ∧
        readSection c left = none := by
    have hsection : ∀ lines left,
        readSection { c with nLine := c.nLine + lines } left = none ↔ readSection c left = none :=
      fun lines left => readSection_eq_none_iff.trans readSection_eq_none_iff.symm
    rw [internal_eq]
    obtain ⟨found, lines⟩ := c.toItem
    cases found with
    | none => simp [Context.badFormat]
    | some rest =>
      rw [readItem_eq_none_iff]
      simp only [hsection, some.injEq]
  rw [hitem, Stalls]
  refine and_congr_right fun htype => ?_
  have hcompiled : c.nType ≠ .COMPILED := by rw [htype]; exact ManifestType.noConfusion
  simp only [toItem_eq_some_iff hcompiled hbracket, readSection_eq_none_iff]
  constructor
  · rintro ⟨left, ⟨lines, hall, hlines⟩, n, afterName, hname, hskip⟩
    obtain ⟨name, rfl, -, hchecked⟩ := scanSectionName_eq hname
    obtain ⟨blanks, x, more, rfl, hblanks, hx⟩ := skipAfterHeader_eq_none_iff.mp hskip
    exact ⟨lines, name, blanks, x, more, hlines, hall, hchecked, hblanks, hx⟩
  · rintro ⟨lines, name, blanks, x, more, hlines, hall, hchecked, hblanks, hx⟩
    exact ⟨_, ⟨lines, hall, hlines⟩, _, _, scanSectionName_append hchecked,
      skipAfterHeader_eq_none_iff.mpr ⟨blanks, x, more, rfl, hblanks, hx⟩⟩

/-- The offset has moved on within the content, or the end of the file or an error is reported. -/
def MadeProgress (c : Context) (r : Read) : Prop :=
  match r.nResult with
  | .S_SUCCESS => c.nOffset < r.context.nOffset ∧ r.context.nOffset ≤ c.pManifestContent.length
  | .S_ERROR_ITEM_NOT_FOUND => True
  | .S_ERROR_BAD_FORMAT => True

/-- No turn of the tokenizer reads outside the content, and it returns, having made progress,
exactly if the call does not stall. -/
theorem returns_iff_not_stalls (c : Context) : Safe (turn c) c.entry ∧
    ((∃ r, Returns (turn c) c.entry r ∧ MadeProgress c r) ↔ ¬ Stalls c) := by
  have hentry := entry_spec c
  rw [← internal_eq_none_iff]
  cases hread : static_libManifest2GetNextItemInternal c with
  | none =>
    rw [hread] at hentry
    obtain ⟨b, hb, hself⟩ := hentry
    refine ⟨hb.safe (Core.safe_of_self hself), iff_of_false ?_ (not_not.mpr rfl)⟩
    rintro ⟨r, hr, -⟩
    exact hb.not_returns hself hr
  | some r =>
    rw [hread] at hentry
    refine ⟨Returns.safe hentry, iff_of_true ⟨r, hentry, ?_⟩ (some_ne_none r)⟩
    have hadvances := internal_advances hread
    rw [MadeProgress]
    split
    · next hs => exact ⟨(hadvances hs).lt, (hadvances hs).le⟩
    · trivial
    · trivial

/-- A section header that a letter follows on its line. -/
def letterBehind : Context :=
  ⟨.SOURCE_WITH_SECTIONS, [91, 65, 93, 32, 66, 10], 0, 1, 0⟩

theorem letterBehind_never_returns :
    ¬ ∃ r, Returns (turn letterBehind) letterBehind.entry r ∧ MadeProgress letterBehind r := by
  have hnone : static_libManifest2GetNextItemInternal letterBehind = none := rfl
  have hentry := entry_spec letterBehind
  rw [hnone] at hentry
  obtain ⟨b, hb, hself⟩ := hentry
  rintro ⟨r, hr, -⟩
  exact hb.not_returns hself hr

end OmapHal.Manifest
