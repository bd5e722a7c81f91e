import OmapHal.Manifest.Items

/-!
# What a successful call does

It moves on, stays within the content, and returns a section header or a property. Read again
from the same offset, the same item is returned: neither the line nor, within sections, the
start of the section has a part in it.
-/

namespace OmapHal.Manifest

open List

variable {c d e : Context} {r : Read} {rest left : List UInt8}

theorem skipComment_suffix (h : skipComment rest = some left) : left <:+ rest := by
  induction rest with
  | nil =>
    cases h
    exact suffix_rfl
  | cons x rest ih =>
    unfold skipComment at h
    split at h
    · cases h
      exact suffix_rfl
    · split at h
      · cases h
      · exact (ih h).trans (suffix_cons x rest)

theorem skipBlankLine_suffix (h : skipBlankLine rest = some left) : left <:+ rest := by
  induction rest with
  | nil =>
    cases h
    exact suffix_rfl
  | cons x rest ih =>
    unfold skipBlankLine at h
    split at h
    · cases h
      exact suffix_rfl
    · split at h
      · exact (ih h).trans (suffix_cons x rest)
      · cases h

theorem skipLineFeed_suffix (rest : List UInt8) : skipLineFeed rest <:+ rest := by
  cases rest with
  | nil => exact suffix_rfl
  | cons x rest =>
    by_cases hx : x = CHAR_LF
    · rw [show skipLineFeed (x :: rest) = rest from if_pos hx]
      exact suffix_cons x rest
    · exact ⟨[], if_neg hx⟩

/-- Skipping leaves a suffix. -/
theorem skipLines_suffix {turns : Nat} (h : (skipLines turns rest).1 = some left) :
    left <:+ rest := by
  induction turns generalizing rest with
  | zero =>
    cases h
    exact suffix_rfl
  | succ turns ih =>
    cases rest with
    | nil =>
      cases h
      exact suffix_rfl
    | cons x rest =>
      have hcons : rest <:+ x :: rest := suffix_cons x rest
      unfold skipLines at h
      split at h
      · cases hcomment : skipComment rest with
        | none =>
          rw [hcomment] at h
          cases h
        | some after =>
          rw [hcomment] at h
          exact ((ih h).trans (skipComment_suffix hcomment)).trans hcons
      split at h
      · exact ((ih h).trans (skipLineFeed_suffix rest)).trans hcons
      split at h
      · exact (ih h).trans hcons
      split at h
      · cases hblank : skipBlankLine rest with
        | none =>
          rw [hblank] at h
          cases h
        | some after =>
          rw [hblank] at h
          exact ((ih h).trans (skipBlankLine_suffix hblank)).trans hcons
      · cases h
        exact suffix_rfl

theorem skipAfterHeader_suffix (h : skipAfterHeader rest = some left) : left <:+ rest := by
  induction rest with
  | nil =>
    cases h
    exact suffix_rfl
  | cons x rest ih =>
    unfold skipAfterHeader at h
    split at h
    · exact (ih h).trans (suffix_cons x rest)
    · split at h
      · cases h
        exact suffix_rfl
      · cases h

/-- A section name is made of the characters it is checked for. -/
theorem scanSectionName_eq {n : Nat} (h : scanSectionName rest = some (n, left)) :
    ∃ name, rest = name ++ ']'.toUInt8 :: left ∧ name.length = n ∧
      ∀ x ∈ name, static_checkCharacter x .CHARACTER_SECTION_NAME := by
  induction rest generalizing n with
  | nil => cases h
  | cons x rest ih =>
    unfold scanSectionName at h
    split at h
    · rename_i hx
      cases h
      exact ⟨[], by rw [hx]; rfl, rfl, fun _ hy => absurd hy List.not_mem_nil⟩
    · split at h
      · rename_i hcheck
        obtain ⟨⟨m, after⟩, hfound, heq⟩ := Option.map_eq_some_iff.mp h
        cases heq
        obtain ⟨name, rfl, rfl, hall⟩ := ih hfound
        refine ⟨x :: name, rfl, rfl, fun y hy => ?_⟩
        rcases List.mem_cons.mp hy with rfl | hy
        · exact hcheck
        · exact hall y hy
      · cases h

/-- A property name ends before its colon. -/
theorem scanName_bounds {compiled : Bool} {pCurrent pLast nameEnd : Nat}
    (h : scanName compiled pCurrent pLast rest = some (nameEnd, left)) (hle : pLast ≤ pCurrent) :
    pLast ≤ nameEnd ∧ nameEnd ≤ pCurrent + rest.length := by
  induction rest generalizing pCurrent pLast with
  | nil => cases h
  | cons x rest ih =>
    unfold scanName at h
    rw [length_cons]
    split at h
    · cases h
      omega
    split at h
    · have hrest := ih h (Nat.le_succ_of_le hle)
      omega
    split at h
    · cases h
    split at h
    · cases h
    · have hrest := ih h (Nat.le_refl _)
      omega

theorem scanName_suffix {compiled : Bool} {pCurrent pLast nameEnd : Nat}
    (h : scanName compiled pCurrent pLast rest = some (nameEnd, left)) : left <:+ rest := by
  induction rest generalizing pCurrent pLast with
  | nil => cases h
  | cons x rest ih =>
    have hcons : rest <:+ x :: rest := suffix_cons x rest
    unfold scanName at h
    split at h
    · cases h
      exact hcons
    split at h
    · exact (ih h).trans hcons
    split at h
    · cases h
    split at h
    · cases h
    · exact (ih h).trans hcons

/-- A value ends within the bytes that are left. -/
theorem scanValue_bounds {compiled : Bool} {pCurrent pLast count char pEnd pLastEnd lines : Nat}
    (h : scanValue compiled pCurrent pLast count char rest = some (pEnd, pLastEnd, lines)) :
    pCurrent ≤ pEnd ∧ pEnd ≤ pCurrent + rest.length := by
  induction rest generalizing pCurrent pLast count char with
  | nil =>
    unfold scanValue at h
    split at h
    · cases h
    · cases h
      exact ⟨Nat.le_refl _, Nat.le_refl _⟩
  | cons x rest ih =>
    have hfeed := (skipLineFeed_suffix rest).length_le
    unfold scanValue at h
    rw [length_cons]
    split at h
    · cases h
    split at h
    · cases h
    split at h
    · split at h <;> cases h <;> omega
    split at h
    · split at h <;> cases h <;> omega
    · have hrest := ih h
      omega

/-- The bytes before the item are skipped, of those from the offset on. -/
theorem toItem_suffix (h : c.toItem.1 = some left) : left <:+ c.rest := by
  unfold Context.toItem at h
  split at h
  · cases h
    exact suffix_rfl
  · refine (skipLines_suffix h).trans ?_
    unfold Context.afterBom
    split
    · exact drop_suffix 3 c.rest
    · exact suffix_rfl

theorem rest_suffix (c : Context) : c.rest <:+ c.pManifestContent :=
  drop_suffix _ _

theorem length_rest (c : Context) : c.rest.length = c.pManifestContent.length - c.nOffset :=
  length_drop

/-- The bytes from the offset of a suffix on are that suffix. -/
theorem drop_offsetOf (h : rest <:+ c.pManifestContent) :
    c.pManifestContent.drop (c.offsetOf rest) = rest := by
  obtain ⟨front, heq⟩ := h
  have hlength : c.offsetOf rest = front.length := by
    unfold Context.offsetOf
    rw [← heq, length_append]
    omega
  rw [hlength, ← heq, drop_left]

/-- The bytes of a name are there, and those of a section name were checked. -/
structure Context.Named (c : Context) (item : Item) : Prop where
  length : (c.name item).length = item.nNameLength
  checked : item.pValue = none →
    ∀ x ∈ c.name item, static_checkCharacter x .CHARACTER_SECTION_NAME = true

/-- What a success is: a section header or a property, with what becomes of the section. -/
inductive Kind (c : Context) (r : Read) : Prop where
  | header : r.item.pValue = none → c.nType = .SOURCE_WITH_SECTIONS →
      r.context.nSectionStartOffset = r.context.nOffset → Kind c r
  | property : r.item.pValue.isSome → r.context.nSectionStartOffset = c.nSectionStartOffset →
      (c.nType = .SOURCE_WITH_SECTIONS → c.nSectionStartOffset ≠ 0) → Kind c r

/-- What a success does to the context. -/
structure Advances (c : Context) (r : Read) : Prop where
  nType : r.context.nType = c.nType
  content : r.context.pManifestContent = c.pManifestContent
  lt : c.nOffset < r.context.nOffset
  le : r.context.nOffset ≤ c.pManifestContent.length
  kind : Kind c r
  named : c.Named r.item

/-- A header that is read moves the offset on. -/
theorem readSection_advances {lines : Nat} {x : UInt8} (htype : c.nType = .SOURCE_WITH_SECTIONS)
    (hleft : x :: rest <:+ c.rest)
    (h : readSection { c with nLine := c.nLine + lines } rest = some r)
    (hs : r.nResult = .S_SUCCESS) : Advances c r := by
  unfold readSection at h
  cases hname : scanSectionName rest with
  | none =>
    rw [hname] at h
    cases h
    cases hs
  | some found =>
    obtain ⟨n, afterName⟩ := found
    rw [hname] at h
    obtain ⟨left, hskip, rfl⟩ := Option.map_eq_some_iff.mp h
    obtain ⟨name, rfl, rfl, hall⟩ := scanSectionName_eq hname
    have hafter := (skipAfterHeader_suffix hskip).length_le
    have hlength := hleft.length_le
    rw [length_rest, length_cons, length_append, length_cons] at hlength
    have hlt : c.nOffset < c.pManifestContent.length - left.length := by omega
    have hsuffix : name ++ ']'.toUInt8 :: afterName <:+ c.pManifestContent :=
      ((suffix_cons x _).trans hleft).trans (rest_suffix c)
    have hbytes : c.name ⟨c.offsetOf (name ++ ']'.toUInt8 :: afterName), name.length, none, 0⟩ =
        name := by
      unfold Context.name
      rw [drop_offsetOf hsuffix, take_left]
    exact ⟨rfl, rfl, hlt, Nat.sub_le .., .header rfl htype rfl, congrArg length hbytes,
      fun _ y hy => hall y (by rw [← hbytes]; exact hy)⟩

/-- So does a property. -/
theorem readProperty_advances {lines : Nat} {x : UInt8}
    (hsection : c.nType = .SOURCE_WITH_SECTIONS → c.nSectionStartOffset ≠ 0)
    (hleft : x :: rest <:+ c.rest)
    (h : readProperty { c with nLine := c.nLine + lines } x rest = some r)
    (hs : r.nResult = .S_SUCCESS) : Advances c r := by
  unfold readProperty at h
  dsimp only at h
  split at h
  · split at h
    · cases h
      cases hs
    · rename_i nameEnd afterColon hname
      split at h
      · cases h
        cases hs
      · rename_i pCurrent pLast lines' hvalue
        cases h
        have hbounds := scanValue_bounds hvalue
        have hdrop := (dropWhile_suffix (l := afterColon) isBlank).length_le
        have hcolon := (scanName_suffix hname).length_le
        have hlength := hleft.length_le
        rw [length_rest, length_cons] at hlength
        unfold Context.offsetOf at hbounds
        dsimp only at hbounds
        have hnameBounds := scanName_bounds hname (Nat.le_refl _)
        unfold Context.offsetOf at hnameBounds
        dsimp only at hnameBounds
        rw [length_cons] at hnameBounds
        refine ⟨rfl, rfl, by dsimp only; omega, by dsimp only; omega,
          .property rfl rfl hsection, ?_, fun hvalue => by cases hvalue⟩
        unfold Context.name Context.offsetOf
        dsimp only
        rw [length_take, length_drop, length_cons]
        omega
  · cases h
    cases hs

/-- A success moves on within the content. -/
theorem internal_advances (h : static_libManifest2GetNextItemInternal c = some r)
    (hs : r.nResult = .S_SUCCESS) : Advances c r := by
  unfold static_libManifest2GetNextItemInternal at h
  cases hleft : c.toItem.1 with
  | none =>
    simp only [hleft] at h
    cases h
    cases hs
  | some left =>
    cases left with
    | nil =>
      simp only [hleft] at h
      cases h
      cases hs
    | cons x rest =>
      have hsuffix := toItem_suffix hleft
      simp only [hleft] at h
      split at h
      · rename_i htype
        split at h
        · exact readSection_advances htype hsuffix h hs
        split at h
        · cases h
          cases hs
        · rename_i hsection
          exact readProperty_advances (fun _ => hsection) hsuffix h hs
      · rename_i htype
        exact readProperty_advances (fun h => absurd h htype) hsuffix h hs

/-- A header reads the same from another line. -/
theorem readSection_again {l s : Nat} (h : readSection c rest = some r)
    (hs : r.nResult = .S_SUCCESS) :
    ∃ r', readSection { c with nLine := l, nSectionStartOffset := s } rest = some r' ∧
      r'.nResult = .S_SUCCESS ∧ r'.item = r.item ∧ r'.context.nOffset = r.context.nOffset := by
  unfold readSection at h ⊢
  cases hname : scanSectionName rest with
  | none =>
    rw [hname] at h
    cases h
    cases hs
  | some found =>
    rw [hname] at h
    obtain ⟨left, hskip, rfl⟩ := Option.map_eq_some_iff.mp h
    dsimp only
    rw [hskip]
    exact ⟨_, rfl, rfl, rfl, rfl⟩

theorem readProperty_again {l s : Nat} {x : UInt8} (h : readProperty c x rest = some r)
    (hs : r.nResult = .S_SUCCESS) :
    ∃ r', readProperty { c with nLine := l, nSectionStartOffset := s } x rest = some r' ∧
      r'.nResult = .S_SUCCESS ∧ r'.item = r.item ∧ r'.context.nOffset = r.context.nOffset := by
  have hoffset : ∀ left, Context.offsetOf { c with nLine := l, nSectionStartOffset := s } left =
      c.offsetOf left := fun _ => rfl
  unfold readProperty at h ⊢
  simp only [hoffset]
  by_cases hfirst : static_checkCharacter x .CHARACTER_NAME_FIRST
  · simp only [if_pos hfirst] at h ⊢
    cases hname : scanName (decide (c.nType = .COMPILED)) (c.offsetOf (x :: rest) + 1)
        (c.offsetOf (x :: rest) + 1) rest with
    | none =>
      simp only [hname] at h
      cases h
      cases hs
    | some found =>
      simp only [hname] at h ⊢
      cases hvalue : scanValue (decide (c.nType = .COMPILED))
          (c.offsetOf (found.2.dropWhile isBlank)) (c.offsetOf (found.2.dropWhile isBlank) - 1)
          0 0 (found.2.dropWhile isBlank) with
      | none =>
        simp only [hvalue] at h
        cases h
        cases hs
      | some value =>
        simp only [hvalue] at h ⊢
        cases h
        exact ⟨_, rfl, rfl, rfl, rfl⟩
  · simp only [if_neg hfirst] at h
    cases h
    cases hs

/-- From the same offset the same item is read, whatever the line, and whatever the start of the
section if there is one. -/
theorem read_again (h : static_libManifest2GetNextItemInternal c = some r)
    (hs : r.nResult = .S_SUCCESS) (htype : d.nType = c.nType)
    (hcontent : d.pManifestContent = c.pManifestContent) (hoffset : d.nOffset = c.nOffset)
    (hsection : d.nSectionStartOffset = 0 → c.nSectionStartOffset = 0) :
    ∃ r', static_libManifest2GetNextItemInternal d = some r' ∧ r'.nResult = .S_SUCCESS ∧
      r'.item = r.item ∧ r'.context.nOffset = r.context.nOffset := by
  obtain ⟨t, content, o, l, s⟩ := d
  subst htype hcontent hoffset
  have htoItem : Context.toItem ⟨c.nType, c.pManifestContent, c.nOffset, l, s⟩ = c.toItem := rfl
  unfold static_libManifest2GetNextItemInternal at h ⊢
  simp only [htoItem]
  cases hleft : c.toItem.1 with
  | none =>
    simp only [hleft] at h
    cases h
    cases hs
  | some left =>
    cases left with
    | nil =>
      simp only [hleft] at h
      cases h
      cases hs
    | cons x rest =>
      simp only [hleft] at h ⊢
      by_cases htype : c.nType = .SOURCE_WITH_SECTIONS
      · simp only [if_pos htype] at h ⊢
        by_cases hbracket : x = '['.toUInt8
        · simp only [if_pos hbracket] at h ⊢
          exact readSection_again (c := { c with nLine := c.nLine + c.toItem.2 }) h hs
        · simp only [if_neg hbracket] at h ⊢
          by_cases hzero : c.nSectionStartOffset = 0
          · simp only [if_pos hzero] at h
            cases h
            cases hs
          · simp only [if_neg hzero] at h
            simp only [if_neg fun hs0 => hzero (hsection hs0)]
            exact readProperty_again (c := { c with nLine := c.nLine + c.toItem.2 }) h hs
      · simp only [if_neg htype] at h ⊢
        exact readProperty_again (c := { c with nLine := c.nLine + c.toItem.2 }) h hs

/-- Two contexts on the same file. -/
structure Context.SameFile (c d : Context) : Prop where
  nType : d.nType = c.nType
  content : d.pManifestContent = c.pManifestContent

theorem Context.SameFile.trans (h : c.SameFile d) (h' : d.SameFile e) : c.SameFile e :=
  ⟨h'.nType.trans h.nType, h'.content.trans h.content⟩

theorem Advances.sameFile (h : Advances c r) : c.SameFile r.context := ⟨h.nType, h.content⟩

theorem readSection_sameFile {rest : List UInt8} (h : readSection c rest = some r) :
    c.SameFile r.context := by
  unfold readSection at h
  split at h
  · cases h
    exact ⟨rfl, rfl⟩
  · obtain ⟨left, -, rfl⟩ := Option.map_eq_some_iff.mp h
    exact ⟨rfl, rfl⟩

theorem readProperty_sameFile {x : UInt8} {rest : List UInt8} (h : readProperty c x rest = some r) :
    c.SameFile r.context := by
  unfold readProperty at h
  dsimp only at h
  split at h
  · split at h
    · cases h
      exact ⟨rfl, rfl⟩
    · split at h <;> cases h <;> exact ⟨rfl, rfl⟩
  · cases h
    exact ⟨rfl, rfl⟩

/-- No call leaves the file. -/
theorem internal_sameFile (h : static_libManifest2GetNextItemInternal c = some r) :
    c.SameFile r.context := by
  have hline : ∀ lines, c.SameFile { c with nLine := c.nLine + lines } := fun _ => ⟨rfl, rfl⟩
  unfold static_libManifest2GetNextItemInternal at h
  dsimp only at h
  split at h
  · cases h
    exact hline _
  · cases h
    exact hline _
  · split at h
    · split at h
      · exact (hline _).trans (readSection_sameFile h)
      split at h
      · cases h
        exact hline _
      · exact (hline _).trans (readProperty_sameFile h)
    · exact (hline _).trans (readProperty_sameFile h)

end OmapHal.Manifest
