import OmapHal.Manifest.Progress
import Mathlib.Data.List.Induction

/-!
# What a checked manifest guarantees

The items of a run of successful calls are read again from the start of the file, or from the
start of the section, up to the item that is compared. So the comparison misses none of them, and
a manifest that passes has no two equal names where they must differ.
-/

namespace OmapHal.Manifest

open List Bool

variable {item a b : Item} {pre mid : List Item}

variable {c d e : Context} {r : Read} {item : Item} {items : List Item}

/-- Successful calls of the tokenizer, one after another. -/
inductive Reads : Context → List Item → Context → Prop where
  | nil (c : Context) : Reads c [] c
  | cons {c d : Context} {r : Read} {items : List Item} :
      static_libManifest2GetNextItemInternal c = some r → r.nResult = .S_SUCCESS →
      Reads r.context items d → Reads c (r.item :: items) d

theorem Reads.snoc (h : Reads c items d) (hread : static_libManifest2GetNextItemInternal d = some r)
    (hs : r.nResult = .S_SUCCESS) : Reads c (items ++ [r.item]) r.context := by
  induction h with
  | nil => exact .cons hread hs (.nil _)
  | cons hfirst hsfirst _ ih => exact .cons hfirst hsfirst (ih hread)

theorem Context.SameFile.name_eq (h : c.SameFile d) (item : Item) : d.name item = c.name item := by
  unfold Context.name
  rw [h.content]

theorem Context.SameFile.isDuplicate_eq (h : c.SameFile d) (item dup : Item) :
    isDuplicate d item dup = isDuplicate c item dup := by
  unfold isDuplicate
  rw [h.nType, h.name_eq item, h.name_eq dup]

theorem Context.SameFile.named (h : c.SameFile d) (hnamed : d.Named item) : c.Named item := by
  have hname := h.name_eq item
  exact ⟨hname ▸ hnamed.length, fun hvalue => hname ▸ hnamed.checked hvalue⟩

theorem Reads.sameFile (h : Reads c items d) : c.SameFile d := by
  induction h with
  | nil => exact ⟨rfl, rfl⟩
  | cons hread hs _ ih => exact (internal_advances hread hs).sameFile.trans ih

/-- Each item read moves on by a byte at least. -/
theorem Reads.length_le (h : Reads c items d) : c.nOffset + items.length ≤ d.nOffset := by
  induction h with
  | nil => exact Nat.le_refl _
  | cons hread hs _ ih =>
    have hlt := (internal_advances hread hs).lt
    rw [length_cons]
    omega

theorem Reads.named (h : Reads c items d) : ∀ item ∈ items, c.Named item := by
  induction h with
  | nil => exact fun _ hmem => absurd hmem not_mem_nil
  | cons hread hs _ ih =>
    have hadvances := internal_advances hread hs
    intro item hmem
    rcases mem_cons.mp hmem with rfl | hmem
    · exact hadvances.named
    · exact hadvances.sameFile.named (ih item hmem)

/-- The scan from where a run of calls started, up to where it ended, reads its items again. -/
theorem Reads.scanEarlier (h : Reads c items d) (item : Item) (turns : Nat)
    (hturns : items.length < turns) (hsame : c.SameFile e) (hoffset : e.nOffset = c.nOffset)
    (hsection : e.nSectionStartOffset = 0 → c.nSectionStartOffset = 0) :
    ∃ seen left, scanEarlier item d.nOffset turns e =
        some (items.any (isDuplicate c item), seen, left) ∧ c.SameFile left ∧
      (items.any (isDuplicate c item) = false → seen = items) := by
  induction h generalizing e turns with
  | nil c =>
    obtain ⟨turns, rfl⟩ := Nat.exists_eq_succ_of_ne_zero (Nat.ne_zero_of_lt hturns)
    refine ⟨[], e, ?_, hsame, fun _ => rfl⟩
    unfold Manifest.scanEarlier
    rw [if_neg (by omega)]
    rfl
  | @cons c d r items hread hs hrest ih =>
    obtain ⟨turns, rfl⟩ := Nat.exists_eq_succ_of_ne_zero (Nat.ne_zero_of_lt hturns)
    have hadvances := internal_advances hread hs
    have hle := hrest.length_le
    obtain ⟨r', hread', hs', hitem, hoffset'⟩ :=
      read_again hread hs hsame.nType hsame.content hoffset hsection
    have hadvances' := internal_advances hread' hs'
    have hlt := hadvances.lt
    unfold Manifest.scanEarlier
    rw [if_pos (by omega), hread']
    dsimp only
    rw [hitem, hsame.isDuplicate_eq, any_cons]
    by_cases hdup : isDuplicate c item r.item
    · rw [if_pos hdup, hdup, Bool.true_or]
      exact ⟨_, _, rfl, hsame.trans hadvances'.sameFile, fun hfalse => Bool.noConfusion hfalse⟩
    · have hdupFalse := eq_false_iff.mpr hdup
      have hsection' : r'.context.nSectionStartOffset = 0 → r.context.nSectionStartOffset = 0 := by
        intro hzero
        cases hadvances.kind with
        | header hvalue _ hstart =>
          cases hadvances'.kind with
          | header _ _ hstart' => omega
          | property hvalue' =>
            rw [hitem, hvalue] at hvalue'
            cases hvalue'
        | property hvalue hstart =>
          cases hadvances'.kind with
          | header hvalue' =>
            rw [← hitem, hvalue'] at hvalue
            cases hvalue
          | property _ hstart' => exact hstart.trans (hsection (hstart'.symm.trans hzero))
      have hsameRest : r.context.SameFile r'.context :=
        ⟨hadvances'.nType.trans (hsame.nType.trans hadvances.nType.symm),
          hadvances'.content.trans (hsame.content.trans hadvances.content.symm)⟩
      obtain ⟨seen, left, hscan, hleft, hseen⟩ :=
        ih turns (Nat.lt_of_succ_lt_succ hturns) hsameRest hoffset' hsection'
      have hany : items.any (isDuplicate r.context item) = items.any (isDuplicate c item) := by
        congr 1
        funext dup
        exact hadvances.sameFile.isDuplicate_eq item dup
      rw [hany] at hscan hseen
      rw [if_neg hdup, hdupFalse, Bool.false_or, if_pos hs', hscan]
      refine ⟨r.item :: seen, left, rfl, hadvances.sameFile.trans hleft, fun hnone => ?_⟩
      rw [hseen hnone]

/-- The properties after the last section header. -/
def openSection (items : List Item) : List Item :=
  (items.reverse.takeWhile (·.pValue.isSome)).reverse

theorem openSection_header (items : List Item) (h : item.pValue = none) :
    openSection (items ++ [item]) = [] := by
  unfold openSection
  rw [reverse_concat, takeWhile_cons, h]
  rfl

theorem openSection_property (items : List Item) (h : item.pValue.isSome) :
    openSection (items ++ [item]) = openSection items ++ [item] := by
  unfold openSection
  rw [reverse_concat, takeWhile_cons, if_pos h, reverse_cons]

/-- The start of the file. -/
def Context.start (c : Context) : Context :=
  { c with nOffset := 0, nLine := 1, nSectionStartOffset := 0 }

/-- A context that is reached from the start of the file by some items: those of the section that
is open can be read from where it starts. -/
structure ReachedBy (c : Context) (items : List Item) (d : Context) : Prop where
  reads : Reads c.start items d
  withoutSections : d.nType = .SOURCE → d.nSectionStartOffset = 0
  section_ : ∃ m, Reads m (openSection items) d ∧ m.nOffset = d.nSectionStartOffset ∧
    m.nSectionStartOffset = d.nSectionStartOffset

theorem reachedBy_start (c : Context) : ReachedBy c [] c.start where
  reads := .nil _
  withoutSections := fun _ => rfl
  section_ := ⟨c.start, .nil _, rfl, rfl⟩

theorem ReachedBy.next (h : ReachedBy c items d)
    (hread : static_libManifest2GetNextItemInternal d = some r) (hs : r.nResult = .S_SUCCESS) :
    ReachedBy c (items ++ [r.item]) r.context := by
  have hadvances := internal_advances hread hs
  refine ⟨h.reads.snoc hread hs, ?_, ?_⟩
  · intro htype
    cases hadvances.kind with
    | header _ hsections =>
      rw [hadvances.nType, hsections] at htype
      cases htype
    | property _ hstart => exact hstart.trans (h.withoutSections (hadvances.nType.symm.trans htype))
  · cases hadvances.kind with
    | header hvalue _ hstart =>
      refine ⟨r.context, ?_, hstart.symm, rfl⟩
      rw [openSection_header items hvalue]
      exact .nil _
    | property hvalue hstart =>
      obtain ⟨m, hreads, hoffset, hsection⟩ := h.section_
      refine ⟨m, ?_, hoffset.trans hstart.symm, hsection.trans hstart.symm⟩
      rw [openSection_property items hvalue]
      exact hreads.snoc hread hs

/-- The items that are compared with an item that is read. -/
def compared (items : List Item) (item : Item) : List Item :=
  if item.pValue.isSome then openSection items else items

/-- The scan reads exactly the items that are to be compared. -/
theorem ReachedBy.rescan (h : ReachedBy c items d)
    (hread : static_libManifest2GetNextItemInternal d = some r) (hs : r.nResult = .S_SUCCESS) :
    ∃ seen left, rescan r d.nOffset =
        some ((compared items r.item).any (isDuplicate c r.item), seen, left) ∧
      c.SameFile left ∧ ((compared items r.item).any (isDuplicate c r.item) = false →
        seen = compared items r.item) := by
  have hadvances := internal_advances hread hs
  have hstart : c.SameFile c.start := ⟨rfl, rfl⟩
  have hfile : c.SameFile r.context :=
    (hstart.trans h.reads.sameFile).trans hadvances.sameFile
  have hlt := hadvances.lt
  unfold Manifest.rescan compared scanStart
  cases hadvances.kind with
  | header hvalue hsections hsection =>
    have hlength := h.reads.length_le
    have hnot : ¬ r.item.pValue.isSome := by
      rw [hvalue]
      exact false_ne_true
    have htype : ¬ r.context.nType = .SOURCE := by
      rw [hadvances.nType, hsections]
      exact fun heq => by cases heq
    rw [if_neg hnot, if_neg htype, if_pos hvalue]
    have hbehind : r.context.nSectionStartOffset ≠ 0 := by omega
    obtain ⟨seen, left, hscan, hleft, hseen⟩ :=
      h.reads.scanEarlier (e := { r.context with nOffset := 0 }) r.item (d.nOffset + 1) (by omega)
        ⟨hfile.nType, hfile.content⟩ rfl (fun hzero => absurd hzero hbehind)
    exact ⟨seen, left, hscan, hstart.trans hleft, hseen⟩
  | property hvalue hsection =>
    obtain ⟨m, hreads, hoffset, hsectionStart⟩ := h.section_
    have hlength := hreads.length_le
    have hnot : ¬ r.item.pValue = none := by
      intro hnone
      rw [hnone] at hvalue
      cases hvalue
    have hbegin : (if r.context.nType = .SOURCE then 0
        else if r.item.pValue = none then 0 else r.context.nSectionStartOffset) = m.nOffset := by
      rw [if_neg hnot, hoffset, ← hsection]
      split
      · rename_i htype
        rw [hsection, h.withoutSections (hadvances.nType.symm.trans htype)]
      · rfl
    have hmFile : m.SameFile r.context := hreads.sameFile.trans hadvances.sameFile
    obtain ⟨seen, left, hscan, hleft, hseen⟩ :=
      hreads.scanEarlier (e := { r.context with nOffset := m.nOffset }) r.item (d.nOffset + 1)
        (by omega) ⟨hmFile.nType, hmFile.content⟩ rfl
        (fun hzero => hsectionStart.trans (hsection.symm.trans hzero))
    have hcm : c.SameFile m :=
      ⟨hmFile.nType.symm.trans hfile.nType, hmFile.content.symm.trans hfile.content⟩
    have hany : (openSection items).any (isDuplicate m r.item) =
        (openSection items).any (isDuplicate c r.item) := by
      congr 1
      funext dup
      exact hcm.isDuplicate_eq r.item dup
    rw [hany] at hscan hseen
    rw [if_pos hvalue, hbegin]
    exact ⟨seen, left, hscan, hcm.trans hleft, hseen⟩

/-- Successful calls of `libManifest2GetNextItem`, one after another. -/
inductive Calls (c : Context) : List Item → Context → Prop where
  | start : Calls c [] c
  | call {d : Context} {r : Read} {items : List Item} : Calls c items d →
      libManifest2GetNextItem d = some r → r.nResult = .S_SUCCESS →
      Calls c (items ++ [r.item]) r.context

/-- An item that passed: it is what the tokenizer reads, the context is left as the tokenizer
leaves it, and the items to compare it with, and no others, were read again and differ. -/
structure Passed (c : Context) (earlier : List Item) (d : Context) (r : Read) : Prop where
  read : static_libManifest2GetNextItemInternal d = some r
  success : r.nResult = .S_SUCCESS
  rescan : ∃ left, rescan r d.nOffset = some (false, compared earlier r.item, left)
  different : ∀ dup ∈ compared earlier r.item, isDuplicate c r.item dup = false

/-- What `libManifest2GetNextItem` returns: an item that passed, or a failure. -/
theorem ReachedBy.getNextItem (h : ReachedBy c items d) (hsource : d.nType ≠ .COMPILED)
    (hq : libManifest2GetNextItem d = some r) :
    Passed c items d r ∨ r.nResult ≠ .S_SUCCESS ∧ c.SameFile r.context := by
  have hstart : c.SameFile c.start := ⟨rfl, rfl⟩
  have hfile : c.SameFile d := hstart.trans h.reads.sameFile
  unfold libManifest2GetNextItem at hq
  rw [if_neg hsource] at hq
  cases hread : static_libManifest2GetNextItemInternal d with
  | none =>
    rw [hread] at hq
    cases hq
  | some read =>
    rw [hread] at hq
    dsimp only at hq
    have hreadFile := hfile.trans (internal_sameFile hread)
    by_cases hs : read.nResult = .S_SUCCESS
    · rw [if_neg (not_not_intro hs)] at hq
      split at hq
      · cases hq
        exact .inr ⟨(fun heq => by cases heq), hreadFile⟩
      · obtain ⟨seen, left, hrescan, hleft, hseen⟩ := h.rescan hread hs
        have hrestore : left.restore read.context = read.context := by
          unfold Context.restore
          rw [hleft.nType, hleft.content, ← hreadFile.nType, ← hreadFile.content]
        rw [hrescan, Option.map_some, Option.some.injEq] at hq
        dsimp only at hq
        cases hany : (compared items read.item).any (isDuplicate c read.item) with
        | true =>
          rw [hany, if_pos rfl, hrestore] at hq
          cases hq
          exact .inr ⟨(fun heq => by cases heq), hreadFile⟩
        | false =>
          rw [hany, if_neg Bool.false_ne_true, hrestore] at hq
          have heq : read = r := by
            rw [← hq, ← hs]
          rw [← heq]
          refine .inl ⟨hread, hs, ⟨left, ?_⟩, ?_⟩
          · rw [hrescan, hany, hseen hany]
          · intro dup hdup
            exact eq_false_iff.mpr (any_eq_false.mp hany dup hdup)
    · rw [if_pos hs] at hq
      cases hq
      exact .inr ⟨hs, hreadFile⟩

/-- The items that the check sees in a success: each of them passed, and the calls after the last
of them find no more. -/
theorem ReachedBy.checkItems (h : ReachedBy c items d) (hcalls : Calls c.start items d)
    (hsource : d.nType ≠ .COMPILED) {turns : Nat} {seen : List Item} {left : Context}
    (hcheck : checkItems turns d = some (.S_SUCCESS, seen, left)) :
    (∃ e r, Calls c.start (items ++ seen) e ∧ libManifest2GetNextItem e = some r ∧
        r.nResult = .S_ERROR_ITEM_NOT_FOUND) ∧
      c.SameFile left ∧
      ∀ pre item post, seen = pre ++ item :: post → ∃ e r, Calls c.start (items ++ pre) e ∧
        libManifest2GetNextItem e = some r ∧ r.item = item ∧ Passed c (items ++ pre) e r ∧
          ReachedBy c (items ++ pre) e := by
  induction turns generalizing items d seen with
  | zero => cases hcheck
  | succ turns ih =>
    unfold Manifest.checkItems at hcheck
    cases hq : libManifest2GetNextItem d with
    | none =>
      rw [hq] at hcheck
      cases hcheck
    | some r =>
      rw [hq] at hcheck
      dsimp only at hcheck
      cases hresult : r.nResult with
      | S_ERROR_ITEM_NOT_FOUND =>
        rw [hresult] at hcheck
        cases hcheck
        rcases h.getNextItem hsource hq with hpassed | ⟨-, hfile⟩
        · rw [hpassed.success] at hresult
          cases hresult
        · refine ⟨⟨d, r, ?_, hq, hresult⟩, hfile, fun pre item post heq => ?_⟩
          · rw [append_nil]
            exact hcalls
          · exact absurd heq (by simp)
      | S_ERROR_BAD_FORMAT =>
        rw [hresult] at hcheck
        cases hcheck
      | S_SUCCESS =>
        rw [hresult] at hcheck
        obtain ⟨⟨result, rest, left'⟩, hrest, heq⟩ := Option.map_eq_some_iff.mp hcheck
        cases heq
        rcases h.getNextItem hsource hq with hpassed | ⟨hne, -⟩
        · have hfile := internal_sameFile hpassed.read
          have hnext := ih (h.next hpassed.read hresult) (.call hcalls hq hresult)
            (by rw [hfile.nType]; exact hsource) hrest
          simp only [append_assoc, singleton_append] at hnext
          obtain ⟨hend, hleft, hpositions⟩ := hnext
          refine ⟨hend, hleft, fun pre item post heq => ?_⟩
          cases pre with
          | nil =>
            cases heq
            rw [append_nil]
            exact ⟨d, r, hcalls, hq, rfl, hpassed, h⟩
          | cons first pre =>
            cases heq
            exact hpositions pre item post rfl
        · exact absurd hresult hne

/-- A letter in lower case. -/
def lowerCase (x : UInt8) : UInt8 :=
  if 'A'.toUInt8 ≤ x ∧ x ≤ 'Z'.toUInt8 then x + 32 else x

/-- Names that differ in the case of letters at most. -/
def EqualIgnoringCase (a b : List UInt8) : Prop := a.map lowerCase = b.map lowerCase

private theorem forall_byte {P : UInt8 → Prop} (h : ∀ n < 256, P (UInt8.ofNat n))
    (x : UInt8) : P x := by
  rw [← UInt8.ofNat_toNat (x := x)]
  exact h x.toNat x.toNat_lt

/-- The mask of the comparison forgets the case. -/
private theorem mask_lowerCase (x : UInt8) : lowerCase x &&& 0xDF = x &&& 0xDF :=
  forall_byte (P := fun x => lowerCase x &&& 0xDF = x &&& 0xDF) (by decide +kernel) x

/-- What the mask makes of a character of a section name, back in lower case. -/
def unmask (x : UInt8) : UInt8 :=
  if 'A'.toUInt8 ≤ x ∧ x ≤ 'Z'.toUInt8 then x + 32
  else if x = '_'.toUInt8 then x
  else x + 32

/-- The mask forgets nothing else of a character of a section name. -/
private theorem unmask_mask {x : UInt8} (h : static_checkCharacter x .CHARACTER_SECTION_NAME) :
    unmask (x &&& 0xDF) = lowerCase x :=
  forall_byte (P := fun x => static_checkCharacter x .CHARACTER_SECTION_NAME →
    unmask (x &&& 0xDF) = lowerCase x) (by decide +kernel) x h

theorem static_sectionNameEqualCaseInsensitive_iff_map (a b : List UInt8) :
    static_sectionNameEqualCaseInsensitive a b ↔
      a.map (· &&& 0xDF) = b.map (· &&& 0xDF) := by
  unfold static_sectionNameEqualCaseInsensitive
  induction a generalizing b with
  | nil => cases b <;> simp
  | cons x a ih =>
    cases b with
    | nil => simp
    | cons y b =>
      have hrest := ih b
      rw [and_eq_true, beq_iff_eq] at hrest
      simp only [length_cons, zip_cons_cons, all_cons, map_cons,
        cons.injEq, and_eq_true, beq_iff_eq, Nat.add_right_cancel_iff]
      rw [← hrest]
      exact and_left_comm

/-- The comparison of section names is equality up to the case of letters. -/
theorem static_sectionNameEqualCaseInsensitive_iff {a b : List UInt8}
    (ha : ∀ x ∈ a, static_checkCharacter x .CHARACTER_SECTION_NAME)
    (hb : ∀ x ∈ b, static_checkCharacter x .CHARACTER_SECTION_NAME) :
    static_sectionNameEqualCaseInsensitive a b ↔ EqualIgnoringCase a b := by
  rw [static_sectionNameEqualCaseInsensitive_iff_map]
  unfold EqualIgnoringCase
  have hunmask : ∀ l : List UInt8,
      (∀ x ∈ l, static_checkCharacter x .CHARACTER_SECTION_NAME) →
        (l.map (· &&& 0xDF)).map unmask = l.map lowerCase := by
    intro l hl
    rw [map_map]
    exact map_congr_left fun x hx => unmask_mask (hl x hx)
  have hmask : ∀ l : List UInt8, (l.map lowerCase).map (· &&& 0xDF) = l.map (· &&& 0xDF) := by
    intro l
    rw [map_map]
    exact map_congr_left fun x _ => mask_lowerCase x
  constructor
  · intro h
    rw [← hunmask a ha, ← hunmask b hb, h]
  · intro h
    rw [← hmask a, ← hmask b, h]

/-- No section has two properties with the same name, and no two sections have names that are
equal up to case. -/
structure DistinctNames (c : Context) (items : List Item) : Prop where
  properties : ∀ pre a mid b post, items = pre ++ a :: (mid ++ b :: post) → a.pValue.isSome →
    (∀ m ∈ mid, m.pValue.isSome) → b.pValue.isSome → c.name a ≠ c.name b
  sections : ∀ pre a mid b post, items = pre ++ a :: (mid ++ b :: post) → a.pValue = none →
    b.pValue = none → ¬ EqualIgnoringCase (c.name a) (c.name b)

/-- Every call returned an item with the context as the tokenizer left it, after reading again
exactly the earlier properties of the same section, or the earlier section headers. -/
def RescansEarlier (c : Context) (items : List Item) : Prop :=
  ∀ pre item post, items = pre ++ item :: post → ∃ d r, Calls c pre d ∧
    libManifest2GetNextItem d = some r ∧ r.item = item ∧
      static_libManifest2GetNextItemInternal d = some r ∧
        ∃ seen left, rescan r d.nOffset = some (false, seen, left) ∧
          (item.pValue.isSome → seen = openSection pre) ∧
          (item.pValue = none →
            seen.filter (·.pValue.isNone) = pre.filter (·.pValue.isNone))

/-- The calls return these items and then find no more. -/
def Enumerates (c : Context) (items : List Item) : Prop :=
  ∃ d r, Calls c items d ∧ libManifest2GetNextItem d = some r ∧
    r.nResult = .S_ERROR_ITEM_NOT_FOUND

theorem openSection_append (h : ∀ m ∈ mid, m.pValue.isSome) :
    openSection (pre ++ mid) = openSection pre ++ mid := by
  induction mid using reverseRecOn with
  | nil => rw [append_nil, append_nil]
  | append_singleton mid m ih =>
    rw [← append_assoc, openSection_property _ (h m (by simp)),
      ih fun x hx => h x (mem_append_left _ hx), append_assoc]

theorem mem_openSection (ha : a.pValue.isSome)
    (h : ∀ m ∈ mid, m.pValue.isSome) : a ∈ openSection (pre ++ a :: mid) := by
  have hall : ∀ m ∈ a :: mid, m.pValue.isSome := by
    intro m hm
    rcases mem_cons.mp hm with rfl | hm
    · exact ha
    · exact h m hm
  rw [openSection_append hall]
  exact mem_append_right _ mem_cons_self

/-- Properties that were compared have different names. -/
theorem name_ne_of_compared (ha : c.Named a) (hb : c.Named b)
    (hvalue : b.pValue.isSome) (h : isDuplicate c b a = false) : c.name a ≠ c.name b := by
  intro heq
  have hlength : a.nNameLength = b.nNameLength := by
    rw [← ha.length, ← hb.length, heq]
  unfold isDuplicate at h
  rw [if_neg fun hnot => by rw [hnot.2] at hvalue; cases hvalue] at h
  simp [hlength, heq] at h

/-- Section headers that were compared have names that differ beyond case. -/
theorem not_equalIgnoringCase_of_compared (ha : c.Named a) (hb : c.Named b)
    (htype : c.nType = .SOURCE_WITH_SECTIONS) (hvalueA : a.pValue = none)
    (hvalueB : b.pValue = none) (h : isDuplicate c b a = false) :
    ¬ EqualIgnoringCase (c.name a) (c.name b) := by
  intro heq
  have hequal := (static_sectionNameEqualCaseInsensitive_iff (hb.checked hvalueB)
    (ha.checked hvalueA)).mpr heq.symm
  unfold isDuplicate at h
  rw [if_pos ⟨htype, hvalueB⟩] at h
  simp [hvalueA, hequal] at h

/-- What the check of a source manifest guarantees when it succeeds. -/
theorem checkFormat_accepts {c left : Context} {count : Option Nat}
    (hsource : c.nType ≠ .COMPILED)
    (h : libManifest2CheckFormat c = some (.S_SUCCESS, count, left)) :
    ∃ items, itemsChecked c = some (.S_SUCCESS, items, left) ∧ count = some items.length ∧
      Enumerates (libManifest2InitContext left) items ∧ DistinctNames c items ∧
        RescansEarlier (libManifest2InitContext c) items := by
  obtain ⟨⟨result, items, left'⟩, hchecked, heq⟩ := Option.map_eq_some_iff.mp h
  simp only [Prod.mk.injEq] at heq
  obtain ⟨rfl, hcount, rfl⟩ := heq
  have hstart : c.SameFile c.start := ⟨rfl, rfl⟩
  obtain ⟨⟨e, r, hcalls, hlast, hend⟩, hfile, hpositions⟩ :=
    (reachedBy_start c).checkItems .start hsource hchecked
  rw [nil_append] at hcalls
  refine ⟨items, hchecked, hcount.symm, ⟨e, r, ?_, hlast, hend⟩, ⟨?_, ?_⟩, ?_⟩
  · have hinit : libManifest2InitContext left' = c.start := by
      unfold libManifest2InitContext Context.start
      rw [hfile.nType, hfile.content]
    rw [hinit]
    exact hcalls
  · intro pre a mid b post heq ha hmid hb
    obtain ⟨d, q, -, -, rfl, hpassed, hreached⟩ :=
      hpositions (pre ++ a :: mid) b post (by rw [heq]; simp)
    rw [nil_append] at hpassed hreached
    have hmem : a ∈ compared (pre ++ a :: mid) q.item := by
      unfold compared
      rw [if_pos hb]
      exact mem_openSection ha hmid
    have hnamed := hreached.reads.named a (by simp)
    have hqnamed := (hstart.trans hreached.reads.sameFile).named
      (internal_advances hpassed.read hpassed.success).named
    exact name_ne_of_compared (hstart.named hnamed) hqnamed hb (hpassed.different a hmem)
  · intro pre a mid b post heq ha hb
    obtain ⟨d, q, -, -, rfl, hpassed, hreached⟩ :=
      hpositions (pre ++ a :: mid) b post (by rw [heq]; simp)
    rw [nil_append] at hpassed hreached
    have hadvances := internal_advances hpassed.read hpassed.success
    have hdFile := hstart.trans hreached.reads.sameFile
    have htype : c.nType = .SOURCE_WITH_SECTIONS := by
      cases hadvances.kind with
      | header _ hsections => exact hdFile.nType.symm.trans hsections
      | property hvalue =>
        rw [hb] at hvalue
        cases hvalue
    have hmem : a ∈ compared (pre ++ a :: mid) q.item := by
      unfold compared
      rw [if_neg (by rw [hb]; exact false_ne_true)]
      simp
    have hnamed := hreached.reads.named a (by simp)
    exact not_equalIgnoringCase_of_compared (hstart.named hnamed)
      (hdFile.named hadvances.named) htype ha hb (hpassed.different a hmem)
  · intro pre item post heq
    obtain ⟨d, q, hcallsPre, hq, rfl, hpassed, -⟩ := hpositions pre item post heq
    rw [nil_append] at hcallsPre hpassed
    obtain ⟨scanned, hrescan⟩ := hpassed.rescan
    refine ⟨d, q, hcallsPre, hq, rfl, hpassed.read, _, scanned, hrescan, ?_, ?_⟩
    · intro hvalue
      unfold compared
      exact if_pos hvalue
    · intro hvalue
      unfold compared
      rw [if_neg (by rw [hvalue]; exact false_ne_true)]

/-- `[A]`, the properties `x:1` and `y:`, and `[b]` with an `x:2` of its own. -/
def twoSections : Context where
  nType := .SOURCE_WITH_SECTIONS
  pManifestContent := [0x5B, 0x41, 0x5D, 0x0A, 0x78, 0x3A, 0x31, 0x0A, 0x79, 0x3A, 0x0A,
    0x5B, 0x62, 0x5D, 0x0A, 0x78, 0x3A, 0x32]
  nOffset := 0
  nLine := 1
  nSectionStartOffset := 0

/-- The context after its check. -/
def twoSectionsChecked : Context :=
  { twoSections with nOffset := 18, nLine := 5, nSectionStartOffset := 14 }

theorem twoSections_accepted :
    ∃ items, itemsChecked twoSections = some (.S_SUCCESS, items, twoSectionsChecked) ∧
      some 5 = some items.length ∧
        Enumerates (libManifest2InitContext twoSectionsChecked) items ∧
          DistinctNames twoSections items ∧
            RescansEarlier (libManifest2InitContext twoSections) items :=
  checkFormat_accepts (by decide) (by decide)

end OmapHal.Manifest
