import Mathlib.Data.List.DropRight
import OmapHal.Core.Utf8
import OmapHal.Manifest.Progress

/-!
# Values of properties

The bytes of a character that the value loop is in the middle of are told by the count of the bytes
still expected and by the bits so far. So the loop accepts a line exactly if these bytes and the
rest of the line are a text.
-/

namespace OmapHal.Manifest

open OmapHal.Core.Utf8 List Option

variable {char' p last : Nat} {y : UInt8} {compiled : Bool}

variable {c : Context} {r : Read} {rest l : List UInt8} {x n char : Nat} {m : List Nat}

/-! ### One byte -/

theorem sequenceStep_ascii (h : x < 0x80) :
    sequenceStep x n char = if n ≠ 0 ∨ x = 0 then none else some (0, x) := by
  have hbit : x &&& 0x80 = 0 := by
    revert x
    decide +kernel
  by_cases hn : n = 0 <;> by_cases hzero : x = 0 <;> simp [sequenceStep, hbit, hn, hzero]

/-- A continuation byte. -/
theorem sequenceStep_continuation (h : 0x80 ≤ x) (h' : x < 0xC0) : sequenceStep x n char =
    if n = 0 ∨ (n = 2 ∧ char = 0 ∧ x < 0xA0) ∨ (n = 3 ∧ char = 0 ∧ x < 0x90) then none
    else some (n - 1, char * 64 + (x - 0x80)) := by
  have hbits : (x &&& 0x80 ≠ 0 ∧ x &&& 0xC0 = 0x80) ∧
      ((x &&& 0x20 = 0 ↔ x < 0xA0) ∧ (x &&& 0x30 = 0 ↔ x < 0x90)) ∧ x &&& 0x3F = x - 0x80 := by
    revert x
    decide +kernel
  obtain ⟨⟨h80, hC0⟩, ⟨h20, h30⟩, h3F⟩ := hbits
  have hchar : char <<< 6 ||| x - 0x80 = char * 64 + (x - 0x80) := by
    rw [← Nat.shiftLeft_add_eq_or_of_lt (by omega), Nat.shiftLeft_eq]
  simp only [sequenceStep, h80, hC0, h20, h30, h3F, hchar, if_false]
  by_cases hn : n = 0
  · simp [hn]
  by_cases h2 : n = 2 ∧ char = 0 ∧ x < 0xA0
  · simp [h2]
  by_cases h3 : n = 3 ∧ char = 0 ∧ x < 0x90
  · simp [h3]
  · simp [hn, h2, h3]

/-- A lead byte. -/
theorem sequenceStep_lead (h : 0xC0 ≤ x) (h' : x < 0x100) : sequenceStep x n char =
    if n ≠ 0 ∨ x < 0xC2 ∨ 0xF8 ≤ x then none
    else if x < 0xE0 then some (1, x - 0xC0)
    else if x < 0xF0 then some (2, x - 0xE0)
    else some (3, x - 0xF0) := by
  have hbits : (x &&& 0x80 ≠ 0 ∧ x &&& 0xC0 = 0xC0) ∧ ((x &&& 0xE0 = 0xC0 ↔ x < 0xE0) ∧
      (x < 0xE0 → (x &&& 0x1E = 0 ↔ x < 0xC2) ∧ x &&& 0x1F = x - 0xC0)) ∧
      ((¬ x < 0xE0 → (x &&& 0xF0 = 0xE0 ↔ x < 0xF0)) ∧
        (¬ x < 0xE0 → x < 0xF0 → x &&& 0x0F = x - 0xE0)) ∧
      ((¬ x < 0xF0 → (x &&& 0xF8 = 0xF0 ↔ x < 0xF8)) ∧
        (¬ x < 0xF0 → x < 0xF8 → x &&& 0x07 = x - 0xF0)) := by
    revert x
    decide +kernel
  obtain ⟨⟨h80, hC0⟩, ⟨hE0, h1F⟩, ⟨hF0, h0F⟩, hF8, h07⟩ := hbits
  simp only [sequenceStep, h80, hC0, hE0, if_false, if_true]
  by_cases hn : n = 0
  · by_cases h2 : x < 0xE0
    · obtain ⟨h1E, h1F⟩ := h1F h2
      by_cases hC2 : x < 0xC2
      · simp [hn, h2, h1E, hC2]
      · simp [hn, h2, h1E, h1F, hC2, show ¬ 0xF8 ≤ x by omega]
    by_cases h3 : x < 0xF0
    · simp [hn, h2, hF0 h2, h3, h0F h2 h3, show ¬ x < 0xC2 by omega, show ¬ 0xF8 ≤ x by omega]
    by_cases h4 : x < 0xF8
    · simp [hn, h2, hF0 h2, h3, hF8 h3, h4, h07 h3 h4, show ¬ x < 0xC2 by omega]
    · simp [hn, h2, hF0 h2, h3, hF8 h3, h4, not_lt.mp h4]
  · simp [hn]

/-! ### The character so far -/

/-- The bytes of the character that is not complete. -/
def pending : Nat → Nat → List Nat
  | 1, char =>
    if char < 0x20 then [char + 0xC0]
    else if char < 0x400 then [char / 64 + 0xE0, char % 64 + 0x80]
    else [char / 4096 + 0xF0, char / 64 % 64 + 0x80, char % 64 + 0x80]
  | 2, char => if char < 0x10 then [char + 0xE0] else [char / 64 + 0xF0, char % 64 + 0x80]
  | 3, char => [char + 0xF0]
  | _, _ => []

/-- The bits that a character may have so far. -/
def Partway (n char : Nat) : Prop :=
  n = 0 ∨ (n = 1 ∧ 2 ≤ char ∧ char < 0x8000) ∨ (n = 2 ∧ char < 0x200) ∨ (n = 3 ∧ char < 8)

/-- A byte that leaves the character incomplete. -/
theorem partway_of_step (hx : x < 0x100) (h : Partway n char) {n' : Nat}
    (hstep : sequenceStep x n char = some (n', char')) (hn : n' ≠ 0) :
    Partway n' char' ∧ pending n' char' = pending n char ++ [x] := by
  rcases lt_or_ge x 0x80 with hlow | hlow
  · rw [sequenceStep_ascii hlow] at hstep
    split at hstep <;> cases hstep
    exact absurd rfl hn
  rcases lt_or_ge x 0xC0 with hmid | hmid
  · rw [sequenceStep_continuation hlow hmid] at hstep
    split at hstep <;> cases hstep
    rcases h with rfl | ⟨rfl, -⟩ | ⟨rfl, hchar⟩ | ⟨rfl, hchar⟩
    · exact absurd rfl hn
    · exact absurd rfl hn
    · refine ⟨.inr (.inl ⟨rfl, by omega, by omega⟩), ?_⟩
      rcases lt_or_ge char 0x10 with hshort | hlong
      · simp only [pending, if_pos hshort]
        rw [if_neg (by omega), if_pos (by omega)]
        simp only [cons_append, nil_append, cons.injEq, and_true]
        omega
      · simp only [pending, if_neg (not_lt.mpr hlong)]
        rw [if_neg (by omega), if_neg (by omega)]
        simp only [cons_append, nil_append, cons.injEq, and_true]
        omega
    · refine ⟨.inr (.inr (.inl ⟨rfl, by omega⟩)), ?_⟩
      simp only [pending]
      rw [if_neg (by omega)]
      simp only [cons_append, nil_append, cons.injEq, and_true]
      omega
  · rw [sequenceStep_lead hmid hx] at hstep
    split at hstep
    · cases hstep
    have hzero : n = 0 := by omega
    subst hzero
    split at hstep
    · cases hstep
      refine ⟨.inr (.inl ⟨rfl, by omega, by omega⟩), ?_⟩
      simp only [pending]
      rw [if_pos (by omega), nil_append, Nat.sub_add_cancel hmid]
    split at hstep
    · cases hstep
      refine ⟨.inr (.inr (.inl ⟨rfl, by omega⟩)), ?_⟩
      simp only [pending]
      rw [if_pos (by omega), nil_append, Nat.sub_add_cancel (by omega)]
    · cases hstep
      refine ⟨.inr (.inr (.inr ⟨rfl, by omega⟩)), ?_⟩
      simp only [pending]
      rw [nil_append, Nat.sub_add_cancel (by omega)]

/-- A byte that completes the character. -/
theorem encode_of_step (hx : x < 0x100) (h : Partway n char)
    (hstep : sequenceStep x n char = some (0, char')) :
    encode char' = pending n char ++ [x] := by
  rcases lt_or_ge x 0x80 with hlow | hlow
  · rw [sequenceStep_ascii hlow] at hstep
    split at hstep <;> cases hstep
    have hzero : n = 0 := by omega
    subst hzero
    exact if_pos hlow
  rcases lt_or_ge x 0xC0 with hmid | hmid
  · rw [sequenceStep_continuation hlow hmid] at hstep
    split at hstep
    · cases hstep
    obtain ⟨hone, rfl⟩ := Prod.mk.inj (some.inj hstep)
    have hn : n = 1 := by omega
    subst hn
    obtain ⟨hchar, hchar'⟩ : 2 ≤ char ∧ char < 0x8000 := by
      rw [Partway] at h
      omega
    rw [encode, if_neg (by omega), pending]
    rcases lt_or_ge char 0x20 with h2 | h2
    · rw [if_pos h2, if_pos (by omega)]
      simp only [cons_append, nil_append, cons.injEq, and_true]
      omega
    rw [if_neg (not_lt.mpr h2), if_neg (by omega)]
    rcases lt_or_ge char 0x400 with h3 | h3
    · rw [if_pos h3, if_pos (by omega)]
      simp only [cons_append, nil_append, cons.injEq, and_true]
      omega
    · rw [if_neg (not_lt.mpr h3), if_neg (by omega)]
      simp only [cons_append, nil_append, cons.injEq, and_true]
      omega
  · rw [sequenceStep_lead hmid hx] at hstep
    split at hstep
    · cases hstep
    split at hstep
    · cases hstep
    split at hstep <;> cases hstep

/-- A byte that is not taken is in no text behind those of the character. -/
theorem not_encoded_of_step (hx : x < 0x100) (hzero : x ≠ 0) (h : Partway n char)
    (hstep : sequenceStep x n char = none) : ¬ Encoded (pending n char ++ x :: m) := by
  intro htext
  obtain ⟨v, s, hv, heq, -⟩ := htext.exists_cons (append_ne_nil_of_right_ne_nil _ (by simp))
  have hlt : v < 0x110000 := lt_of_isValidChar hv
  have hrefused : (n ≠ 0 ∧ x < 0x80) ∨ (0x80 ≤ x ∧ x < 0xC0 ∧
      (n = 0 ∨ (n = 2 ∧ char = 0 ∧ x < 0xA0) ∨ (n = 3 ∧ char = 0 ∧ x < 0x90))) ∨
      (0xC0 ≤ x ∧ (n ≠ 0 ∨ x < 0xC2 ∨ 0xF8 ≤ x)) := by
    rcases lt_or_ge x 0x80 with hlow | hlow
    · rw [sequenceStep_ascii hlow] at hstep
      split at hstep
      · omega
      · cases hstep
    rcases lt_or_ge x 0xC0 with hmid | hmid
    · rw [sequenceStep_continuation hlow hmid] at hstep
      split at hstep
      · exact .inr (.inl ⟨hlow, hmid, ‹_›⟩)
      · cases hstep
    · rw [sequenceStep_lead hmid hx] at hstep
      split at hstep
      · exact .inr (.inr ⟨hmid, ‹_›⟩)
      split at hstep
      · cases hstep
      split at hstep <;> cases hstep
  clear hstep
  rcases h with rfl | ⟨rfl, hchar, hchar'⟩ | ⟨rfl, hchar⟩ | ⟨rfl, hchar⟩ <;>
  simp only [pending] at heq <;>
  rcases encode_cases v with ⟨_, hev⟩ | ⟨_, _, hev⟩ | ⟨_, _, hev⟩ | ⟨_, hev⟩ <;>
  rw [hev] at heq <;> (try split at heq) <;> (try split at heq) <;>
  simp only [cons_append, nil_append, cons.injEq] at heq <;> omega

/-- A text does not end in the middle of a character. -/
theorem not_encoded_pending (h : Partway n char) (hn : n ≠ 0) : ¬ Encoded (pending n char) := by
  intro htext
  obtain ⟨v, s, hv, heq, -⟩ := htext.exists_cons (by
    rcases h with rfl | ⟨rfl, -⟩ | ⟨rfl, -⟩ | ⟨rfl, -⟩ <;> simp only [pending]
    · exact absurd rfl hn
    · split <;> (try split) <;> simp
    · split <;> simp
    · simp)
  have hlt : v < 0x110000 := lt_of_isValidChar hv
  rcases h with rfl | ⟨rfl, hchar, hchar'⟩ | ⟨rfl, hchar⟩ | ⟨rfl, hchar⟩ <;>
  simp only [pending] at heq <;>
  rcases encode_cases v with ⟨_, hev⟩ | ⟨_, _, hev⟩ | ⟨_, _, hev⟩ | ⟨_, hev⟩ <;>
  rw [hev] at heq <;> (try split at heq) <;> (try split at heq) <;>
  simp only [cons_append, nil_append, cons.injEq, reduceCtorEq, and_false] at heq <;>
  omega

theorem encoded_pending_iff (h : Partway n char) : Encoded (pending n char) ↔ n = 0 := by
  refine ⟨fun htext => ?_, ?_⟩
  · by_contra hn
    exact not_encoded_pending h hn htext
  · rintro rfl
    exact encoded_nil

/-! ### A line -/

/-- The bytes in front of the end of the line. -/
def lineOf (l : List UInt8) : List UInt8 := l.takeWhile fun x => !isLineEnd x

/-- A string without the white space around it. -/
def trimmed (l : List UInt8) : List UInt8 := (l.dropWhile isBlank).rdropWhile isBlank

/-- The bytes of the characters of a text, none of which is NUL. -/
def WellFormed (l : List UInt8) : Prop :=
  (∃ chars : List Char, l = chars.flatMap String.utf8EncodeChar) ∧ 0 ∉ l

private theorem lineOf_cons_of_end (hy : isLineEnd y) : lineOf (y :: l) = [] := by
  simp [lineOf, hy]

theorem lineOf_cons (hy : isLineEnd y = false) :
    lineOf (y :: l) = y :: lineOf l := by
  simp [lineOf, hy]

theorem illegalCodePoint_iff : illegalCodePoint char ↔ ¬ char.isValidChar := by
  simp only [illegalCodePoint, Nat.isValidChar, Bool.or_eq_true, Bool.and_eq_true,
    decide_eq_true_eq]
  omega

private theorem isLineEnd_lt (hy : isLineEnd y) :
    y.toNat < 0x80 ∧ y.toNat ≠ 0 ∧ y.toNat.isValidChar := by
  rcases isLineEnd_iff.mp hy with rfl | rfl <;> exact ⟨by decide, by decide, .inl (by decide)⟩

/-- The end of a line is taken between characters only, and then it is the end of the loop. -/
theorem scanValue_of_end (hy : isLineEnd y) :
    ∃ pEnd lines, scanValue compiled p last n char (y :: l) =
      if n = 0 then some (pEnd, last, lines) else none := by
  obtain ⟨hlow, hzero, hvalid⟩ := isLineEnd_lt hy
  have hlegal : illegalCodePoint y.toNat = false :=
    Bool.eq_false_iff.mpr fun h => illegalCodePoint_iff.mp h hvalid
  rw [scanValue, sequenceStep_ascii hlow]
  by_cases hn : n = 0
  · rw [if_neg (by omega)]
    simp only [hlegal, if_pos hn]
    rcases isLineEnd_iff.mp hy with rfl | rfl <;> cases compiled <;>
      exact ⟨_, _, rfl⟩
  · rw [if_pos (.inl hn)]
    exact ⟨0, 0, (if_neg hn).symm⟩

/-- The loop takes a line exactly if its bytes, behind those of the character that is not complete,
are a text without NUL. -/
theorem scanValue_isSome_iff (h : Partway n char) :
    (scanValue compiled p last n char l).isSome ↔
      Encoded (pending n char ++ (lineOf l).map UInt8.toNat) ∧ 0 ∉ lineOf l := by
  induction l generalizing p last n char with
  | nil =>
    have hline : (Encoded (pending n char ++ (lineOf []).map UInt8.toNat) ∧ 0 ∉ lineOf []) ↔
        n = 0 := by
      simp [lineOf, encoded_pending_iff h]
    rw [hline, scanValue]
    by_cases hn : n = 0 <;> simp [hn]
  | cons y l ih =>
    by_cases hy : isLineEnd y
    · obtain ⟨pEnd, lines, heq⟩ := scanValue_of_end hy
      have hline : (Encoded (pending n char ++ (lineOf (y :: l)).map UInt8.toNat) ∧
          0 ∉ lineOf (y :: l)) ↔ n = 0 := by
        simp [lineOf_cons_of_end hy, encoded_pending_iff h]
      rw [heq, hline]
      by_cases hn : n = 0 <;> simp [hn]
    have hlt : y.toNat < 0x100 := y.toNat_lt
    rw [lineOf_cons (Bool.eq_false_iff.mpr hy), map_cons]
    rw [isLineEnd_iff, not_or] at hy
    rw [scanValue]
    cases hstep : sequenceStep y.toNat n char with
    | none =>
      refine iff_of_false Bool.false_ne_true fun htext => ?_
      refine not_encoded_of_step hlt (fun hzero => htext.2 ?_) h hstep htext.1
      have hnul : y = 0 := UInt8.toNat_inj.mp hzero
      exact hnul ▸ mem_cons_self
    | some found =>
      obtain ⟨n', char'⟩ := found
      have hnul : (0 : UInt8) ∉ y :: lineOf l ↔ 0 ∉ lineOf l := by
        rw [mem_cons, not_or, and_iff_right]
        rintro rfl
        rw [show (0 : UInt8).toNat = 0 from rfl, sequenceStep_ascii (by decide), if_pos (.inr rfl)]
          at hstep
        cases hstep
      dsimp only
      rw [hnul]
      by_cases hn : n' = 0
      · subst hn
        have hencode := encode_of_step hlt h hstep
        have htext : Encoded (pending n char ++ y.toNat :: (lineOf l).map UInt8.toNat) ↔
            char'.isValidChar ∧ Encoded ((lineOf l).map UInt8.toNat) := by
          rw [append_cons, ← hencode, encoded_append_iff]
        rw [htext]
        by_cases hvalid : char'.isValidChar
        · have hlegal : ¬ illegalCodePoint char' = true := fun hill =>
            illegalCodePoint_iff.mp hill hvalid
          simp only [hlegal, hy, hvalid, and_false, if_false, true_and, Bool.false_eq_true]
          exact ih (.inl rfl)
        · rw [if_pos ⟨rfl, illegalCodePoint_iff.mpr hvalid⟩]
          exact iff_of_false Bool.false_ne_true fun hboth => hvalid hboth.1.1
      · obtain ⟨hpartway, hpending⟩ := partway_of_step hlt h hstep hn
        simp only [hn, false_and, if_false]
        rw [ih hpartway, hpending, ← append_cons]

theorem rdropWhile_cons (y : UInt8) (l : List UInt8) : (y :: l).rdropWhile isBlank =
    if l.rdropWhile isBlank = [] then if isBlank y then [] else [y]
    else y :: l.rdropWhile isBlank := by
  simp only [rdropWhile, reverse_cons, dropWhile_append, reverse_eq_nil_iff]
  by_cases h : l.reverse.dropWhile isBlank = []
  · by_cases hy : isBlank y = true <;> simp [h, hy]
  · simp [h]

/-- The last character that is no white space, if there is one on the line. -/
theorem scanValue_last {pEnd last' lines : Nat}
    (h : scanValue compiled p last n char l = some (pEnd, last', lines)) :
    last' + 1 = if (lineOf l).rdropWhile isBlank = [] then last + 1
      else p + ((lineOf l).rdropWhile isBlank).length := by
  induction l generalizing p last n char with
  | nil =>
    rw [scanValue] at h
    split at h <;> cases h
    rfl
  | cons y l ih =>
    by_cases hy : isLineEnd y
    · obtain ⟨pEnd', lines', heq⟩ := scanValue_of_end hy
      rw [heq] at h
      split at h <;> cases h
      rw [lineOf_cons_of_end hy]
      rfl
    rw [lineOf_cons (Bool.eq_false_iff.mpr hy), rdropWhile_cons]
    rw [isLineEnd_iff, not_or] at hy
    rw [scanValue] at h
    cases hstep : sequenceStep y.toNat n char with
    | none => simp [hstep] at h
    | some found =>
      simp only [hstep, hy, and_false, if_false] at h
      split at h
      · cases h
      have hlast := ih h
      by_cases hrest : (lineOf l).rdropWhile isBlank = []
      · rw [if_pos hrest] at hlast ⊢
        by_cases hblank : isBlank y
        · simpa [hblank] using hlast
        · simpa [hblank] using hlast
      · rw [if_neg hrest] at hlast ⊢
        rw [hlast, if_neg (cons_ne_nil y _), length_cons]
        omega

/-! ### A value -/

theorem wellFormed_iff : WellFormed l ↔ Encoded (l.map UInt8.toNat) ∧ 0 ∉ l :=
  and_congr_left fun _ => encoded_iff_chars.symm

/-- White space before a text is no part of its characters. -/
theorem wellFormed_cons_of_blank (hy : isBlank y) :
    WellFormed (y :: l) ↔ WellFormed l := by
  have hbyte : (y.toNat < 0x80 ∧ y ≠ 0) ∧ y.toNat.isValidChar := by
    rcases isBlank_iff.mp hy with rfl | rfl <;> exact ⟨by decide, .inl (by decide)⟩
  obtain ⟨⟨hlow, hzero⟩, hvalid⟩ := hbyte
  have hencode : encode y.toNat = [y.toNat] := if_pos hlow
  have htext : Encoded (y.toNat :: l.map UInt8.toNat) ↔ Encoded (l.map UInt8.toNat) := by
    rw [← singleton_append, ← hencode, encoded_append_iff, and_iff_right hvalid]
  rw [wellFormed_iff, wellFormed_iff, map_cons, htext, mem_cons, not_or, and_iff_right hzero.symm]

theorem lineOf_cons_of_blank (hy : isBlank y) :
    lineOf (y :: l) = y :: lineOf l := by
  refine lineOf_cons (Bool.eq_false_iff.mpr fun hend => ?_)
  rcases isBlank_iff.mp hy with rfl | rfl <;> revert hend <;> decide

private theorem lineOf_dropWhile (l : List UInt8) :
    lineOf (l.dropWhile isBlank) = (lineOf l).dropWhile isBlank := by
  induction l with
  | nil => rfl
  | cons y l ih =>
    by_cases hy : isBlank y
    · rw [lineOf_cons_of_blank hy, dropWhile_cons_of_pos hy, dropWhile_cons_of_pos hy, ih]
    · rw [dropWhile_cons_of_neg hy]
      by_cases hend : isLineEnd y
      · rw [lineOf_cons_of_end hend]
        rfl
      · rw [lineOf_cons (Bool.eq_false_iff.mpr hend), dropWhile_cons_of_neg hy]

theorem wellFormed_dropWhile (l : List UInt8) :
    WellFormed (l.dropWhile isBlank) ↔ WellFormed l := by
  induction l with
  | nil => rfl
  | cons y l ih =>
    by_cases hy : isBlank y
    · rw [dropWhile_cons_of_pos hy, ih, wellFormed_cons_of_blank hy]
    · rw [dropWhile_cons_of_neg hy]

/-- The bytes of a value. -/
def Context.value (c : Context) (item : Item) : Option (List UInt8) :=
  item.pValue.map fun pValue => (c.pManifestContent.drop pValue).take item.nValueLength

/-- The property behind a good name is taken exactly if its line is well formed, and then its value
is the line without the white space around it. -/
theorem readProperty_accepts_iff {y : UInt8} {nameEnd : Nat} {afterColon : List UInt8}
    (hsuffix : y :: rest <:+ c.pManifestContent)
    (hfirst : static_checkCharacter y .CHARACTER_NAME_FIRST = true)
    (hname : scanName (c.nType = .COMPILED) (c.offsetOf (y :: rest) + 1)
      (c.offsetOf (y :: rest) + 1) rest = some (nameEnd, afterColon)) :
    ((∃ r, readProperty c y rest = some r ∧ r.nResult = .S_SUCCESS) ↔
      WellFormed (lineOf afterColon)) ∧
    ∀ r, readProperty c y rest = some r → r.nResult = .S_SUCCESS →
      c.value r.item = some (trimmed (lineOf afterColon)) := by
  have hrest := (dropWhile_suffix isBlank).trans (scanName_suffix hname)
  have hvalue := hrest.trans ((suffix_cons y rest).trans hsuffix)
  have hpos : 1 ≤ c.offsetOf (afterColon.dropWhile isBlank) := by
    have hlength := hrest.length_le
    have hlength' := hsuffix.length_le
    rw [length_cons] at hlength'
    rw [Context.offsetOf]
    omega
  have haccepts : (scanValue (c.nType = .COMPILED) (c.offsetOf (afterColon.dropWhile isBlank))
      (c.offsetOf (afterColon.dropWhile isBlank) - 1) 0 0
        (afterColon.dropWhile isBlank)).isSome ↔ WellFormed (lineOf afterColon) := by
    rw [scanValue_isSome_iff (.inl rfl), ← wellFormed_dropWhile, ← lineOf_dropWhile, wellFormed_iff]
    rfl
  rw [← haccepts, readProperty]
  simp only [hfirst, hname, if_true]
  cases hscan : scanValue (c.nType = .COMPILED) (c.offsetOf (afterColon.dropWhile isBlank))
      (c.offsetOf (afterColon.dropWhile isBlank) - 1) 0 0 (afterColon.dropWhile isBlank) with
  | none =>
    refine ⟨iff_of_false ?_ Bool.false_ne_true, fun r hr hs => ?_⟩
    · rintro ⟨r, hr, hs⟩
      obtain rfl := some.inj hr
      cases hs
    · obtain rfl := some.inj hr
      cases hs
  | some found =>
    obtain ⟨pEnd, last, lines⟩ := found
    refine ⟨iff_of_true ⟨_, rfl, rfl⟩ rfl, fun r hr _ => ?_⟩
    obtain rfl := some.inj hr
    have hlast := scanValue_last hscan
    have htrimmed : ((lineOf (afterColon.dropWhile isBlank)).rdropWhile isBlank).length =
        last + 1 - c.offsetOf (afterColon.dropWhile isBlank) := by
      split at hlast
      · next hempty =>
        rw [hempty, length_nil]
        omega
      · omega
    have hprefix : (lineOf (afterColon.dropWhile isBlank)).rdropWhile isBlank <+:
        afterColon.dropWhile isBlank :=
      ( rdropWhile_prefix isBlank _).trans ( takeWhile_prefix _)
    rw [Context.value, map_some, drop_offsetOf hvalue, ← htrimmed, trimmed,
      ← lineOf_dropWhile]
    exact congrArg some (prefix_iff_eq_take.mp hprefix).symm

/-- A file with one property, whose value has white space around a character of two bytes. -/
def accented : Context := ⟨.COMPILED, [107, 58, 32, 0xC3, 0xA9, 32, 10], 0, 1, 0⟩

theorem accented_accepts_iff :
    ((∃ r, readProperty accented 107 [58, 32, 0xC3, 0xA9, 32, 10] = some r ∧
      r.nResult = .S_SUCCESS) ↔ WellFormed (lineOf [32, 0xC3, 0xA9, 32, 10])) ∧
    ∀ r, readProperty accented 107 [58, 32, 0xC3, 0xA9, 32, 10] = some r →
      r.nResult = .S_SUCCESS →
        accented.value r.item = some (trimmed (lineOf [32, 0xC3, 0xA9, 32, 10])) :=
  readProperty_accepts_iff suffix_rfl rfl rfl

end OmapHal.Manifest
