import OmapHal.Core.Memory

/-!
# Splitting an AVC configuration

`iGetAVCConfigInfo` up to where it decodes: the slices that it takes for the sequence and the
picture parameter set, from start codes or from two lengths of 16 bits.
-/

namespace OmapHal.ConfigParser

open OmapHal.Core Option

variable {buffer : Memory} {length : Int} {fuel i k : Nat}

/-- A slice of the copied buffer. -/
structure Slice where
  start : Nat
  length : Nat
  deriving DecidableEq, Repr

/-- How `iGetAVCConfigInfo` goes on. -/
inductive Selection where
  /-- `MP4_INVALID_VOL_PARAM` -/
  | invalid
  | decode (sps pps : Slice)
  deriving DecidableEq, Repr

/-- `p[0] == 0 && p[1] == 0 && p[2] == 1`. -/
def isStartCode (buffer : Memory) (p : Nat) : Bool :=
  buffer p == 0 && buffer (p + 1) == 0 && buffer (p + 2) == 1

/-- `while (sps[i++] == 0 && i < length)`. -/
def skipZeros (buffer : Memory) (length : Int) : Nat → Nat → Nat
  | 0, i => i
  | n + 1, i => if buffer i = 0 ∧ (i + 1 : Int) < length then skipZeros buffer length n (i + 1)
    else i + 1

/-- The search for the next start code from `sps` on, with a length of 16 bits; `none` is a search
that is not over after so many rounds. -/
def findStartCode (buffer : Memory) (sps : Nat) (bound : Int) : Nat → Nat → Option Nat
  | 0, _ => none
  | n + 1, sps_length =>
    if isStartCode buffer (sps + sps_length) = false ∧ (sps_length : Int) < bound then
      findStartCode buffer sps bound n ((sps_length + 1) % 2 ^ 16)
    else some sps_length

/-- `(uint16)(p[1] << 8) | p[0]`. -/
def uint16At (buffer : Memory) (p : Nat) : Nat :=
  (buffer (p + 1)).toNat <<< 8 ||| (buffer p).toNat

/-- `iGetAVCConfigInfo` on the copy of its buffer, if that can be allocated; `none` is a search
that is not over yet. -/
def iGetAVCConfigInfo (allocates : Bool) (buffer : Memory) (length : Int) (fuel : Nat) :
    Option Selection :=
  if allocates = false ∨ length < 3 then some .invalid
  else
    let slices :=
      if buffer 0 = 0 ∧ buffer 1 = 0 then
        -- find SC at the beginning of the NAL
        let i := skipZeros buffer length length.toNat 0
        if buffer (i - 1) = 1 then
          (findStartCode buffer i (length - i - 2) fuel 0).map fun (sps_length : Nat) =>
            if (sps_length : Int) ≥ length - i - 2 then none
            else some (⟨i, sps_length⟩,
              ⟨i + sps_length + 3, ((length - i - sps_length - 3) % 2 ^ 16).toNat⟩)
        else some none
      else
        let sps_length := uint16At buffer 0
        let pps := 2 + sps_length
        some (some (⟨2, sps_length⟩, ⟨pps + 2, uint16At buffer pps⟩))
    slices.map fun slices =>
      match slices with
      | none => .invalid
      | some (sps, pps) =>
        if (sps.length + pps.length : Int) > length then .invalid else .decode sps pps

/-- The search ends, and the slices are parts of the buffer that do not overlap. -/
structure SplitsSafely (allocates : Bool) (buffer : Memory) (length : Int) : Prop where
  terminates : ∃ fuel selection, iGetAVCConfigInfo allocates buffer length fuel = some selection
  inside : ∀ fuel sps pps, iGetAVCConfigInfo allocates buffer length fuel = some (.decode sps pps) →
    (sps.start + sps.length : Int) ≤ length ∧ (pps.start + pps.length : Int) ≤ length ∧
      Memory.Apart sps.start sps.length pps.start pps.length

/-- The buffer begins with two zeros or more and 01, the `i`-th byte. -/
def BeginsUnit (buffer : Memory) (i : Nat) : Prop :=
  3 ≤ i ∧ (∀ k < i - 1, buffer k = 0) ∧ buffer (i - 1) = 1

/-- The lengths that the code counts in are enough: a first unit with more than 65535 places behind
it for a start code has one at the first 65536, and two length prefixes fit beside what they
announce. -/
def Fits (buffer : Memory) (length : Int) : Prop :=
  (∀ i : Nat, BeginsUnit buffer i → i + 65537 < length →
    ∃ k < 65536, isStartCode buffer (i + k) = true) ∧
  (¬(buffer 0 = 0 ∧ buffer 1 = 0) →
    (uint16At buffer 0 + uint16At buffer (2 + uint16At buffer 0) : Int) ≤ length →
      (uint16At buffer 0 + uint16At buffer (2 + uint16At buffer 0) + 4 : Int) ≤ length)

/-! ### The searches -/

theorem skipZeros_zeros (n i k : Nat) (hi : i ≤ k) (hk : k + 1 < skipZeros buffer length n i) :
    buffer k = 0 := by
  induction n generalizing i with
  | zero =>
    rw [skipZeros] at hk
    omega
  | succ n ih =>
    rw [skipZeros] at hk
    split at hk
    · next h =>
      rcases Nat.eq_or_lt_of_le hi with rfl | hlt
      · exact h.1
      · exact ih (i + 1) hlt hk
    · omega

theorem skipZeros_le (n i : Nat) (hi : (i : Int) < length) :
    (skipZeros buffer length n i : Int) ≤ length := by
  induction n generalizing i with
  | zero =>
    rw [skipZeros]
    omega
  | succ n ih =>
    rw [skipZeros]
    split
    · next h => exact ih (i + 1) (by push_cast; exact h.2)
    · push_cast
      omega

theorem BeginsUnit.skipZeros (h : BeginsUnit buffer i) (hlen : (i : Int) ≤ length) (n : Nat)
    (hk : k < i) (hn : i ≤ k + n) : skipZeros buffer length n k = i := by
  obtain ⟨-, hzeros, hone⟩ := h
  induction n generalizing k with
  | zero => omega
  | succ n ih =>
    rw [ConfigParser.skipZeros]
    by_cases hlast : k = i - 1
    · rw [if_neg, hlast]
      · omega
      · rintro ⟨h0, -⟩
        rw [hlast, hone] at h0
        exact absurd h0 (by decide)
    · rw [if_pos ⟨hzeros k (by omega), by omega⟩]
      exact ih (by omega) (by omega)

theorem beginsUnit_skipZeros (h0 : buffer 0 = 0) (h1 : buffer 1 = 0) {n : Nat}
    (hone : buffer (skipZeros buffer length n 0 - 1) = 1) :
    BeginsUnit buffer (skipZeros buffer length n 0) := by
  refine ⟨?_, fun k hk =>
    @skipZeros_zeros buffer length n 0 k (Nat.zero_le k) (by omega), hone⟩
  by_contra hlt
  have hcases : skipZeros buffer length n 0 - 1 = 0 ∨ skipZeros buffer length n 0 - 1 = 1 := by
    omega
  rcases hcases with hc | hc
  · rw [hc, h0] at hone
    exact absurd hone (by decide)
  · rw [hc, h1] at hone
    exact absurd hone (by decide)

variable {sps : Nat} {bound : Int}

/-- A place where the search ends is reached if 16 bits can count up to it. -/
theorem findStartCode_reaches {r : Nat} (hr : r < 2 ^ 16)
    (hstop : isStartCode buffer (sps + r) ∨ bound ≤ r) {n : Nat} (hk : k ≤ r)
    (hn : r < k + n) : ∃ r', findStartCode buffer sps bound n k = some r' := by
  induction n generalizing k with
  | zero => omega
  | succ n ih =>
    rw [findStartCode]
    split
    · next hgo =>
      have hne : k ≠ r := by
        rintro rfl
        rcases hstop with hcode | hbound
        · rw [hcode] at hgo
          cases hgo.1
        · exact absurd hgo.2 (Int.not_lt.mpr hbound)
      rw [Nat.mod_eq_of_lt (by omega)]
      exact ih (by omega) (by omega)
    · exact ⟨k, rfl⟩

/-- Without such a place the counter wraps around for ever. -/
theorem findStartCode_none (hno : ∀ k < 2 ^ 16, isStartCode buffer (sps + k) = false)
    (hbound : 2 ^ 16 ≤ bound) (n : Nat) (hk : k < 2 ^ 16) :
    findStartCode buffer sps bound n k = none := by
  induction n generalizing k with
  | zero => rfl
  | succ n ih =>
    rw [findStartCode, if_pos ⟨hno k hk, by omega⟩]
    exact ih (Nat.mod_lt _ (by decide))

/-! ### The slices -/

/-- The code runs into the search for the next start code. -/
theorem iGetAVCConfigInfo_search (h3 : 3 ≤ length) (hi : BeginsUnit buffer i)
    (hlen : (i : Int) ≤ length) (fuel : Nat) :
    iGetAVCConfigInfo true buffer length fuel =
      (findStartCode buffer i (length - i - 2) fuel 0).map fun (sps_length : Nat) =>
        if (sps_length : Int) ≥ length - i - 2 ∨
          (sps_length + ((length - i - sps_length - 3) % 2 ^ 16).toNat : Int) > length then .invalid
        else .decode ⟨i, sps_length⟩
          ⟨i + sps_length + 3, ((length - i - sps_length - 3) % 2 ^ 16).toNat⟩ := by
  have hskip : skipZeros buffer length length.toNat 0 = i :=
    hi.skipZeros hlen _ (by have := hi.1; omega) (by omega)
  obtain ⟨hge, hzeros, hone⟩ := hi
  have h01 : buffer 0 = 0 ∧ buffer 1 = 0 := ⟨hzeros 0 (by omega), hzeros 1 (by omega)⟩
  rw [iGetAVCConfigInfo, if_neg (by simp [h3])]
  simp only [if_pos h01, hskip, if_pos hone, map_map]
  congr 1
  funext sps_length
  by_cases hge : (sps_length : Int) ≥ length - i - 2
  · simp only [Function.comp_apply, if_pos hge, if_pos (Or.inl hge)]
  · simp only [Function.comp_apply, hge, if_false, false_or]

/-- The code takes the lengths of both units from the buffer. -/
theorem iGetAVCConfigInfo_prefixes (h3 : 3 ≤ length) (h01 : ¬(buffer 0 = 0 ∧ buffer 1 = 0))
    (fuel : Nat) : iGetAVCConfigInfo true buffer length fuel =
      some (if (uint16At buffer 0 + uint16At buffer (2 + uint16At buffer 0) : Int) > length then
          .invalid
        else .decode ⟨2, uint16At buffer 0⟩
          ⟨2 + uint16At buffer 0 + 2, uint16At buffer (2 + uint16At buffer 0)⟩) := by
  rw [iGetAVCConfigInfo, if_neg (by simp [h3])]
  simp only [if_neg h01, map_some]

/-- Everything else is refused. -/
theorem iGetAVCConfigInfo_invalid {allocates : Bool}
    (h : allocates = false ∨ length < 3 ∨ (buffer 0 = 0 ∧ buffer 1 = 0 ∧
      ∀ i : Nat, (i : Int) ≤ length → ¬BeginsUnit buffer i)) (fuel : Nat) :
    iGetAVCConfigInfo allocates buffer length fuel = some .invalid := by
  by_cases hearly : allocates = false ∨ length < 3
  · rw [iGetAVCConfigInfo, if_pos hearly]
  · obtain ⟨h0, h1, hno⟩ := (h.resolve_left fun ha => hearly (.inl ha)).resolve_left
      fun hl => hearly (.inr hl)
    have hone : ¬buffer (skipZeros buffer length length.toNat 0 - 1) = 1 := fun hone =>
      hno _ (skipZeros_le _ 0 (by omega)) (beginsUnit_skipZeros h0 h1 hone)
    rw [iGetAVCConfigInfo, if_neg hearly]
    simp only [if_pos (And.intro h0 h1), if_neg hone, map_some]

/-- The cases of `iGetAVCConfigInfo`. -/
theorem iGetAVCConfigInfo_cases (allocates : Bool) (buffer : Memory) (length : Int) :
    (allocates = false ∨ length < 3 ∨ (buffer 0 = 0 ∧ buffer 1 = 0 ∧
      ∀ i : Nat, (i : Int) ≤ length → ¬BeginsUnit buffer i)) ∨
    (allocates ∧ 3 ≤ length ∧ ∃ i : Nat, (i : Int) ≤ length ∧ BeginsUnit buffer i) ∨
    (allocates ∧ 3 ≤ length ∧ ¬(buffer 0 = 0 ∧ buffer 1 = 0)) := by
  by_cases ha : allocates = false
  · exact .inl (.inl ha)
  by_cases h3 : length < 3
  · exact .inl (.inr (.inl h3))
  have ha' : allocates := by simpa using ha
  by_cases h01 : buffer 0 = 0 ∧ buffer 1 = 0
  · by_cases hunit : ∃ i : Nat, (i : Int) ≤ length ∧ BeginsUnit buffer i
    · exact .inr (.inl ⟨ha', Int.not_lt.mp h3, hunit⟩)
    · exact .inl (.inr (.inr ⟨h01.1, h01.2, fun i hi hb => hunit ⟨i, hi, hb⟩⟩))
  · exact .inr (.inr ⟨ha', Int.not_lt.mp h3, h01⟩)

theorem splitsSafely_of_unit (h3 : 3 ≤ length) (hi : BeginsUnit buffer i)
    (hlen : (i : Int) ≤ length) :
    SplitsSafely true buffer length ↔
      (i + 65537 < length → ∃ k < 65536, isStartCode buffer (i + k)) := by
  have hsearch := iGetAVCConfigInfo_search h3 hi hlen
  constructor
  · rintro ⟨⟨fuel, selection, hsome⟩, -⟩ hlong
    by_contra hno
    have hnone : findStartCode buffer i (length - i - 2) fuel 0 = none := by
      apply findStartCode_none _ (by omega) fuel (by omega)
      intro k hk
      by_contra hcode
      exact hno ⟨k, hk, by simpa using hcode⟩
    rw [hsearch, hnone] at hsome
    cases hsome
  · intro hfits
    constructor
    · obtain ⟨r, hr, hstop⟩ : ∃ r : Nat, r < 2 ^ 16 ∧
          (isStartCode buffer (i + r) ∨ length - i - 2 ≤ r) := by
        by_cases hlong : i + 65537 < length
        · obtain ⟨k, hk, hcode⟩ := hfits hlong
          exact ⟨k, hk, .inl hcode⟩
        · exact ⟨(length - i - 2).toNat, by omega, .inr (by omega)⟩
      obtain ⟨r', hfound⟩ := findStartCode_reaches hr hstop (Nat.zero_le r)
        (show r < 0 + (r + 1) by omega)
      exact ⟨r + 1, _, by rw [hsearch, hfound]; rfl⟩
    · intro fuel sps pps hdecode
      rw [hsearch] at hdecode
      obtain ⟨r, -, hr⟩ := map_eq_some_iff.mp hdecode
      split at hr
      · cases hr
      · next hin =>
        obtain ⟨rfl, rfl⟩ := Selection.decode.inj hr
        have hlt : ¬(r : Int) ≥ length - i - 2 := fun h => hin (.inl h)
        refine ⟨?_, ?_, .inl ?_⟩
        · show ((i : Int) + r) ≤ length
          omega
        · show (((i + r + 3 : Nat) : Int) + (((length - i - r - 3) % 2 ^ 16).toNat : Int)) ≤ length
          omega
        · show i + r ≤ i + r + 3
          omega

theorem splitsSafely_of_prefixes (h3 : 3 ≤ length) (h01 : ¬(buffer 0 = 0 ∧ buffer 1 = 0)) :
    SplitsSafely true buffer length ↔
      ((uint16At buffer 0 + uint16At buffer (2 + uint16At buffer 0) : Int) ≤ length →
        (uint16At buffer 0 + uint16At buffer (2 + uint16At buffer 0) + 4 : Int) ≤ length) := by
  have hprefixes := iGetAVCConfigInfo_prefixes h3 h01
  constructor
  · rintro ⟨-, hinside⟩ hle
    rw [if_neg (Int.not_lt.mpr hle)] at hprefixes
    obtain ⟨-, hpps, -⟩ := hinside 0 _ _ (hprefixes 0)
    have hpps' : ((2 + uint16At buffer 0 + 2 : Nat) : Int) +
        (uint16At buffer (2 + uint16At buffer 0) : Int) ≤ length := hpps
    omega
  · intro hfits
    refine ⟨⟨0, _, hprefixes 0⟩, fun fuel sps pps hdecode => ?_⟩
    rw [hprefixes] at hdecode
    have hselected := some.inj hdecode
    split at hselected
    · cases hselected
    · next hle =>
      obtain ⟨rfl, rfl⟩ := Selection.decode.inj hselected
      have hroom := hfits (Int.not_lt.mp hle)
      refine ⟨?_, ?_, .inl ?_⟩
      · show ((2 : Nat) : Int) + (uint16At buffer 0 : Int) ≤ length
        omega
      · show ((2 + uint16At buffer 0 + 2 : Nat) : Int) +
          (uint16At buffer (2 + uint16At buffer 0) : Int) ≤ length
        omega
      · show 2 + uint16At buffer 0 ≤ 2 + uint16At buffer 0 + 2
        omega

/-- For every buffer and every length: the splitting is safe exactly if the lengths fit. -/
theorem splitsSafely_iff (allocates : Bool) (buffer : Memory) (length : Int) :
    SplitsSafely allocates buffer length ↔
      (allocates = true → 3 ≤ length → Fits buffer length) := by
  rcases iGetAVCConfigInfo_cases allocates buffer length with hinvalid |
    ⟨rfl, h3, i, hlen, hi⟩ | ⟨rfl, h3, h01⟩
  · have hrefused := iGetAVCConfigInfo_invalid hinvalid
    refine iff_of_true ⟨⟨0, _, hrefused 0⟩, fun fuel sps pps hdecode => ?_⟩ fun ha h3 => ?_
    · rw [hrefused] at hdecode
      cases hdecode
    · obtain ⟨h0, h1, hno⟩ := (hinvalid.resolve_left (by rw [ha]; decide)).resolve_left
        (Int.not_lt.mpr h3)
      exact ⟨fun i hi hlong => absurd hi (hno i (by omega)), fun h01 => absurd ⟨h0, h1⟩ h01⟩
  · rw [splitsSafely_of_unit h3 hi hlen]
    have h01 : buffer 0 = 0 ∧ buffer 1 = 0 :=
      ⟨hi.2.1 0 (by have := hi.1; omega), hi.2.1 1 (by have := hi.1; omega)⟩
    constructor
    · intro hfits _ _
      refine ⟨fun i' hi' hlong => ?_, fun hno => absurd h01 hno⟩
      have hskip := hi.skipZeros (k := 0) hlen (i + i') (by have := hi.1; omega) (by omega)
      have hskip' := hi'.skipZeros (k := 0) (show (i' : Int) ≤ length by omega) (i + i')
        (by have := hi'.1; omega) (by omega)
      obtain rfl := hskip.symm.trans hskip'
      exact hfits hlong
    · exact fun hfits => (hfits rfl h3).1 i hi
  · rw [splitsSafely_of_prefixes h3 h01]
    constructor
    · intro hfits _ _
      refine ⟨fun i hi => absurd ⟨hi.2.1 0 ?_, hi.2.1 1 ?_⟩ h01, fun _ => hfits⟩
      · have := hi.1
        omega
      · have := hi.1
        omega
    · exact fun hfits => (hfits rfl h3).2 h01

/-- Two lengths of one byte each in a buffer of five: the second unit begins behind the buffer. -/
theorem prefixes_split_unsafe : ¬∀ (allocates : Bool) (buffer : Memory) (length : Int),
    SplitsSafely allocates buffer length := by
  intro h
  have hinside := (h true (fun k => [1, 0, 7, 1, 0].getD k 0) 5).inside 0 ⟨2, 1⟩ ⟨5, 1⟩ (by decide)
  exact absurd hinside.2.1 (by decide)

/-- Nor does the search end in a long buffer without a second start code. -/
example (fuel : Nat) : iGetAVCConfigInfo true
    (fun k => if k < 2 then 0 else if k = 2 then 1 else 2) 70000 fuel = none := by
  rw [iGetAVCConfigInfo_search (i := 3) (by decide) ⟨by decide, by decide, by decide⟩ (by decide),
    findStartCode_none _ (by decide) fuel (by decide)]
  · rfl
  · intro k hk
    rw [isStartCode, if_neg (by omega), if_neg (by omega)]
    rfl

end OmapHal.ConfigParser
