import OmapHal.Core.Edges

/-!
# Sorting the edge coordinates

`rgz_bsort` and `rgz_bunique` work on an `int` array in place. An array is a
function of its index here, and the loops recurse on the number of their rounds.
Together they leave the distinct entries at the front, in increasing order.
-/

namespace OmapHal.Regionizer

open OmapHal.Core Nat Set Option

/-- The inner loop of `rgz_bsort` for index `i`, after `j` rounds. -/
def bsortInner (a : Nat → Int) (i : Nat) : Nat → Nat → Int
  | 0 => a
  | j + 1 =>
    let a := bsortInner a i j
    if a i < a j then exchange a i j else a

/-- `rgz_bsort`. -/
def rgz_bsort (a : Nat → Int) : Nat → Nat → Int
  | 0 => a
  | i + 1 => bsortInner (rgz_bsort a i) i i

section Sorted

variable {a : Nat → Int} {i j n : Nat}

/-- The inner loop keeps the entries before `i` in order and carries to `i` one that
is not below those it has passed. -/
theorem bsortInner_spec (ha : MonotoneOn a (Set.Iio i)) (hj : j ≤ i) :
    MonotoneOn (bsortInner a i j) (Set.Iio i) ∧
      ∀ k < j, bsortInner a i j k ≤ bsortInner a i j i := by
  induction j with
  | zero => exact ⟨ha, fun k hk => absurd hk (not_lt_zero k)⟩
  | succ j ih =>
    obtain ⟨hmono, hmax⟩ := ih (by omega)
    rw [bsortInner]
    split
    · rename_i hlt
      have hat : ∀ k, exchange (bsortInner a i j) i j k = if k = j then bsortInner a i j i
          else if k = i then bsortInner a i j j else bsortInner a i j k :=
        exchange_apply _ i j
      refine ⟨fun p hp q hq hpq => ?_, fun k hk => ?_⟩
      · rw [mem_Iio] at hp hq
        rw [hat, hat, if_neg (show p ≠ i by omega), if_neg (show q ≠ i by omega)]
        split
        · rename_i hpj
          split
          · exact le_refl _
          · have hjq := hmono (show j ∈ Iio i by exact hj) (show q ∈ Iio i from hq)
              (by omega)
            exact hlt.le.trans hjq
        · rename_i hpj
          split
          · exact hmax p (by omega)
          · exact hmono hp hq hpq
      · rw [hat, hat, if_neg (show i ≠ j by omega), if_pos rfl, if_neg (show k ≠ i by omega)]
        split
        · exact hlt.le
        · exact hmono (show k ∈ Iio i by exact (show k < i by omega))
            (show j ∈ Iio i by exact hj) (by omega)
    · rename_i hge
      refine ⟨hmono, fun k hk => ?_⟩
      rcases Nat.lt_succ_iff_lt_or_eq.mp hk with hk | rfl
      · exact hmax k hk
      · exact not_lt.mp hge

/-- The sorted part grows by one entry with every round of the outer loop. -/
theorem rgz_bsort_monotoneOn : MonotoneOn (rgz_bsort a n) (Set.Iio n) := by
  induction n with
  | zero => exact fun p hp => absurd hp (not_lt_zero p)
  | succ n ih =>
    obtain ⟨hmono, hmax⟩ := bsortInner_spec ih (le_refl n)
    rw [rgz_bsort]
    intro p hp q hq hpq
    rw [mem_Iio] at hp hq
    rcases Nat.lt_succ_iff_lt_or_eq.mp hq with hq | rfl
    · exact hmono (show p ∈ Iio n by exact (show p < n by omega)) hq hpq
    · rcases lt_or_eq_of_le hpq with hpq | rfl
      · exact hmax p hpq
      · exact le_refl _

theorem rearranges_bsortInner (hi : i < n) (hj : j ≤ n) :
    Rearranges a (bsortInner a i j) n := by
  induction j with
  | zero => exact Rearranges.refl a n
  | succ j ih =>
    rw [bsortInner]
    split
    · exact (ih (by omega)).trans (rearranges_exchange hi (by omega))
    · exact ih (by omega)

/-- The sort only rearranges. -/
theorem rearranges_rgz_bsort (hi : i ≤ n) : Rearranges a (rgz_bsort a i) n := by
  induction i with
  | zero => exact Rearranges.refl a n
  | succ i ih => exact (ih (by omega)).trans (rearranges_bsortInner hi (by omega))

end Sorted

/-- The first inner loop of `rgz_bunique`, with `n` entries left. -/
def skipEqual (a : Nat → Int) (base : Nat) : Nat → Nat → Nat
  | 0, skip => skip
  | n + 1, skip => if a base = a (base + skip) then skipEqual a base n (skip + 1) else skip

/-- The second inner loop of `rgz_bunique`, after `i` rounds. -/
def fillSkipped (a : Nat → Int) (base skip : Nat) : Nat → Nat → Int
  | 0 => a
  | i + 1 =>
    let a := fillSkipped a base skip i
    Function.update a (base + 1 + i) (a (base + skip))

/-- The outer loop of `rgz_bunique`, with `n` entries behind `base`. -/
def buniqueLoop (len : Nat) : Nat → (base unique : Nat) → (Nat → Int) → (Nat → Int) × Nat
  | 0, _, unique, a => (a, unique)
  | n + 1, base, unique, a =>
    if a base = a (base + 1) then
      let skip := skipEqual a base (n + 1) 1
      if base + skip = len then (a, unique)
      else buniqueLoop len n (base + 1) (unique + 1) (fillSkipped a base skip (skip - 1))
    else buniqueLoop len n (base + 1) (unique + 1) a

/-- `rgz_bunique`: the array afterwards and the result. -/
def rgz_bunique (a : Nat → Int) (len : Nat) : (Nat → Int) × Nat :=
  buniqueLoop len (len - 1) 0 1 a

section Unique

variable {a : Nat → Int} {base n skip len i k : Nat}

/-- The first inner loop stops at the end or behind the entries equal to the one at `base`. -/
theorem skipEqual_spec :
    skip ≤ skipEqual a base n skip ∧ skipEqual a base n skip ≤ skip + n ∧
      (∀ k, skip ≤ k → k < skipEqual a base n skip → a (base + k) = a base) ∧
      (skipEqual a base n skip < skip + n → a (base + skipEqual a base n skip) ≠ a base) := by
  induction n generalizing skip with
  | zero => exact ⟨le_refl _, le_refl _, fun k h h' => by rw [skipEqual] at h'; omega,
      fun h => by rw [skipEqual] at h; omega⟩
  | succ n ih =>
    rw [skipEqual]
    split
    · rename_i heq
      obtain ⟨h1, h2, h3, h4⟩ := @ih (skip + 1)
      refine ⟨by omega, by omega, fun k hk hk' => ?_, fun h => h4 (by omega)⟩
      rcases lt_or_eq_of_le hk with hk | rfl
      · exact h3 k hk hk'
      · exact heq.symm
    · rename_i hne
      exact ⟨le_refl _, by omega, fun k h h' => by omega, fun _ h => hne h.symm⟩

/-- The second inner loop writes the entry behind the equal ones over them. -/
theorem fillSkipped_apply (hi : i < skip) :
    fillSkipped a base skip i k =
      if base + 1 ≤ k ∧ k < base + 1 + i then a (base + skip) else a k := by
  induction i generalizing k with
  | zero => rw [fillSkipped, if_neg (by omega)]
  | succ i ih =>
    have hi' : i < skip := by omega
    have hread : fillSkipped a base skip i (base + skip) = a (base + skip) := by
      rw [ih hi', if_neg (by omega)]
    rw [fillSkipped, Function.update_apply, hread, ih hi']
    by_cases hk : k = base + 1 + i
    · rw [if_pos hk, if_pos (by omega)]
    · rw [if_neg hk]
      by_cases hin : base + 1 ≤ k ∧ k < base + 1 + i
      · rw [if_pos hin, if_pos (by omega)]
      · rw [if_neg hin, if_neg (by omega)]

/-- Overwriting a run of equal entries in a sorted array with the next larger one keeps
it sorted and keeps its values. -/
theorem fillSkipped_spec (ha : MonotoneOn a (Set.Iio len)) (hskip : 1 ≤ skip)
    (hlen : base + skip < len) (hrun : ∀ k, 1 ≤ k → k < skip → a (base + k) = a base) :
    MonotoneOn (fillSkipped a base skip (skip - 1)) (Set.Iio len) ∧
      Set.image (fillSkipped a base skip (skip - 1)) (Set.Iio len) =
        Set.image a (Set.Iio len) := by
  have hat : ∀ k, fillSkipped a base skip (skip - 1) k =
      if base + 1 ≤ k ∧ k < base + skip then a (base + skip) else a k := by
    intro k
    rw [fillSkipped_apply (by omega), show base + 1 + (skip - 1) = base + skip by omega]
  refine ⟨fun p hp q hq hpq => ?_, ?_⟩
  · have hle : ∀ {p q}, p ≤ q → q < len → a p ≤ a q := fun h h' =>
      ha (mem_Iio.mpr (h.trans_lt h')) (mem_Iio.mpr h') h
    rw [mem_Iio] at hp hq
    rw [hat, hat]
    split
    · split
      · exact le_refl _
      · exact hle (by omega) hq
    · split
      · exact hle (by omega) hlen
      · exact hle hpq hq
  · ext v
    constructor
    · rintro ⟨k, hk, rfl⟩
      rw [hat]
      split
      · exact ⟨base + skip, hlen, rfl⟩
      · exact ⟨k, hk, rfl⟩
    · rintro ⟨k, hk, rfl⟩
      rw [mem_Iio] at hk
      by_cases hin : base + 1 ≤ k ∧ k < base + skip
      · refine ⟨base, mem_Iio.mpr (by omega), ?_⟩
        have hkb := hrun (k - base) (by omega) (by omega)
        rw [show base + (k - base) = k by omega] at hkb
        rw [hat, if_neg (by omega), hkb]
      · exact ⟨k, hk, by rw [hat, if_neg hin]⟩

/-- One more entry that is larger than the last keeps the front strictly increasing. -/
theorem strictMonoOn_succ (h : StrictMonoOn a (Set.Iio (base + 1)))
    (hlt : a base < a (base + 1)) : StrictMonoOn a (Set.Iio (base + 1 + 1)) := by
  intro p hp q hq hpq
  rw [mem_Iio] at hp hq
  have hle : ∀ {p}, p ≤ base → a p ≤ a base := fun hp =>
    h.monotoneOn (mem_Iio.mpr (by omega)) (mem_Iio.mpr (by omega)) hp
  rcases Nat.lt_succ_iff_lt_or_eq.mp hq with hq | rfl
  · exact h (mem_Iio.mpr (by omega)) (mem_Iio.mpr hq) hpq
  · exact (hle (by omega)).trans_lt hlt

/-- The outer loop, from a sorted array whose front is strictly increasing. -/
theorem buniqueLoop_spec {unique : Nat} (hlen : len = base + 1 + n) (hu : unique = base + 1)
    (ha : MonotoneOn a (Set.Iio len)) (hs : StrictMonoOn a (Set.Iio (base + 1))) :
    1 ≤ (buniqueLoop len n base unique a).2 ∧ (buniqueLoop len n base unique a).2 ≤ len ∧
      StrictMonoOn (buniqueLoop len n base unique a).1
        (Set.Iio (buniqueLoop len n base unique a).2) ∧
      Set.image (buniqueLoop len n base unique a).1
        (Set.Iio (buniqueLoop len n base unique a).2) = Set.image a (Set.Iio len) := by
  induction n generalizing base unique a with
  | zero =>
    subst hu
    rw [add_zero] at hlen
    rw [buniqueLoop, hlen]
    exact ⟨by omega, le_refl _, hs, rfl⟩
  | succ n ih =>
    have hle : ∀ {p q}, p ≤ q → q < len → a p ≤ a q := fun h h' =>
      ha (mem_Iio.mpr (h.trans_lt h')) (mem_Iio.mpr h') h
    rw [buniqueLoop]
    split
    · rename_i heq
      obtain ⟨hk1, hk2, hrun, hend⟩ := @skipEqual_spec a base (n + 1) 1
      dsimp only
      split
      · rename_i hstop
        refine ⟨by omega, by omega, hu ▸ hs, ?_⟩
        -- everything behind the front repeats its last entry
        ext v
        constructor
        · rintro ⟨k, hk, rfl⟩
          rw [mem_Iio] at hk
          exact ⟨k, mem_Iio.mpr (by omega), rfl⟩
        · rintro ⟨k, hk, rfl⟩
          rw [mem_Iio] at hk
          rcases lt_or_ge k (base + 1) with hkb | hkb
          · exact ⟨k, mem_Iio.mpr (by omega), rfl⟩
          · refine ⟨base, mem_Iio.mpr (by omega), ?_⟩
            have hkr := hrun (k - base) (by omega) (by omega)
            rw [show base + (k - base) = k by omega] at hkr
            exact hkr.symm
      · rename_i hgo
        obtain ⟨hmono, himage⟩ := fillSkipped_spec ha hk1 (by omega) hrun
        have hbehind := hend (by omega)
        have hnext : a base < a (base + skipEqual a base (n + 1) 1) :=
          lt_of_le_of_ne (hle (by omega) (by omega)) fun h => hbehind h.symm
        have hat : ∀ k, fillSkipped a base (skipEqual a base (n + 1) 1)
            (skipEqual a base (n + 1) 1 - 1) k =
            if base + 1 ≤ k ∧ k < base + 1 + (skipEqual a base (n + 1) 1 - 1) then
              a (base + skipEqual a base (n + 1) 1) else a k :=
          fun k => fillSkipped_apply (by omega)
        have hfront : StrictMonoOn (fillSkipped a base (skipEqual a base (n + 1) 1)
            (skipEqual a base (n + 1) 1 - 1)) (Iio (base + 1)) := by
          intro p hp q hq hpq
          rw [mem_Iio] at hp hq
          rw [hat, hat, if_neg (by omega), if_neg (by omega)]
          exact hs hp hq hpq
        have hbase : fillSkipped a base (skipEqual a base (n + 1) 1)
            (skipEqual a base (n + 1) 1 - 1) base <
              fillSkipped a base (skipEqual a base (n + 1) 1)
                (skipEqual a base (n + 1) 1 - 1) (base + 1) := by
          have hrun1 : skipEqual a base (n + 1) 1 ≠ 1 := by
            intro h1
            rw [h1] at hbehind
            exact hbehind heq.symm
          rw [hat, hat, if_neg (by omega), if_pos (by omega)]
          exact hnext
        rw [← himage]
        exact ih (by omega) (by omega) hmono (strictMonoOn_succ hfront hbase)
    · rename_i hne
      have hlt : a base < a (base + 1) := lt_of_le_of_ne (hle (by omega) (by omega)) hne
      exact ih (by omega) (by omega) ha (strictMonoOn_succ hs hlt)

/-- Sorting and dropping repetitions leaves the distinct values in increasing order. -/
theorem rgz_bunique_rgz_bsort (a : Nat → Int) (hn : 0 < n) :
    1 ≤ (rgz_bunique (rgz_bsort a n) n).2 ∧ (rgz_bunique (rgz_bsort a n) n).2 ≤ n ∧
      StrictMonoOn (rgz_bunique (rgz_bsort a n) n).1
        (Set.Iio (rgz_bunique (rgz_bsort a n) n).2) ∧
      Set.image (rgz_bunique (rgz_bsort a n) n).1
        (Set.Iio (rgz_bunique (rgz_bsort a n) n).2) = Set.image a (Set.Iio n) := by
  rw [← (rearranges_rgz_bsort (le_refl n)).image_eq]
  refine buniqueLoop_spec (by omega) rfl rgz_bsort_monotoneOn ?_
  intro p hp q hq hpq
  rw [mem_Iio] at hp hq
  omega

end Unique

/-!
## Accesses

The same loops over an array of `len` entries, where an access outside them has no result.
-/

/-- Entry `k` of the array. -/
def entryAt (len : Nat) (a : Nat → Int) (k : Nat) : Option Int :=
  if k < len then some (a k) else none

/-- The array with `v` written to entry `k`. -/
def setEntryAt (len : Nat) (a : Nat → Int) (k : Nat) (v : Int) : Option (Nat → Int) :=
  if k < len then some (Function.update a k v) else none

def bsortInnerIn (len : Nat) (a : Nat → Int) (i : Nat) : Nat → Option (Nat → Int)
  | 0 => some a
  | j + 1 => do
    let a ← bsortInnerIn len a i j
    let temp ← entryAt len a i
    let other ← entryAt len a j
    if temp < other then
      let a ← setEntryAt len a i other
      setEntryAt len a j temp
    else some a

def rgz_bsortIn (len : Nat) (a : Nat → Int) : Nat → Option (Nat → Int)
  | 0 => some a
  | i + 1 => do bsortInnerIn len (← rgz_bsortIn len a i) i i

def skipEqualIn (len : Nat) (a : Nat → Int) (base : Nat) : Nat → Nat → Option Nat
  | 0, skip => some skip
  | n + 1, skip => do
    if (← entryAt len a base) = (← entryAt len a (base + skip)) then
      skipEqualIn len a base n (skip + 1)
    else some skip

def fillSkippedIn (len : Nat) (a : Nat → Int) (base skip : Nat) : Nat → Option (Nat → Int)
  | 0 => some a
  | i + 1 => do
    let a ← fillSkippedIn len a base skip i
    setEntryAt len a (base + 1 + i) (← entryAt len a (base + skip))

def buniqueLoopIn (len : Nat) :
    Nat → (base unique : Nat) → (Nat → Int) → Option ((Nat → Int) × Nat)
  | 0, _, unique, a => some (a, unique)
  | n + 1, base, unique, a => do
    if (← entryAt len a base) = (← entryAt len a (base + 1)) then
      let skip ← skipEqualIn len a base (n + 1) 1
      if base + skip = len then some (a, unique)
      else
        let a ← fillSkippedIn len a base skip (skip - 1)
        buniqueLoopIn len n (base + 1) (unique + 1) a
    else buniqueLoopIn len n (base + 1) (unique + 1) a

def rgz_buniqueIn (len : Nat) (a : Nat → Int) : Option ((Nat → Int) × Nat) :=
  buniqueLoopIn len (len - 1) 0 1 a

section Accesses

variable {a : Nat → Int} {base n skip len i j k : Nat}

@[simp] theorem entryAt_of_lt (hk : k < len) : entryAt len a k = some (a k) := if_pos hk

@[simp] theorem setEntryAt_of_lt {v : Int} (hk : k < len) :
    setEntryAt len a k v = some (Function.update a k v) := if_pos hk

theorem bsortInnerIn_eq (hi : i < len) (hj : j ≤ i) :
    bsortInnerIn len a i j = some (bsortInner a i j) := by
  induction j with
  | zero => rfl
  | succ j ih =>
    have hjl : j < len := by omega
    rw [bsortInnerIn, ih (by omega), bsortInner]
    simp only [bind_eq_bind, bind_some, entryAt_of_lt hi, entryAt_of_lt hjl,
      setEntryAt_of_lt hi, setEntryAt_of_lt hjl, exchange]
    split <;> rfl

theorem rgz_bsortIn_eq (hi : i ≤ len) : rgz_bsortIn len a i = some (rgz_bsort a i) := by
  induction i with
  | zero => rfl
  | succ i ih =>
    rw [rgz_bsortIn, ih (by omega), rgz_bsort]
    exact bsortInnerIn_eq hi (le_refl i)

theorem skipEqualIn_eq (hlen : base + skip + n ≤ len) (hbase : base < len) :
    skipEqualIn len a base n skip = some (skipEqual a base n skip) := by
  induction n generalizing skip with
  | zero => rfl
  | succ n ih =>
    have hskip : base + skip < len := by omega
    rw [skipEqualIn, entryAt_of_lt hbase, entryAt_of_lt hskip, skipEqual]
    simp only [bind_eq_bind, bind_some]
    split
    · exact ih (by omega)
    · rfl

theorem fillSkippedIn_eq (hskip : base + skip < len) (hi : i < skip) :
    fillSkippedIn len a base skip i = some (fillSkipped a base skip i) := by
  induction i with
  | zero => rfl
  | succ i ih =>
    have hto : base + 1 + i < len := by omega
    rw [fillSkippedIn, ih (by omega), fillSkipped]
    simp [hskip, hto]

theorem buniqueLoopIn_eq {unique : Nat} (hlen : len = base + 1 + n) :
    buniqueLoopIn len n base unique a = some (buniqueLoop len n base unique a) := by
  induction n generalizing base unique a with
  | zero => rfl
  | succ n ih =>
    have hbase : base < len := by omega
    have hnext : base + 1 < len := by omega
    obtain ⟨hk1, hk2, _, _⟩ := @skipEqual_spec a base (n + 1) 1
    have hskip := @skipEqualIn_eq a base (n + 1) 1 len (by omega) hbase
    rw [buniqueLoopIn, entryAt_of_lt hbase, entryAt_of_lt hnext, buniqueLoop, hskip]
    simp only [bind_eq_bind, bind_some]
    split
    · split
      · rfl
      · rename_i hgo
        have hfill := @fillSkippedIn_eq a base (skipEqual a base (n + 1) 1) len
          (skipEqual a base (n + 1) 1 - 1) (by omega) (by omega)
        rw [hfill]
        exact ih (by omega)
    · exact ih (by omega)

/-- The two functions together, without an access outside the array. -/
theorem sorted_distinct_within (a : Nat → Int) (n : Nat) (hn : 0 < n) :
    ∃ b m, (rgz_bsortIn n a n).bind (rgz_buniqueIn n) = some (b, m) ∧ 1 ≤ m ∧ m ≤ n ∧
      StrictMonoOn b (Set.Iio m) ∧ Set.image b (Set.Iio m) = Set.image a (Set.Iio n) := by
  obtain ⟨hone, hle, hmono, himage⟩ := rgz_bunique_rgz_bsort a hn
  refine ⟨_, _, ?_, hone, hle, hmono, himage⟩
  rw [rgz_bsortIn_eq (le_refl n), bind_some]
  exact buniqueLoopIn_eq (by omega)

theorem three_edges_within :
    ∃ b m, (rgz_bsortIn 3 (fun k => if k = 1 then 5 else 8) 3).bind (rgz_buniqueIn 3) =
        some (b, m) ∧ 1 ≤ m ∧ m ≤ 3 ∧ StrictMonoOn b (Set.Iio m) ∧
      Set.image b (Set.Iio m) = Set.image (fun k => if k = 1 then 5 else 8) (Set.Iio 3) :=
  sorted_distinct_within (fun k => if k = 1 then 5 else 8) 3 (by omega)

end Accesses

end OmapHal.Regionizer
