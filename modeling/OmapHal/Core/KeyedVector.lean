import Mathlib

/-!
# Vectors of keys with values

A vector of pairs, sorted by key, with one pair for each key. A place in the vector is found by
its key or by its index.
-/

namespace OmapHal.Core

open List Option

structure KeyedVector (κ α : Type*) [LinearOrder κ] where
  entries : List (κ × α)
  sorted : entries.Pairwise fun a b => a.1 < b.1
  deriving DecidableEq, Repr

namespace KeyedVector

variable {κ α : Type*} [LinearOrder κ] {k k' : κ} {x : α} {v : KeyedVector κ α}

/-- A pair goes to its place, or takes the place of the pair with its key. -/
def insertEntry (k : κ) (x : α) : List (κ × α) → List (κ × α)
  | [] => [(k, x)]
  | e :: rest =>
    if k < e.1 then (k, x) :: e :: rest
    else if k = e.1 then (k, x) :: rest
    else e :: insertEntry k x rest

/-- A pair gets another value, where there is one with the key. -/
def replaceEntry (k : κ) (x : α) (e : κ × α) : κ × α := if e.1 = k then (e.1, x) else e

theorem replaceEntry_fst (k : κ) (x : α) (e : κ × α) : (replaceEntry k x e).1 = e.1 := by
  rw [replaceEntry]
  split <;> rfl

theorem mem_insertEntry {e : κ × α} {l : List (κ × α)} (h : e ∈ insertEntry k x l) :
    e = (k, x) ∨ e ∈ l := by
  induction l with
  | nil => exact .inl (mem_singleton.mp h)
  | cons e' rest ih =>
    rw [insertEntry] at h
    split at h
    · exact mem_cons.mp h
    · split at h
      · exact (mem_cons.mp h).imp_right (mem_cons_of_mem e')
      · rcases mem_cons.mp h with rfl | h
        · exact .inr mem_cons_self
        · exact (ih h).imp_right (mem_cons_of_mem e')

theorem pairwise_insertEntry {l : List (κ × α)} (h : l.Pairwise fun a b => a.1 < b.1) :
    (insertEntry k x l).Pairwise fun a b => a.1 < b.1 := by
  induction l with
  | nil => exact pairwise_singleton _ _
  | cons e rest ih =>
    obtain ⟨he, hrest⟩ := pairwise_cons.mp h
    rw [insertEntry]
    split
    · next hlt =>
      refine pairwise_cons.mpr ⟨fun e' he' => ?_, h⟩
      rcases mem_cons.mp he' with rfl | he'
      · exact hlt
      · exact hlt.trans (he e' he')
    · next hle =>
      split
      · next heq =>
        subst heq
        exact pairwise_cons.mpr ⟨he, hrest⟩
      · next hne =>
        refine pairwise_cons.mpr ⟨fun e' he' => ?_, ih hrest⟩
        rcases mem_insertEntry he' with rfl | he'
        · exact lt_of_le_of_ne (not_lt.mp hle) (Ne.symm hne)
        · exact he e' he'

def empty : KeyedVector κ α := ⟨[], .nil⟩

def add (v : KeyedVector κ α) (k : κ) (x : α) : KeyedVector κ α :=
  ⟨insertEntry k x v.entries, pairwise_insertEntry v.sorted⟩

def replaceValueFor (v : KeyedVector κ α) (k : κ) (x : α) : KeyedVector κ α :=
  ⟨v.entries.map (replaceEntry k x), by
    rw [List.pairwise_map]
    simpa only [replaceEntry_fst] using v.sorted⟩

def removeItem (v : KeyedVector κ α) (k : κ) : KeyedVector κ α :=
  ⟨v.entries.filter fun e => e.1 ≠ k, v.sorted.filter _⟩

/-- The value of a key; a key that is not there has none. -/
def valueFor (v : KeyedVector κ α) (k : κ) : Option α := v.entries.lookup k

def keys (v : KeyedVector κ α) : List κ := v.entries.map Prod.fst

def values (v : KeyedVector κ α) : List α := v.entries.map Prod.snd

def size (v : KeyedVector κ α) : Nat := v.entries.length

def keyAt (v : KeyedVector κ α) (i : Nat) : Option κ := v.keys[i]?

/-- Pairs one after the other. -/
def addAll (v : KeyedVector κ α) (l : List (κ × α)) : KeyedVector κ α :=
  l.foldl (fun v e => v.add e.1 e.2) v

theorem keys_nodup (v : KeyedVector κ α) : v.keys.Nodup :=
  pairwise_map.mpr (v.sorted.imp fun h => h.ne)

theorem length_values (v : KeyedVector κ α) : v.values.length = v.size := length_map ..

@[simp] theorem valueFor_empty : (empty : KeyedVector κ α).valueFor k = none := rfl

theorem lookup_cons_eq (e : κ × α) (l : List (κ × α)) :
    (e :: l).lookup k = if k = e.1 then some e.2 else l.lookup k := by
  rw [lookup_cons]
  by_cases h : k = e.1
  · rw [beq_iff_eq.mpr h, if_pos h]
  · rw [beq_eq_false_iff_ne.mpr h, if_neg h]

theorem lookup_insertEntry (l : List (κ × α)) :
    (insertEntry k x l).lookup k' = if k' = k then some x else l.lookup k' := by
  induction l with
  | nil => exact lookup_cons_eq (k, x) []
  | cons e rest ih =>
    rw [insertEntry]
    split
    · exact lookup_cons_eq (k, x) (e :: rest)
    · split
      · next heq =>
        rw [lookup_cons_eq, lookup_cons_eq, heq]
        split <;> rfl
      · next hne =>
        rw [lookup_cons_eq, lookup_cons_eq, ih]
        by_cases h : k' = k
        · rw [h, if_neg hne, if_pos rfl, if_pos rfl]
        · rw [if_neg h, if_neg h]

theorem valueFor_add : (v.add k x).valueFor k' = if k' = k then some x else v.valueFor k' :=
  lookup_insertEntry v.entries

/-- Many keys with one value. -/
theorem valueFor_foldl_add (l : List κ) (v : KeyedVector κ α) :
    (l.foldl (fun v k => v.add k x) v).valueFor k' =
      if k' ∈ l then some x else v.valueFor k' := by
  induction l generalizing v with
  | nil => rfl
  | cons k l ih =>
    rw [foldl_cons, ih, valueFor_add]
    by_cases hmem : k' ∈ l
    · rw [if_pos hmem, if_pos (mem_cons_of_mem k hmem)]
    · rw [if_neg hmem]
      by_cases hk : k' = k
      · rw [if_pos hk, if_pos (hk ▸ mem_cons_self)]
      · rw [if_neg hk, if_neg fun h => (mem_cons.mp h).elim hk hmem]

theorem lookup_map_replaceEntry (l : List (κ × α)) :
    (l.map (replaceEntry k x)).lookup k' =
      (l.lookup k').map fun y => if k' = k then x else y := by
  induction l with
  | nil => rfl
  | cons e rest ih =>
    rw [map_cons, lookup_cons_eq, lookup_cons_eq, replaceEntry_fst, ih]
    by_cases h : k' = e.1
    · rw [if_pos h, if_pos h, map_some, h, replaceEntry]
      split <;> rfl
    · rw [if_neg h, if_neg h]

theorem valueFor_replaceValueFor :
    (v.replaceValueFor k x).valueFor k' = (v.valueFor k').map fun y => if k' = k then x else y :=
  lookup_map_replaceEntry v.entries

theorem valueFor_replaceValueFor_of_ne (h : k' ≠ k) :
    (v.replaceValueFor k x).valueFor k' = v.valueFor k' := by
  simp [valueFor_replaceValueFor, h]

theorem lookup_filter_ne (l : List (κ × α)) :
    (l.filter fun e => e.1 ≠ k).lookup k' = if k' = k then none else l.lookup k' := by
  induction l with
  | nil =>
    dsimp only [filter_nil, lookup_nil]
    split <;> rfl
  | cons e l ih =>
    rw [filter_cons, lookup_cons_eq]
    by_cases he : e.1 = k
    · rw [if_neg (by simp [he]), ih]
      split
      · rfl
      · next hne => rw [if_neg fun h => hne (h.trans he)]
    · rw [if_pos (by simp [he]), lookup_cons_eq, ih]
      split
      · next hk => rw [if_neg fun h => he (hk.symm.trans h)]
      · rfl

theorem valueFor_removeItem :
    (v.removeItem k).valueFor k' = if k' = k then none else v.valueFor k' := lookup_filter_ne _

theorem mem_keys : k ∈ v.keys ↔ v.valueFor k ≠ none := by
  rw [keys, valueFor]
  induction v.entries with
  | nil => simp
  | cons e rest ih =>
    rw [map_cons, mem_cons, ih, lookup_cons_eq]
    by_cases h : k = e.1
    · rw [if_pos h]
      exact iff_of_true (.inl h) (some_ne_none e.2)
    · rw [if_neg h, or_iff_right h]

theorem lookup_of_mem {l : List (κ × α)} (hsorted : l.Pairwise fun a b => a.1 < b.1)
    (h : (k, x) ∈ l) : l.lookup k = some x := by
  induction l with
  | nil => cases h
  | cons e rest ih =>
    obtain ⟨hfirst, hrest⟩ := pairwise_cons.mp hsorted
    rw [lookup_cons_eq]
    rcases mem_cons.mp h with rfl | h
    · exact if_pos rfl
    · rw [if_neg (ne_of_gt (hfirst (k, x) h)), ih hrest h]

theorem valueFor_of_mem (h : (k, x) ∈ v.entries) : v.valueFor k = some x :=
  lookup_of_mem v.sorted h

theorem mem_entries : (k, x) ∈ v.entries ↔ v.valueFor k = some x := by
  refine ⟨valueFor_of_mem, fun h => ?_⟩
  rw [valueFor, lookup_eq_some_iff] at h
  obtain ⟨before, after, heq, -⟩ := h
  rw [heq]
  exact mem_append_right before mem_cons_self

theorem nodup_entries (v : KeyedVector κ α) : v.entries.Nodup := Nodup.of_map _ v.keys_nodup

/-- The pairs with a new one. -/
theorem perm_add (h : v.valueFor k = none) : (v.add k x).entries.Perm ((k, x) :: v.entries) := by
  have hnew : (k, x) ∉ v.entries := fun hmem => by simp [mem_entries.mp hmem] at h
  refine (perm_ext_iff_of_nodup (nodup_entries _)
    (nodup_cons.mpr ⟨hnew, v.nodup_entries⟩)).mpr fun ⟨k', x'⟩ => ?_
  rw [mem_cons, mem_entries, mem_entries, valueFor_add, Prod.mk.injEq]
  by_cases hk : k' = k
  · simp [hk, h, eq_comm]
  · simp [hk]

/-- The pairs without one of them. -/
theorem perm_removeItem (h : v.valueFor k = some x) :
    v.entries.Perm ((k, x) :: (v.removeItem k).entries) := by
  have hgone : (k, x) ∉ (v.removeItem k).entries := fun hmem => by
    simpa [valueFor_removeItem] using mem_entries.mp hmem
  refine (perm_ext_iff_of_nodup v.nodup_entries
    (nodup_cons.mpr ⟨hgone, nodup_entries _⟩)).mpr fun ⟨k', x'⟩ => ?_
  rw [mem_cons, mem_entries, mem_entries, valueFor_removeItem, Prod.mk.injEq]
  by_cases hk : k' = k
  · simp [hk, h, eq_comm]
  · simp [hk]

/-- There is one pair for a key at most. -/
theorem countP_key_le (v : KeyedVector κ α) (k : κ) : v.entries.countP (fun e => e.1 = k) ≤ 1 := by
  have hone := nodup_iff_count_le_one.mp v.keys_nodup k
  rw [keys, count_eq_countP, countP_map] at hone
  refine Nat.le_trans (Nat.le_of_eq (countP_congr fun e _ => ?_)) hone
  simp only [Function.comp_apply, decide_eq_true_iff, beq_iff_eq]

/-! ### Many pairs -/

theorem addAll_cons (e : κ × α) (l : List (κ × α)) :
    v.addAll (e :: l) = (v.add e.1 e.2).addAll l := rfl

theorem addAll_append_singleton (l : List (κ × α)) (e : κ × α) :
    v.addAll (l ++ [e]) = (v.addAll l).add e.1 e.2 := by
  rw [addAll, foldl_append, foldl_cons, foldl_nil, ← addAll]

/-- Of several pairs with one key the last stays. -/
theorem valueFor_addAll (l : List (κ × α)) :
    (empty.addAll l).valueFor k = l.reverse.lookup k := by
  induction l using reverseRecOn with
  | nil => rfl
  | append_singleton l e ih =>
    rw [addAll_append_singleton, valueFor_add, ih, reverse_append, reverse_singleton,
      singleton_append, lookup_cons_eq]

section Tabulated

variable {ι : Type*} {f : ι → κ} {g : ι → α} {is : List ι} {i : ι}

theorem valueFor_addAll_of_ne (h : ∀ j ∈ is, f j ≠ k) :
    (v.addAll (is.map fun j => (f j, g j))).valueFor k = v.valueFor k := by
  induction is using reverseRecOn with
  | nil => rfl
  | append_singleton is j ih =>
    rw [map_append, map_singleton, addAll_append_singleton, valueFor_add,
      if_neg (h j (by simp)).symm, ih fun j' hj' => h j' (mem_append_left [j] hj')]

/-- A key that comes with one value only has it afterwards. -/
theorem valueFor_addAll_of_mem (hi : i ∈ is) (h : ∀ j ∈ is, f j = f i → g j = g i) :
    (v.addAll (is.map fun j => (f j, g j))).valueFor (f i) = some (g i) := by
  induction is using reverseRecOn with
  | nil => cases hi
  | append_singleton is j ih =>
    rw [map_append, map_singleton, addAll_append_singleton, valueFor_add]
    split
    · next heq => rw [h j (by simp) heq.symm]
    · next hne =>
      apply ih ?_ fun j' hj' => h j' (mem_append_left [j] hj')
      rcases mem_append.mp hi with hi | hi
      · exact hi
      · exact absurd (congrArg f (mem_singleton.mp hi)) hne

theorem mem_keys_addAll : k ∈ (v.addAll (is.map fun j => (f j, g j))).keys ↔
    (∃ j ∈ is, f j = k) ∨ k ∈ v.keys := by
  induction is using reverseRecOn with
  | nil => simp [addAll]
  | append_singleton is j ih =>
    rw [map_append, map_singleton, addAll_append_singleton, mem_keys, valueFor_add]
    split
    · next heq => exact iff_of_true (some_ne_none _) (.inl ⟨j, by simp, heq.symm⟩)
    · next hne =>
      rw [← mem_keys, ih]
      simp only [mem_append, mem_singleton, or_and_right, exists_or, exists_eq_left,
        Ne.symm hne, or_false]

end Tabulated

theorem insertEntry_of_lt {l : List (κ × α)} (h : ∀ e ∈ l, e.1 < k) :
    insertEntry k x l = l ++ [(k, x)] := by
  induction l with
  | nil => rfl
  | cons e rest ih =>
    have hlt := h e mem_cons_self
    rw [insertEntry, if_neg hlt.not_gt, if_neg (ne_of_gt hlt),
      ih fun e' he' => h e' (mem_cons_of_mem e he'), cons_append]

/-- Pairs that come with ascending keys stand in the order in which they came. -/
theorem entries_addAll {l : List (κ × α)} (h : l.Pairwise fun a b => a.1 < b.1) :
    (empty.addAll l).entries = l := by
  induction l using reverseRecOn with
  | nil => rfl
  | append_singleton l e ih =>
    obtain ⟨hl, -, hlast⟩ := pairwise_append.mp h
    rw [addAll_append_singleton]
    change insertEntry e.1 e.2 (empty.addAll l).entries = _
    rw [ih hl]
    exact insertEntry_of_lt fun e' he' => hlast e' he' e (mem_singleton_self e)

/-- The key at every index is the one that came with this number exactly where the keys
ascend. -/
theorem keyAt_addAll_iff (l : List (κ × α)) :
    (∀ i < l.length, (empty.addAll l).keyAt i = l[i]?.map Prod.fst) ↔
      l.Pairwise fun a b => a.1 < b.1 := by
  refine ⟨fun h => ?_, fun h i _ => ?_⟩
  · refine pairwise_iff_getElem.mpr fun i j hi hj hij => ?_
    have hsorted := pairwise_map.mpr (empty.addAll l).sorted
    rw [← keys, pairwise_iff_getElem] at hsorted
    have hkey : ∀ n, (hn : n < l.length) → (empty.addAll l).keys[n]? = some l[n].1 := by
      intro n hn
      have hn' := h n hn
      rwa [getElem?_eq_getElem hn, map_some] at hn'
    obtain ⟨hi', heqi⟩ := List.getElem?_eq_some_iff.mp (hkey i hi)
    obtain ⟨hj', heqj⟩ := List.getElem?_eq_some_iff.mp (hkey j hj)
    have hlt := hsorted i j hi' hj' hij
    rwa [heqi, heqj] at hlt
  · rw [keyAt, keys, entries_addAll h, getElem?_map]

/-! ### Places -/

/-- Of ascending keys, a key stands behind the lower ones. -/
theorem getElem?_length_filter_lt {l : List κ} (hl : l.Pairwise (· < ·)) (hk : k ∈ l) :
    l[(l.filter fun k' => k' < k).length]? = some k := by
  induction l with
  | nil => cases hk
  | cons k' l ih =>
    obtain ⟨hfirst, hrest⟩ := pairwise_cons.mp hl
    rcases mem_cons.mp hk with rfl | hmem
    · have hnone : ((k :: l).filter fun k' => k' < k) = [] := by
        rw [filter_eq_nil_iff]
        intro k' hk'
        rw [decide_eq_true_iff, not_lt]
        rcases mem_cons.mp hk' with rfl | hk'
        · exact le_refl _
        · exact (hfirst k' hk').le
      rw [hnone]
      rfl
    · rw [filter_cons, if_pos (decide_eq_true (hfirst k hmem)), length_cons, getElem?_cons_succ]
      exact ih hrest hmem

/-- A key stands at its place in a list of ascending keys, if the vector has the same keys below
it. -/
theorem keyAt_eq_of_lower {l : List κ} {i : Nat} (hl : l.Pairwise (· < ·)) (hi : l[i]? = some k)
    (hk : k ∈ v.keys) (hlower : ∀ k' < k, k' ∈ v.keys ↔ k' ∈ l) : v.keyAt i = some k := by
  have hkeys : v.keys.Pairwise (· < ·) := pairwise_map.mpr v.sorted
  have hnodup := hl.imp fun h => ne_of_lt h
  have hperm : (v.keys.filter fun k' => k' < k).Perm (l.filter fun k' => k' < k) := by
    apply (perm_ext_iff_of_nodup (v.keys_nodup.filter _) (Nodup.filter _ hnodup)).mpr
    intro k'
    rw [mem_filter, mem_filter, decide_eq_true_iff]
    exact and_congr_left (hlower k')
  have hplace := getElem?_length_filter_lt hl (mem_of_getElem? hi)
  obtain ⟨hlt, -⟩ := List.getElem?_eq_some_iff.mp hplace
  have heq := (getElem?_inj hlt hnodup).mp (hplace.trans hi.symm)
  rw [keyAt, ← heq, ← hperm.length_eq]
  exact getElem?_length_filter_lt hkeys hk

end KeyedVector

end OmapHal.Core
