import Mathlib

/-!
# Rings

Nodes that are linked both ways, in a ring. A ring is a list of its nodes from any of them on; a
node is put in front of the first one and taken out as the first one, after a rotation.
-/

namespace OmapHal.Core

open Function List Nat

section Nodes

variable {α : Type*} {next prev next' prev' : α → α} {l l₁ l₂ : List α} {a b x : α}

/-- Neighbours in the list are linked both ways. -/
def Segment (next prev : α → α) : List α → Prop
  | a :: b :: l => (next a = b ∧ prev b = a) ∧ Segment next prev (b :: l)
  | _ => True

/-- The last node is linked to the first one. -/
def Ring (next prev : α → α) : List α → Prop
  | [] => True
  | a :: l => Segment next prev (a :: l ++ [a])

namespace Segment

theorem append_cons : Segment next prev (l₁ ++ a :: l₂) ↔
    Segment next prev (l₁ ++ [a]) ∧ Segment next prev (a :: l₂) := by
  induction l₁ with
  | nil => exact ⟨fun h => ⟨trivial, h⟩, And.right⟩
  | cons c l₁ ih =>
    cases l₁ with
    | nil => exact and_congr_left fun _ => (and_iff_left trivial).symm
    | cons d l₁ => exact (and_congr_right fun _ => ih).trans and_assoc.symm

/-- The links from the last node and to the first one are of no concern. -/
theorem congr (h : Segment next prev l) (hnext : ∀ a ∈ l.dropLast, next' a = next a)
    (hprev : ∀ a ∈ l.tail, prev' a = prev a) : Segment next' prev' l := by
  induction l with
  | nil => trivial
  | cons a l ih =>
    cases l with
    | nil => trivial
    | cons b l =>
      refine ⟨⟨?_, ?_⟩, ih h.2 (fun c hc => hnext c (mem_cons_of_mem a hc)) fun c hc =>
        hprev c (mem_cons_of_mem b hc)⟩
      · rw [hnext a mem_cons_self, h.1.1]
      · rw [hprev b mem_cons_self, h.1.2]

end Segment

namespace Ring

theorem singleton : Ring next prev [a] ↔ next a = a ∧ prev a = a :=
  and_iff_left trivial

theorem rotate (h : Ring next prev (a :: l)) : Ring next prev (l ++ [a]) := by
  cases l with
  | nil => exact h
  | cons b l =>
    change Segment next prev (b :: l ++ [a] ++ [b])
    rw [append_assoc, singleton_append, Segment.append_cons]
    exact ⟨h.2, h.1, trivial⟩

theorem rotate_append (h : Ring next prev (l₁ ++ l₂)) : Ring next prev (l₂ ++ l₁) := by
  induction l₁ generalizing l₂ with
  | nil => rwa [append_nil]
  | cons a l₁ ih =>
    have hnext : Ring next prev (l₂ ++ [a] ++ l₁) := ih (by
      rw [← append_assoc]
      exact rotate h)
    rwa [append_assoc] at hnext

/-- The first node and the last one are neighbours. -/
theorem ends (h : Ring next prev (l ++ [b])) (ha : (l ++ [b]).head? = some a) :
    next b = a ∧ prev a = b := by
  obtain ⟨t, ht⟩ : ∃ t, l ++ [b] = a :: t := head?_eq_some_iff.mp ha
  have hring : Segment next prev (l ++ [b] ++ [a]) := by
    rw [ht] at h ⊢
    exact h
  rw [append_assoc, singleton_append, Segment.append_cons] at hring
  exact hring.2.1

/-- The last node is the one before the first one. -/
theorem exists_append (h : Ring next prev (a :: l)) : ∃ l', a :: l = l' ++ [prev a] := by
  obtain ⟨l', b, hb⟩ : ∃ l' b, a :: l = l' ++ [b] :=
    ⟨_, _, (dropLast_append_getLast (cons_ne_nil a l)).symm⟩
  have hprev : prev a = b := (ends (hb ▸ h) (by rw [← hb]; rfl)).2
  exact ⟨l', hprev ▸ hb⟩

theorem exists_append_tail (h : Ring next prev (x :: a :: l)) : ∃ l', a :: l = l' ++ [prev x] := by
  obtain ⟨l', hl'⟩ := h.exists_append
  cases l' with
  | nil => exact absurd (congrArg length hl') (by simp)
  | cons c l' => exact ⟨l', (cons.inj hl').2⟩

theorem prev_mem (h : Ring next prev (a :: l)) : prev a ∈ a :: l := by
  obtain ⟨l', hl'⟩ := h.exists_append
  rw [hl']
  exact mem_append_right l' (mem_singleton_self (prev a))

/-- The nodes tell the links. -/
theorem links_eq (h : Ring next prev l) (h' : Ring next' prev' l) (ha : a ∈ l) :
    next' a = next a ∧ prev' a = prev a := by
  obtain ⟨l₁, l₂, rfl⟩ := append_of_mem ha
  have hturned : Ring next prev (a :: (l₂ ++ l₁)) := h.rotate_append
  have hturned' : Ring next' prev' (a :: (l₂ ++ l₁)) := h'.rotate_append
  constructor
  · cases hrest : l₂ ++ l₁ with
    | nil =>
      rw [hrest] at hturned hturned'
      exact (singleton.mp hturned').1.trans (singleton.mp hturned).1.symm
    | cons b l =>
      rw [hrest] at hturned hturned'
      exact hturned'.1.1.trans hturned.1.1.symm
  · obtain ⟨front, hfront⟩ := hturned.exists_append
    obtain ⟨front', hfront'⟩ := hturned'.exists_append
    have hlast := congrArg getLast? (hfront'.symm.trans hfront)
    rw [getLast?_concat, getLast?_concat] at hlast
    exact Option.some.inj hlast

/-- The ring without the link from its last node to the first one. -/
theorem segment (h : Ring next prev l) : Segment next prev l := by
  cases l with
  | nil => trivial
  | cons a l =>
    cases l using reverseRecOn with
    | nil => trivial
    | append_singleton l b =>
      change Segment next prev (a :: (l ++ [b]) ++ [a]) at h
      rw [← cons_append, append_assoc, singleton_append, Segment.append_cons] at h
      exact h.1

/-- A node that is put in front of the first one is the last one. -/
theorem insert (h : Ring next prev (a :: l)) (hnodup : (a :: l).Nodup) (hxn : next' x = a)
    (hxp : prev' x = prev a) (hpn : next' (prev a) = x) (hap : prev' a = x)
    (hnext : ∀ b ∈ a :: l, b ≠ prev a → next' b = next b)
    (hprev : ∀ b ∈ a :: l, b ≠ a → prev' b = prev b) : Ring next' prev' (a :: l ++ [x]) := by
  obtain ⟨l', hb⟩ := h.exists_append
  generalize prev a = b at *
  have hkept : Segment next' prev' (a :: l) := by
    refine h.segment.congr (fun c hc => ?_) fun c hc => ?_
    · refine hnext c (dropLast_subset _ hc) ?_
      rintro rfl
      rw [hb, dropLast_concat] at hc
      rw [hb, nodup_append] at hnodup
      exact hnodup.2.2 c hc c (mem_singleton_self c) rfl
    · refine hprev c (mem_cons_of_mem a hc) ?_
      rintro rfl
      exact (nodup_cons.mp hnodup).1 hc
  change Segment next' prev' (a :: l ++ [x] ++ [a])
  rw [hb] at hkept ⊢
  rw [append_assoc, append_assoc, singleton_append, Segment.append_cons]
  exact ⟨hkept, ⟨hpn, hxp⟩, ⟨hxn, hap⟩, trivial⟩

/-- The first node is taken out. -/
theorem remove (h : Ring next prev (x :: a :: l)) (hnodup : (x :: a :: l).Nodup)
    (hpn : next' (prev x) = next x) (hnp : prev' (next x) = prev x)
    (hnext : ∀ b ∈ a :: l, b ≠ prev x → next' b = next b)
    (hprev : ∀ b ∈ a :: l, b ≠ next x → prev' b = prev b) : Ring next' prev' (a :: l) := by
  obtain ⟨l', hb⟩ := h.exists_append_tail
  have hnx : next x = a := h.1.1
  rw [hnx] at hpn hnp hprev
  generalize prev x = b at *
  obtain ⟨-, hrest⟩ := nodup_cons.mp hnodup
  have hkept : Segment next' prev' (a :: l) := by
    refine h.segment.2.congr (fun c hc => ?_) fun c hc => ?_
    · refine hnext c (dropLast_subset _ hc) ?_
      rintro rfl
      rw [hb, dropLast_concat] at hc
      rw [hb, nodup_append] at hrest
      exact hrest.2.2 c hc c (mem_singleton_self c) rfl
    · refine hprev c (mem_cons_of_mem a hc) ?_
      rintro rfl
      exact (nodup_cons.mp hrest).1 hc
  change Segment next' prev' (a :: l ++ [a])
  rw [hb] at hkept ⊢
  rw [append_assoc, singleton_append, Segment.append_cons]
  exact ⟨hkept, ⟨hpn, hnp⟩, trivial⟩

end Ring

end Nodes

/-!
## Circular arrays

An array of a fixed size that is filled and emptied in a circle. What it holds are the places from
`tail` on, as many as are counted.
-/

section CircularArray

variable {α : Type*} {size tail count : Nat} {f : Nat → α} {x : α}

/-- The elements from `tail` on. -/
def held (size : Nat) (f : Nat → α) (tail count : Nat) : List α :=
  (List.range count).map fun i => f ((tail + i) % size)

/-- A place after the next one is another one as long as they are not more than there are. -/
theorem mod_ne_mod {i j : Nat} (hij : i < j) (hj : j < i + size) : i % size ≠ j % size := by
  intro heq
  have hdvd : size ∣ j - i := (modEq_iff_dvd' hij.le).mp heq
  exact absurd (le_of_dvd (by omega) hdvd) (by omega)

/-- An element put behind the others. -/
theorem held_push (hroom : count < size) :
    held size (update f ((tail + count) % size) x) tail (count + 1) =
      held size f tail count ++ [x] := by
  rw [held, range_succ, map_append, map_singleton, update_self]
  refine congrArg (· ++ [x]) (map_congr_left fun i hi => ?_)
  have hlt := mem_range.mp hi
  exact update_of_ne (mod_ne_mod (by omega) (by omega)) _ _

/-- The first element, and the others. -/
theorem held_pop (htail : tail < size) :
    held size f tail (count + 1) = f tail :: held size f ((tail + 1) % size) count := by
  rw [held, range_succ_eq_map, map_cons, add_zero, mod_eq_of_lt htail, map_map]
  refine congrArg (f tail :: ·) (map_congr_left fun i _ => congrArg f ?_)
  rw [mod_add_mod, add_right_comm, add_assoc]

/-- The first element replaced. -/
theorem held_update_tail (htail : tail < size) (hcount : count < size) :
    held size (update f tail x) tail (count + 1) =
      x :: held size f ((tail + 1) % size) count := by
  rw [held_pop htail, update_self]
  refine congrArg (x :: ·) (map_congr_left fun i hi => update_of_ne ?_ _ _)
  have hlt := mem_range.mp hi
  have hne := @mod_ne_mod size tail (tail + 1 + i) (by omega) (by omega)
  rw [mod_eq_of_lt htail] at hne
  rw [mod_add_mod]
  exact hne.symm

/-- The next place, as a comparison finds it. -/
theorem succ_mod (htail : tail < size) :
    (tail + 1) % size = if tail + 1 ≥ size then 0 else tail + 1 := by
  split
  · have heq : tail + 1 = size := by omega
    rw [heq, mod_self]
  · exact mod_eq_of_lt (by omega)

end CircularArray

end OmapHal.Core
