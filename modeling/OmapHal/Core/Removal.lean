import Mathlib

/-!
# Removal of the first match

What `List.eraseP` leaves: counts and sums over the rest, and when two removals agree.
-/

namespace OmapHal.Core

open List Bool

variable {α : Type*} {l : List α} {p q : α → Bool}

/-- A removal does not change the count of what it cannot take. -/
theorem countP_eraseP_of_disjoint (h : ∀ a, p a → q a = false) (l : List α) :
    (l.eraseP p).countP q = l.countP q := by
  rcases exists_or_eq_self_of_eraseP p l with heq | ⟨a, l₁, l₂, -, ha, rfl, heq⟩
  · rw [heq]
  · rw [heq, countP_append, countP_append,
      countP_cons_of_neg (by rw [h a ha]; exact false_ne_true)]

/-- A removal that finds a match takes one of them. -/
theorem countP_eraseP_self (h : ∃ a ∈ l, p a) :
    (l.eraseP p).countP p + 1 = l.countP p := by
  obtain ⟨b, hb, hpb⟩ := h
  obtain ⟨a, l₁, l₂, -, ha, hl, heq⟩ := exists_of_eraseP hb hpb
  rw [heq]
  conv_rhs => rw [hl]
  rw [countP_append, countP_append, countP_cons_of_pos ha, Nat.add_assoc]

/-- Removals that look for different things agree only where both look in vain. -/
theorem eraseP_eq_eraseP_iff (h : ∀ a, p a → q a = false) :
    l.eraseP p = l.eraseP q ↔ ∀ a ∈ l, p a = false ∧ q a = false := by
  have h' : ∀ a, q a → p a = false := fun a hq =>
    eq_false_iff.mpr fun hp => false_ne_true ((h a hp).symm.trans hq)
  constructor
  · intro heq a ha
    constructor
    · by_contra hp
      have hself := countP_eraseP_self ⟨a, ha, not_eq_false _ |>.mp hp⟩
      rw [heq, countP_eraseP_of_disjoint h' l] at hself
      exact Nat.succ_ne_self _ hself
    · by_contra hq
      have hself := countP_eraseP_self ⟨a, ha, not_eq_false _ |>.mp hq⟩
      rw [← heq, countP_eraseP_of_disjoint h l] at hself
      exact Nat.succ_ne_self _ hself
  · intro hnone
    rw [eraseP_of_forall_not fun a ha => eq_false_iff.mp (hnone a ha).1,
      eraseP_of_forall_not fun a ha => eq_false_iff.mp (hnone a ha).2]

/-- The sum over a list is that over the rest and the weight of what is removed. -/
theorem sum_map_eraseP (w : α → Nat) (p : α → Bool) (l : List α) :
    (l.map w).sum = ((l.eraseP p).map w).sum + ((l.find? p).map w).getD 0 := by
  induction l with
  | nil => rfl
  | cons a l ih =>
    by_cases ha : p a
    · rw [eraseP_cons_of_pos ha, find?_cons_of_pos ha, map_cons, sum_cons]
      exact Nat.add_comm _ _
    · rw [eraseP_cons_of_neg ha, find?_cons_of_neg ha, map_cons, map_cons,
        sum_cons, sum_cons, ih, Nat.add_assoc]

end OmapHal.Core
