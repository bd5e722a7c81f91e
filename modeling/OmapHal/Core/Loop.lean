import Mathlib.Data.List.Basic
import Mathlib.Tactic.Cases

/-!
# Rounds of a `while (true)` loop

A loop whose body either leaves or goes round again is its body
`step : α → Option α`. `iter step a k` is the configuration at the head of round
`k`; `past step a k` lists the configurations of the rounds before it. The rules
carry an invariant, a measure, and an agreement with a second loop from the head
of one round to the head of the next.
-/

namespace OmapHal.Core

open Option

variable {α β : Type*}

/-- The configuration at the head of round `k`, or `none` once the body has left. -/
def iter (step : α → Option α) (a : α) : Nat → Option α
  | 0 => some a
  | k + 1 => (iter step a k).bind step

/-- The configurations of the first `k` rounds, oldest first. -/
def past (step : α → Option α) (a : α) : Nat → List α
  | 0 => []
  | k + 1 => past step a k ++ (iter step a k).toList

variable {step : α → Option α} {a b c : α} {k : Nat}

@[simp] theorem iter_zero : iter step a 0 = some a := rfl

/-- A further round starts exactly where the body of the last one went. -/
theorem iter_succ_eq_some :
    iter step a (k + 1) = some c ↔ ∃ b, iter step a k = some b ∧ step b = some c := by
  simp only [iter, bind_eq_some_iff]

/-- The body's answer at a reached configuration is the next round. -/
theorem iter_succ_of (h : iter step a k = some b) : iter step a (k + 1) = step b := by
  simp only [iter, h, bind_some]

/-- A reached round adds its own configuration to the past. -/
theorem past_succ_of (h : iter step a k = some b) : past step a (k + 1) = past step a k ++ [b] := by
  simp only [past, h, toList_some]

/-- Two loops, each of which leaves where its own guard fails, agree on the rounds
inside the guards under `f` exactly when the bodies agree there at every round the
first loop reaches. -/
theorem iter_filter_map_eq_iff (step' : β → Option β) (ok : α → Bool) (ok' : β → Bool)
    (f : α → β) (hok : ∀ b, ok' (f b) = ok b) (hleave : ∀ b, ok b = false → step b = none)
    (hleave' : ∀ b, ok' b = false → step' b = none) :
    (∀ k, ((iter step a k).filter ok).map f = (iter step' (f a) k).filter ok') ↔
      ∀ k b, iter step a k = some b →
        ((step b).filter ok).map f = (step' (f b)).filter ok' := by
  constructor
  · intro h k b hb
    cases hg : ok b with
    | false => rw [hleave b hg, hleave' (f b) (by rw [hok, hg])]; rfl
    | true =>
      have hk : (iter step' (f a) k).filter ok' = some (f b) := by
        rw [← h k, hb, filter_some, hg]
        rfl
      have hk' : iter step' (f a) k = some (f b) := (filter_eq_some_iff.mp hk).1
      rw [← iter_succ_of hb, h (k + 1), iter_succ_of hk']
  · intro h k
    induction k with
    | zero =>
      simp only [iter_zero, filter_some, hok]
      cases ok a <;> rfl
    | succ k ih =>
      -- outside its guard the second loop is about to leave as well
      have hend : (iter step' (f a) k).filter ok' = none → iter step' (f a) (k + 1) = none := by
        intro hn
        cases hk : iter step' (f a) k with
        | none => simp only [iter, hk, bind_none]
        | some b' =>
          rw [iter_succ_of hk]
          rw [hk, filter_some] at hn
          cases hg : ok' b' with
          | false => exact hleave' b' hg
          | true => rw [hg, if_pos rfl] at hn; cases hn
      cases hb : iter step a k with
      | none =>
        rw [hb, filter_none, map_none] at ih
        rw [hend ih.symm]
        simp only [iter, hb, bind_none, filter_none, map_none]
      | some b =>
        rw [hb, filter_some] at ih
        cases hg : ok b with
        | false =>
          rw [hg, if_neg Bool.false_ne_true, map_none] at ih
          rw [iter_succ_of hb, hleave b hg, hend ih.symm]
          rfl
        | true =>
          rw [hg, if_pos rfl, map_some] at ih
          have hk : iter step' (f a) k = some (f b) := (filter_eq_some_iff.mp ih.symm).1
          rw [iter_succ_of hb, iter_succ_of hk]
          exact h k b hb

end OmapHal.Core
