import Mathlib.Logic.Relation
import Mathlib.Tactic.Cases

/-!
# Machines

A program as a machine with one step at a time: a step goes on to the next configuration, or it
returns a result, or it is not defined.
-/

namespace OmapHal.Core

variable {α β : Type*} {step : α → Option (α ⊕ β)} {a b : α} {r : β}

/-- One step that goes on. -/
def Goes (step : α → Option (α ⊕ β)) (a b : α) : Prop := step a = some (.inl b)

def Reaches (step : α → Option (α ⊕ β)) : α → α → Prop := Relation.ReflTransGen (Goes step)

/-- Finitely many steps, of which the last one returns. -/
def Returns (step : α → Option (α ⊕ β)) (a : α) (r : β) : Prop :=
  ∃ b, Reaches step a b ∧ step b = some (.inr r)

/-- Every step on the way is defined. -/
def Safe (step : α → Option (α ⊕ β)) (a : α) : Prop := ∀ b, Reaches step a b → step b ≠ none

theorem rightUnique_goes : Relator.RightUnique (Goes step) := fun _ _ _ hb hc =>
  Sum.inl.inj (Option.some.inj (hb.symm.trans hc))

namespace Reaches

theorem refl : Reaches step a a := Relation.ReflTransGen.refl

theorem head {c : α} (h : Goes step a b) (h' : Reaches step b c) : Reaches step a c :=
  Relation.ReflTransGen.head h h'

theorem trans {c : α} (h : Reaches step a b) (h' : Reaches step b c) : Reaches step a c :=
  Relation.ReflTransGen.trans h h'

theorem single (h : Goes step a b) : Reaches step a b := Relation.ReflTransGen.single h

theorem returns (h : Reaches step a b) (hr : Returns step b r) : Returns step a r := by
  obtain ⟨c, hc, hstep⟩ := hr
  exact ⟨c, h.trans hc, hstep⟩

/-- Nothing goes on behind a step that returns. -/
theorem eq_of_returns (h : Reaches step a b) (hr : step a = some (.inr r)) : b = a := by
  cases Relation.ReflTransGen.cases_head h with
  | inl heq => exact heq.symm
  | inr hgo =>
    obtain ⟨c, hc, -⟩ := hgo
    exact absurd (hc.symm.trans hr) (by simp)

/-- A step onto itself is never left. -/
theorem eq_of_self (h : Reaches step a b) (hself : Goes step a a) : b = a := by
  induction h with
  | refl => rfl
  | tail _ hgo ih => exact rightUnique_goes hgo (ih ▸ hself)

theorem safe (h : Reaches step a b) (hb : Safe step b) : Safe step a := by
  intro c hc
  rcases Relation.ReflTransGen.total_of_right_unique rightUnique_goes h hc with hbc | hcb
  · exact hb c hbc
  · rcases Relation.ReflTransGen.cases_head hcb with rfl | ⟨d, hd, -⟩
    · exact hb c .refl
    · rw [hd]
      exact Option.some_ne_none _

/-- A machine that comes to a step onto itself never returns. -/
theorem not_returns (h : Reaches step a b) (hself : Goes step b b) : ¬ Returns step a r := by
  rintro ⟨c, hc, hstep⟩
  have heq : b = c := by
    rcases Relation.ReflTransGen.total_of_right_unique rightUnique_goes h hc with hbc | hcb
    · exact (eq_of_self hbc hself).symm
    · exact eq_of_returns hcb hstep
  subst heq
  exact absurd (hself.symm.trans hstep) (by simp)

end Reaches

namespace Returns

theorem head (h : Goes step a b) (hr : Returns step b r) : Returns step a r :=
  (Reaches.single h).returns hr

theorem last (h : step a = some (.inr r)) : Returns step a r := ⟨a, .refl, h⟩

theorem safe (hr : Returns step a r) : Safe step a := by
  obtain ⟨b, hb, hr⟩ := hr
  refine hb.safe fun c hc => ?_
  rw [hc.eq_of_returns hr, hr]
  exact Option.some_ne_none _

end Returns

theorem safe_of_self (hself : Goes step a a) : Safe step a := by
  intro b hb
  rw [hb.eq_of_self hself, hself]
  exact Option.some_ne_none _

end OmapHal.Core
