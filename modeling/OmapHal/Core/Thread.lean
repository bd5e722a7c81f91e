import Mathlib.Data.List.Basic
import Mathlib.Tactic.Cases

/-!
# Threads

Nodes that are linked both ways, one after the other; the first one has nothing before it, the last
one nothing behind it.
-/

namespace OmapHal.Core

open List

variable {α : Type*} {next prev next' prev' : α → Option α} {before : Option α} {l l₁ l₂ : List α}
  {a x : α}

/-- The nodes stand behind `before`, and nothing stands behind them. -/
def Threaded (next prev : α → Option α) (before : Option α) : List α → Prop
  | [] => True
  | a :: l => (prev a = before ∧ next a = l.head?) ∧ Threaded next prev (some a) l

theorem getLast?_cons_or : (a :: l).getLast?.or before = l.getLast?.or (some a) := by
  rw [getLast?_cons]
  cases l.getLast? <;> rfl

namespace Threaded

theorem congr (h : Threaded next prev before l)
    (hsame : ∀ a ∈ l, next' a = next a ∧ prev' a = prev a) : Threaded next' prev' before l := by
  induction l generalizing before with
  | nil => trivial
  | cons a l ih =>
    obtain ⟨hnext, hprev⟩ := hsame a mem_cons_self
    exact ⟨⟨hprev.trans h.1.1, hnext.trans h.1.2⟩,
      ih h.2 fun b hb => hsame b (mem_cons_of_mem a hb)⟩

/-- What a node is linked to. -/
theorem neighbours (h : Threaded next prev before (l₁ ++ a :: l₂)) :
    prev a = l₁.getLast?.or before ∧ next a = l₂.head? := by
  induction l₁ generalizing before with
  | nil => exact h.1
  | cons b l₁ ih =>
    obtain ⟨hprev, hnext⟩ := ih h.2
    exact ⟨hprev.trans getLast?_cons_or.symm, hnext⟩

/-- A node between two parts of a thread. -/
theorem insert [DecidableEq α] (h : Threaded next prev before (l₁ ++ l₂))
    (hnodup : (l₁ ++ l₂).Nodup) (hxp : prev' x = l₁.getLast?.or before) (hxn : next' x = l₂.head?)
    (hnext : ∀ b ∈ l₁ ++ l₂, next' b = if l₁.getLast? = some b then some x else next b)
    (hprev : ∀ b ∈ l₁ ++ l₂, prev' b = if l₂.head? = some b then some x else prev b) :
    Threaded next' prev' before (l₁ ++ x :: l₂) := by
  induction l₁ generalizing before with
  | nil =>
    refine ⟨⟨hxp, hxn⟩, ?_⟩
    cases l₂ with
    | nil => trivial
    | cons b l₂ =>
      refine ⟨⟨(hprev b mem_cons_self).trans (if_pos rfl),
        (hnext b mem_cons_self).trans h.1.2⟩, h.2.congr fun c hc => ⟨?_, ?_⟩⟩
      · exact hnext c (mem_cons_of_mem b hc)
      · refine (hprev c (mem_cons_of_mem b hc)).trans (if_neg fun heq => ?_)
        obtain rfl : b = c := Option.some.inj heq
        exact (nodup_cons.mp hnodup).1 hc
  | cons a l₁ ih =>
    obtain ⟨ha, hrest⟩ := nodup_cons.mp hnodup
    have hfirst : ∀ c ∈ l₁ ++ l₂, a ≠ c := fun c hc heq => ha (heq ▸ hc)
    refine ⟨⟨?_, ?_⟩, ih h.2 hrest (hxp.trans getLast?_cons_or) (fun c hc => ?_) fun c hc => ?_⟩
    · rw [hprev a mem_cons_self, if_neg fun heq => ?_, h.1.1]
      exact hfirst a (mem_append_right l₁ (mem_of_mem_head? heq)) rfl
    · rw [hnext a mem_cons_self, h.1.2]
      cases l₁ with
      | nil => exact if_pos rfl
      | cons b l₁ =>
        refine if_neg fun heq => hfirst a (mem_append_left l₂ ?_) rfl
        rw [getLast?_cons_cons] at heq
        exact mem_of_getLast? heq
    · rw [hnext c (mem_cons_of_mem a hc)]
      cases l₁ with
      | nil => exact (if_neg fun heq => hfirst c hc (Option.some.inj heq)).trans (if_neg nofun).symm
      | cons b l₁ => rw [getLast?_cons_cons]
    · exact hprev c (mem_cons_of_mem a hc)

end Threaded

end OmapHal.Core
