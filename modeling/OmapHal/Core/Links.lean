import Mathlib.Data.List.Basic
import Mathlib.Logic.Function.Basic
import Mathlib.Tactic.Cases

/-!
# Linked lists

A list of nodes that are linked in some store: each node's cell holds the reference of the next
node, the last one's holds `nil`. The first node of the list may be a header that is in no cell.
-/

namespace OmapHal.Core

open Function List

variable {α β : Type*} {link link' ref ref' : α → β} {nil : β} {l l₁ l₂ : List α} {a p x : α}

/-- What the cell before the nodes `l` holds. -/
def entry (ref : α → β) (nil : β) (l : List α) : β := l.head?.elim nil ref

@[simp] theorem entry_cons : entry ref nil (a :: l) = ref a := rfl

theorem entry_congr (h : ∀ a ∈ l, ref' a = ref a) : entry ref' nil l = entry ref nil l := by
  cases l with
  | nil => rfl
  | cons a l => exact h a mem_cons_self

/-- The nodes are linked in their order. -/
def Links (link ref : α → β) (nil : β) : List α → Prop
  | [] => True
  | a :: l => link a = entry ref nil l ∧ Links link ref nil l

theorem Links.congr (h : Links link ref nil l) (hl : ∀ a ∈ l, link' a = link a)
    (hr : ∀ a ∈ l, ref' a = ref a) : Links link' ref' nil l := by
  induction l with
  | nil => trivial
  | cons a l ih =>
    have hrest : ∀ b ∈ l, ref' b = ref b := fun b hb => hr b (mem_cons_of_mem a hb)
    refine ⟨?_, ih h.2 (fun b hb => hl b (mem_cons_of_mem a hb)) hrest⟩
    rw [hl a mem_cons_self, h.1, entry_congr hrest]

/-- A node put after the first one. -/
theorem Links.insert (h : Links link ref nil (p :: l)) (hp : link' p = ref x)
    (hx : link' x = link p) (hl : ∀ a ∈ l, link' a = link a) :
    Links link' ref nil (p :: x :: l) :=
  ⟨hp, hx.trans h.1, h.2.congr hl fun _ _ => rfl⟩

section Store

variable [DecidableEq α]

/-- The cells after a node was put behind `p`. -/
def pushed (link ref : α → β) (p x : α) : α → β :=
  Function.update (Function.update link x (link p)) p (ref x)

theorem pushed_of_ne (hp : a ≠ p) (hx : a ≠ x) : pushed link ref p x a = link a :=
  (update_of_ne hp ..).trans (update_of_ne hx ..)

theorem Links.pushed (h : Links link ref nil (p :: l)) (hp : p ∉ l) (hx : x ∉ p :: l) :
    Links (pushed link ref p x) ref nil (p :: x :: l) := by
  have hxp : x ≠ p := fun heq => hx (heq ▸ mem_cons_self)
  refine h.insert (update_self ..) ?_ fun a ha => ?_
  · rw [Core.pushed, update_of_ne hxp, update_self]
  · exact pushed_of_ne (fun heq => hp (heq ▸ ha)) fun heq => hx (heq ▸ mem_cons_of_mem p ha)

/-- A list that has neither the node nor the one before it. -/
theorem Links.pushed_apart (h : Links link ref nil l) (hp : p ∉ l) (hx : x ∉ l) :
    Links (Core.pushed link ref p x) ref nil l :=
  h.congr (fun _ ha => pushed_of_ne (fun heq => hp (heq ▸ ha)) fun heq => hx (heq ▸ ha))
    fun _ _ => rfl

end Store

/-- A node's cell holds the reference of the node after it. -/
theorem Links.next (h : Links link ref nil (l₁ ++ x :: l₂)) : link x = entry ref nil l₂ := by
  induction l₁ with
  | nil => exact h.1
  | cons a l₁ ih => exact ih h.2

/-- A node taken out: the cell before it gets what its own holds. -/
theorem Links.unlink (h : Links link ref nil (l₁ ++ p :: x :: l₂)) (hp : link' p = link x)
    (h1 : ∀ a ∈ l₁, link' a = link a) (h2 : ∀ a ∈ l₂, link' a = link a) :
    Links link' ref nil (l₁ ++ p :: l₂) := by
  induction l₁ with
  | nil => exact ⟨hp.trans h.2.1, h.2.2.congr h2 fun _ _ => rfl⟩
  | cons a l₁ ih =>
    refine ⟨?_, ih h.2 fun b hb => h1 b (mem_cons_of_mem a hb)⟩
    rw [h1 a mem_cons_self, h.1]
    cases l₁ <;> rfl

end OmapHal.Core
