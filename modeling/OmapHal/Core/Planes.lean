import Mathlib.Algebra.Group.Defs
import Mathlib.Data.List.Basic

/-!
# Stacks of layers

What layers show at one pixel, in a monoid: the product of two contents is the first one over the
second, and `1` is transparent. Layers may be divided between planes that the display blends and a
canvas among them.
-/

namespace OmapHal.Core

open List

variable {M : Type*} [Monoid M] {as bs : List M} {a : M}

/-- Layers painted one over the other, the lowest one first. -/
def stack (as : List M) : M := as.foldl (fun below a => a * below) 1

@[simp] theorem stack_nil : stack ([] : List M) = 1 := rfl

theorem stack_concat (as : List M) (a : M) : stack (as ++ [a]) = a * stack as := by
  rw [stack, foldl_append, foldl_cons, foldl_nil, stack]

theorem stack_append (as bs : List M) : stack (as ++ bs) = stack bs * stack as := by
  induction bs generalizing as with
  | nil => rw [append_nil, stack_nil, one_mul]
  | cons b bs ih =>
    have hsplit : ∀ cs : List M, stack (cs ++ b :: bs) = stack bs * (b * stack cs) := by
      intro cs
      rw [append_cons, ih, stack_concat]
    have hnil := hsplit []
    rw [nil_append, stack_nil, mul_one] at hnil
    rw [hsplit, hnil, mul_assoc]

/-- Layers that show nothing. -/
theorem stack_eq_one (h : ∀ a ∈ as, a = 1) : stack as = 1 := by
  induction as with
  | nil => rfl
  | cons a as ih =>
    rw [← singleton_append, stack_append, ih fun b hb => h b (mem_cons_of_mem a hb),
      h a mem_cons_self]
    simp [stack]

/-- A content that hides what is below it. -/
def Hides (a : M) : Prop := ∀ b, a * b = a

/-- What the planes below a canvas, the canvas and the planes above it show. -/
structure Planes (M : Type*) where
  below : M
  canvas : M
  above : M

namespace Planes

variable {p : Planes M}

/-- What the planes show together. -/
def shown (p : Planes M) : M := p.above * (p.canvas * p.below)

/-- The planes above the canvas show nothing, or the canvas does not. -/
def Settled (p : Planes M) : Prop := p.above = 1 ∨ p.canvas = 1

/-- Move the canvas above all planes. -/
def raise (p : Planes M) : Planes M := ⟨p.above * p.below, p.canvas, 1⟩

/-- Draw on the canvas. -/
def draw (p : Planes M) (a : M) : Planes M := ⟨p.below, a * p.canvas, p.above⟩

/-- A new plane at the top; the canvas may be cleared where the plane shows something. -/
def cover (p : Planes M) (a : M) (clears : Bool) : Planes M :=
  ⟨p.below, if clears then 1 else p.canvas, a * p.above⟩

theorem shown_raise (h : p.Settled) : p.raise.shown = p.shown := by
  rcases h with h | h
  · simp [shown, raise, h]
  · simp [shown, raise, h]

theorem shown_draw (h : p.above = 1) : (p.draw a).shown = a * p.shown := by
  simp [shown, draw, h, mul_assoc]

/-- What hides everything may be cleared below. -/
theorem shown_cover {clears : Bool} (h : if clears then Hides a else a = 1) :
    (p.cover a clears).shown = a * p.shown := by
  cases clears with
  | true =>
    have ha : ∀ b, a * b = a := h
    simp [shown, cover, ha]
  | false => simp [shown, cover, mul_assoc]

theorem settled_cover {clears : Bool} (hp : p.Settled) (h : if clears then Hides a else a = 1) :
    (p.cover a clears).Settled := by
  cases clears with
  | true => exact .inr rfl
  | false =>
    have ha : a = 1 := h
    rcases hp with hp | hp
    · exact .inl (by simp [cover, ha, hp])
    · exact .inr hp

end Planes

end OmapHal.Core
