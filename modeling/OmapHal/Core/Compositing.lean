import Mathlib.Data.List.Basic
import Mathlib.Tactic.Cases

/-!
# Compositing one pixel

An `Ink` is what a layer does to the pixel behind it: it puts a value there or blends
one over it. `paint` applies the inks of a stack from bottom to top. `walk` goes
through a stack from the top and ends at the first layer that lets nothing through;
the layers behind that one do not matter.
-/

namespace OmapHal.Core

open List Option

section Walk

variable {α β : Type*} {ends : α → Option Bool} {us vs init : List α} {a b : α}

/-- The elements up to the first one at which the walk ends. The test of an element may
fail, and the walk with it. -/
def walk (ends : α → Option Bool) : List α → Option (List α)
  | [] => some []
  | a :: as =>
    match ends a with
    | none => none
    | some true => some [a]
    | some false => (walk ends as).map (a :: ·)

@[simp] theorem walk_nil : walk ends [] = some [] := rfl

theorem walk_cons_true (h : ends a = some true) : walk ends (a :: us) = some [a] := by
  simp only [walk, h]

theorem walk_cons_false (h : ends a = some false) :
    walk ends (a :: us) = (walk ends us).map (a :: ·) := by
  simp only [walk, h]

theorem walk_cons_none (h : ends a = none) : walk ends (a :: us) = none := by
  simp only [walk, h]

/-- A walk over images is the image of a walk. -/
theorem walk_map (ends : α → Option Bool) (f : β → α) (us : List β) :
    walk ends (us.map f) = (walk (fun b => ends (f b)) us).map (List.map f) := by
  induction us with
  | nil => rfl
  | cons b us ih =>
    simp only [map_cons, walk]
    cases ends (f b) with
    | none => rfl
    | some e =>
      cases e with
      | true => rfl
      | false =>
        simp only [ih, Option.map_map]
        congr 1

/-- A walk sees an initial part. -/
theorem prefix_of_walk (h : walk ends us = some vs) : vs <+: us := by
  induction us generalizing vs with
  | nil =>
    rw [walk_nil, some.injEq] at h
    exact h ▸ prefix_rfl
  | cons a us ih =>
    cases he : ends a with
    | none =>
      rw [walk_cons_none he] at h
      cases h
    | some e =>
      cases e with
      | true =>
        rw [walk_cons_true he, some.injEq] at h
        rw [← h]
        exact prefix_append [a] us
      | false =>
        rw [walk_cons_false he, map_eq_some_iff] at h
        obtain ⟨ws, hws, rfl⟩ := h
        exact cons_prefix_cons.mpr ⟨rfl, ih hws⟩

/-- A walk sees everything, or its last element ends it. -/
theorem walk_last (h : walk ends us = some vs) :
    vs = us ∨ ∃ init a, vs = init ++ [a] ∧ ends a = some true := by
  induction us generalizing vs with
  | nil =>
    rw [walk_nil, some.injEq] at h
    exact .inl h.symm
  | cons a us ih =>
    cases he : ends a with
    | none =>
      rw [walk_cons_none he] at h
      cases h
    | some e =>
      cases e with
      | true =>
        rw [walk_cons_true he, some.injEq] at h
        exact .inr ⟨[], a, h.symm, he⟩
      | false =>
        rw [walk_cons_false he, map_eq_some_iff] at h
        obtain ⟨ws, hws, rfl⟩ := h
        rcases ih hws with rfl | ⟨init, b, rfl, hb⟩
        · exact .inl rfl
        · exact .inr ⟨a :: init, b, rfl, hb⟩

/-- Only the last element of a walk may end it. -/
theorem walk_init (h : walk ends us = some (init ++ [a])) (hb : b ∈ init) :
    ends b = some false := by
  induction us generalizing init with
  | nil =>
    rw [walk_nil, some.injEq] at h
    exact absurd h.symm (by simp)
  | cons c us ih =>
    cases he : ends c with
    | none =>
      rw [walk_cons_none he] at h
      cases h
    | some e =>
      cases e with
      | true =>
        rw [walk_cons_true he, some.injEq] at h
        cases init with
        | nil => cases hb
        | cons d init =>
          have hnil := (cons.inj h).2
          exact absurd hnil.symm (by simp)
      | false =>
        rw [walk_cons_false he, map_eq_some_iff] at h
        obtain ⟨ws, hws, heq⟩ := h
        cases init with
        | nil => cases hb
        | cons d init =>
          obtain ⟨rfl, rfl⟩ := cons.inj heq
          rcases mem_cons.mp hb with rfl | hb
          · exact he
          · exact ih hws hb

/-- A walk comes to its end exactly if before each test that fails another one ends it. -/
theorem walk_ne_none_iff : walk ends us ≠ none ↔
    ∀ pre a post, us = pre ++ a :: post → ends a = none → ∃ b ∈ pre, ends b = some true := by
  induction us with
  | nil =>
    refine iff_of_true (some_ne_none _) fun pre a post heq => ?_
    simp at heq
  | cons c us ih =>
    cases he : ends c with
    | none =>
      rw [walk_cons_none he]
      refine iff_of_false (not_not.mpr rfl) fun h => ?_
      obtain ⟨b, hb, -⟩ := h [] c us rfl he
      cases hb
    | some e =>
      cases e with
      | true =>
        rw [walk_cons_true he]
        refine iff_of_true (some_ne_none _) fun pre a post heq ha => ?_
        cases pre with
        | nil =>
          obtain ⟨rfl, -⟩ := cons.inj heq
          rw [he] at ha
          cases ha
        | cons d pre =>
          obtain ⟨rfl, -⟩ := cons.inj heq
          exact ⟨c, mem_cons_self, he⟩
      | false =>
        rw [walk_cons_false he, ne_eq, map_eq_none_iff, ← ne_eq, ih]
        constructor
        · intro h pre a post heq ha
          cases pre with
          | nil =>
            obtain ⟨rfl, -⟩ := cons.inj heq
            rw [he] at ha
            cases ha
          | cons d pre =>
            obtain ⟨b, hb, hends⟩ := h pre a post (cons.inj heq).2 ha
            exact ⟨b, mem_cons_of_mem d hb, hends⟩
        · intro h pre a post heq ha
          obtain ⟨b, hb, hends⟩ := h (c :: pre) a post (congrArg (c :: ·) heq) ha
          rcases mem_cons.mp hb with rfl | hb
          · rw [he] at hends
            cases hends
          · exact ⟨b, hb, hends⟩

end Walk

section Paint

variable {V : Type*}

/-- What a layer does to a pixel. -/
inductive Ink (V : Type*) where
  | put (v : V)
  | blend (v : V)

/-- The value behind an ink with the ink on it. -/
def Ink.apply (srcOver : V → V → V) : Ink V → V → V
  | .put v, _ => v
  | .blend v, d => srcOver v d

/-- A stack of inks, bottom first, on a backdrop. -/
def paint (srcOver : V → V → V) (inks : List (Ink V)) (d : V) : V :=
  inks.foldl (fun d i => i.apply srcOver d) d

/-- The ink lets nothing of its backdrop through. -/
def Ink.Opaque (srcOver : V → V → V) (i : Ink V) :
    Prop := ∀ d d', i.apply srcOver d = i.apply srcOver d'

variable {srcOver : V → V → V} {i : Ink V} {is js : List (Ink V)} {d : V}

@[simp] theorem paint_cons : paint srcOver (i :: is) d = paint srcOver is (i.apply srcOver d) := rfl

theorem paint_append : paint srcOver (is ++ js) d = paint srcOver js (paint srcOver is d) := by
  rw [paint, foldl_append]
  rfl

theorem Ink.opaque_put (v : V) : (Ink.put v).Opaque srcOver := fun _ _ => rfl

end Paint

end OmapHal.Core
