import Mathlib.Data.List.Induction
import Mathlib.Tactic.Cases

/-!
# Runs of a step function

A system whose step is a total function runs through a list of inputs by `List.foldl`.
An invariant may look at the inputs consumed so far; where a step keeps it only under a
condition, the condition is asked of each step at the state the run has then.
-/

namespace OmapHal.Core

open List Option

variable {σ α : Type*} {step : σ → α → σ} {s : σ} {as : List α}

/-- Invariant rule, with the inputs consumed so far. -/
theorem foldl_consumed {P : List α → σ → Prop} (h0 : P [] s)
    (hs : ∀ done a s, P done s → P (done ++ [a]) (step s a)) : P as (as.foldl step s) := by
  induction as using reverseRecOn with
  | nil => exact h0
  | append_singleton done a ih =>
    rw [foldl_append, foldl_cons, foldl_nil]
    exact hs done a _ ih

/-- Invariant rule. -/
theorem foldl_invariant {P : σ → Prop} (h0 : P s) (hs : ∀ s a, P s → P (step s a)) :
    P (as.foldl step s) :=
  foldl_consumed (P := fun _ => P) h0 fun _ a s => hs s a

/-- Every step of the run meets a condition. -/
def Along (step : σ → α → σ) (ok : σ → α → Prop) : σ → List α → Prop
  | _, [] => True
  | s, a :: as => ok s a ∧ Along step ok (step s a) as

/-- Invariant rule for runs whose steps all meet a condition. -/
theorem Along.invariant {ok : σ → α → Prop} {P : σ → Prop} (h : Along step ok s as) (h0 : P s)
    (hs : ∀ s a, P s → ok s a → P (step s a)) : P (as.foldl step s) := by
  induction as generalizing s with
  | nil => exact h0
  | cons a as ih => exact ih h.2 (hs s a h0 h.1)

theorem Along.and {ok ok' : σ → α → Prop} (h : Along step ok s as) (h' : Along step ok' s as) :
    Along step (fun s a => ok s a ∧ ok' s a) s as := by
  induction as generalizing s with
  | nil => trivial
  | cons a as ih => exact ⟨⟨h.1, h'.1⟩, ih h.2 h'.2⟩

theorem Along.of_append {ok : σ → α → Prop} {bs : List α} (h : Along step ok s (as ++ bs)) :
    Along step ok s as := by
  induction as generalizing s with
  | nil => trivial
  | cons a as ih => exact ⟨h.1, ih h.2⟩

/-- An invariant that a step keeps exactly under a condition holds in every state of a run
exactly if every step of the run meets the condition. -/
theorem Along.iff_invariant {ok : σ → α → Prop} {P : σ → Prop} (h0 : P s)
    (hs : ∀ s a, P s → (P (step s a) ↔ ok s a)) :
    Along step ok s as ↔ ∀ done, done <+: as → P (done.foldl step s) := by
  induction as generalizing s with
  | nil =>
    refine iff_of_true trivial fun done hdone => ?_
    obtain rfl := prefix_nil.mp hdone
    exact h0
  | cons a as ih =>
    constructor
    · rintro ⟨hok, hrest⟩ done hdone
      cases done with
      | nil => exact h0
      | cons b done =>
        obtain ⟨rfl, hrestDone⟩ := cons_prefix_cons.mp hdone
        exact (ih ((hs s b h0).mpr hok)).mp hrest done hrestDone
    · intro h
      have hnext : P (step s a) := h [a] (cons_prefix_cons.mpr ⟨rfl, nil_prefix⟩)
      refine ⟨(hs s a h0).mp hnext, (ih hnext).mpr fun done hdone => ?_⟩
      exact h (a :: done) (cons_prefix_cons.mpr ⟨rfl, hdone⟩)

/-- A condition on the steps of a run gives another one, in the states of an invariant that a step
keeps where the first one holds. -/
theorem Along.mono_invariant {ok ok' : σ → α → Prop} {I : σ → Prop} (hok : Along step ok s as)
    (h0 : I s) (hs : ∀ s a, I s → ok s a → ok' s a) (hI : ∀ s a, I s → ok s a → I (step s a)) :
    Along step ok' s as := by
  induction as generalizing s with
  | nil => trivial
  | cons a as ih => exact ⟨hs s a h0 hok.1, ih hok.2 (hI s a h0 hok.1)⟩

/-- Two conditions on the steps of a run agree if they agree in the states of an invariant that a
step keeps where the second one holds. -/
theorem Along.congr_invariant {dom ok ok' : σ → α → Prop} {I : σ → Prop}
    (hdom : Along step dom s as) (h0 : I s)
    (hs : ∀ s a, I s → dom s a → (ok s a ↔ ok' s a))
    (hI : ∀ s a, I s → dom s a → ok' s a → I (step s a)) :
    Along step ok s as ↔ Along step ok' s as := by
  induction as generalizing s with
  | nil => exact Iff.rfl
  | cons a as ih =>
    have hfirst := hs s a h0 hdom.1
    constructor
    · rintro ⟨hok, hrest⟩
      have hok' := hfirst.mp hok
      exact ⟨hok', (ih hdom.2 (hI s a h0 hdom.1 hok')).mp hrest⟩
    · rintro ⟨hok', hrest⟩
      exact ⟨hfirst.mpr hok', (ih hdom.2 (hI s a h0 hdom.1 hok')).mpr hrest⟩

/-- Every step of a run of a partial step function meets a condition. -/
def AlongSome (step : σ → α → Option σ) (ok : σ → α → Prop) : σ → List α → Prop
  | _, [] => True
  | s, a :: as => ok s a ∧ ∀ t, step s a = some t → AlongSome step ok t as

section Partial

variable {step : σ → α → Option σ}

theorem AlongSome.cons {ok : σ → α → Prop} {a : α} {t : σ} (h : ok s a) (ht : step s a = some t)
    (hrest : AlongSome step ok t as) : AlongSome step ok s (a :: as) :=
  ⟨h, fun _ heq => Option.some.inj (ht.symm.trans heq) ▸ hrest⟩

/-- Two conditions on the steps of a partial run agree if they agree in the states of an invariant
that a step keeps where the second one holds. -/
theorem AlongSome.congr_invariant {dom ok ok' : σ → α → Prop} {I : σ → Prop}
    (hdom : AlongSome step dom s as) (h0 : I s)
    (hs : ∀ s a, I s → dom s a → (ok s a ↔ ok' s a))
    (hI : ∀ s a t, I s → dom s a → ok' s a → step s a = some t → I t) :
    AlongSome step ok s as ↔ AlongSome step ok' s as := by
  induction as generalizing s with
  | nil => exact Iff.rfl
  | cons a as ih =>
    have hfirst := hs s a h0 hdom.1
    constructor
    · rintro ⟨hok, hrest⟩
      have hok' := hfirst.mp hok
      exact ⟨hok', fun t ht => (ih (hdom.2 t ht) (hI s a t h0 hdom.1 hok' ht)).mp (hrest t ht)⟩
    · rintro ⟨hok', hrest⟩
      exact ⟨hfirst.mpr hok', fun t ht =>
        (ih (hdom.2 t ht) (hI s a t h0 hdom.1 hok' ht)).mpr (hrest t ht)⟩

theorem AlongSome.and {ok ok' : σ → α → Prop} (h : AlongSome step ok s as)
    (h' : AlongSome step ok' s as) : AlongSome step (fun s a => ok s a ∧ ok' s a) s as := by
  induction as generalizing s with
  | nil => trivial
  | cons a as ih => exact ⟨⟨h.1, h'.1⟩, fun t ht => ih (h.2 t ht) (h'.2 t ht)⟩

/-- A condition on the steps of a partial run gives another one, in the states of an invariant that
a step keeps where the first one holds. -/
theorem AlongSome.mono_invariant {dom ok ok' : σ → α → Prop} {I : σ → Prop}
    (hdom : AlongSome step dom s as) (hok : AlongSome step ok s as) (h0 : I s)
    (hs : ∀ s a, I s → dom s a → ok s a → ok' s a)
    (hI : ∀ s a t, I s → dom s a → ok s a → step s a = some t → I t) :
    AlongSome step ok' s as := by
  induction as generalizing s with
  | nil => trivial
  | cons a as ih =>
    exact ⟨hs s a h0 hdom.1 hok.1, fun t ht =>
      ih (hdom.2 t ht) (hok.2 t ht) (hI s a t h0 hdom.1 hok.1 ht)⟩

/-- Invariant rule for partial runs whose steps all meet a condition, for each part of the run. -/
theorem AlongSome.invariant {ok : σ → α → Prop} {P : σ → Prop} {t : σ} {done : List α}
    (h : AlongSome step ok s as) (h0 : P s) (hs : ∀ s a t, P s → ok s a → step s a = some t → P t)
    (hdone : done <+: as) (ht : done.foldlM step s = some t) : P t := by
  induction done generalizing s as with
  | nil =>
    obtain rfl : s = t := some.inj ht
    exact h0
  | cons a done ih =>
    obtain ⟨rest, rfl⟩ := hdone
    rw [foldlM_cons] at ht
    obtain ⟨u, hu, hrest⟩ := bind_eq_some_iff.mp ht
    exact ih (h.2 u hu) (hs s a u h0 h.1 hu) (prefix_append done rest) hrest

/-- A run whose steps are all defined has an end, in the invariant that they keep. -/
theorem AlongSome.exists_foldlM {dom : σ → α → Prop} {I : σ → Prop}
    (hdom : AlongSome step dom s as) (h0 : I s)
    (hs : ∀ s a, I s → dom s a → ∃ t, step s a = some t ∧ I t) :
    ∃ t, as.foldlM step s = some t ∧ I t := by
  induction as generalizing s with
  | nil => exact ⟨s, rfl, h0⟩
  | cons a as ih =>
    obtain ⟨t, ht, hI⟩ := hs s a h0 hdom.1
    rw [foldlM_cons, ht]
    exact ih (hdom.2 t ht) hI

/-- Invariant rule for partial steps. -/
theorem foldlM_invariant {P : σ → Prop} {t : σ} (h0 : P s)
    (hs : ∀ s a t, P s → step s a = some t → P t) (h : as.foldlM step s = some t) : P t := by
  induction as generalizing s with
  | nil =>
    rw [foldlM_nil] at h
    cases h
    exact h0
  | cons a as ih =>
    rw [foldlM_cons] at h
    obtain ⟨u, hu, hrest⟩ := bind_eq_some_iff.mp h
    exact ih (hs s a u h0 hu) hrest

/-- A property of states and a relation between a state and the next that a step keeps exactly
under a condition, in the states of an invariant that every step keeps: both hold throughout a
run exactly if every step of the run meets the condition. -/
theorem AlongSome.iff_transition {ok : σ → α → Prop} {I P : σ → Prop} {Q : σ → σ → Prop}
    (hI0 : I s) (h0 : P s) (hI : ∀ s a t, I s → step s a = some t → I t)
    (hs : ∀ s a, I s → P s → ((∃ t, step s a = some t ∧ P t ∧ Q s t) ↔ ok s a)) :
    AlongSome step ok s as ↔
      (∀ done, done <+: as → ∃ t, done.foldlM step s = some t ∧ P t) ∧
        ∀ done a t u, done ++ [a] <+: as → done.foldlM step s = some t → step t a = some u →
          Q t u := by
  induction as generalizing s with
  | nil =>
    refine iff_of_true trivial ⟨fun done hdone => ?_, fun done a t u hdone => ?_⟩
    · obtain rfl := prefix_nil.mp hdone
      exact ⟨s, rfl, h0⟩
    · exact absurd (prefix_nil.mp hdone) (append_ne_nil_of_right_ne_nil _ (by simp))
  | cons a as ih =>
    constructor
    · rintro ⟨hok, hrest⟩
      obtain ⟨t, ht, hPt, hQt⟩ := (hs s a hI0 h0).mpr hok
      obtain ⟨hstates, hsteps⟩ := (ih (hI s a t hI0 ht) hPt).mp (hrest t ht)
      constructor
      · intro done hdone
        cases done with
        | nil => exact ⟨s, rfl, h0⟩
        | cons b done =>
          obtain ⟨rfl, hrestDone⟩ := cons_prefix_cons.mp hdone
          rw [foldlM_cons, ht]
          exact hstates done hrestDone
      · intro done b u v hdone hu hv
        cases done with
        | nil =>
          obtain ⟨rfl, -⟩ := cons_prefix_cons.mp hdone
          obtain rfl : s = u := some.inj hu
          exact some.inj (ht.symm.trans hv) ▸ hQt
        | cons c done =>
          obtain ⟨rfl, hrestDone⟩ := cons_prefix_cons.mp hdone
          rw [foldlM_cons, ht] at hu
          exact hsteps done b u v hrestDone hu hv
    · rintro ⟨hstates, hsteps⟩
      obtain ⟨t, ht, hPt⟩ := hstates [a] (cons_prefix_cons.mpr ⟨rfl, nil_prefix⟩)
      rw [foldlM_cons] at ht
      obtain ⟨u, hu, hut⟩ := bind_eq_some_iff.mp ht
      obtain rfl : u = t := some.inj hut
      have hQ : Q s u :=
        hsteps [] a s u (cons_prefix_cons.mpr ⟨rfl, nil_prefix⟩) rfl hu
      refine ⟨(hs s a hI0 h0).mp ⟨u, hu, hPt, hQ⟩, fun v hv => ?_⟩
      obtain rfl : u = v := some.inj (hu.symm.trans hv)
      refine (ih (hI s a u hI0 hu) hPt).mpr ⟨fun done hdone => ?_, fun done b w x hdone hw hx => ?_⟩
      · obtain ⟨w, hw, hPw⟩ := hstates (a :: done) (cons_prefix_cons.mpr ⟨rfl, hdone⟩)
        rw [foldlM_cons, hu] at hw
        exact ⟨w, hw, hPw⟩
      · refine hsteps (a :: done) b w x (cons_prefix_cons.mpr ⟨rfl, hdone⟩) ?_ hx
        rw [foldlM_cons, hu]
        exact hw

/-- A property that a step keeps exactly under a condition, in the states of an invariant that
every step keeps, holds after each part of a run exactly if every step of the run meets the
condition. -/
theorem AlongSome.iff_invariant {ok : σ → α → Prop} {I P : σ → Prop} (hI0 : I s) (h0 : P s)
    (hI : ∀ s a t, I s → step s a = some t → I t)
    (hs : ∀ s a, I s → P s → ((∃ t, step s a = some t ∧ P t) ↔ ok s a)) :
    AlongSome step ok s as ↔
      ∀ done, done <+: as → ∃ t, done.foldlM step s = some t ∧ P t := by
  refine (AlongSome.iff_transition (Q := fun _ _ => True) hI0 h0 hI fun s a hIs hPs => ?_).trans
    (and_iff_left fun _ _ _ _ _ _ _ => trivial)
  simpa only [and_true] using hs s a hIs hPs

end Partial

end OmapHal.Core
