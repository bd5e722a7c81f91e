import Mathlib.Data.List.Nodup
import Mathlib.Logic.Function.Basic

/-!
# Ledgers with owners

A ledger lists what is in use. Each entry has one owner, and no two entries have the same key. An
owner takes an entry on, or gives its entry up.
-/

namespace OmapHal.Core

open Function List

variable {ω ρ κ : Type*} {key : ρ → κ} {ledger : List ρ} {holds holds' : ω → Option ρ}
  {o : ω} {r : ρ}

/-- Every entry is held by one owner, and owners hold nothing else. -/
structure Owns (key : ρ → κ) (ledger : List ρ) (holds : ω → Option ρ) : Prop where
  kept : ∀ o r, holds o = some r → r ∈ ledger
  owned : ∀ r ∈ ledger, ∃ o, holds o = some r
  unique : ∀ o o' r r', holds o = some r → holds o' = some r' → key r = key r' → o = o'
  nodup : (ledger.map key).Nodup

theorem Owns.nil (h : ∀ o, holds o = none) : Owns key [] holds where
  kept o r hr := by
    rw [h o] at hr
    cases hr
  owned _ hr := nomatch hr
  unique o _ r _ hr := by
    rw [h o] at hr
    cases hr
  nodup := nodup_nil

/-- Where nobody holds anything, nothing is in use. -/
theorem Owns.eq_nil (h : Owns key ledger holds) (hnone : ∀ o, holds o = none) : ledger = [] := by
  refine eq_nil_iff_forall_not_mem.mpr fun r hr => ?_
  obtain ⟨o, ho⟩ := h.owned r hr
  rw [hnone o] at ho
  cases ho

theorem Owns.congr (h : Owns key ledger holds) (heq : ∀ o, holds' o = holds o) :
    Owns key ledger holds' := by
  rw [funext heq]
  exact h

/-- Entries with the same key are the same. -/
theorem Owns.eq_of_key (h : Owns key ledger holds) {r r' : ρ} (hr : r ∈ ledger) (hr' : r' ∈ ledger)
    (hkey : key r = key r') : r = r' :=
  inj_on_of_nodup_map h.nodup hr hr' hkey

/-- Taking out the first entry of a kind, where it is the only one. -/
theorem eraseP_eq_erase [BEq ρ] [LawfulBEq ρ] {p : ρ → Bool} (h : ∀ r' ∈ ledger, p r' ↔ r' = r) :
    ledger.eraseP p = ledger.erase r := by
  induction ledger with
  | nil => rfl
  | cons r' ledger ih =>
    by_cases hp : p r'
    · rw [eraseP_cons_of_pos hp, (h r' mem_cons_self).mp hp, erase_cons_head]
    · have hne : r' ≠ r := fun heq => hp ((h r' mem_cons_self).mpr heq)
      rw [eraseP_cons_of_neg hp, erase_cons_tail (by simpa using hne),
        ih fun r'' hr'' => h r'' (mem_cons_of_mem r' hr'')]

variable [DecidableEq ω]

/-- An owner without an entry gives nothing up. -/
theorem Owns.update_none (h : Owns key ledger holds) (hnone : holds o = none) :
    Owns key ledger (update holds o none) := by
  rw [← hnone, update_eq_self]
  exact h

/-- An owner without an entry takes a new one on. -/
theorem Owns.add (h : Owns key ledger holds) (hnone : holds o = none)
    (hnew : ∀ r' ∈ ledger, key r' ≠ key r) :
    Owns key (r :: ledger) (update holds o (some r)) where
  kept o' r' hr' := by
    by_cases ho : o' = o
    · subst ho
      rw [update_self] at hr'
      obtain rfl := Option.some.inj hr'
      exact mem_cons_self
    · rw [update_of_ne ho] at hr'
      exact mem_cons_of_mem r (h.kept o' r' hr')
  owned r' hr' := by
    rcases mem_cons.mp hr' with rfl | hr'
    · exact ⟨o, update_self ..⟩
    · obtain ⟨o', ho'⟩ := h.owned r' hr'
      have hne : o' ≠ o := fun heq => by
        rw [heq, hnone] at ho'
        cases ho'
      exact ⟨o', (update_of_ne hne ..).trans ho'⟩
  unique o₁ o₂ r₁ r₂ h₁ h₂ hkey := by
    by_cases ho₁ : o₁ = o <;> by_cases ho₂ : o₂ = o
    · exact ho₁.trans ho₂.symm
    · rw [ho₁, update_self] at h₁
      rw [update_of_ne ho₂] at h₂
      obtain rfl := Option.some.inj h₁
      exact absurd hkey.symm (hnew r₂ (h.kept o₂ r₂ h₂))
    · rw [update_of_ne ho₁] at h₁
      rw [ho₂, update_self] at h₂
      obtain rfl := Option.some.inj h₂
      exact absurd hkey (hnew r₁ (h.kept o₁ r₁ h₁))
    · rw [update_of_ne ho₁] at h₁
      rw [update_of_ne ho₂] at h₂
      exact h.unique o₁ o₂ r₁ r₂ h₁ h₂ hkey
  nodup := by
    rw [map_cons, nodup_cons]
    refine ⟨fun hmem => ?_, h.nodup⟩
    obtain ⟨r', hr', hkey⟩ := mem_map.mp hmem
    exact hnew r' hr' hkey

/-- An owner gives its entry up. -/
theorem Owns.erase [DecidableEq ρ] (h : Owns key ledger holds) (ho : holds o = some r) :
    Owns key (ledger.erase r) (update holds o none) := by
  have hmem : ∀ r', r' ∈ ledger.erase r ↔ r' ≠ r ∧ r' ∈ ledger := fun r' =>
    (Nodup.of_map key h.nodup).mem_erase_iff
  have hother : ∀ o' r', update holds o none o' = some r' → o' ≠ o ∧
    holds o' = some r' := by
    intro o' r' hr'
    have hne : o' ≠ o := fun heq => by
      rw [heq, update_self] at hr'
      cases hr'
    exact ⟨hne, (update_of_ne hne ..).symm.trans hr'⟩
  refine ⟨fun o' r' hr' => ?_, fun r' hr' => ?_, fun o₁ o₂ r₁ r₂ h₁ h₂ hkey => ?_, ?_⟩
  · obtain ⟨hne, hr'⟩ := hother o' r' hr'
    refine (hmem r').mpr ⟨fun heq => hne ?_, h.kept o' r' hr'⟩
    exact h.unique o' o r' r hr' ho (congrArg key heq)
  · obtain ⟨hne, hr'⟩ := (hmem r').mp hr'
    obtain ⟨o', ho'⟩ := h.owned r' hr'
    refine ⟨o', (update_of_ne (fun heq => hne ?_) ..).trans ho'⟩
    exact Option.some.inj (ho'.symm.trans (heq ▸ ho))
  · exact h.unique o₁ o₂ r₁ r₂ (hother o₁ r₁ h₁).2 (hother o₂ r₂ h₂).2 hkey
  · exact h.nodup.sublist ((erase_sublist ..).map key)

end OmapHal.Core
