import OmapHal.Core.Run
import OmapHal.CryptoSst.Context

/-!
# Reference counting of the shared context

The counter against the modules that are initialised. One entry point can leave the two
apart: `SSTInit` keeps its reference where the signature file is there and cannot be read.
-/

namespace OmapHal.CryptoSst

open Nat

variable {s : Stub} {n : Nat}

/-- The counter stands at a number, and the context is open exactly above zero. -/
def Stub.Counts (s : Stub) (n : Nat) : Prop :=
  s.g_nContextRefCounter = n ∧ (s.g_sContext.isSome ↔ 0 < n)

/-- The number of modules that are initialised. -/
def Stub.modulesInitialized (s : Stub) : Nat :=
  s.g_bCryptokiInitialized.toNat + s.g_bSSTInitialized.toNat + s.g_bMTCInitialized.toNat

/-- The counter is the number of initialised modules, and the context is open exactly where
it is positive. -/
def Stub.Balanced (s : Stub) : Prop :=
  s.g_nContextRefCounter = s.modulesInitialized ∧
    (s.g_sContext.isSome ↔ 0 < s.g_nContextRefCounter)

instance (s : Stub) : Decidable s.Balanced :=
  inferInstanceAs (Decidable (_ ∧ _))

theorem Stub.balanced_iff : s.Balanced ↔ s.Counts s.modulesInitialized := by
  unfold Stub.Balanced Stub.Counts
  constructor
  · rintro ⟨hn, ho⟩
    exact ⟨hn, hn ▸ ho⟩
  · rintro ⟨hn, ho⟩
    exact ⟨hn, hn ▸ ho⟩

/-- The globals that tell which modules are initialised are the same. -/
def SameModules (s t : Stub) : Prop :=
  t.g_bCryptokiInitialized = s.g_bCryptokiInitialized ∧
    t.g_bSSTInitialized = s.g_bSSTInitialized ∧ t.g_bMTCInitialized = s.g_bMTCInitialized

theorem Stub.modulesInitialized_lt (s : Stub) : s.modulesInitialized < 2 ^ 32 - 1 := by
  unfold Stub.modulesInitialized
  have hc := Bool.toNat_le s.g_bCryptokiInitialized
  have hs := Bool.toNat_le s.g_bSSTInitialized
  have hm := Bool.toNat_le s.g_bMTCInitialized
  omega

/-- What a taken or refused reference does to the globals. -/
theorem stubInitializeContext_spec (tee : Tee) (h : s.Balanced) :
    SameModules s (stubInitializeContext tee s).1 ∧
      ((stubInitializeContext tee s).2 = TEEC_SUCCESS ∧
          (stubInitializeContext tee s).1.Counts (s.modulesInitialized + 1) ∨
        (stubInitializeContext tee s).2 ≠ TEEC_SUCCESS ∧
          (stubInitializeContext tee s).1.Balanced) := by
  have hn := s.modulesInitialized_lt
  obtain ⟨hcount, hopen⟩ := h
  rw [← hcount] at hn ⊢
  unfold stubInitializeContext
  by_cases hzero : s.g_nContextRefCounter ≠ 0
  · rw [if_pos hzero]
    refine ⟨⟨rfl, rfl, rfl⟩, .inl ⟨rfl, mod_eq_of_lt (by omega), ?_⟩⟩
    exact iff_of_true (hopen.mpr (pos_of_ne_zero hzero)) (succ_pos _)
  · rw [if_neg hzero]
    have hcontext := TEEC_InitializeContext_isSome tee.driver
    by_cases hok : (TEEC_InitializeContext tee.driver).1 = TEEC_SUCCESS
    · simp only [if_pos hok]
      refine ⟨⟨rfl, rfl, rfl⟩, .inl ⟨hok, by simp only; omega, ?_⟩⟩
      exact iff_of_true (hcontext.mpr hok) (succ_pos _)
    · simp only [if_neg hok]
      refine ⟨⟨rfl, rfl, rfl⟩, .inr ⟨hok, hcount, ?_⟩⟩
      exact iff_of_false (fun hsome => hok (hcontext.mp hsome)) (by simp only; omega)

/-- A reference is taken where the context is open already or can be opened. -/
theorem stubInitializeContext_success (tee : Tee) (s : Stub) :
    (stubInitializeContext tee s).2 = TEEC_SUCCESS ↔
      0 < s.g_nContextRefCounter ∨ (TEEC_InitializeContext tee.driver).1 = TEEC_SUCCESS := by
  unfold stubInitializeContext
  by_cases hzero : s.g_nContextRefCounter ≠ 0
  · rw [if_pos hzero]
    exact iff_of_true rfl (.inl (pos_of_ne_zero hzero))
  · rw [if_neg hzero]
    by_cases hok : (TEEC_InitializeContext tee.driver).1 = TEEC_SUCCESS
    · simp only [if_pos hok]
      exact iff_of_true hok (.inr hok)
    · simp only [if_neg hok]
      exact iff_of_false hok fun hor => hor.elim (fun hpos => hzero (by omega)) hok

theorem stubFinalizeContext_modules (s : Stub) : SameModules s (stubFinalizeContext s) := by
  unfold stubFinalizeContext
  by_cases hpos : 0 < s.g_nContextRefCounter
  · simp only [if_pos hpos]
    split <;> exact ⟨rfl, rfl, rfl⟩
  · simp only [if_neg hpos]
    split <;> exact ⟨rfl, rfl, rfl⟩

/-- A reference given back. -/
theorem stubFinalizeContext_counts (h : s.Counts (n + 1)) :
    (stubFinalizeContext s).Counts n := by
  obtain ⟨hn, hopen⟩ := h
  unfold stubFinalizeContext
  have hpos : 0 < s.g_nContextRefCounter := by omega
  simp only [if_pos hpos]
  by_cases hlast : s.g_nContextRefCounter - 1 = 0
  · rw [if_pos hlast]
    exact ⟨by simp only; omega, iff_of_false Bool.false_ne_true (by omega)⟩
  · rw [if_neg hlast]
    exact ⟨by simp only; omega, iff_of_true (hopen.mpr (succ_pos n)) (by omega)⟩

/-- The step that loses a reference: SST is initialised with the context open or opened, and
the signature file cannot be read. -/
def Leaks (s : Stub) : Call → Prop
  | .SSTInit tee =>
      s.g_bSSTInitialized = false ∧
        (0 < s.g_nContextRefCounter ∨
          (TEEC_InitializeContext tee.driver).1 = TEEC_SUCCESS) ∧
        tee.signature.Unreadable
  | _ => False

/-- A reference taken is balanced by one more initialised module. -/
theorem Stub.Counts.balanced {t : Stub} (h : t.Counts n) (hn : t.modulesInitialized = n) :
    t.Balanced :=
  Stub.balanced_iff.mpr (hn ▸ h)

/-- A module that is initialised takes a reference. -/
theorem C_Initialize_balanced (h : s.Balanced) (pInitArgs : Nat) (tee : Tee) :
    (C_Initialize pInitArgs tee s).1.Balanced := by
  unfold C_Initialize
  by_cases hargs : pInitArgs ≠ 0
  · rwa [if_pos hargs]
  rw [if_neg hargs]
  by_cases hinit : s.g_bCryptokiInitialized
  · rwa [if_pos hinit]
  rw [if_neg hinit]
  obtain ⟨⟨hc, hs, hm⟩, hcase⟩ := stubInitializeContext_spec tee h
  rcases hcase with ⟨hok, hcounts⟩ | ⟨herr, hbalanced⟩
  · simp only [if_pos hok]
    refine Stub.Counts.balanced (n := s.modulesInitialized + 1) hcounts ?_
    simp only [Stub.modulesInitialized, hs, hm, hinit, Bool.toNat_true, Bool.toNat_false]
    omega
  · simpa only [if_neg herr] using hbalanced

/-- A module that is finalised gives it back. -/
theorem C_Finalize_balanced (h : s.Balanced) (pReserved : Nat) :
    (C_Finalize pReserved s).1.Balanced := by
  unfold C_Finalize
  by_cases hargs : pReserved ≠ 0
  · rwa [if_pos hargs]
  rw [if_neg hargs]
  by_cases hinit : s.g_bCryptokiInitialized
  · rw [if_pos hinit]
    obtain ⟨-, hs, hm⟩ := stubFinalizeContext_modules s
    have hcount : s.modulesInitialized =
        (s.g_bSSTInitialized.toNat + s.g_bMTCInitialized.toNat) + 1 := by
      simp only [Stub.modulesInitialized, hinit, Bool.toNat_true]
      omega
    have hcounts := stubFinalizeContext_counts (hcount ▸ Stub.balanced_iff.mp h)
    refine Stub.Counts.balanced hcounts ?_
    simp only [Stub.modulesInitialized, hs, hm, Bool.toNat_false, zero_add]
  · rwa [if_neg hinit]

theorem SSTTerminate_balanced (h : s.Balanced) : (SSTTerminate s).1.Balanced := by
  unfold SSTTerminate
  by_cases hinit : s.g_bSSTInitialized
  · rw [if_pos hinit]
    obtain ⟨hc, -, hm⟩ := stubFinalizeContext_modules { s with g_SSTSession := none }
    have hcount : s.modulesInitialized =
        (s.g_bCryptokiInitialized.toNat + s.g_bMTCInitialized.toNat) + 1 := by
      simp only [Stub.modulesInitialized, hinit, Bool.toNat_true]
      omega
    have hclosed : Stub.Counts { s with g_SSTSession := none }
        ((s.g_bCryptokiInitialized.toNat + s.g_bMTCInitialized.toNat) + 1) :=
      hcount ▸ Stub.balanced_iff.mp h
    refine Stub.Counts.balanced (stubFinalizeContext_counts hclosed) ?_
    simp only [Stub.modulesInitialized, hc, hm, Bool.toNat_false, add_zero]
  · rwa [if_neg hinit]

theorem SMonotonicCounterInit_balanced (h : s.Balanced) (tee : Tee) :
    (SMonotonicCounterInit tee s).1.Balanced := by
  unfold SMonotonicCounterInit
  by_cases hinit : s.g_bMTCInitialized
  · rwa [if_pos hinit]
  rw [if_neg hinit]
  obtain ⟨⟨hc, hs, hm⟩, hcase⟩ := stubInitializeContext_spec tee h
  rcases hcase with ⟨hok, hcounts⟩ | ⟨herr, hbalanced⟩
  · simp only [if_pos hok]
    refine Stub.Counts.balanced (n := s.modulesInitialized + 1) hcounts ?_
    simp only [Stub.modulesInitialized, hc, hs, hinit, Bool.toNat_true, Bool.toNat_false]
  · simpa only [if_neg herr] using hbalanced

theorem SMonotonicCounterTerminate_balanced (h : s.Balanced) :
    (SMonotonicCounterTerminate s).Balanced := by
  unfold SMonotonicCounterTerminate
  by_cases hinit : s.g_bMTCInitialized
  · rw [if_pos hinit]
    obtain ⟨hc, hs, -⟩ := stubFinalizeContext_modules s
    have hcount : s.modulesInitialized =
        (s.g_bCryptokiInitialized.toNat + s.g_bSSTInitialized.toNat) + 1 := by
      simp only [Stub.modulesInitialized, hinit, Bool.toNat_true]
    have hcounts := stubFinalizeContext_counts (hcount ▸ Stub.balanced_iff.mp h)
    refine Stub.Counts.balanced hcounts ?_
    simp only [Stub.modulesInitialized, hc, hs, Bool.toNat_false, add_zero]
  · rwa [if_neg hinit]

/-- The opening of the session keeps the reference taken before it, or gives it back. -/
theorem sstOpenSession_balanced (h : s.Counts (n + 1)) (hn : s.modulesInitialized = n)
    (hinit : s.g_bSSTInitialized = false) (tee : Tee) (nLoginType : UInt32)
    (param3 : Option (List UInt8)) : (sstOpenSession tee nLoginType param3 s).1.Balanced := by
  unfold sstOpenSession
  by_cases hok : (tee.openSession nLoginType param3).1 = TEEC_SUCCESS
  · simp only [ne_eq, hok, not_true_eq_false, if_false]
    refine Stub.Counts.balanced (n := n + 1) h ?_
    simp only [← hn, Stub.modulesInitialized, hinit, Bool.toNat_true, Bool.toNat_false]
    omega
  · simp only [ne_eq, hok, not_false_eq_true, if_true]
    obtain ⟨hc, hs, hm⟩ := stubFinalizeContext_modules s
    refine (stubFinalizeContext_counts h).balanced ?_
    simp only [Stub.modulesInitialized, hc, hs, hm, ← hn]

/-- `SSTInit` keeps the balance exactly where it does not lose a reference. -/
theorem SSTInit_balanced_iff (h : s.Balanced) (tee : Tee) :
    (SSTInit tee s).1.Balanced ↔ ¬ Leaks s (.SSTInit tee) := by
  have hleaks : Leaks s (.SSTInit tee) ↔ s.g_bSSTInitialized = false ∧
      (stubInitializeContext tee s).2 = TEEC_SUCCESS ∧
      (TEEC_ReadSignatureFile tee.signature).1 ≠ TEEC_ERROR_ITEM_NOT_FOUND ∧
      (TEEC_ReadSignatureFile tee.signature).1 ≠ TEEC_SUCCESS := by
    rw [stubInitializeContext_success, ← tee.signature.unreadable_iff]
    rfl
  rw [hleaks]
  unfold SSTInit
  by_cases hinit : s.g_bSSTInitialized
  · rw [if_pos hinit]
    exact iff_of_true h fun hleak => Bool.false_ne_true (hleak.1.symm.trans hinit)
  rw [if_neg hinit]
  rw [Bool.not_eq_true] at hinit
  obtain ⟨⟨hc, hs, hm⟩, hcase⟩ := stubInitializeContext_spec tee h
  have hsame : (stubInitializeContext tee s).1.modulesInitialized = s.modulesInitialized := by
    simp only [Stub.modulesInitialized, hc, hs, hm]
  rcases hcase with ⟨hok, hcounts⟩ | ⟨herr, hbalanced⟩
  · simp only [ne_eq, hok, not_true_eq_false, if_false, hinit, true_and]
    by_cases hnone : (TEEC_ReadSignatureFile tee.signature).1 = TEEC_ERROR_ITEM_NOT_FOUND
    · simp only [hnone, if_true, not_true_eq_false, false_and, not_false_eq_true, iff_true]
      exact sstOpenSession_balanced hcounts hsame (hs.trans hinit) tee _ _
    by_cases hread : (TEEC_ReadSignatureFile tee.signature).1 = TEEC_SUCCESS
    · simp only [hread, if_false, not_true_eq_false, and_false, not_false_eq_true, iff_true]
      exact sstOpenSession_balanced hcounts hsame (hs.trans hinit) tee _ _
    · simp only [hnone, hread, if_false, if_true, not_false_eq_true, and_true, not_true_eq_false,
        iff_false]
      intro hbalanced
      have hcounter := hbalanced.1
      rw [hcounts.1, hsame] at hcounter
      omega
  · simp only [ne_eq, herr, not_false_eq_true, if_true, false_and, and_false, iff_true]
    exact hbalanced

/-- A call keeps the balance exactly where it does not lose a reference. -/
theorem step_balanced_iff (s : Stub) (call : Call) (h : s.Balanced) :
    (step s call).Balanced ↔ ¬ Leaks s call := by
  cases call with
  | C_Initialize pInitArgs tee => exact iff_of_true (C_Initialize_balanced h pInitArgs tee) id
  | C_Finalize pReserved => exact iff_of_true (C_Finalize_balanced h pReserved) id
  | SSTInit tee => exact SSTInit_balanced_iff h tee
  | SSTTerminate => exact iff_of_true (SSTTerminate_balanced h) id
  | SMonotonicCounterInit tee => exact iff_of_true (SMonotonicCounterInit_balanced h tee) id
  | SMonotonicCounterTerminate => exact iff_of_true (SMonotonicCounterTerminate_balanced h) id

/-- The counter is right in every state of a run exactly if no call of the run loses a
reference. -/
theorem refCounter_balanced_iff (calls : List Call) :
    (∀ done, done <+: calls → (done.foldl step Stub.start).Balanced) ↔
      Core.Along step (fun s call => ¬ Leaks s call) Stub.start calls :=
  (Core.Along.iff_invariant (P := Stub.Balanced) (by decide) step_balanced_iff).symm

/-- A signature file whose size cannot be told, on a device that opens. -/
def unreadableSignature : Tee where
  driver := { opened := .ok 3, version := .ok () }
  signature :=
    { realpath := true, fopen := true, fseek := true, ftell := -1, malloc := true, content := [] }
  openSession := fun _ _ => (TEEC_SUCCESS, 1)

/-- One failed `SSTInit` leaves the context open with no module initialised. -/
theorem failedInit_unbalanced :
    ¬ ∀ calls : List Call, (calls.foldl step Stub.start).Balanced := by
  intro h
  have hfail := h [.SSTInit unreadableSignature]
  revert hfail
  decide

end OmapHal.CryptoSst
