import OmapHal.Core.Run
import OmapHal.ResourceManager.Freeing

/-!
# The CPU load of the executing components

The stored total against the sum over the table. A state set changes the total on the ways
between Idle or Pause and Executing only, and only for a component type in a category; a
removal never changes it.
-/

namespace OmapHal.ResourceManager

open Option Nat List

open PolicyManager (PolicyResponse)

variable {c : RegisteredComponent} {opened : OpenedPipe} {out : List Write}

variable {table : List RegisteredComponent} {s t : Rm} {cmd : CommandData}

/-- What an entry counts for: its share of the CPU while it executes. -/
def RegisteredComponent.load (c : RegisteredComponent) : Nat :=
  if c.componentState = .Executing then c.componentCPU else 0

theorem load_withState (c : RegisteredComponent) (newState : OMX_STATETYPE) :
    RegisteredComponent.load { c with componentState := newState } =
      if newState = .Executing then c.componentCPU else 0 := rfl

/-- The sum over the executing components. -/
def executingLoad (table : List RegisteredComponent) : Nat := (table.map (·.load)).sum

/-- The stored total is the sum over the executing components. -/
def Rm.Accounted (s : Rm) : Prop := s.totals.totalCpu = executingLoad s.componentList

/-- The total is that of the categories. -/
def CpuTotals.Summed (t : CpuTotals) : Prop := t.totalCpu = t.sumUp.totalCpu

theorem CpuTotals.sumUp_summed (t : CpuTotals) : t.sumUp.Summed := rfl

theorem CpuTotals.Summed.lt {t : CpuTotals} (h : t.Summed) : t.totalCpu < 2 ^ 32 := by
  rw [h]
  exact Nat.mod_lt _ (Nat.two_pow_pos 32)

/-- A load added to a category is added to the total, in 32 bits. -/
theorem CpuTotals.Summed.add {t : CpuTotals} (h : t.Summed) (cpu : Nat) (category : Category) :
    (t.change (addCpu cpu) (some category)).sumUp.totalCpu = (t.totalCpu + cpu) % 2 ^ 32 := by
  have htotal : t.totalCpu = (t.audioTotalCpu + t.videoTotalCpu + t.imageTotalCpu +
      t.cameraTotalCpu + t.lcdTotalCpu) % 2 ^ 32 := h
  unfold CpuTotals.sumUp
  cases category <;> simp only [CpuTotals.change, addCpu] <;> omega

/-- A load taken from a category is taken from the total, in 32 bits. -/
theorem CpuTotals.Summed.sub {t : CpuTotals} (h : t.Summed) (cpu : Nat) (category : Category) :
    (t.change (subCpu cpu) (some category)).sumUp.totalCpu =
      (t.totalCpu + (2 ^ 32 - cpu % 2 ^ 32)) % 2 ^ 32 := by
  have htotal : t.totalCpu = (t.audioTotalCpu + t.videoTotalCpu + t.imageTotalCpu +
      t.cameraTotalCpu + t.lcdTotalCpu) % 2 ^ 32 := h
  unfold CpuTotals.sumUp
  cases category <;> simp only [CpuTotals.change, subCpu] <;> omega

theorem CpuTotals.Summed.stateSet {t : CpuTotals} (h : t.Summed) (category : Option Category)
    (cpu : Nat) (previousState newState : OMX_STATETYPE) :
    (t.stateSet category cpu previousState newState).Summed := by
  unfold CpuTotals.stateSet
  split
  · exact CpuTotals.sumUp_summed _
  · split
    · exact CpuTotals.sumUp_summed _
    · exact h

/-- A change to the first entry of a component, in the sum. -/
theorem executingLoad_setFirst (hComponent aPid : Nat)
    (f : RegisteredComponent → RegisteredComponent)
    (h : table.find? (·.is hComponent aPid) = some c) :
    executingLoad (setFirst table hComponent aPid f) + c.load =
      executingLoad table + (f c).load := by
  unfold executingLoad
  induction table with
  | nil => cases h
  | cons d table ih =>
    rw [setFirst_cons]
    by_cases hd : d.is hComponent aPid
    · rw [find?_cons, hd] at h
      obtain rfl := some.inj h
      rw [if_pos hd]
      simp only [map_cons, sum_cons]
      omega
    · rw [find?_cons, Bool.eq_false_iff.mpr hd] at h
      have hrest := ih h
      rw [if_neg hd]
      simp only [map_cons, sum_cons]
      omega

/-- A change that keeps the load of every entry keeps the sum. -/
theorem executingLoad_setFirst_of_load (hComponent aPid : Nat)
    {f : RegisteredComponent → RegisteredComponent} (hf : ∀ c, (f c).load = c.load) :
    executingLoad (setFirst table hComponent aPid f) = executingLoad table := by
  cases hc : table.find? (·.is hComponent aPid) with
  | none =>
    unfold setFirst RM_GetListIndex
    rw [findIdx?_eq_none_iff.mpr fun c hmem =>
      Bool.eq_false_iff.mpr (find?_eq_none.mp hc c hmem)]
  | some c =>
    have hsum := executingLoad_setFirst hComponent aPid f hc
    rw [hf] at hsum
    exact add_right_cancel hsum

/-- Nothing that the account is about has changed. -/
def SameAccount (s t : Rm) : Prop :=
  t.totals = s.totals ∧ executingLoad t.componentList = executingLoad s.componentList

theorem SameAccount.accounted_iff (h : SameAccount s t) : t.Accounted ↔ s.Accounted := by
  unfold Rm.Accounted
  rw [h.1, h.2]

theorem setStatus_account (s : Rm) (hComponent aPid : Nat) (status : RM_COMPONENTSTATUS) :
    SameAccount s (s.setStatus hComponent aPid status) :=
  ⟨rfl, executingLoad_setFirst_of_load _ _ fun _ => rfl⟩

theorem HandleRequestResource_account (s : Rm) (cmd : CommandData) :
    SameAccount s (HandleRequestResource s cmd).1 := by
  unfold HandleRequestResource
  split <;> exact ⟨rfl, rfl⟩

theorem HandleWaitForResource_account (s : Rm) (cmd : CommandData) :
    SameAccount s (HandleWaitForResource s cmd).1 := by
  unfold HandleWaitForResource
  cases s.componentList.find? (·.is cmd.hComponent cmd.nPid) with
  | none => exact ⟨rfl, rfl⟩
  | some c =>
    cases hreason : c.reason with
    | RM_ReasonNone =>
      simp only [hreason]
      exact ⟨rfl, rfl⟩
    | RM_ReasonResource =>
      simp only [hreason]
      exact setStatus_account s _ _ _
    | RM_ReasonPolicy =>
      simp only [hreason]
      exact setStatus_account s _ _ _

theorem response_account (s : Rm) (r : PolicyResponse) (conditions : Conditions) :
    SameAccount s (response s r conditions).1 := by
  have hanswer : ∀ s rm_status status, SameAccount s (Rm.answerSaved s rm_status status).1 :=
    fun s rm_status status => setStatus_account _ _ _ _
  unfold response
  cases r.PM_Cmd with
  | PM_PREEMPTED => exact setStatus_account _ _ _ _
  | PM_DENYPOLICY => exact hanswer s _ _
  | PM_GRANTPOLICY =>
    by_cases hmmu : conditions.mmuRecoveryInProgress
    · simp only [if_pos hmmu]
      exact hanswer s _ _
    · simp only [if_neg hmmu]
      by_cases hqos : conditions.qosOk
      · simp only [if_pos hqos]
        exact hanswer _ _ _
      · simp only [if_neg hqos]
        exact ⟨rfl, rfl⟩
  | PM_unknown => exact ⟨rfl, rfl⟩

theorem addPipe_account {aPipe : Int} (h : s.addPipe cmd aPipe = some t) : SameAccount s t := by
  unfold Rm.addPipe RM_AddPipe at h
  split at h
  · cases h
    exact ⟨rfl, rfl⟩
  · split at h
    · cases h
      refine ⟨rfl, ?_⟩
      simp [executingLoad, RegisteredComponent.load]
    · cases h

theorem RM_CreatePipe_account (h : RM_CreatePipe s cmd opened = some t) :
    SameAccount s t := by
  cases opened with
  | none =>
    obtain rfl := some.inj h
    exact ⟨rfl, rfl⟩
  | some fdwrite =>
    have hopened : Rm.addPipe { s with fds := Function.update s.fds fdwrite (some cmd.nPid) }
        cmd fdwrite = some t := h
    have haccount := addPipe_account hopened
    exact ⟨haccount.1, haccount.2⟩

/-- The state set of a registered component is counted as it should be. -/
inductive Counted (table : List RegisteredComponent) (param1 : Nat) (c : RegisteredComponent)
    (newState : OMX_STATETYPE) : Prop where
  /-- The component has no share of the CPU. -/
  | noShare : c.componentCPU = 0 → Counted table param1 c newState
  /-- It executes before and after, or neither. -/
  | same : (c.componentState = .Executing ↔ newState = .Executing) →
      Counted table param1 c newState
  /-- It starts from Idle or Pause, its type is in a category and the sum fits 32 bits. -/
  | starts : c.componentState = .Idle ∨ c.componentState = .Pause → newState = .Executing →
      (componentType param1).isSome → executingLoad table + c.componentCPU < 2 ^ 32 →
      Counted table param1 c newState
  /-- It stops to Idle or Pause, and its type is in a category. -/
  | stops : c.componentState = .Executing → newState = .Idle ∨ newState = .Pause →
      (componentType param1).isSome → Counted table param1 c newState

/-- The account of one component that goes from one state to another. -/
theorem stateSet_accounted_iff {totals : CpuTotals} (hsum : totals.Summed)
    (htotal : totals.totalCpu = executingLoad table) (param1 : Nat)
    (hc : c.load ≤ executingLoad table) (newState : OMX_STATETYPE) :
    (totals.stateSet (componentType param1) c.componentCPU c.componentState newState).totalCpu +
        c.load = executingLoad table +
          RegisteredComponent.load { c with componentState := newState } ↔
      Counted table param1 c newState := by
  have hlt := hsum.lt
  rw [load_withState c newState]
  unfold RegisteredComponent.load at hc ⊢
  unfold CpuTotals.stateSet
  by_cases hstart : (c.componentState = .Idle ∨ c.componentState = .Pause) ∧ newState = .Executing
  · have hprev : c.componentState ≠ .Executing := by
      rcases hstart.1 with h | h <;> rw [h] <;> exact OMX_STATETYPE.noConfusion
    rw [if_pos hstart, if_neg hprev, if_pos hstart.2]
    cases hcat : componentType param1 with
    | none =>
      have hunchanged : (totals.change (addCpu c.componentCPU) none).sumUp.totalCpu =
          totals.totalCpu := hsum.symm
      rw [hunchanged, htotal]
      constructor
      · intro h
        exact .noShare (by omega)
      · rintro (h | h | ⟨-, -, h, -⟩ | ⟨h, -, -⟩)
        · rw [h]
        · exact absurd (h.mpr hstart.2) hprev
        · rw [hcat] at h
          cases h
        · exact absurd h hprev
    | some category =>
      rw [hsum.add, htotal, add_zero]
      constructor
      · intro h
        refine .starts hstart.1 hstart.2 (by rw [hcat]; rfl) ?_
        rw [← h]
        exact Nat.mod_lt _ (Nat.two_pow_pos 32)
      · intro h
        refine mod_eq_of_lt ?_
        rcases h with h | h | ⟨-, -, -, h⟩ | ⟨h, -, -⟩
        · rw [h, ← htotal]
          exact hlt
        · exact absurd (h.mpr hstart.2) hprev
        · exact h
        · exact absurd h hprev
  rw [if_neg hstart]
  by_cases hstop : c.componentState = .Executing ∧ (newState = .Idle ∨ newState = .Pause)
  · have hnew : newState ≠ .Executing := by
      rcases hstop.2 with h | h <;> rw [h] <;> exact OMX_STATETYPE.noConfusion
    rw [if_pos hstop.1] at hc
    rw [if_pos hstop, if_pos hstop.1, if_neg hnew]
    cases hcat : componentType param1 with
    | none =>
      have hunchanged : (totals.change (subCpu c.componentCPU) none).sumUp.totalCpu =
          totals.totalCpu := hsum.symm
      rw [hunchanged, htotal]
      constructor
      · intro h
        exact .noShare (by omega)
      · rintro (h | h | ⟨-, h, -, -⟩ | ⟨-, -, h⟩)
        · rw [h]
        · exact absurd (h.mp hstop.1) hnew
        · exact absurd h hnew
        · rw [hcat] at h
          cases h
    | some category =>
      rw [hsum.sub, htotal]
      refine iff_of_true ?_ (.stops hstop.1 hstop.2 (by rw [hcat]; rfl))
      omega
  · rw [if_neg hstop, htotal]
    constructor
    · intro h
      by_cases hprev : c.componentState = .Executing
      · by_cases hnew : newState = .Executing
        · exact .same (iff_of_true hprev hnew)
        · rw [if_pos hprev, if_neg hnew] at h
          exact .noShare (by omega)
      · by_cases hnew : newState = .Executing
        · rw [if_neg hprev, if_pos hnew] at h
          exact .noShare (by omega)
        · exact .same (iff_of_false hprev hnew)
    · rintro (h | h | ⟨h, h', -, -⟩ | ⟨h, h', -⟩)
      · rw [h]
        split <;> split <;> rfl
      · by_cases hprev : c.componentState = .Executing
        · rw [if_pos hprev, if_pos (h.mp hprev)]
        · rw [if_neg hprev, if_neg fun hnew => hprev (h.mpr hnew)]
      · exact absurd ⟨h, h'⟩ hstart
      · exact absurd ⟨h, h'⟩ hstop

/-- An entry that is found counts in the sum. -/
theorem load_le_of_find {p : RegisteredComponent → Bool}
    (h : table.find? p = some c) : c.load ≤ executingLoad table := by
  have hsum := Core.sum_map_eraseP (·.load) p table
  rw [h] at hsum
  unfold executingLoad
  rw [hsum]
  exact le_add_left _ _

/-- A state set keeps the account exactly where it is counted. -/
theorem HandleStateSet_accounted_iff (hsum : s.totals.Summed) (h : s.Accounted)
    (cmd : CommandData) :
    (HandleStateSet s cmd).1.Accounted ↔
      ∀ c, s.componentList.find? (·.is cmd.hComponent cmd.nPid) = some c →
        Counted s.componentList cmd.param1 c (.ofU32 cmd.param2) := by
  unfold HandleStateSet
  cases hc : s.componentList.find? (·.is cmd.hComponent cmd.nPid) with
  | none => exact iff_of_true h fun c hc => absurd hc (some_ne_none c).symm
  | some c =>
    have hload := executingLoad_setFirst cmd.hComponent cmd.nPid
      (fun c => { c with componentState := .ofU32 cmd.param2 }) hc
    have hcounted := stateSet_accounted_iff hsum h cmd.param1 (load_le_of_find hc)
      (.ofU32 cmd.param2)
    have hwait : ∀ t : Rm, Rm.Accounted (if OMX_STATETYPE.ofU32 cmd.param2 = .WaitForResources then
        HandleWaitForResource t cmd else (t, [])).1 ↔ t.Accounted := by
      intro t
      split
      · exact (HandleWaitForResource_account t cmd).accounted_iff
      · exact Iff.rfl
    simp only [hwait, some.injEq, forall_eq']
    rw [← hcounted, ← hload]
    exact (add_right_cancel_iff).symm

/-- A removal keeps the account exactly where what it takes out has no load. -/
theorem removal_accounted_iff {t : Rm} (hComponent aPid : Nat) (h : s.Accounted)
    (htotals : t.totals = s.totals)
    (htable : t.componentList = s.componentList.eraseP (·.is hComponent aPid)) :
    t.Accounted ↔
      ∀ c, s.componentList.find? (·.is hComponent aPid) = some c → c.load = 0 := by
  unfold Rm.Accounted executingLoad at h ⊢
  rw [htotals, htable, h,
    Core.sum_map_eraseP RegisteredComponent.load (·.is hComponent aPid) s.componentList]
  cases s.componentList.find? (·.is hComponent aPid) with
  | none => exact iff_of_true rfl fun c hc => absurd hc (some_ne_none c).symm
  | some c =>
    rw [map_some, getD_some, add_eq_left]
    exact ⟨fun h d hd => some.inj hd ▸ h, fun h => h c rfl⟩

theorem RM_ClosePipe_fst (s : Rm) (cmd : CommandData) :
    ∃ fds, (RM_ClosePipe s cmd).1 = { s with fds := fds } := by
  unfold RM_ClosePipe
  cases s.componentList.find? (·.is cmd.hComponent cmd.nPid) with
  | none => exact ⟨s.fds, rfl⟩
  | some c => exact ⟨_, rfl⟩

/-- When a turn of the loop keeps the account. -/
def KeepsAccount (s : Rm) : Event → Prop
  | .response _ _ => True
  | .command cmd opened =>
    s.Exitflag = false →
      match cmd.RM_Cmd with
      | .RM_StateSet =>
        ∀ c, s.componentList.find? (·.is cmd.hComponent cmd.nPid) = some c →
          Counted s.componentList cmd.param1 c (.ofU32 cmd.param2)
      | .RM_FreeResource | .RM_FreeAndCloseResource =>
        ∀ c, s.componentList.find?
            (·.is (removedHandle s.componentList cmd) cmd.nPid) = some c → c.load = 0
      | _ => Registers s.componentList cmd opened → HasRoom s.componentList cmd

theorem exists_map_fst {o : Option Rm} {P : Rm → Prop} :
    (∃ t, ((o.map fun s => (s, out)).map Prod.fst) = some t ∧ P t) ↔ ∃ t, o = some t ∧ P t := by
  cases o <;> simp

/-- Registration keeps the account where there is room. -/
theorem addPipe_accounted_iff (h : s.Accounted) (cmd : CommandData) (aPipe : Int) :
    (∃ t, s.addPipe cmd aPipe = some t ∧ t.Accounted) ↔ HasRoom s.componentList cmd := by
  rw [← addPipe_isSome s cmd aPipe]
  constructor
  · rintro ⟨t, ht, -⟩
    exact ⟨t, ht⟩
  · rintro ⟨t, ht⟩
    exact ⟨t, ht, (addPipe_account ht).accounted_iff.mpr h⟩

theorem RM_CreatePipe_accounted_iff (h : s.Accounted) (cmd : CommandData) (opened : OpenedPipe) :
    (∃ t, RM_CreatePipe s cmd opened = some t ∧ t.Accounted) ↔
      (opened.isSome → HasRoom s.componentList cmd) := by
  cases opened with
  | none => exact iff_of_true ⟨s, rfl, h⟩ fun hsome => Bool.noConfusion hsome
  | some fdwrite =>
    have hopened : Rm.Accounted
        { s with fds := Function.update s.fds fdwrite (some cmd.nPid) } := h
    have hadd := addPipe_accounted_iff hopened cmd fdwrite
    exact ⟨fun hex _ => hadd.mp hex, fun hroom => hadd.mpr (hroom rfl)⟩

/-- One turn of the loop, as a step on the globals. -/
def advance (s : Rm) (event : Event) : Option Rm := (turn s event).map Prod.fst

/-- A handler that does not fail, against the account after it. -/
theorem exists_some_iff {t : Rm} :
    (∃ u, (some (t, out)).map Prod.fst = some u ∧ u.Accounted) ↔ t.Accounted := by
  constructor
  · rintro ⟨u, hu, hacc⟩
    obtain rfl := some.inj hu
    exact hacc
  · exact fun hacc => ⟨t, rfl, hacc⟩

theorem command_accounted_iff (hsum : s.totals.Summed) (h : s.Accounted) (cmd : CommandData)
    (opened : OpenedPipe) (hrun : s.Exitflag = false) :
    (∃ t, (command { s with cmd_data := cmd } opened).map Prod.fst = some t ∧ t.Accounted) ↔
      KeepsAccount s (.command cmd opened) := by
  have hread : Rm.Accounted { s with cmd_data := cmd } := h
  unfold KeepsAccount
  dsimp only
  rw [forall_prop_of_true hrun]
  unfold command Registers
  cases hcmd : cmd.RM_Cmd with
  | RM_RequestResource =>
    simp only [hcmd]
    rw [exists_some_iff, (HandleRequestResource_account _ _).accounted_iff]
    exact iff_of_true hread False.elim
  | RM_WaitForResource =>
    simp only [hcmd]
    rw [exists_some_iff, (HandleWaitForResource_account _ _).accounted_iff]
    exact iff_of_true hread False.elim
  | RM_FreeResource =>
    simp only [hcmd]
    rw [exists_some_iff]
    refine removal_accounted_iff _ _ h ?_ (removeNamed_componentList s cmd)
    rw [HandleFreeResource_eq]
    rfl
  | RM_FreeAndCloseResource =>
    simp only [hcmd]
    obtain ⟨fds, hfds⟩ := RM_ClosePipe_fst (HandleFreeResource { s with cmd_data := cmd } cmd).1
      (HandleFreeResource { s with cmd_data := cmd } cmd).1.cmd_data
    rw [hfds, exists_some_iff]
    refine removal_accounted_iff _ _ h ?_ (removeNamed_componentList s cmd)
    rw [HandleFreeResource_eq]
    rfl
  | RM_StateSet =>
    simp only [hcmd]
    rw [exists_some_iff]
    exact HandleStateSet_accounted_iff (s := { s with cmd_data := cmd }) hsum hread cmd
  | RM_OpenPipe =>
    simp only [hcmd]
    rw [exists_map_fst]
    exact RM_CreatePipe_accounted_iff hread cmd opened
  | RM_ReusePipe =>
    simp only [hcmd]
    by_cases hpipe : RM_GetPipe s.componentList cmd.param4 cmd.nPid ≠ -1
    · rw [if_pos hpipe, exists_map_fst, forall_prop_of_true (Or.inl hpipe)]
      exact addPipe_accounted_iff hread cmd _
    · rw [if_neg hpipe, exists_map_fst, or_iff_right hpipe]
      exact RM_CreatePipe_accounted_iff hread cmd opened
  | RM_Init | RM_Exit | RM_ExitTI | RM_unknown | RM_CancelWaitForResource =>
    simp only [hcmd]
    rw [exists_some_iff]
    exact iff_of_true hread False.elim

theorem advance_accounted_iff (s : Rm) (event : Event) (hsum : s.totals.Summed)
    (h : s.Accounted) : (∃ t, advance s event = some t ∧ t.Accounted) ↔ KeepsAccount s event := by
  unfold advance turn
  by_cases hexit : s.Exitflag
  · rw [if_pos hexit, exists_some_iff]
    refine iff_of_true h ?_
    cases event with
    | command cmd opened => exact fun hrun => absurd (hrun.symm.trans hexit) Bool.false_ne_true
    | response r conditions => trivial
  rw [if_neg hexit]
  cases event with
  | command cmd opened =>
    exact command_accounted_iff hsum h cmd opened (Bool.eq_false_iff.mpr hexit)
  | response r conditions =>
    refine iff_of_true ?_ trivial
    dsimp only
    split
    · exact exists_some_iff.mpr h
    · exact exists_some_iff.mpr ((response_account s r conditions).accounted_iff.mpr h)

theorem HandleStateSet_summed (hsum : s.totals.Summed) (cmd : CommandData) :
    (HandleStateSet s cmd).1.totals.Summed := by
  unfold HandleStateSet
  cases s.componentList.find? (·.is cmd.hComponent cmd.nPid) with
  | none => exact hsum
  | some c =>
    have hset := hsum.stateSet (componentType cmd.param1) c.componentCPU c.componentState
      (.ofU32 cmd.param2)
    dsimp only
    split
    · rw [(HandleWaitForResource_account _ _).1]
      exact hset
    · exact hset

theorem command_summed {result : Rm × List Write}
    (hsum : s.totals.Summed) (h : command s opened = some result) : result.1.totals.Summed := by
  unfold command at h
  cases hcmd : s.cmd_data.RM_Cmd with
  | RM_RequestResource =>
    simp only [hcmd, some.injEq] at h
    rw [← h, (HandleRequestResource_account _ _).1]
    exact hsum
  | RM_WaitForResource =>
    simp only [hcmd, some.injEq] at h
    rw [← h, (HandleWaitForResource_account _ _).1]
    exact hsum
  | RM_FreeResource =>
    simp only [hcmd, some.injEq, HandleFreeResource_eq] at h
    rw [← h]
    exact hsum
  | RM_FreeAndCloseResource =>
    simp only [hcmd, some.injEq, HandleFreeResource_eq] at h
    obtain ⟨fds, hfds⟩ := RM_ClosePipe_fst
      { s with cmd_data := lastTold s.cmd_data (told s.componentList) }
      (lastTold s.cmd_data (told s.componentList))
    rw [← h, hfds]
    exact hsum
  | RM_StateSet =>
    simp only [hcmd, some.injEq] at h
    rw [← h]
    exact HandleStateSet_summed hsum _
  | RM_OpenPipe =>
    simp only [hcmd] at h
    obtain ⟨u, hu, rfl⟩ := map_eq_some_iff.mp h
    exact (RM_CreatePipe_account hu).1 ▸ hsum
  | RM_ReusePipe =>
    simp only [hcmd] at h
    split at h
    · obtain ⟨u, hu, rfl⟩ := map_eq_some_iff.mp h
      exact (addPipe_account hu).1 ▸ hsum
    · obtain ⟨u, hu, rfl⟩ := map_eq_some_iff.mp h
      exact (RM_CreatePipe_account hu).1 ▸ hsum
  | RM_Init | RM_Exit | RM_ExitTI | RM_unknown | RM_CancelWaitForResource =>
    simp only [hcmd, some.injEq] at h
    rw [← h]
    exact hsum

/-- The totals stay summed up in every turn. -/
theorem advance_summed (s : Rm) (event : Event) (t : Rm) (hsum : s.totals.Summed)
    (ht : advance s event = some t) : t.totals.Summed := by
  obtain ⟨u, hu, rfl⟩ := map_eq_some_iff.mp ht
  unfold turn at hu
  split at hu
  · cases hu
    exact hsum
  cases event with
  | command cmd opened =>
    have hread : CpuTotals.Summed { s with cmd_data := cmd }.totals := hsum
    exact command_summed hread hu
  | response r conditions =>
    dsimp only at hu
    split at hu
    · cases hu
      exact hsum
    · rw [← some.inj hu, (response_account s r conditions).1]
      exact hsum

/-- The stored total is right after every part of a run exactly if every turn of the run keeps
the account. -/
theorem totalCpu_accounted_iff (stub_mode : Bool) (events : List Event) :
    (∀ done, done <+: events →
        ∃ s, done.foldlM advance (Rm.start stub_mode) = some s ∧ s.Accounted) ↔
      Core.AlongSome advance KeepsAccount (Rm.start stub_mode) events := by
  have hsum : (Rm.start stub_mode).totals.Summed := rfl
  have hacc : (Rm.start stub_mode).Accounted := rfl
  exact (Core.AlongSome.iff_invariant (I := fun s : Rm => s.totals.Summed) hsum hacc
    advance_summed advance_accounted_iff).symm

/-- An audio component with a share of 50 is registered, started and freed. -/
def freedWhileExecuting : List Event :=
  [.command ⟨1, 10, .RM_OpenPipe, 0, 50, 0, 0, .RM_ErrorNone⟩ (some 3),
    .command ⟨1, 10, .RM_StateSet, 0, 3, 0, 0, .RM_ErrorNone⟩ none,
    .command ⟨1, 10, .RM_FreeResource, 0, 0, 0, 0, .RM_ErrorNone⟩ none]

/-- The share of a component that is freed while it executes stays in the total. -/
theorem freed_share_remains :
    ¬ ∀ events : List Event,
      ∃ s, events.foldlM advance (Rm.start false) = some s ∧ s.Accounted := by
  intro h
  obtain ⟨s, hs, hacc⟩ := h freedWhileExecuting
  have hend : (freedWhileExecuting.foldlM advance (Rm.start false)).map
      (fun s => (s.totals.totalCpu, executingLoad s.componentList)) = some (50, 0) := by decide
  rw [hs, map_some, some.injEq, Prod.mk.injEq] at hend
  unfold Rm.Accounted at hacc
  omega

end OmapHal.ResourceManager
