import OmapHal.PolicyManager.Model

/-!
# The decision about a request

What `HandleRequestPolicy` decides, apart from how it carries it out, and the decision it is
meant to make. The two differ where the rows of a component stand on both sides of the active
one: the loop over the table ends with the last of them.
-/

namespace OmapHal.PolicyManager

open Nat List

variable {supporting : List Nat}

variable {T : PolicyTable} {s : Pm} {component combination : Nat} {cmd : PolicyCommand}

/-- What is decided about a request. -/
inductive Decision where
  /-- The list of supporting combinations is overrun. -/
  | overrun
  | deny
  /-- The request is granted under a combination, with the others preempted or not. -/
  | grant (combination : Nat) (preempts : Bool)
  deriving DecidableEq, Repr

/-- The decision where no combination has the component and all that run. -/
def decideByPreemption (T : PolicyTable) (s : Pm) (component : Nat) : Decision :=
  match CheckAllCombinations T component with
  | some (combination, _) =>
    if combination < s.activePolicyCombination then .grant combination true else .deny
  | none => .deny

/-- The decision among granted instances, where the active combination lacks the component. -/
def decideByCoexistence (T : PolicyTable) (s : Pm) (component : Nat) : Decision :=
  match GetSupportingCombinations T component with
  | none => .overrun
  | some supporting =>
    match CanAllComponentsCoexist T s supporting with
    | some combination => .grant combination false
    | none => decideByPreemption T s component

/-- The decision about a request. -/
def decision (T : PolicyTable) (s : Pm) (component : Nat) : Decision :=
  if s.registeredComponents = 0 then
    match GetSupportingCombinations T component with
    | none => .overrun
    | some [] => .deny
    | some (first :: _) => .grant first false
  else if T.Has s.activePolicyCombination component then
    .grant s.activePolicyCombination false
  else decideByCoexistence T s component

/-- The messages that preempt all that run. -/
def Pm.preemptAll (s : Pm) : List PolicyResponse :=
  (List.range s.registeredComponents).map fun i =>
    PreemptComponent (s.pComponentList i).1 (s.pComponentList i).2

/-- What a decision leads to. -/
def carryOut (T : PolicyTable) (s : Pm) (cmd : PolicyCommand) :
    Decision → Option Pm × List PolicyResponse
  | .overrun => (none, [])
  | .deny => (some s, [DenyPolicy cmd.hComponent cmd.nPid])
  | .grant combination preempts =>
    let (granted, response) := GrantPolicy s cmd.hComponent cmd.param1
      (GetPriority T cmd.param1 combination) cmd.nPid
    (granted.map fun s => { s with activePolicyCombination := combination },
      (if preempts then s.preemptAll else []) ++ response)

theorem GetSupportingCombinations_eq_some
    (h : GetSupportingCombinations T component = some supporting) :
    supporting = supportingRows T.rows component := by
  unfold GetSupportingCombinations at h
  split at h
  · exact (Option.some.inj h).symm
  · cases h

theorem CanAllComponentsCoexist_has (hs : GetSupportingCombinations T component = some supporting)
    (h : CanAllComponentsCoexist T s supporting = some combination) :
    T.Has combination component := by
  rw [← mem_supportingRows_iff, ← GetSupportingCombinations_eq_some hs]
  exact mem_of_find?_eq_some h

/-- A request is granted under a combination that has its component. -/
theorem has_of_decision {preempts : Bool}
    (h : decision T s component = .grant combination preempts) : T.Has combination component := by
  unfold decision at h
  split at h
  · cases hs : GetSupportingCombinations T component with
    | none => simp [hs] at h
    | some supporting =>
      cases supporting with
      | nil => simp [hs] at h
      | cons first rest =>
        simp only [hs, Decision.grant.injEq] at h
        rw [← h.1, ← mem_supportingRows_iff, ← GetSupportingCombinations_eq_some hs]
        exact mem_cons_self
  split at h
  · rename_i hactive
    rw [Decision.grant.injEq] at h
    exact h.1 ▸ hactive
  unfold decideByCoexistence at h
  cases hs : GetSupportingCombinations T component with
  | none => simp [hs] at h
  | some supporting =>
    simp only [hs] at h
    cases hc : CanAllComponentsCoexist T s supporting with
    | some c =>
      simp only [hc, Decision.grant.injEq] at h
      exact h.1 ▸ CanAllComponentsCoexist_has hs hc
    | none =>
      simp only [hc] at h
      unfold decideByPreemption at h
      rcases CheckAllCombinations_cases T component with ⟨hnone, -⟩ | ⟨i, priority, hsome, hhas, -⟩
      · simp [hnone] at h
      · simp only [hsome] at h
        split at h
        · rw [Decision.grant.injEq] at h
          exact h.1 ▸ hhas
        · cases h

/-- Granting does not look at the active combination. -/
theorem GrantPolicy_active (s : Pm) (hComponent : Nat) (aComponentIndex aPriority : Int)
    (aPid combination : Nat) :
    GrantPolicy { s with activePolicyCombination := combination } hComponent aComponentIndex
        aPriority aPid =
      ((GrantPolicy s hComponent aComponentIndex aPriority aPid).1.map
        fun s => { s with activePolicyCombination := combination },
        (GrantPolicy s hComponent aComponentIndex aPriority aPid).2) := by
  have hindex : Pm.instanceIndex { s with activePolicyCombination := combination } hComponent aPid =
      s.instanceIndex hComponent aPid := rfl
  unfold GrantPolicy
  rw [hindex]
  cases s.instanceIndex hComponent aPid with
  | some i => rfl
  | none =>
    dsimp only
    split <;> rfl

/-- A request is handled as it is decided. -/
theorem HandleRequestPolicy_eq (T : PolicyTable) (s : Pm) (cmd : PolicyCommand) :
    HandleRequestPolicy T s cmd = carryOut T s cmd (decision T s cmd.param1) := by
  have hpreempt : requestByPreemption T s cmd =
      carryOut T s cmd (decideByPreemption T s cmd.param1) := by
    unfold requestByPreemption decideByPreemption
    rcases CheckAllCombinations_cases T cmd.param1 with ⟨hnone, -⟩ | ⟨i, priority, hsome, hhas, -⟩
    · simp only [hnone]
      rfl
    · simp only [hsome]
      by_cases hlt : i < s.activePolicyCombination
      · simp only [if_pos hlt, if_pos (GetPriority_ne_neg_one_iff.mpr hhas)]
        rfl
      · simp only [if_neg hlt]
        rfl
  have hcoexist : requestByCoexistence T s cmd =
      carryOut T s cmd (decideByCoexistence T s cmd.param1) := by
    unfold requestByCoexistence decideByCoexistence
    cases hs : GetSupportingCombinations T cmd.param1 with
    | none => rfl
    | some supporting =>
      dsimp only
      cases hc : CanAllComponentsCoexist T s supporting with
      | none => exact hpreempt
      | some combination =>
        have hhas := CanAllComponentsCoexist_has hs hc
        simp only [if_pos (GetPriority_ne_neg_one_iff.mpr hhas)]
        rfl
  have hothers : requestAmongOthers T s cmd =
      carryOut T s cmd (if T.Has s.activePolicyCombination cmd.param1 then
        .grant s.activePolicyCombination false else decideByCoexistence T s cmd.param1) := by
    unfold requestAmongOthers
    by_cases hactive : T.Has s.activePolicyCombination cmd.param1
    · obtain ⟨e, he, hpriority⟩ := GetPriority_of_has hactive
      have hcheck : CheckActiveCombination T s.activePolicyCombination cmd.param1 =
          some e.priority := by
        unfold CheckActiveCombination
        rw [he]
        rfl
      have hkeep := GrantPolicy_active s cmd.hComponent cmd.param1 e.priority cmd.nPid
        s.activePolicyCombination
      rw [hcheck, if_pos hactive]
      simp only [carryOut, hpriority]
      exact hkeep
    · have hcheck : CheckActiveCombination T s.activePolicyCombination cmd.param1 = none := by
        rw [← Option.not_isSome_iff_eq_none, CheckActiveCombination_isSome]
        exact hactive
      rw [hcheck, if_neg hactive]
      exact hcoexist
  unfold HandleRequestPolicy decision
  by_cases hzero : s.registeredComponents = 0
  · rw [if_pos hzero, if_pos hzero]
    cases hs : GetSupportingCombinations T cmd.param1 with
    | none => rfl
    | some supporting =>
      cases supporting with
      | nil => rfl
      | cons first rest =>
        have hhas : T.Has first cmd.param1 := by
          rw [← mem_supportingRows_iff, ← GetSupportingCombinations_eq_some hs]
          exact mem_cons_self
        dsimp only
        rw [if_pos (GetPriority_ne_neg_one_iff.mpr hhas), GrantPolicy_active]
        rfl
  · rw [if_neg hzero, if_neg hzero]
    exact hothers

/-- A combination that has a component and every registered one. -/
def Pm.FitsAll (T : PolicyTable) (s : Pm) (component : Nat) : Prop :=
  ∃ combination, T.Has combination component ∧
    ∀ j < s.registeredComponents, T.Has combination (s.activeComponentList j).component

/-- The decision that is meant: a request is granted if the active combination has the
component, or one has it with all that are registered, or one before the active one has it. -/
def ShouldGrant (T : PolicyTable) (s : Pm) (component : Nat) : Prop :=
  T.Has s.activePolicyCombination component ∨ s.FitsAll T component ∨
    ∃ combination < s.activePolicyCombination, T.Has combination component

/-- The request of a command is answered as it is meant to be. -/
def Decided (T : PolicyTable) (s : Pm) (cmd : PolicyCommand) : Prop :=
  let responses := (HandleRequestPolicy T s cmd).2
  let granted := ⟨cmd.hComponent, cmd.nPid, .PM_GRANTPOLICY⟩ ∈ responses
  let denied := ⟨cmd.hComponent, cmd.nPid, .PM_DENYPOLICY⟩ ∈ responses
  (ShouldGrant T s cmd.param1 → granted ∧ ¬ denied) ∧
    (¬ ShouldGrant T s cmd.param1 → denied ∧ ¬ granted)

theorem CanAllComponentsCoexist_eq_none_iff
    (hs : GetSupportingCombinations T component = some supporting) :
    CanAllComponentsCoexist T s supporting = none ↔
      s.registeredComponents = 0 ∨ ¬ s.FitsAll T component := by
  unfold CanAllComponentsCoexist
  rw [find?_eq_none, GetSupportingCombinations_eq_some hs]
  simp only [mem_supportingRows_iff, Bool.and_eq_true, bne_iff_ne, ne_eq, all_eq_true,
    mem_range, IsComponentSupported_iff, not_and]
  by_cases hzero : s.registeredComponents = 0
  · exact iff_of_true (fun c _ hne => absurd hzero hne) (.inl hzero)
  · rw [or_iff_right hzero]
    constructor
    · rintro hnone ⟨c, hc, hall⟩
      exact hnone c hc hzero hall
    · exact fun hnot c hc _ hall => hnot ⟨c, hc, hall⟩

/-- The responses tell what was decided. -/
theorem responses_of_carryOut (T : PolicyTable) (s : Pm) (cmd : PolicyCommand) (d : Decision) :
    (⟨cmd.hComponent, cmd.nPid, .PM_GRANTPOLICY⟩ ∈ (carryOut T s cmd d).2 ↔
        ∃ combination preempts, d = .grant combination preempts) ∧
      (⟨cmd.hComponent, cmd.nPid, .PM_DENYPOLICY⟩ ∈ (carryOut T s cmd d).2 ↔ d = .deny) := by
  have hpreempted : ∀ r ∈ s.preemptAll, r.PM_Cmd = .PM_PREEMPTED := by
    intro r hr
    obtain ⟨i, -, rfl⟩ := mem_map.mp hr
    rfl
  cases d with
  | overrun => simp [carryOut]
  | deny => simp [carryOut, DenyPolicy]
  | grant combination preempts =>
    have hgrant : (GrantPolicy s cmd.hComponent cmd.param1
        (GetPriority T cmd.param1 combination) cmd.nPid).2 =
          [⟨cmd.hComponent, cmd.nPid, .PM_GRANTPOLICY⟩] := rfl
    simp only [carryOut, hgrant, mem_append, mem_singleton]
    constructor
    · exact iff_of_true (.inr trivial) ⟨combination, preempts, rfl⟩
    · refine iff_of_false ?_ Decision.noConfusion
      rintro (hmem | heq)
      · cases preempts with
        | false => exact not_mem_nil hmem
        | true => exact POLICYMANAGER_TORESOURCEMANAGER.noConfusion (hpreempted _ hmem)
      · exact POLICYMANAGER_TORESOURCEMANAGER.noConfusion (congrArg PolicyResponse.PM_Cmd heq)

/-- The list of supporting combinations, where it is made, fits its array. -/
def Pm.ListFits (T : PolicyTable) (s : Pm) (component : Nat) : Prop :=
  s.registeredComponents = 0 ∨ ¬ T.Has s.activePolicyCombination component →
    (supportingRows T.rows component).length ≤ OMX_POLICY_MAX_COMBINATIONS

/-- What is looked for in place of what is meant: some row has the component, and all that have
it come before the active one. -/
def Pm.Accepts (T : PolicyTable) (s : Pm) (component : Nat) : Prop :=
  T.Has s.activePolicyCombination component ∨ s.FitsAll T component ∨
    (∃ combination, T.Has combination component) ∧
      ∀ combination, T.Has combination component → combination < s.activePolicyCombination

/-- When a request is decided as it is meant to be: the list of supporting combinations is not
overrun, and the rows with the component do not stand on both sides of the active one, unless
that does not matter. -/
structure DecidesRight (T : PolicyTable) (s : Pm) (component : Nat) : Prop where
  room : s.ListFits T component
  oneSide : s.registeredComponents = 0 ∨ T.Has s.activePolicyCombination component ∨
    s.FitsAll T component ∨
    ((∃ combination < s.activePolicyCombination, T.Has combination component) →
      ∀ combination, T.Has combination component → combination < s.activePolicyCombination)

theorem GetSupportingCombinations_of_length
    (h : (supportingRows T.rows component).length ≤ OMX_POLICY_MAX_COMBINATIONS) :
    GetSupportingCombinations T component = some (supportingRows T.rows component) := by
  unfold GetSupportingCombinations
  exact if_pos h

/-- The list of supporting combinations is overrun where it is made and has no room. -/
theorem decision_eq_overrun_iff :
    decision T s component = .overrun ↔ ¬ s.ListFits T component := by
  unfold Pm.ListFits
  rw [Classical.not_imp, not_le]
  have hpreempt : decideByPreemption T s component ≠ .overrun := by
    unfold decideByPreemption
    cases CheckAllCombinations T component with
    | none => exact Decision.noConfusion
    | some found =>
      dsimp only
      split <;> exact Decision.noConfusion
  by_cases hlength :
      (supportingRows T.rows component).length ≤ OMX_POLICY_MAX_COMBINATIONS
  · refine iff_of_false ?_ fun h => absurd hlength (not_le.mpr h.2)
    unfold decision decideByCoexistence
    rw [GetSupportingCombinations_of_length hlength]
    dsimp only
    split
    · cases supportingRows T.rows component <;> exact Decision.noConfusion
    split
    · exact Decision.noConfusion
    · cases CanAllComponentsCoexist T s (supportingRows T.rows component) with
      | none => exact hpreempt
      | some combination => exact Decision.noConfusion
  · have hnone : GetSupportingCombinations T component = none := by
      unfold GetSupportingCombinations
      exact if_neg hlength
    rw [and_iff_left (not_le.mp hlength)]
    unfold decision decideByCoexistence
    rw [hnone]
    by_cases hzero : s.registeredComponents = 0
    · rw [if_pos hzero]
      exact iff_of_true rfl (.inl hzero)
    rw [if_neg hzero, or_iff_right hzero]
    by_cases hactive : T.Has s.activePolicyCombination component
    · rw [if_pos hactive]
      exact iff_of_false Decision.noConfusion fun hnot => hnot hactive
    · rw [if_neg hactive]
      exact iff_of_true rfl hactive

/-- A grant by preemption: some row has the component and all that have it come before the
active one. -/
theorem decideByPreemption_grants_iff :
    (∃ combination preempts, decideByPreemption T s component = .grant combination preempts) ↔
      (∃ combination, T.Has combination component) ∧
        ∀ combination, T.Has combination component → combination < s.activePolicyCombination := by
  unfold decideByPreemption
  rcases CheckAllCombinations_cases T component with ⟨hnone, habsent⟩ | ⟨i, _, hsome, hhas, hafter⟩
  · rw [hnone]
    refine iff_of_false ?_ fun h => habsent _ h.1.choose_spec
    rintro ⟨_, _, h⟩
    cases h
  rw [hsome]
  dsimp only
  by_cases hlt : i < s.activePolicyCombination
  · rw [if_pos hlt]
    refine iff_of_true ⟨i, true, rfl⟩ ⟨⟨i, hhas⟩, fun c hc => ?_⟩
    exact lt_of_le_of_lt (not_lt.mp fun hic => hafter c hic hc) hlt
  · rw [if_neg hlt]
    refine iff_of_false ?_ fun h => hlt (h.2 i hhas)
    rintro ⟨_, _, h⟩
    cases h

/-- The requests that are granted. -/
theorem decision_grants_iff (hroom : s.ListFits T component) :
    (∃ combination preempts, decision T s component = .grant combination preempts) ↔
      s.Accepts T component := by
  unfold decision Pm.Accepts
  by_cases hzero : s.registeredComponents = 0
  · rw [if_pos hzero, GetSupportingCombinations_of_length (hroom (.inl hzero))]
    have hfits : ∀ c, T.Has c component → s.FitsAll T component := fun c hc =>
      ⟨c, hc, fun j hj => absurd hj (by omega)⟩
    cases hlist : supportingRows T.rows component with
    | nil =>
      have habsent : ∀ c, ¬ T.Has c component := by
        intro c hc
        rw [← mem_supportingRows_iff, hlist] at hc
        exact not_mem_nil hc
      refine iff_of_false ?_ ?_
      · rintro ⟨_, _, h⟩
        cases h
      · rintro (hactive | ⟨c, hc, -⟩ | ⟨⟨c, hc⟩, -⟩)
        · exact habsent _ hactive
        · exact habsent c hc
        · exact habsent c hc
    | cons first rest =>
      refine iff_of_true ⟨first, false, rfl⟩ (.inr (.inl (hfits first ?_)))
      rw [← mem_supportingRows_iff, hlist]
      exact mem_cons_self
  rw [if_neg hzero]
  by_cases hactive : T.Has s.activePolicyCombination component
  · rw [if_pos hactive]
    exact iff_of_true ⟨_, false, rfl⟩ (.inl hactive)
  rw [if_neg hactive, or_iff_right hactive]
  have hs := GetSupportingCombinations_of_length (hroom (.inr hactive))
  have hcoexist := CanAllComponentsCoexist_eq_none_iff (s := s) hs
  rw [or_iff_right hzero] at hcoexist
  unfold decideByCoexistence
  rw [hs]
  dsimp only
  cases hc : CanAllComponentsCoexist T s (supportingRows T.rows component) with
  | some c =>
    refine iff_of_true ⟨c, false, rfl⟩ (.inl ?_)
    by_contra hnot
    rw [hcoexist.mpr hnot] at hc
    cases hc
  | none =>
    rw [or_iff_right (hcoexist.mp hc)]
    exact decideByPreemption_grants_iff

/-- How a request is decided, by the searches of the source. -/
inductive DecisionCase (T : PolicyTable) (s : Pm) (component : Nat) : Prop where
  /-- Nothing is registered. -/
  | first : s.registeredComponents = 0 → (decision T s component = .deny ∨
        ∃ combination, decision T s component = .grant combination false) →
      DecisionCase T s component
  | active : s.registeredComponents ≠ 0 → T.Has s.activePolicyCombination component →
      decision T s component = .grant s.activePolicyCombination false →
      DecisionCase T s component
  | coexisting {combination : Nat} : s.registeredComponents ≠ 0 →
      ¬ T.Has s.activePolicyCombination component →
      CanAllComponentsCoexist T s (supportingRows T.rows component) = some combination →
      decision T s component = .grant combination false → DecisionCase T s component
  | preempting {combination priority : Nat} : s.registeredComponents ≠ 0 →
      ¬ T.Has s.activePolicyCombination component →
      CanAllComponentsCoexist T s (supportingRows T.rows component) = none →
      CheckAllCombinations T component = some (combination, priority) →
      combination < s.activePolicyCombination →
      decision T s component = .grant combination true → DecisionCase T s component
  | denied : s.registeredComponents ≠ 0 → ¬ T.Has s.activePolicyCombination component →
      CanAllComponentsCoexist T s (supportingRows T.rows component) = none →
      (∀ combination priority, CheckAllCombinations T component = some (combination, priority) →
        ¬ combination < s.activePolicyCombination) →
      decision T s component = .deny → DecisionCase T s component

theorem decision_cases (hroom : s.ListFits T component) : DecisionCase T s component := by
  by_cases hzero : s.registeredComponents = 0
  · refine .first hzero ?_
    unfold decision
    rw [if_pos hzero, GetSupportingCombinations_of_length (hroom (.inl hzero))]
    cases supportingRows T.rows component with
    | nil => exact .inl rfl
    | cons first rest => exact .inr ⟨first, rfl⟩
  have hdecision : decision T s component =
      if T.Has s.activePolicyCombination component then .grant s.activePolicyCombination false
      else decideByCoexistence T s component := if_neg hzero
  by_cases hactive : T.Has s.activePolicyCombination component
  · exact .active hzero hactive (hdecision.trans (if_pos hactive))
  rw [if_neg hactive] at hdecision
  unfold decideByCoexistence at hdecision
  rw [GetSupportingCombinations_of_length (hroom (.inr hactive))] at hdecision
  dsimp only at hdecision
  cases hc : CanAllComponentsCoexist T s (supportingRows T.rows component) with
  | some combination =>
    rw [hc] at hdecision
    exact .coexisting hzero hactive hc hdecision
  | none =>
    rw [hc] at hdecision
    dsimp only at hdecision
    unfold decideByPreemption at hdecision
    cases hall : CheckAllCombinations T component with
    | none =>
      rw [hall] at hdecision
      exact .denied hzero hactive hc (fun _ _ h => by rw [hall] at h; cases h) hdecision
    | some found =>
      obtain ⟨combination, priority⟩ := found
      rw [hall] at hdecision
      dsimp only at hdecision
      by_cases hlt : combination < s.activePolicyCombination
      · rw [if_pos hlt] at hdecision
        exact .preempting hzero hactive hc hall hlt hdecision
      · rw [if_neg hlt] at hdecision
        refine .denied hzero hactive hc (fun c p h => ?_) hdecision
        rw [hall] at h
        cases h
        exact hlt

/-- A request is decided as it is meant to be exactly under that condition. -/
theorem decided_iff (T : PolicyTable) (s : Pm) (cmd : PolicyCommand) :
    Decided T s cmd ↔ DecidesRight T s cmd.param1 := by
  obtain ⟨hgranted, hdenied⟩ := responses_of_carryOut T s cmd (decision T s cmd.param1)
  unfold Decided
  dsimp only
  rw [HandleRequestPolicy_eq, hgranted, hdenied]
  by_cases hroom : s.ListFits T cmd.param1
  · have hgrants := decision_grants_iff hroom
    have hnotOverrun : decision T s cmd.param1 ≠ .overrun := by
      rw [ne_eq, decision_eq_overrun_iff]
      exact not_not_intro hroom
    constructor
    · rintro ⟨hgrant, -⟩
      refine ⟨hroom, ?_⟩
      by_contra hnot
      rw [not_or, not_or, not_or, Classical.not_imp] at hnot
      obtain ⟨-, hactive, hfits, hbefore, hafter⟩ := hnot
      have hshould : ShouldGrant T s cmd.param1 := .inr (.inr hbefore)
      rcases hgrants.mp (hgrant hshould).1 with h | h | h
      · exact hactive h
      · exact hfits h
      · exact hafter h.2
    · rintro ⟨-, hside⟩
      have hright : (∃ c p, decision T s cmd.param1 = .grant c p) ↔
          ShouldGrant T s cmd.param1 := by
        rw [hgrants]
        unfold ShouldGrant Pm.Accepts
        constructor
        · rintro (h | h | ⟨⟨c, hc⟩, hall⟩)
          · exact .inl h
          · exact .inr (.inl h)
          · exact .inr (.inr ⟨c, hall c hc, hc⟩)
        · rintro (h | h | ⟨c, hlt, hc⟩)
          · exact .inl h
          · exact .inr (.inl h)
          · rcases hside with hzero | h | h | h
            · exact .inr (.inl ⟨c, hc, fun j hj => absurd hj (by omega)⟩)
            · exact .inl h
            · exact .inr (.inl h)
            · exact .inr (.inr ⟨⟨c, hc⟩, h ⟨c, hlt, hc⟩⟩)
      rw [← hright]
      cases hdecision : decision T s cmd.param1 with
      | overrun => exact absurd hdecision hnotOverrun
      | deny => simp
      | grant c p => simp
  · refine iff_of_false ?_ fun h => hroom h.room
    rw [decision_eq_overrun_iff.mpr hroom]
    rintro ⟨hgrant, hdeny⟩
    by_cases hshould : ShouldGrant T s cmd.param1
    · obtain ⟨⟨_, _, h⟩, -⟩ := hgrant hshould
      cases h
    · exact Decision.noConfusion (hdeny hshould).1

/-- Rows of one component on both sides of the row of another. -/
def twoSidedTable : PolicyTable where
  rows := [[⟨0, 5⟩], [⟨1, 5⟩], [⟨0, 5⟩, ⟨2, 5⟩]]
  numCombinations_le := by decide
  length_le := by decide
  component_lt := by decide
  priority_lt := by decide

/-- Component 1 is requested. -/
def requestOne : List PolicyCommand := [⟨.PM_RequestPolicy, 1, 1, 1⟩]

/-- With component 1 running, component 0 is denied, although row 0 has it and comes first. -/
theorem earlierRow_denied :
    ¬ ∀ (T : PolicyTable) (cmds : List PolicyCommand) (s : Pm) (cmd : PolicyCommand),
      cmds.foldlM (fun s cmd => (handle T s cmd).1) Pm.start = some s → Decided T s cmd := by
  intro h
  have hend : (requestOne.foldlM (fun s cmd => (handle twoSidedTable s cmd).1) Pm.start).map
      (fun s => (s.activePolicyCombination,
        (HandleRequestPolicy twoSidedTable s ⟨.PM_RequestPolicy, 0, 2, 1⟩).2)) =
      some (1, [⟨2, 1, .PM_DENYPOLICY⟩]) := by decide
  obtain ⟨s, hs, hvalues⟩ := Option.map_eq_some_iff.mp hend
  rw [Prod.mk.injEq] at hvalues
  have hfirst : twoSidedTable.Has 0 0 := by decide
  have hshould : ShouldGrant twoSidedTable s 0 :=
    .inr (.inr ⟨0, by rw [hvalues.1]; exact one_pos, hfirst⟩)
  have hgranted := ((h twoSidedTable requestOne s ⟨.PM_RequestPolicy, 0, 2, 1⟩ hs).1 hshould).1
  rw [hvalues.2] at hgranted
  revert hgranted
  decide

end OmapHal.PolicyManager
