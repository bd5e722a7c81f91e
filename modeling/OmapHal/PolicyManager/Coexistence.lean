import OmapHal.Core.Run
import OmapHal.PolicyManager.Registry

/-!
# The running instances and the active combination

An instance runs from its grant until it is preempted or freed. A preempted instance stays
registered with its record, and a switch of the active combination looks at the types of all
that are registered but at no priority.
-/

namespace OmapHal.PolicyManager

open Function List

variable {T : PolicyTable} {s : Pm} {cmd : PolicyCommand} {running : Nat × Nat → Bool}

/-- The policy manager and which instances run. -/
structure Watch where
  pm : Pm
  running : Nat × Nat → Bool

def Watch.start : Watch := ⟨Pm.start, fun _ => false⟩

/-- What a response says about its instance. -/
def hear (running : Nat × Nat → Bool) (r : PolicyResponse) : Nat × Nat → Bool :=
  match r.PM_Cmd with
  | .PM_GRANTPOLICY => Function.update running (r.hComponent, r.nPid) true
  | .PM_PREEMPTED => Function.update running (r.hComponent, r.nPid) false
  | .PM_DENYPOLICY | .PM_unknown => running

/-- A turn of the policy manager, with its responses heard in order. -/
def Watch.turn (T : PolicyTable) (w : Watch) (cmd : PolicyCommand) : Option Watch :=
  (handle T w.pm cmd).1.map fun pm =>
    { pm := pm
      running :=
        if w.pm.Exitflag = false ∧ cmd.PM_Cmd = .PM_FreePolicy then
          Function.update w.running cmd.subject false
        else (handle T w.pm cmd).2.foldl hear w.running }

/-- A combination has the component of a record and gives it the same priority. -/
def FitsIn (T : PolicyTable) (combination : Nat) (record : ComponentPriority) : Prop :=
  T.Has combination record.component ∧
    GetPriority T record.component combination = record.priority

theorem fitsIn_recordIn {component combination : Nat} (h : T.Has combination component) :
    FitsIn T combination (recordIn T component combination) := by
  obtain ⟨e, -, hpriority⟩ := GetPriority_of_has h
  refine ⟨h, ?_⟩
  unfold recordIn
  rw [hpriority]
  rfl

/-- The records of the registered instances that run fit the active combination. -/
def Watch.Coexist (T : PolicyTable) (w : Watch) : Prop :=
  ∀ i < w.pm.registeredComponents, w.running (w.pm.pComponentList i) = true →
    FitsIn T w.pm.activePolicyCombination (w.pm.activeComponentList i)

/-- A change of the active combination supports each running instance, or preempts it and takes
it out of the registry. -/
def SwitchKeeps (T : PolicyTable) (w t : Watch) : Prop :=
  t.pm.activePolicyCombination ≠ w.pm.activePolicyCombination →
    ∀ i < w.pm.registeredComponents, w.running (w.pm.pComponentList i) = true →
      T.Has t.pm.activePolicyCombination (w.pm.activeComponentList i).component ∨
        (t.running (w.pm.pComponentList i) = false ∧ ¬ t.pm.Registered (w.pm.pComponentList i))

/-- The responses to preemptions stop the instances they name. -/
theorem hear_preempted (l : List (Nat × Nat)) (who : Nat × Nat) :
    (l.map fun other => PreemptComponent other.1 other.2).foldl hear running who ↔
      running who ∧ who ∉ l := by
  induction l generalizing running with
  | nil => simp
  | cons other l ih =>
    have hhear : hear running (PreemptComponent other.1 other.2) =
        update running other false := rfl
    rw [map_cons, foldl_cons, ih, hhear]
    by_cases hwho : who = other
    · rw [hwho, update_self]
      simp
    · rw [update_of_ne hwho]
      simp [hwho]

theorem mem_instances {who : Nat × Nat} :
    who ∈ (List.range s.registeredComponents).map s.pComponentList ↔ s.Registered who := by
  unfold Pm.Registered
  simp only [mem_map, mem_range]

/-- What runs after a grant: the requester, and the others that are not preempted. -/
theorem hear_grant (combination : Nat) (preempts : Bool) (who : Nat × Nat) :
    (carryOut T s cmd (.grant combination preempts)).2.foldl hear running who ↔
      who = cmd.subject ∨
        running who ∧ ¬ (preempts ∧ s.Registered who) := by
  have hresponses : (carryOut T s cmd (.grant combination preempts)).2 =
      (if preempts then s.preemptAll else []) ++
        [⟨cmd.hComponent, cmd.nPid, .PM_GRANTPOLICY⟩] := rfl
  have hpreempt : s.preemptAll = ((range s.registeredComponents).map s.pComponentList).map
      fun other => PreemptComponent other.1 other.2 := by
    rw [map_map]
    rfl
  rw [hresponses, foldl_append, foldl_cons, foldl_nil]
  have hhear : ∀ before : Nat × Nat → Bool,
      hear before ⟨cmd.hComponent, cmd.nPid, .PM_GRANTPOLICY⟩ =
        update before cmd.subject true := fun _ => rfl
  rw [hhear]
  by_cases hwho : who = cmd.subject
  · rw [hwho, update_self]
    exact iff_of_true rfl (.inl rfl)
  · rw [update_of_ne hwho, or_iff_right hwho]
    cases preempts with
    | false => simp
    | true =>
      rw [if_pos rfl, hpreempt, hear_preempted, mem_instances]
      simp

variable {w : Watch} {combination : Nat}

/-- The record of the requester, if it is registered, fits a combination. -/
def Watch.SubjectFits (T : PolicyTable) (w : Watch) (cmd : PolicyCommand) (combination : Nat) :
    Prop :=
  ∀ i < w.pm.registeredComponents, w.pm.pComponentList i = cmd.subject →
    FitsIn T combination (w.pm.activeComponentList i)

/-- The running instances are supported by a combination. -/
def Watch.Supported (T : PolicyTable) (w : Watch) (combination : Nat) : Prop :=
  ∀ i < w.pm.registeredComponents, w.running (w.pm.pComponentList i) = true →
    T.Has combination (w.pm.activeComponentList i).component

/-- The records of the instances that run after a grant fit its combination. -/
def Watch.GrantFits (T : PolicyTable) (w : Watch) (cmd : PolicyCommand) (combination : Nat)
    (stopped : Nat × Nat → Prop) : Prop :=
  w.SubjectFits T cmd combination ∧
    (∀ i < w.pm.registeredComponents, w.running (w.pm.pComponentList i) = true →
      ¬ stopped (w.pm.pComponentList i) → FitsIn T combination (w.pm.activeComponentList i)) ∧
    (combination ≠ w.pm.activePolicyCombination → w.Supported T combination)

/-- A grant that stops some instances keeps the others and the requester in the active
combination exactly if their records fit it; the registry only grows. -/
theorem grant_coexist_iff (preempts : Bool) {running : Nat × Nat → Bool}
    {stopped : Nat × Nat → Prop} (hhas : T.Has combination cmd.param1)
    (hrunning : ∀ who, running who ↔
      who = cmd.subject ∨ w.running who ∧ ¬ stopped who) :
    (∃ t, ((carryOut T w.pm cmd (.grant combination preempts)).1.map fun pm =>
        (⟨pm, running⟩ : Watch)) = some t ∧ t.Coexist T ∧ SwitchKeeps T w t) ↔
      w.pm.HasPlace cmd.subject ∧ w.GrantFits T cmd combination stopped := by
  -- the registered instances after the grant are those before and the requester
  have hafter : ∀ pm : Pm, pm.activePolicyCombination = combination →
      (∀ who, w.pm.Registered who → pm.Registered who) →
      ((∀ i < pm.registeredComponents, running (pm.pComponentList i) →
          FitsIn T combination (pm.activeComponentList i)) ↔
        ∀ i < w.pm.registeredComponents, running (w.pm.pComponentList i) →
          FitsIn T combination (w.pm.activeComponentList i)) →
      (Watch.Coexist T ⟨pm, running⟩ ∧ SwitchKeeps T w ⟨pm, running⟩ ↔
        w.GrantFits T cmd combination stopped) := by
    intro pm hactive hmono hfits
    have hcoexist : Watch.Coexist T ⟨pm, running⟩ ↔ w.SubjectFits T cmd combination ∧
        ∀ i < w.pm.registeredComponents, w.running (w.pm.pComponentList i) →
          ¬ stopped (w.pm.pComponentList i) →
            FitsIn T combination (w.pm.activeComponentList i) := by
      unfold Watch.Coexist
      rw [hactive, hfits]
      unfold Watch.SubjectFits
      constructor
      · intro h
        exact ⟨fun i hi hsubject => h i hi ((hrunning _).mpr (.inl hsubject)),
          fun i hi hruns hgoes => h i hi ((hrunning _).mpr (.inr ⟨hruns, hgoes⟩))⟩
      · rintro ⟨hsubject, hothers⟩ i hi hruns
        rcases (hrunning _).mp hruns with heq | ⟨hold, hgoes⟩
        · exact hsubject i hi heq
        · exact hothers i hi hold hgoes
    have hswitch : SwitchKeeps T w ⟨pm, running⟩ ↔
        (combination ≠ w.pm.activePolicyCombination → w.Supported T combination) := by
      unfold SwitchKeeps Watch.Supported
      rw [hactive]
      refine imp_congr_right fun _ => forall₂_congr fun i hi => imp_congr_right fun _ => ?_
      exact or_iff_left fun hgone => hgone.2 (hmono _ ⟨i, hi, rfl⟩)
    unfold Watch.GrantFits
    rw [hcoexist, hswitch, and_assoc]
  have hsome : ∀ pm : Pm, (∃ t, (some pm).map (fun pm => (⟨pm, running⟩ : Watch)) = some t ∧
      t.Coexist T ∧ SwitchKeeps T w t) ↔
        Watch.Coexist T ⟨pm, running⟩ ∧ SwitchKeeps T w ⟨pm, running⟩ := by
    intro pm
    constructor
    · rintro ⟨t, ht, h⟩
      cases ht
      exact h
    · exact fun h => ⟨_, rfl, h⟩
  rcases carryOut_grant_cases (s := w.pm) preempts hhas with
    ⟨hreg, heq⟩ | ⟨hnew, hplace, heq⟩ | ⟨hnew, hplace, heq⟩
  · have hplace : w.pm.HasPlace cmd.subject := .inl hreg
    rw [heq, hsome, and_iff_right hplace]
    exact hafter _ rfl (fun _ h => h) Iff.rfl
  · have hroom : w.pm.HasPlace cmd.subject := .inr hplace
    rw [heq, hsome, and_iff_right hroom]
    refine hafter _ rfl ?_ ?_
    · rintro who ⟨i, hi, hp⟩
      exact ⟨i, Nat.lt_succ_of_lt hi, (update_of_ne (Nat.ne_of_lt hi) ..).trans hp⟩
    · constructor
      · intro h i hi hruns
        have hi' := h i (Nat.lt_succ_of_lt hi)
        unfold Pm.add at hi'
        dsimp only at hi'
        rw [update_of_ne (Nat.ne_of_lt hi), update_of_ne (Nat.ne_of_lt hi)] at hi'
        exact hi' hruns
      · intro h i hi hruns
        rcases Pm.add_entry cmd.subject (recordIn T cmd.param1 combination)
          hi with ⟨-, hpi, hai⟩ | ⟨hin, hpi, hai⟩
        · dsimp only
          rw [hai]
          exact fitsIn_recordIn hhas
        · dsimp only at hruns ⊢
          rw [hpi] at hruns
          rw [hai]
          exact h i hin hruns
  · rw [heq]
    refine iff_of_false (fun ⟨t, ht, _⟩ => by cases ht) ?_
    rintro ⟨hreg | hlt, -⟩
    · exact hnew hreg
    · exact hplace hlt

/-- When a request keeps the running instances in the active combination. -/
structure Watch.RequestFits (T : PolicyTable) (w : Watch) (cmd : PolicyCommand) : Prop where
  /-- The active combination has the component: a registered requester has a record that fits. -/
  active : T.Has w.pm.activePolicyCombination cmd.param1 →
    w.SubjectFits T cmd w.pm.activePolicyCombination
  /-- A combination is found for all that are registered: it gives the running ones and the
  requester the priorities they have. -/
  coexisting : ¬ T.Has w.pm.activePolicyCombination cmd.param1 → ∀ combination,
    CanAllComponentsCoexist T w.pm (supportingRows T.rows cmd.param1) = some combination →
      ∀ i < w.pm.registeredComponents,
        w.pm.pComponentList i = cmd.subject ∨ w.running (w.pm.pComponentList i) = true →
          GetPriority T (w.pm.activeComponentList i).component combination =
            (w.pm.activeComponentList i).priority
  /-- The others are preempted: the combination has their components all the same, and the
  record of a registered requester fits it. -/
  preempting : ¬ T.Has w.pm.activePolicyCombination cmd.param1 →
    CanAllComponentsCoexist T w.pm (supportingRows T.rows cmd.param1) = none →
      ∀ combination priority,
        CheckAllCombinations T cmd.param1 = some (combination, priority) →
          combination < w.pm.activePolicyCombination →
            w.SubjectFits T cmd combination ∧ w.Supported T combination

/-- The combination found for all that are registered has their components. -/
theorem CanAllComponentsCoexist_supports {supporting : List Nat}
    (h : CanAllComponentsCoexist T s supporting = some combination) :
    ∀ i < s.registeredComponents, T.Has combination (s.activeComponentList i).component := by
  have hfound := find?_some h
  rw [Bool.and_eq_true, all_eq_true] at hfound
  exact fun i hi => IsComponentSupported_iff.mp (hfound.2 i (mem_range.mpr hi))

/-- A decision to grant, against what the source's searches ask. -/
theorem Watch.Coexist.grantFits_iff (h : w.Coexist T) (hroom : w.pm.ListFits T cmd.param1)
    {preempts : Bool}
    (hdecision : decision T w.pm cmd.param1 = .grant combination preempts) :
    w.GrantFits T cmd combination (fun who => preempts ∧ w.pm.Registered who) ↔
      w.RequestFits T cmd := by
  cases decision_cases hroom with
  | first hzero _ =>
    have hvacuous : ∀ {P : Nat → Prop}, ∀ i < w.pm.registeredComponents, P i :=
      fun i hi => absurd hi (by omega)
    exact iff_of_true ⟨hvacuous, hvacuous, fun _ => hvacuous⟩
      ⟨fun _ => hvacuous, fun _ _ _ => hvacuous, fun _ _ _ _ _ _ => ⟨hvacuous, hvacuous⟩⟩
  | active hzero hactive heq =>
    rw [heq] at hdecision
    cases hdecision
    constructor
    · rintro ⟨hsubject, -, -⟩
      exact ⟨fun _ => hsubject, fun hnot => absurd hactive hnot, fun hnot => absurd hactive hnot⟩
    · intro hrequest
      exact ⟨hrequest.active hactive, fun i hi hruns _ => h i hi hruns, fun hne => absurd rfl hne⟩
  | coexisting hzero hactive hc heq =>
    rw [heq] at hdecision
    cases hdecision
    have hsupports := CanAllComponentsCoexist_supports hc
    constructor
    · rintro ⟨hsubject, hothers, -⟩
      refine ⟨fun hhas => absurd hhas hactive, fun _ c hfound i hi hruns => ?_,
        fun _ hnone => ?_⟩
      · rw [hc] at hfound
        cases hfound
        rcases hruns with hself | hruns
        · exact (hsubject i hi hself).2
        · exact (hothers i hi hruns fun hstopped => Bool.false_ne_true hstopped.1).2
      · rw [hc] at hnone
        cases hnone
    · intro hrequest
      have hpriority := hrequest.coexisting hactive _ hc
      exact ⟨fun i hi hself => ⟨hsupports i hi, hpriority i hi (.inl hself)⟩,
        fun i hi hruns _ => ⟨hsupports i hi, hpriority i hi (.inr hruns)⟩,
        fun _ i hi _ => hsupports i hi⟩
  | preempting hzero hactive hc hall hlt heq =>
    rw [heq] at hdecision
    cases hdecision
    constructor
    · rintro ⟨hsubject, -, hsupported⟩
      refine ⟨fun hhas => absurd hhas hactive, fun _ c hfound => ?_, fun _ _ c p hfound _ => ?_⟩
      · rw [hc] at hfound
        cases hfound
      · rw [hall] at hfound
        cases hfound
        exact ⟨hsubject, hsupported (Nat.ne_of_lt hlt)⟩
    · intro hrequest
      obtain ⟨hsubject, hsupported⟩ := hrequest.preempting hactive hc _ _ hall hlt
      exact ⟨hsubject, fun i hi _ hgoes => absurd ⟨rfl, i, hi, rfl⟩ hgoes, fun _ => hsupported⟩
  | denied hzero hactive hc hnone heq =>
    rw [heq] at hdecision
    cases hdecision

/-- A denied request asks nothing. -/
theorem requestFits_of_denied (hroom : w.pm.ListFits T cmd.param1)
    (hdecision : decision T w.pm cmd.param1 = .deny) : w.RequestFits T cmd := by
  cases decision_cases hroom with
  | first hzero _ =>
    have hvacuous : ∀ {P : Nat → Prop}, ∀ i < w.pm.registeredComponents, P i :=
      fun i hi => absurd hi (by omega)
    exact ⟨fun _ => hvacuous, fun _ _ _ => hvacuous, fun _ _ _ _ _ _ => ⟨hvacuous, hvacuous⟩⟩
  | active hzero hactive heq =>
    rw [heq] at hdecision
    cases hdecision
  | coexisting hzero hactive hc heq =>
    rw [heq] at hdecision
    cases hdecision
  | preempting hzero hactive hc hall hlt heq =>
    rw [heq] at hdecision
    cases hdecision
  | denied hzero hactive hc hnone heq =>
    refine ⟨fun hhas => absurd hhas hactive, fun _ c hfound => ?_,
      fun _ _ c p hfound hlt => absurd hlt (hnone c p hfound)⟩
    rw [hc] at hfound
    cases hfound

/-- The records that a free moves beside running instances fit the active combination. -/
def Watch.FreeFits (T : PolicyTable) (w : Watch) (cmd : PolicyCommand) : Prop :=
  ∀ i < w.pm.registeredComponents - 1,
    w.running (w.pm.pComponentList (pastPlace (w.pm.instancePlace cmd.subject) i)) = true →
      FitsIn T w.pm.activePolicyCombination
        (w.pm.activeComponentList (pastPlace (w.pm.typePlace cmd.param1) i))

/-- A free keeps the running instances in the active combination exactly if the records that it
moves beside them fit. -/
theorem Watch.Coexist.free_iff (h : w.Coexist T) (hsound : w.pm.Sound) (cmd : PolicyCommand) :
    Watch.Coexist T ⟨RemoveComponentFromList w.pm cmd.hComponent cmd.nPid cmd.param1,
        update w.running cmd.subject false⟩ ↔ w.FreeFits T cmd := by
  unfold Watch.Coexist Watch.FreeFits
  dsimp only
  rw [remove_activePolicyCombination]
  cases hk : w.pm.instanceIndex cmd.hComponent cmd.nPid with
  | some k =>
    obtain ⟨hn, hplace, hp⟩ := remove_of_registered hk
    obtain ⟨hlt, hsubject⟩ := subject_of_instanceIndex hk
    rw [hn, hplace]
    refine forall₂_congr fun i hi => ?_
    have hne : w.pm.pComponentList (pastPlace k i) ≠ cmd.subject := fun heq =>
      pastPlace_ne k i (hsound.distinct _ (pastPlace_lt hi) k hlt (heq.trans hsubject.symm))
    rw [hp i hi, update_of_ne hne, remove_activeComponentList w.pm cmd hi]
  | none =>
    obtain ⟨hn, hplace, hp⟩ := remove_of_unknown hk
    have hnew := (instanceIndex_eq_none cmd.subject).mp hk
    have hne : ∀ i < w.pm.registeredComponents, w.pm.pComponentList i ≠ cmd.subject :=
      fun i hi heq => hnew ⟨i, hi, heq⟩
    have hkeep : ∀ i < w.pm.registeredComponents - 1,
        pastPlace (w.pm.registeredComponents - 1) i = i := fun i hi => by
      unfold pastPlace
      exact if_neg (Nat.not_le.mpr hi)
    rw [hn, hp, hplace]
    constructor
    · intro hcoexist i hi hruns
      have hi' : i < w.pm.registeredComponents := by omega
      rw [hkeep i hi] at hruns
      rw [← remove_activeComponentList w.pm cmd hi]
      exact hcoexist i hi' (by rw [update_of_ne (hne i hi')]; exact hruns)
    · intro hfree i hi hruns
      rw [update_of_ne (hne i hi)] at hruns
      by_cases hlast : i < w.pm.registeredComponents - 1
      · rw [remove_activeComponentList w.pm cmd hlast]
        exact hfree i hlast (by rw [hkeep i hlast]; exact hruns)
      · rw [remove_activeComponentList_last w.pm cmd hlast]
        exact h i hi hruns

/-- When a turn keeps the running instances in the active combination, and a switch keeps them
supported. -/
def KeepsCoexistence (T : PolicyTable) (w : Watch) (cmd : PolicyCommand) : Prop :=
  w.pm.Exitflag = false →
    match cmd.PM_Cmd with
    | .PM_RequestPolicy =>
      w.pm.ListFits T cmd.param1 ∧ (w.pm.Accepts T cmd.param1 → w.pm.HasPlace cmd.subject) ∧
        w.RequestFits T cmd
    | .PM_WaitForPolicy => w.pm.pendingComponents < MAXCOMPONENTS
    | .PM_FreePolicy => w.FreeFits T cmd
    | .PM_FreeResources => w.pm.HasLower T cmd →
      w.pm.HasPlace cmd.subject ∧ w.SubjectFits T cmd w.pm.activePolicyCombination
    | _ => True

/-- What a turn is to lead to. -/
def Watch.Advances (T : PolicyTable) (w : Watch) (cmd : PolicyCommand) : Prop :=
  ∃ t, w.turn T cmd = some t ∧ t.Coexist T ∧ SwitchKeeps T w t

/-- A turn that is no free, by its responses. -/
theorem Watch.turn_of_handle {result : Option Pm × List PolicyResponse}
    (hhandle : handle T w.pm cmd = result)
    (hfree : ¬ (w.pm.Exitflag = false ∧ cmd.PM_Cmd = .PM_FreePolicy)) :
    w.turn T cmd = result.1.map fun pm => ⟨pm, result.2.foldl hear w.running⟩ := by
  unfold Watch.turn
  rw [hhandle]
  simp only [if_neg hfree]

/-- A turn that changes neither the arrays nor what runs. -/
theorem Watch.Coexist.advances_same (h : w.Coexist T) {t : Pm} (hsame : w.pm.SameArrays t)
    (hturn : w.turn T cmd = some ⟨t, w.running⟩) : w.Advances T cmd := by
  refine ⟨_, hturn, ?_, fun hne => absurd hsame.activePolicyCombination hne⟩
  unfold Watch.Coexist
  dsimp only
  rw [hsame.registeredComponents, hsame.pComponentList, hsame.activeComponentList,
    hsame.activePolicyCombination]
  exact h

theorem Watch.Coexist.advances_request (h : w.Coexist T) (hrun : w.pm.Exitflag = false)
    (hcmd : cmd.PM_Cmd = .PM_RequestPolicy) :
    w.Advances T cmd ↔ w.pm.ListFits T cmd.param1 ∧
      (w.pm.Accepts T cmd.param1 → w.pm.HasPlace cmd.subject) ∧ w.RequestFits T cmd := by
  have hturn := Watch.turn_of_handle (handle_request (T := T) hrun hcmd) (by simp [hcmd])
  by_cases hroom : w.pm.ListFits T cmd.param1
  · have hgrants := decision_grants_iff hroom
    rw [and_iff_right hroom]
    cases hdecision : decision T w.pm cmd.param1 with
    | overrun => exact absurd hroom (decision_eq_overrun_iff.mp hdecision)
    | deny =>
      rw [hdecision] at hturn hgrants
      refine iff_of_true (h.advances_same ⟨rfl, rfl, rfl, rfl⟩ hturn)
        ⟨fun haccepts => ?_, requestFits_of_denied hroom hdecision⟩
      obtain ⟨_, _, heq⟩ := hgrants.mpr haccepts
      cases heq
    | grant combination preempts =>
      rw [hdecision] at hturn hgrants
      rw [forall_prop_of_true (hgrants.mp ⟨_, _, rfl⟩), ← h.grantFits_iff hroom hdecision,
        ← grant_coexist_iff preempts (has_of_decision hdecision) (hear_grant combination preempts)]
      unfold Watch.Advances
      rw [hturn]
  · rw [decision_eq_overrun_iff.mpr hroom] at hturn
    refine iff_of_false ?_ fun hok => hroom hok.1
    rintro ⟨t, ht, -⟩
    rw [hturn] at ht
    cases ht

theorem Watch.Coexist.advances_freeResources (h : w.Coexist T) (hrun : w.pm.Exitflag = false)
    (hcmd : cmd.PM_Cmd = .PM_FreeResources) :
    w.Advances T cmd ↔ (w.pm.HasLower T cmd →
      w.pm.HasPlace cmd.subject ∧ w.SubjectFits T cmd w.pm.activePolicyCombination) := by
  have hhandle := handle_freeResources (T := T) hrun hcmd
  rw [HandleFreeResources_eq] at hhandle
  cases hlowest : lowestPriorityIndex T w.pm cmd with
  | none =>
    have hnot : ¬ w.pm.HasLower T cmd := by
      rw [← lowestPriorityIndex_isSome_iff, hlowest]
      exact Bool.false_ne_true
    rw [hlowest] at hhandle
    have hturn := Watch.turn_of_handle hhandle (by simp [hcmd])
    exact iff_of_true (h.advances_same ⟨rfl, rfl, rfl, rfl⟩ hturn) fun hlower =>
      absurd hlower hnot
  | some i =>
    have hlower : w.pm.HasLower T cmd := by
      rw [← lowestPriorityIndex_isSome_iff, hlowest]
      rfl
    rw [hlowest] at hhandle
    have hturn := Watch.turn_of_handle hhandle (by simp [hcmd])
    have hstop : hear w.running (PreemptComponent (w.pm.pComponentList i).1
        (w.pm.pComponentList i).2) =
          update w.running (w.pm.pComponentList i) false := rfl
    have hrunning : ∀ who, (carryOut T w.pm cmd
        (.grant w.pm.activePolicyCombination false)).2.foldl hear
          (update w.running (w.pm.pComponentList i) false) who ↔
        who = cmd.subject ∨ w.running who ∧ ¬ who = w.pm.pComponentList i := by
      intro who
      rw [hear_grant]
      refine or_congr_right ?_
      by_cases hwho : who = w.pm.pComponentList i
      · rw [hwho, update_self]
        simp
      · rw [update_of_ne hwho]
        simp [hwho]
    rw [forall_prop_of_true hlower]
    have hgrant := grant_coexist_iff false hlower.has hrunning
    have hadvances : w.Advances T cmd ↔ w.pm.HasPlace cmd.subject ∧
        w.GrantFits T cmd w.pm.activePolicyCombination
          (fun who => who = w.pm.pComponentList i) := by
      rw [← hgrant]
      unfold Watch.Advances
      rw [hturn, foldl_cons, hstop]
    rw [hadvances]
    refine and_congr_right fun _ => ⟨fun hfits => hfits.1, fun hsubject => ⟨hsubject, ?_, ?_⟩⟩
    · exact fun j hj hruns _ => h j hj hruns
    · exact fun hne => absurd rfl hne

/-- A turn keeps the running instances in the active combination exactly under its condition. -/
theorem Watch.Coexist.advances_iff (h : w.Coexist T) (hsound : w.pm.Sound) (cmd : PolicyCommand) :
    w.Advances T cmd ↔ KeepsCoexistence T w cmd := by
  cases hrun : w.pm.Exitflag with
  | true =>
    have hturn := Watch.turn_of_handle (handle_exited T cmd hrun)
      fun hf => Bool.false_ne_true (hf.1.symm.trans hrun)
    exact iff_of_true (h.advances_same ⟨rfl, rfl, rfl, rfl⟩ hturn)
      fun hf => absurd (hf.symm.trans hrun) Bool.false_ne_true
  | false =>
    unfold KeepsCoexistence
    rw [forall_prop_of_true hrun]
    by_cases hrequest : cmd.PM_Cmd = .PM_RequestPolicy
    · simp only [hrequest]
      exact h.advances_request hrun hrequest
    by_cases hwait : cmd.PM_Cmd = .PM_WaitForPolicy
    · simp only [hwait]
      rcases handle_wait (T := T) hrun hwait with ⟨hplace, t, hhandle, hs⟩ | ⟨hplace, hhandle⟩
      · exact iff_of_true
          (h.advances_same hs (Watch.turn_of_handle hhandle (by simp [hwait]))) hplace
      · refine iff_of_false ?_ hplace
        rintro ⟨t, ht, -⟩
        rw [Watch.turn_of_handle hhandle (by simp [hwait])] at ht
        cases ht
    by_cases hfree : cmd.PM_Cmd = .PM_FreePolicy
    · simp only [hfree]
      have hturn : w.turn T cmd =
          some ⟨RemoveComponentFromList w.pm cmd.hComponent cmd.nPid cmd.param1,
            update w.running cmd.subject false⟩ := by
        unfold Watch.turn
        rw [handle_free hrun hfree]
        simp only [if_pos (And.intro hrun hfree)]
        rfl
      rw [← h.free_iff hsound cmd]
      unfold Watch.Advances
      rw [hturn]
      constructor
      · rintro ⟨t, ht, hcoexist, -⟩
        cases ht
        exact hcoexist
      · exact fun hcoexist => ⟨_, rfl, hcoexist, fun hne =>
          absurd (remove_activePolicyCombination w.pm cmd) hne⟩
    by_cases hresources : cmd.PM_Cmd = .PM_FreeResources
    · simp only [hresources]
      exact h.advances_freeResources hrun hresources
    · obtain ⟨t, hhandle, hs⟩ :=
        handle_other (T := T) hrun hrequest hwait hfree hresources
      refine iff_of_true (h.advances_same hs (Watch.turn_of_handle hhandle fun hf => hfree hf.2)) ?_
      cases hcmd : cmd.PM_Cmd with
      | PM_RequestPolicy => exact absurd hcmd hrequest
      | PM_WaitForPolicy => exact absurd hcmd hwait
      | PM_FreePolicy => exact absurd hcmd hfree
      | PM_FreeResources => exact absurd hcmd hresources
      | PM_ExitTI | PM_CancelWaitForPolicy | PM_StateSet | PM_OpenPipe | PM_Exit | PM_Init
      | PM_unknown => trivial

theorem Watch.turn_sound (w : Watch) (cmd : PolicyCommand) (t : Watch) (h : w.pm.Sound)
    (ht : w.turn T cmd = some t) : t.pm.Sound := by
  obtain ⟨pm, hpm, rfl⟩ := Option.map_eq_some_iff.mp ht
  exact handle_sound h cmd hpm

/-- The instances that run are in the active combination with their priorities after every part
of a run, and every switch keeps them, exactly if every turn of the run meets its condition. -/
theorem coexistence_iff (T : PolicyTable) (cmds : List PolicyCommand) :
    ((∀ done, done <+: cmds → ∃ w, done.foldlM (Watch.turn T) Watch.start = some w ∧ w.Coexist T) ∧
      ∀ done cmd w t, done ++ [cmd] <+: cmds →
        done.foldlM (Watch.turn T) Watch.start = some w → w.turn T cmd = some t →
          SwitchKeeps T w t) ↔
      Core.AlongSome (Watch.turn T) (KeepsCoexistence T) Watch.start cmds := by
  have hstart : Watch.start.Coexist T := fun i hi => absurd hi (Nat.not_lt_zero i)
  exact (Core.AlongSome.iff_transition (I := fun w : Watch => w.pm.Sound) Pm.start_sound hstart
    Watch.turn_sound fun w cmd hsound h => h.advances_iff hsound cmd).symm

/-- Two rows without a common component. -/
def apartTable : PolicyTable where
  rows := [[⟨0, 5⟩], [⟨1, 5⟩]]
  numCombinations_le := by decide
  length_le := by decide
  component_lt := by decide
  priority_lt := by decide

/-- An instance of component 1 is granted. -/
def lowerGranted : List PolicyCommand := [⟨.PM_RequestPolicy, 1, 1, 1⟩]

/-- An instance of component 0 is requested. -/
def higherRequest : PolicyCommand := ⟨.PM_RequestPolicy, 0, 2, 1⟩

/-- The instance of component 1 is preempted for one of component 0 and stays registered. -/
theorem preempted_stays_registered :
    ¬ ∀ (T : PolicyTable) (done : List PolicyCommand) (cmd : PolicyCommand) (w t : Watch),
      done.foldlM (Watch.turn T) Watch.start = some w → w.turn T cmd = some t →
        SwitchKeeps T w t := by
  intro h
  have hbefore : (lowerGranted.foldlM (Watch.turn apartTable) Watch.start).map (fun w =>
      (w.pm.registeredComponents, w.pm.pComponentList 0, w.pm.activeComponentList 0,
        w.pm.activePolicyCombination, w.running (1, 1))) =
      some (1, (1, 1), ⟨1, 5⟩, 1, true) := by decide
  have hafter : ((lowerGranted ++ [higherRequest]).foldlM (Watch.turn apartTable)
      Watch.start).map (fun w => (w.pm.registeredComponents, w.pm.pComponentList 0,
        w.pm.activePolicyCombination)) = some (2, (1, 1), 0) := by decide
  obtain ⟨w, hw, hvalues⟩ := Option.map_eq_some_iff.mp hbefore
  simp only [Prod.mk.injEq] at hvalues
  obtain ⟨hn, hp, ha, hactive, hruns⟩ := hvalues
  rw [foldlM_append, hw] at hafter
  obtain ⟨t, ht, hvalues⟩ := Option.map_eq_some_iff.mp hafter
  simp only [Prod.mk.injEq] at hvalues
  obtain ⟨hn', hp', hactive'⟩ := hvalues
  have hturn : w.turn apartTable higherRequest = some t := by
    simpa only [foldlM_cons, foldlM_nil, Option.bind_eq_bind, Option.bind_some,
      Option.pure_def, Option.bind_fun_some] using ht
  have hkeeps := h apartTable lowerGranted higherRequest w t hw hturn
    (by rw [hactive, hactive']; decide) 0 (by rw [hn]; decide) (by rw [hp]; exact hruns)
  rw [hactive', ha, hp] at hkeeps
  rcases hkeeps with hhas | ⟨-, hgone⟩
  · revert hhas
    decide
  · exact hgone ⟨0, by rw [hn']; decide, hp'⟩

end OmapHal.PolicyManager
