import OmapHal.Core.Run
import OmapHal.ResourceManager.Model

/-!
# Requests, decisions and answers

The resource manager forwards each request to the policy manager and keeps one record of the
last. The decisions come back by name, and are answered to whom the record names. A run is
watched from outside: what each request and each decision calls for, against what the resource
manager does about it.
-/

namespace OmapHal.ResourceManager

open Option List

open PolicyManager (PolicyResponse)

/-- What is done about a request or a decision. -/
inductive Reaction where
  /-- The request of a component is put to the policy manager. -/
  | forward (component : Nat × Nat)
  /-- The policy manager is asked to free resources for a component. -/
  | askAgain (component : Nat × Nat)
  /-- A component is told. -/
  | answer (component : Nat × Nat) (rm_status : RESOURCEMANAGER_ERRORTYPE)
  deriving DecidableEq, Repr

/-- What an event calls for. A grant is checked against the recovery from a fault and against
the resources before the component is told. -/
def called : Event → List Reaction
  | .command cmd _ =>
    if cmd.RM_Cmd = .RM_RequestResource then [.forward (cmd.hComponent, cmd.nPid)] else []
  | .response r conditions =>
    match r.PM_Cmd with
    | .PM_PREEMPTED => [.answer (r.hComponent, r.nPid) .RM_PREEMPT]
    | .PM_DENYPOLICY => [.answer (r.hComponent, r.nPid) .RM_DENY]
    | .PM_GRANTPOLICY =>
      if conditions.mmuRecoveryInProgress then
        [.answer (r.hComponent, r.nPid) .RM_RESOURCEFATALERROR]
      else if conditions.qosOk then [.answer (r.hComponent, r.nPid) .RM_GRANT]
      else [.askAgain (r.hComponent, r.nPid)]
    | .PM_unknown => []

/-- The reaction that a write is. A message reaches the process behind the pipe, which hands
it to the component of the handle in it. -/
def Write.reaction (fds : Int → Option Nat) : Write → Option Reaction
  | .toPolicy data =>
    match data.PM_Cmd with
    | .PM_RequestPolicy => some (.forward (data.hComponent, data.nPid))
    | .PM_FreeResources => some (.askAgain (data.hComponent, data.nPid))
    | _ => none
  | .toComponent _ _ pipe data =>
    (fds pipe).map fun nPid => .answer (data.hComponent, nPid) data.rm_status
  | .close _ => none

/-- The event is a request or a decision. -/
def Event.isRequestOrDecision : Event → Bool
  | .command cmd _ => cmd.RM_Cmd == .RM_RequestResource
  | .response _ _ => true

/-- A run, with what was called for and what was done so far. -/
structure Dialog where
  rm : Rm
  called : List Reaction
  done : List Reaction

def Dialog.start (stub_mode : Bool) : Dialog := ⟨Rm.start stub_mode, [], []⟩

/-- One turn of the loop, watched. -/
def converse (d : Dialog) (event : Event) : Option Dialog :=
  (turn d.rm event).map fun result =>
    { rm := result.1
      called := d.called ++ if d.rm.Exitflag then [] else ResourceManager.called event
      done := d.done ++ if event.isRequestOrDecision then
        result.2.filterMap (·.reaction d.rm.fds) else [] }

/-- Each request was put to the policy manager once and each decision reached the component it
names once, in order. -/
def Dialog.Routed (d : Dialog) : Prop := d.done = d.called

variable {s t : Rm}

/-- The saved request is the one that a decision is about, and its pipe leads to the process. -/
def SavedIs (s : Rm) (r : PolicyResponse) : Prop :=
  s.globalrequest_cmd_data.hComponent = r.hComponent ∧
    s.fds (RM_GetPipe s.componentList s.globalrequest_cmd_data.hComponent
      s.globalrequest_cmd_data.nPid) = some r.nPid

/-- When a response is routed right. -/
def ResponseRoutes (s : Rm) (r : PolicyResponse) (conditions : Conditions) : Prop :=
  match r.PM_Cmd with
  | .PM_PREEMPTED => s.fds (RM_GetPipe s.componentList r.hComponent r.nPid) = some r.nPid
  | .PM_DENYPOLICY => SavedIs s r
  | .PM_GRANTPOLICY =>
    if conditions.mmuRecoveryInProgress = true ∨ conditions.qosOk = true then SavedIs s r
    else s.globalrequest_cmd_data.hComponent = r.hComponent ∧
      s.globalrequest_cmd_data.nPid = r.nPid
  | .PM_unknown => True

/-- When a turn of the loop routes right. -/
def Routes (s : Rm) (event : Event) : Prop :=
  s.Exitflag = false →
    match event with
    | .command cmd opened =>
      (cmd.RM_Cmd = .RM_RequestResource → s.stub_mode = false) ∧
        (Registers s.componentList cmd opened → HasRoom s.componentList cmd)
    | .response r conditions =>
      r.PM_Cmd ≠ .PM_unknown → s.stub_mode = false ∧ ResponseRoutes s r conditions

/-- A change of status keeps the handles, the processes and the pipes. -/
theorem RM_GetPipe_setStatus (table : List RegisteredComponent) (h p h' p' : Nat)
    (status : RM_COMPONENTSTATUS) :
    RM_GetPipe (RM_SetStatus table h p status) h' p' = RM_GetPipe table h' p' := by
  unfold RM_SetStatus
  induction table with
  | nil => rfl
  | cons d table ih =>
    rw [setFirst_cons]
    unfold RM_GetPipe at ih ⊢
    by_cases hd : d.is h p
    · rw [if_pos hd, find?_cons, find?_cons]
      cases hd' : d.is h' p' <;> simp only [RegisteredComponent.is] at hd' ⊢ <;> rw [hd']
    · rw [if_neg hd, find?_cons, find?_cons]
      cases hd' : d.is h' p' with
      | true => rfl
      | false => exact ih

/-- The answer to the saved request, as a reaction. -/
theorem answerSaved_reactions (s : Rm) (rm_status : RESOURCEMANAGER_ERRORTYPE)
    (status : RM_COMPONENTSTATUS) (r : PolicyResponse) :
    (s.answerSaved rm_status status).2.filterMap (·.reaction s.fds) =
        [.answer (r.hComponent, r.nPid) rm_status] ↔ SavedIs s r := by
  unfold Rm.answerSaved Rm.writeTo Rm.setStatus SavedIs
  simp only [RM_GetPipe_setStatus, filterMap_cons, filterMap_nil, Write.reaction]
  cases s.fds (RM_GetPipe s.componentList s.globalrequest_cmd_data.hComponent
      s.globalrequest_cmd_data.nPid) with
  | none => simp
  | some nPid => simp

/-- A response is answered as it calls for exactly where it routes right. -/
theorem response_reactions_iff (s : Rm) (r : PolicyResponse) (conditions : Conditions) :
    (response s r conditions).2.filterMap (·.reaction s.fds) = called (.response r conditions) ↔
      ResponseRoutes s r conditions := by
  obtain ⟨hComponent, aPid, PM_Cmd⟩ := r
  cases PM_Cmd with
  | PM_PREEMPTED =>
    unfold response called ResponseRoutes Rm.writeTo Rm.setStatus
    simp only [RM_GetPipe_setStatus, filterMap_cons, filterMap_nil, Write.reaction]
    cases s.fds (RM_GetPipe s.componentList hComponent aPid) with
    | none => simp
    | some nPid => simp
  | PM_DENYPOLICY => exact answerSaved_reactions s _ _ _
  | PM_GRANTPOLICY =>
    unfold response called ResponseRoutes
    by_cases hmmu : conditions.mmuRecoveryInProgress
    · simp only [if_pos hmmu, if_pos (.inl hmmu : _ ∨ conditions.qosOk)]
      exact answerSaved_reactions s _ _ ⟨hComponent, aPid, .PM_GRANTPOLICY⟩
    by_cases hqos : conditions.qosOk
    · simp only [if_neg hmmu, if_pos hqos,
        if_pos (.inr hqos : conditions.mmuRecoveryInProgress ∨ _)]
      exact answerSaved_reactions { s with stub_mode := s.stub_mode || conditions.qosFails } _ _
        ⟨hComponent, aPid, .PM_GRANTPOLICY⟩
    · simp only [if_neg hmmu, if_neg hqos, if_neg (not_or.mpr ⟨hmmu, hqos⟩)]
      simp [Write.reaction]
  | PM_unknown => exact iff_of_true rfl trivial

/-- Every decision calls for something. -/
theorem called_response_ne_nil {r : PolicyResponse} (h : r.PM_Cmd ≠ .PM_unknown)
    (conditions : Conditions) : called (.response r conditions) ≠ [] := by
  obtain ⟨hComponent, aPid, PM_Cmd⟩ := r
  cases PM_Cmd with
  | PM_unknown => exact absurd rfl h
  | PM_PREEMPTED => exact cons_ne_nil _ _
  | PM_DENYPOLICY => exact cons_ne_nil _ _
  | PM_GRANTPOLICY =>
    unfold called
    dsimp only
    split
    · exact cons_ne_nil _ _
    · split <;> exact cons_ne_nil _ _

theorem called_response_unknown {r : PolicyResponse} (h : r.PM_Cmd = .PM_unknown)
    (conditions : Conditions) : called (.response r conditions) = [] := by
  unfold called
  simp only [h]

/-- A command fails exactly where it registers a component without room. -/
theorem command_isSome_iff (s : Rm) (opened : OpenedPipe) :
    (∃ result, command s opened = some result) ↔
      (Registers s.componentList s.cmd_data opened → HasRoom s.componentList s.cmd_data) := by
  have hmap : ∀ o : Option Rm, (∃ result, (o.map fun s => (s, ([] : List Write))) = some result) ↔
      ∃ t, o = some t := by
    intro o
    cases o <;> simp
  have hcreate : (∃ t, RM_CreatePipe s s.cmd_data opened = some t) ↔
      (opened.isSome → HasRoom s.componentList s.cmd_data) := by
    cases opened with
    | none => exact iff_of_true ⟨s, rfl⟩ fun hsome => Bool.noConfusion hsome
    | some fdwrite =>
      have hadd := addPipe_isSome
        { s with fds := Function.update s.fds fdwrite (some s.cmd_data.nPid) } s.cmd_data fdwrite
      exact ⟨fun hex _ => hadd.mp hex, fun hroom => hadd.mpr (hroom rfl)⟩
  unfold command Registers
  cases hcmd : s.cmd_data.RM_Cmd with
  | RM_OpenPipe =>
    simp only [hcmd, hmap]
    exact hcreate
  | RM_ReusePipe =>
    simp only [hcmd]
    by_cases hpipe : RM_GetPipe s.componentList s.cmd_data.param4 s.cmd_data.nPid ≠ -1
    · rw [if_pos hpipe, hmap, forall_prop_of_true (.inl hpipe)]
      exact addPipe_isSome s s.cmd_data _
    · rw [if_neg hpipe, hmap, or_iff_right hpipe]
      exact hcreate
  | RM_RequestResource | RM_WaitForResource | RM_FreeResource | RM_FreeAndCloseResource
  | RM_StateSet | RM_Init | RM_Exit | RM_ExitTI | RM_unknown | RM_CancelWaitForResource =>
    simp only [hcmd]
    exact iff_of_true ⟨_, rfl⟩ False.elim

/-- A turn appends what it is called for exactly where it routes right. -/
theorem converse_routed_iff (d : Dialog) (event : Event) (h : d.Routed) :
    (∃ t, converse d event = some t ∧ t.Routed) ↔ Routes d.rm event := by
  have hturn : (∃ t, converse d event = some t ∧ t.Routed) ↔
      ∃ result, turn d.rm event = some result ∧
        (if event.isRequestOrDecision then result.2.filterMap (·.reaction d.rm.fds) else []) =
          if d.rm.Exitflag then [] else called event := by
    unfold converse Dialog.Routed
    rw [h]
    constructor
    · rintro ⟨t, ht, hrouted⟩
      obtain ⟨result, hresult, rfl⟩ := map_eq_some_iff.mp ht
      exact ⟨result, hresult, append_cancel_left hrouted⟩
    · rintro ⟨result, hresult, heq⟩
      exact ⟨_, map_eq_some_iff.mpr ⟨result, hresult, rfl⟩, congrArg _ heq⟩
  rw [hturn]
  unfold turn Routes
  by_cases hexit : d.rm.Exitflag
  · rw [if_pos hexit, if_pos hexit]
    refine iff_of_true ⟨_, rfl, ?_⟩ fun hrun => absurd (hrun.symm.trans hexit) Bool.false_ne_true
    split <;> rfl
  rw [if_neg hexit, if_neg hexit, forall_prop_of_true (Bool.eq_false_iff.mpr hexit)]
  cases event with
  | command cmd opened =>
    have hsome := command_isSome_iff { d.rm with cmd_data := cmd } opened
    by_cases hcmd : cmd.RM_Cmd = .RM_RequestResource
    · have hrequest : Event.isRequestOrDecision (.command cmd opened) := beq_iff_eq.mpr hcmd
      have hregisters : ¬ Registers d.rm.componentList cmd opened := by
        unfold Registers
        rw [hcmd]
        exact id
      have hcommand : command { d.rm with cmd_data := cmd } opened =
          some (HandleRequestResource { d.rm with cmd_data := cmd } cmd) := by
        unfold command
        simp only [hcmd]
      simp only [hcommand, some.injEq, exists_eq_left', hrequest, if_true, called, hcmd,
        forall_true_left, hregisters, false_implies, and_true]
      unfold HandleRequestResource
      cases d.rm.stub_mode <;> simp [Write.reaction]
    · have hrequest : Event.isRequestOrDecision (.command cmd opened) = false :=
        beq_eq_false_iff_ne.mpr hcmd
      simp only [hrequest, called, hcmd, if_false, Bool.false_eq_true, and_true, false_implies,
        true_and]
      exact hsome
  | response r conditions =>
    dsimp only [Event.isRequestOrDecision]
    by_cases hunknown : r.PM_Cmd = .PM_unknown
    · refine iff_of_true ?_ fun hne => absurd hunknown hne
      rw [called_response_unknown hunknown]
      by_cases hstub : d.rm.stub_mode
      · rw [if_pos hstub]
        exact ⟨_, rfl, rfl⟩
      · rw [if_neg hstub]
        refine ⟨_, rfl, ?_⟩
        unfold response
        simp only [hunknown]
        rfl
    · rw [forall_prop_of_true hunknown]
      by_cases hstub : d.rm.stub_mode
      · rw [if_pos hstub]
        refine iff_of_false ?_ fun hroutes => Bool.false_ne_true (hroutes.1.symm.trans hstub)
        rintro ⟨result, hresult, heq⟩
        obtain rfl := some.inj hresult
        exact called_response_ne_nil hunknown conditions heq.symm
      · rw [if_neg hstub, ← response_reactions_iff,
          and_iff_right (Bool.eq_false_iff.mpr hstub)]
        constructor
        · rintro ⟨result, hresult, heq⟩
          obtain rfl := some.inj hresult
          exact heq
        · exact fun heq => ⟨_, rfl, heq⟩

/-- Requests and decisions are routed right after every part of a run exactly if every turn of
the run routes right. -/
theorem responses_routed_iff (stub_mode : Bool) (events : List Event) :
    (∀ done, done <+: events →
        ∃ d, done.foldlM converse (Dialog.start stub_mode) = some d ∧ d.Routed) ↔
      Core.AlongSome converse (fun d => Routes d.rm) (Dialog.start stub_mode) events := by
  have hstart : (Dialog.start stub_mode).Routed := rfl
  exact (Core.AlongSome.iff_invariant (I := fun _ : Dialog => True) trivial hstart
    (fun _ _ _ _ _ => trivial) fun d event _ => converse_routed_iff d event).symm

/-- Two components of two processes request, and the policy manager decides about the first. -/
def twoRequests : List Event :=
  [.command ⟨1, 10, .RM_OpenPipe, 0, 0, 0, 0, .RM_ErrorNone⟩ (some 3),
    .command ⟨2, 20, .RM_OpenPipe, 0, 0, 0, 0, .RM_ErrorNone⟩ (some 4),
    .command ⟨1, 10, .RM_RequestResource, 0, 0, 0, 0, .RM_ErrorNone⟩ none,
    .command ⟨2, 20, .RM_RequestResource, 0, 0, 0, 0, .RM_ErrorNone⟩ none,
    .response ⟨1, 10, .PM_GRANTPOLICY⟩ ⟨false, true, false⟩]

/-- With two requests outstanding, the grant of the first is told to the second component. -/
theorem twoRequests_misrouted :
    ¬ ∀ events : List Event,
      ∃ d, events.foldlM converse (Dialog.start false) = some d ∧ d.Routed := by
  intro h
  obtain ⟨d, hd, hrouted⟩ := h twoRequests
  have hend : (twoRequests.foldlM converse (Dialog.start false)).map
      (fun d => (d.done.getLast?, d.called.getLast?)) =
        some (some (.answer (2, 20) .RM_GRANT), some (.answer (1, 10) .RM_GRANT)) := by decide
  rw [hd, map_some, some.injEq, hrouted, Prod.mk.injEq] at hend
  exact absurd (hend.1.symm.trans hend.2) (by decide)

end OmapHal.ResourceManager
