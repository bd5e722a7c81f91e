import OmapHal.Camera.Commands

/-!
# What a camera command may change

A command that goes through the states of the adapter is carried out whole or leaves the adapter
as it was. Face detection, the switch to executing and a preview that is only interrupted do not
go through the states.
-/

namespace OmapHal.Camera

open Option

variable {call : Call} {s : Adapter} {p : Reply} {mode : CameraMode}

/-- The ways in which `sendCommand` carries a command out. -/
inductive Course where
  /-- between `setState` and `commitState` -/
  | states
  /-- the same, with a descriptor of buffers -/
  | buffers
  /-- the operation alone -/
  | direct
  | unsupported
  deriving DecidableEq, Repr

def Call.course (ICAP : Bool) (call : Call) : Course :=
  match call.operation with
  | .CAMERA_START_PREVIEW => if call.value1 = 1 then .states else .direct
  | .CAMERA_STOP_PREVIEW => if call.value1 = 1 ∨ ICAP then .states else .direct
  | .CAMERA_USE_BUFFERS_PREVIEW | .CAMERA_USE_BUFFERS_PREVIEW_DATA
  | .CAMERA_USE_BUFFERS_IMAGE_CAPTURE => .buffers
  | .CAMERA_START_FD | .CAMERA_STOP_FD | .CAMERA_SWITCH_TO_EXECUTING => .direct
  | .CAMERA_SET_TIMEOUT | .CAMERA_CANCEL_TIMEOUT | .CAMERA_TIMEOUT_EXPIRED => .unsupported
  | _ => .states

/-- The command is allowed, and its operation succeeds. -/
structure Call.Succeeds (call : Call) (s : Adapter) (next : AdapterState) (p : Reply) : Prop where
  allowed : s.mAdapterState.next call.operation = some next
  performed : call.perform { s with mNextState := next } = some p
  ok : p.ret = NO_ERROR

/-- The reply after `commitState`. -/
def Reply.committed (p : Reply) (next : AdapterState) : Reply :=
  ⟨NO_ERROR, p.executed, { p.adapter with mAdapterState := next, mNextState := next }⟩

/-- The adapter after `rollbackState`. -/
def Adapter.rolledBack (s : Adapter) : Adapter := { s with mNextState := s.mAdapterState }

/-! ### The operations -/

/-- What the operation behind a command does with the adapter. -/
inductive Performs (call : Call) (s : Adapter) : Reply → Prop where
  | run (operation : Operation) (hstart : call.operation ≠ .CAMERA_START_VIDEO)
      (hstop : call.operation ≠ .CAMERA_STOP_VIDEO) :
      Performs call s ⟨call.outcome, some operation, s⟩
  | supplied (operation : Operation) (t : Adapter) (hbuffers : ∀ ICAP, call.course ICAP = .buffers)
      (hcontrol : t.control = s.control)
      (hvideo : t.mVideoBuffersAvailable = s.mVideoBuffersAvailable) :
      Performs call s ⟨call.outcome, some operation, t⟩
  | invalid (hstart : call.operation ≠ .CAMERA_START_VIDEO)
      (hstop : call.operation ≠ .CAMERA_STOP_VIDEO) : Performs call s ⟨-EINVAL, none, s⟩
  | unsupported (h : ∀ ICAP, call.course ICAP = .unsupported) :
      Performs call s ⟨NO_ERROR, none, s⟩
  | startVideo (h : call.operation = .CAMERA_START_VIDEO) :
      Performs call s
        ⟨s.startVideoCapture.1, some .startVideoCapture, s.startVideoCapture.2⟩
  | stopVideo (h : call.operation = .CAMERA_STOP_VIDEO) (ret : status_t) (t : Adapter)
      (hstop : s.stopVideoCapture = some (ret, t)) :
      Performs call s ⟨ret, some .stopVideoCapture, t⟩

theorem performs (h : call.perform s = some p) :
    Performs call s p := by
  obtain ⟨operation, value1, desc, outcome⟩ := call
  cases operation
  case CAMERA_START_VIDEO =>
    obtain rfl := some.inj h
    exact .startVideo rfl
  case CAMERA_STOP_VIDEO =>
    obtain ⟨⟨ret, t⟩, hstop, rfl⟩ := map_eq_some_iff.mp h
    exact .stopVideo rfl ret t hstop
  case CAMERA_PREVIEW_FLUSH_BUFFERS => cases h
  case CAMERA_USE_BUFFERS_PREVIEW | CAMERA_USE_BUFFERS_PREVIEW_DATA |
      CAMERA_USE_BUFFERS_IMAGE_CAPTURE =>
    obtain rfl := some.inj h
    exact .supplied _ _ (fun _ => rfl) rfl rfl
  case CAMERA_QUERY_RESOLUTION_PREVIEW | CAMERA_QUERY_BUFFER_SIZE_IMAGE_CAPTURE |
      CAMERA_QUERY_BUFFER_SIZE_PREVIEW_DATA =>
    dsimp only [Call.perform, Call.query] at h
    split at h
    · obtain rfl := some.inj h
      exact .invalid (by simp) (by simp)
    · obtain rfl := some.inj h
      exact .run _ (by simp) (by simp)
  case CAMERA_SET_TIMEOUT | CAMERA_CANCEL_TIMEOUT | CAMERA_TIMEOUT_EXPIRED =>
    obtain rfl := some.inj h
    exact .unsupported fun _ => rfl
  all_goals
    obtain rfl := some.inj h
    exact .run _ (by simp) (by simp)

/-- An operation leaves the two states to `setState` and what follows it. -/
theorem Performs.states (h : Performs call s p) :
    p.adapter.mAdapterState = s.mAdapterState ∧ p.adapter.mNextState = s.mNextState := by
  cases h with
  | run | invalid | unsupported => exact ⟨rfl, rfl⟩
  | supplied operation t hbuffers hcontrol hvideo =>
    obtain ⟨hadapter, hnext, -⟩ := control_eq_iff.mp hcontrol
    exact ⟨hadapter, hnext⟩
  | startVideo hstart =>
    rw [Adapter.startVideoCapture]
    split <;> exact ⟨rfl, rfl⟩
  | stopVideo hstop ret t hrun =>
    rcases stopVideoCapture_cases hrun with ⟨-, -, rfl⟩ | ⟨-, -, u, hcontrol, -, rfl⟩
    · exact ⟨rfl, rfl⟩
    · obtain ⟨hadapter, hnext, -⟩ := control_eq_iff.mp hcontrol
      exact ⟨hadapter, hnext⟩

/-- Only starting and stopping a recording touch the flag. -/
theorem Performs.control_eq (h : Performs call s p)
    (hstart : call.operation ≠ .CAMERA_START_VIDEO) (hstop : call.operation ≠ .CAMERA_STOP_VIDEO) :
    p.adapter.control = s.control := by
  cases h with
  | run | invalid | unsupported => rfl
  | supplied operation t hbuffers hcontrol hvideo => exact hcontrol
  | startVideo h => exact absurd h hstart
  | stopVideo h => exact absurd h hstop

/-- An operation that fails leaves the adapter as it was, buffers that were supplied apart. -/
theorem Performs.failed {ICAP : Bool}
    (h : Performs call s p) (hstates : call.course ICAP = .states) (hret : p.ret ≠ NO_ERROR) :
    p.adapter = s := by
  cases h with
  | run | invalid | unsupported => rfl
  | supplied operation t hbuffers => exact nomatch hstates.symm.trans (hbuffers ICAP)
  | startVideo hstart =>
    rw [Adapter.startVideoCapture] at hret ⊢
    split at hret
    · next hrec => rw [if_pos hrec]
    · exact absurd rfl hret
  | stopVideo hstop ret t hrun =>
    rcases stopVideoCapture_cases hrun with ⟨-, -, rfl⟩ | ⟨-, rfl, -⟩
    · rfl
    · exact absurd rfl hret

/-- An operation that succeeds was called. -/
theorem Performs.executed {ICAP : Bool}
    (h : Performs call s p) (hcourse : call.course ICAP ≠ .unsupported) (hret : p.ret = NO_ERROR) :
    p.executed ≠ none := by
  cases h with
  | run | supplied | startVideo | stopVideo => exact some_ne_none _
  | invalid => exact absurd hret neg_EINVAL_ne
  | unsupported h => exact absurd (h ICAP) hcourse

/-! ### The steps around the operation -/

variable {ICAP : Bool} {s : Adapter} {call : Call} {next : AdapterState} {p r : Reply}

theorem attempt_allowed (h : s.mAdapterState.next call.operation = some next) :
    call.attempt s = call.perform { s with mNextState := next } := by
  rw [Call.attempt, Adapter.setState, h]
  exact if_pos rfl

theorem attempt_forbidden (h : s.mAdapterState.next call.operation = none) :
    call.attempt s = some ⟨INVALID_OPERATION, none, s⟩ := by
  rw [Call.attempt, Adapter.setState, h]
  exact if_neg INVALID_OPERATION_ne

/-- `commitState` makes the designated state the state of the adapter. -/
theorem settle_ok (hnext : p.adapter.mNextState = next) (hret : p.ret = NO_ERROR) :
    p.settle = p.committed next := by
  rw [Reply.settle, if_pos hret, ← hnext]
  rfl

theorem settlePreview_ok (hnext : p.adapter.mNextState = next) (hret : p.ret = NO_ERROR) :
    p.settlePreview = p.committed next := by
  rw [Reply.settlePreview, if_pos hret, ← hnext]
  rfl

theorem settle_failed (hret : p.ret ≠ NO_ERROR) :
    p.settle = ⟨p.ret, p.executed, p.adapter.rolledBack⟩ := by
  rw [Reply.settle, if_neg hret]
  simp [Adapter.rollbackState, NO_ERROR, Adapter.rolledBack]

theorem settlePreview_failed (hret : p.ret ≠ NO_ERROR) :
    p.settlePreview = ⟨NO_ERROR, p.executed, p.adapter.rolledBack⟩ := by
  rw [Reply.settlePreview, if_neg hret]
  rfl

/-- What ends a command that goes through the states. -/
def Call.settle (call : Call) (r : Reply) : Reply :=
  if call.operation = .CAMERA_START_PREVIEW then r.settlePreview else r.settle

theorem sendCommand_states (h : call.course ICAP = .states) :
    s.sendCommand ICAP call = (call.attempt s).map call.settle := by
  obtain ⟨operation, value1, desc, outcome⟩ := call
  cases operation
  case CAMERA_START_PREVIEW =>
    dsimp only [Call.course] at h
    split at h
    · next hvalue => exact if_pos hvalue
    · cases h
  case CAMERA_STOP_PREVIEW =>
    dsimp only [Call.course] at h
    split at h
    · next hvalue => exact if_pos hvalue
    · cases h
  case CAMERA_USE_BUFFERS_PREVIEW | CAMERA_USE_BUFFERS_PREVIEW_DATA |
      CAMERA_USE_BUFFERS_IMAGE_CAPTURE | CAMERA_START_FD | CAMERA_STOP_FD |
      CAMERA_SWITCH_TO_EXECUTING | CAMERA_SET_TIMEOUT | CAMERA_CANCEL_TIMEOUT |
      CAMERA_TIMEOUT_EXPIRED => cases h
  all_goals rfl

theorem callSettle_ok (hnext : p.adapter.mNextState = next) (hret : p.ret = NO_ERROR) :
    call.settle p = p.committed next := by
  rw [Call.settle]
  split
  · exact settlePreview_ok hnext hret
  · exact settle_ok hnext hret

theorem callSettle_failed (call : Call) (hret : p.ret ≠ NO_ERROR) :
    call.settle p = ⟨(call.settle p).ret, p.executed, p.adapter.rolledBack⟩ ∧
      (call.operation ≠ .CAMERA_START_PREVIEW → (call.settle p).ret ≠ NO_ERROR) := by
  rw [Call.settle]
  split
  · next hpreview =>
    rw [settlePreview_failed hret]
    exact ⟨rfl, fun hne => absurd hpreview hne⟩
  · rw [settle_failed hret]
    exact ⟨rfl, fun _ => hret⟩

theorem sendCommand_buffers (h : call.course ICAP = .buffers) :
    ∃ mode, s.sendCommand ICAP call = call.supply mode s := by
  obtain ⟨operation, value1, desc, outcome⟩ := call
  cases operation
  case CAMERA_USE_BUFFERS_PREVIEW => exact ⟨_, rfl⟩
  case CAMERA_USE_BUFFERS_PREVIEW_DATA => exact ⟨_, rfl⟩
  case CAMERA_USE_BUFFERS_IMAGE_CAPTURE => exact ⟨_, rfl⟩
  case CAMERA_START_PREVIEW | CAMERA_STOP_PREVIEW =>
    dsimp only [Call.course] at h
    split at h <;> cases h
  all_goals cases h

theorem operation_of_buffers (h : call.course ICAP = .buffers) :
    call.operation ≠ .CAMERA_START_VIDEO ∧ call.operation ≠ .CAMERA_STOP_VIDEO := by
  constructor <;>
  · intro hop
    rw [Call.course, hop] at h
    cases h

theorem sendCommand_direct (h : call.course ICAP = .direct) :
    ∃ operation, s.sendCommand ICAP call = some ⟨call.outcome, some operation, s⟩ := by
  obtain ⟨operation, value1, desc, outcome⟩ := call
  cases operation
  case CAMERA_START_FD | CAMERA_STOP_FD | CAMERA_SWITCH_TO_EXECUTING => exact ⟨_, rfl⟩
  case CAMERA_START_PREVIEW =>
    dsimp only [Call.course] at h
    split at h
    · cases h
    · next hvalue => exact ⟨.startPreview, if_neg hvalue⟩
  case CAMERA_STOP_PREVIEW =>
    dsimp only [Call.course] at h
    split at h
    · cases h
    · next hvalue => exact ⟨.stopPreview, if_neg hvalue⟩
  all_goals cases h

theorem sendCommand_unsupported (h : call.course ICAP = .unsupported) :
    s.sendCommand ICAP call = some ⟨NO_ERROR, none, s⟩ := by
  obtain ⟨operation, value1, desc, outcome⟩ := call
  cases operation
  case CAMERA_SET_TIMEOUT | CAMERA_CANCEL_TIMEOUT | CAMERA_TIMEOUT_EXPIRED => rfl
  case CAMERA_START_PREVIEW | CAMERA_STOP_PREVIEW =>
    dsimp only [Call.course] at h
    split at h <;> cases h
  all_goals cases h

/-- The only operation that may not come back. `setState` allows no flush. -/
theorem perform_none (h : call.perform { s with mNextState := next } = none)
    (hallowed : s.mAdapterState.next call.operation = some next) :
    call.operation = .CAMERA_STOP_VIDEO ∧
      Adapter.stopVideoCapture { s with mNextState := next } = none := by
  obtain ⟨operation, value1, desc, outcome⟩ := call
  cases operation
  case CAMERA_STOP_VIDEO => exact ⟨rfl, map_eq_none_iff.mp h⟩
  case CAMERA_PREVIEW_FLUSH_BUFFERS =>
    obtain ⟨state⟩ := s
    cases state <;> cases hallowed
  case CAMERA_QUERY_RESOLUTION_PREVIEW | CAMERA_QUERY_BUFFER_SIZE_IMAGE_CAPTURE |
      CAMERA_QUERY_BUFFER_SIZE_PREVIEW_DATA =>
    dsimp only [Call.perform, Call.query] at h
    split at h <;> cases h
  all_goals cases h

/-! ### The contract -/

/-- What `sendCommand` does, by the way in which it carries the command out. Nothing is said here
about the status of a preview that does not start, nor about buffers that are supplied in a state
that does not allow it. -/
def Call.Contract (ICAP : Bool) (s : Adapter) (call : Call) : Prop :=
  match call.course ICAP with
  | .states =>
    (∀ next p, call.Succeeds s next p →
      s.sendCommand ICAP call = some (p.committed next) ∧ p.executed ≠ none) ∧
    ((∀ next p, ¬ call.Succeeds s next p) → ∀ r, s.sendCommand ICAP call = some r →
      r.adapter = s.rolledBack ∧
      (call.operation ≠ .CAMERA_START_PREVIEW → r.ret ≠ NO_ERROR) ∧
      (s.mAdapterState.next call.operation = none → r.executed = none))
  | .buffers =>
    if call.value1 = 0 then s.sendCommand ICAP call = some ⟨-EINVAL, none, s⟩
    else
      (∀ next p, call.Succeeds s next p →
        s.sendCommand ICAP call = some (p.committed next) ∧ p.executed ≠ none) ∧
      ∀ next, s.mAdapterState.next call.operation = some next →
        (∀ p, ¬ call.Succeeds s next p) →
          ∃ r, s.sendCommand ICAP call = some r ∧ r.ret ≠ NO_ERROR ∧
            r.adapter.control = s.rolledBack.control
  | .direct => ∃ operation, s.sendCommand ICAP call = some ⟨call.outcome, some operation, s⟩
  | .unsupported => ∃ ret, s.sendCommand ICAP call = some ⟨ret, none, s⟩

theorem Call.Succeeds.designated (h : call.Succeeds s next p) : p.adapter.mNextState = next :=
  (performs h.performed).states.2

/-- A command that goes through the states, carried out. -/
theorem states_succeeds (hstates : call.course ICAP = .states) (h : call.Succeeds s next p) :
    s.sendCommand ICAP call = some (p.committed next) := by
  rw [sendCommand_states hstates, attempt_allowed h.allowed, h.performed, map_some,
    callSettle_ok h.designated h.ok]

/-- A command that goes through the states and is not carried out. -/
theorem states_fails (hstates : call.course ICAP = .states)
    (hno : ∀ next p, ¬ call.Succeeds s next p) (h : s.sendCommand ICAP call = some r) :
    r.adapter = s.rolledBack ∧
      (call.operation ≠ .CAMERA_START_PREVIEW → r.ret ≠ NO_ERROR) ∧
      (s.mAdapterState.next call.operation = none → r.executed = none) := by
  rw [sendCommand_states hstates] at h
  obtain ⟨p, hp, rfl⟩ := map_eq_some_iff.mp h
  cases hallowed : s.mAdapterState.next call.operation with
  | none =>
    rw [attempt_forbidden hallowed] at hp
    obtain rfl := some.inj hp
    obtain ⟨heq, hret⟩ := callSettle_failed call
      (p := ⟨INVALID_OPERATION, none, s⟩) INVALID_OPERATION_ne
    exact ⟨congrArg Reply.adapter heq, hret, fun _ => congrArg Reply.executed heq⟩
  | some next =>
    rw [attempt_allowed hallowed] at hp
    have hfailed : p.ret ≠ NO_ERROR := fun hok => hno next p ⟨hallowed, hp, hok⟩
    obtain ⟨heq, hret⟩ := callSettle_failed call hfailed
    refine ⟨(congrArg Reply.adapter heq).trans ?_, hret, nofun⟩
    rw [(performs hp).failed hstates hfailed]
    rfl

theorem supply_succeeds (hvalue : call.value1 ≠ 0)
    (h : call.Succeeds s next p) : call.supply mode s = some (p.committed next) := by
  rw [Call.supply, if_neg hvalue, Adapter.setState, h.allowed]
  rw [if_pos rfl, h.performed, map_some, settle_ok h.designated h.ok]

/-- Buffers that are supplied where this is allowed, and not accepted. -/
theorem supply_fails (hbuffers : call.course ICAP = .buffers)
    (hvalue : call.value1 ≠ 0) (hallowed : s.mAdapterState.next call.operation = some next)
    (hno : ∀ p, ¬ call.Succeeds s next p) :
    ∃ p, call.perform { s with mNextState := next } = some p ∧ p.ret ≠ NO_ERROR ∧
      call.supply mode s = some ⟨p.ret, p.executed, p.adapter.rolledBack⟩ := by
  cases hp : call.perform { s with mNextState := next } with
  | none => exact absurd (perform_none hp hallowed).1 (operation_of_buffers hbuffers).2
  | some p =>
    have hfailed : p.ret ≠ NO_ERROR := fun hok => hno p ⟨hallowed, hp, hok⟩
    refine ⟨p, rfl, hfailed, ?_⟩
    rw [Call.supply, if_neg hvalue, Adapter.setState, hallowed]
    rw [if_pos rfl, hp, map_some, settle_failed hfailed]

theorem control_rolledBack (hbuffers : call.course ICAP = .buffers)
    (hp : call.perform { s with mNextState := next } = some p) :
    p.adapter.rolledBack.control = s.rolledBack.control := by
  obtain ⟨hstart, hstop⟩ := operation_of_buffers hbuffers
  obtain ⟨hadapter, -, hrec⟩ := control_eq_iff.mp ((performs hp).control_eq hstart hstop)
  exact control_eq_iff.mpr ⟨hadapter, hadapter, hrec⟩

/-- A command whose operation comes back does so too. -/
theorem sendCommand_none (h : s.sendCommand ICAP call = none) :
    call.operation = .CAMERA_STOP_VIDEO ∧
      ∃ next, s.mAdapterState.next call.operation = some next ∧
        Adapter.stopVideoCapture { s with mNextState := next } = none := by
  cases hcourse : call.course ICAP with
  | direct =>
    obtain ⟨operation, hsend⟩ := sendCommand_direct (s := s) hcourse
    exact nomatch h.symm.trans hsend
  | unsupported => exact nomatch h.symm.trans (sendCommand_unsupported hcourse)
  | states =>
    rw [sendCommand_states hcourse, map_eq_none_iff] at h
    cases hallowed : s.mAdapterState.next call.operation with
    | none => exact nomatch h.symm.trans (attempt_forbidden hallowed)
    | some next =>
      obtain ⟨hstop, hnone⟩ := perform_none ((attempt_allowed hallowed).symm.trans h) hallowed
      exact ⟨hstop, next, rfl, hnone⟩
  | buffers =>
    obtain ⟨mode, hsend⟩ := sendCommand_buffers (s := s) hcourse
    rw [hsend, Call.supply] at h
    cases hallowed : s.mAdapterState.next call.operation with
    | none =>
      rw [Adapter.setState, hallowed] at h
      split at h
      · cases h
      · rw [if_neg INVALID_OPERATION_ne] at h
        cases h
    | some next =>
      rw [Adapter.setState, hallowed] at h
      split at h
      · cases h
      · rw [if_pos rfl, map_eq_none_iff] at h
        obtain ⟨hstop, hnone⟩ := perform_none h hallowed
        exact ⟨hstop, next, rfl, hnone⟩

theorem sendCommand_contract (ICAP : Bool) (s : Adapter) (call : Call) :
    call.Contract ICAP s ∧
      (s.sendCommand ICAP call = none → call.operation = .CAMERA_STOP_VIDEO ∧
        ∃ next, s.mAdapterState.next call.operation = some next ∧
          Adapter.stopVideoCapture { s with mNextState := next } = none) := by
  refine ⟨?_, sendCommand_none⟩
  rw [Call.Contract]
  cases hcourse : call.course ICAP with
  | states =>
    have hsupported : call.course ICAP ≠ .unsupported := by simp [hcourse]
    refine ⟨fun next p h => ⟨states_succeeds hcourse h, ?_⟩, fun hno r h =>
      states_fails hcourse hno h⟩
    exact (performs h.performed).executed hsupported h.ok
  | buffers =>
    have hsupported : call.course ICAP ≠ .unsupported := by simp [hcourse]
    obtain ⟨mode, hsend⟩ := sendCommand_buffers (s := s) hcourse
    dsimp only
    rw [hsend]
    split
    · next hvalue => exact if_pos hvalue
    · next hvalue =>
      constructor
      · intro next p h
        exact ⟨supply_succeeds hvalue h, (performs h.performed).executed hsupported h.ok⟩
      · intro next hallowed hno
        obtain ⟨p, hp, hfailed, hsupply⟩ := supply_fails hcourse hvalue hallowed hno
        exact ⟨_, hsupply, hfailed, control_rolledBack hcourse hp⟩
  | direct => exact sendCommand_direct hcourse
  | unsupported => exact ⟨NO_ERROR, sendCommand_unsupported hcourse⟩

/-- The contract without exceptions, of one reply. -/
def Reply.Atomic (s : Adapter) (call : Call) (r : Reply) : Prop :=
  if r.ret = NO_ERROR then
    s.mAdapterState.next call.operation = some r.adapter.mAdapterState ∧ r.executed ≠ none
  else
    (s.mAdapterState.next call.operation = none → r.executed = none) ∧
    r.adapter.control = s.control ∧
    r.adapter.mPreviewBuffersAvailable = s.mPreviewBuffersAvailable ∧
    r.adapter.mCaptureBuffersAvailable = s.mCaptureBuffersAvailable ∧
    r.adapter.mVideoBuffersAvailable = s.mVideoBuffersAvailable

/-- Face detection starts in a state that does not allow the command. -/
theorem face_detection_in_any_state :
    ∃ r, (Adapter.construct .INTIALIZED_STATE 0 0).sendCommand false
        ⟨.CAMERA_START_FD, 0, ⟨fun _ => 0, 0, 0⟩, NO_ERROR⟩ = some r ∧
      ¬ r.Atomic (Adapter.construct .INTIALIZED_STATE 0 0)
        ⟨.CAMERA_START_FD, 0, ⟨fun _ => 0, 0, 0⟩, NO_ERROR⟩ :=
  ⟨_, rfl, fun h => by
    rw [Reply.Atomic, if_pos rfl] at h
    exact nomatch h.1⟩

end OmapHal.Camera
