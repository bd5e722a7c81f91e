import OmapHal.Camera.Contract

/-!
# The recording flag and the state of the adapter

Between commands the two states are the same, and `mRecording` says whether the state is one of
recording. The constructor leaves `mNextState` open, and the first command decides whether this is
ever seen.
-/

namespace OmapHal.Camera

open Option List

open OmapHal.Core (KeyedVector)

def AdapterState.declared : AdapterState → Bool
  | .undeclared _ => false
  | _ => true

def AdapterState.isVideo : AdapterState → Bool
  | .VIDEO_STATE | .VIDEO_AF_STATE | .VIDEO_ZOOM_STATE | .VIDEO_LOADED_CAPTURE_STATE
  | .VIDEO_CAPTURE_STATE => true
  | _ => false

/-- What holds between commands. -/
structure Adapter.Agrees (s : Adapter) : Prop where
  settled : s.mNextState = s.mAdapterState
  declared : s.mAdapterState.declared
  recording : s.mRecording = s.mAdapterState.isVideo

/-- No frame is with an encoder. -/
def Adapter.Idle (s : Adapter) : Prop :=
  ∀ frameBuf refCount, s.mVideoBuffersAvailable.valueFor frameBuf = some refCount → refCount = 0

/-- What holds even where `mNextState` is open. -/
structure Adapter.Tracks (s : Adapter) : Prop where
  declared : s.mAdapterState.declared
  recording : s.mRecording = s.mAdapterState.isVideo
  idle : s.Idle

/-- One command. -/
def Adapter.step (ICAP : Bool) (s : Adapter) (call : Call) : Option Adapter :=
  (s.sendCommand ICAP call).map Reply.adapter

/-! ### The table of states -/

/-- What `setState` designates is declared, and recording starts and ends by its commands only. -/
theorem next_tracks {state next : AdapterState} {operation : CameraCommands}
    (h : state.next operation = some next) :
    next.declared ∧
      (operation = .CAMERA_START_VIDEO → next.isVideo) ∧
      (operation = .CAMERA_STOP_VIDEO → next.isVideo = false) ∧
      (operation ≠ .CAMERA_START_VIDEO → operation ≠ .CAMERA_STOP_VIDEO →
        next.isVideo = state.isVideo) := by
  cases state <;> cases operation <;> cases h <;> simp [AdapterState.isVideo, AdapterState.declared]

/-! ### Video buffers without frames -/

variable {ICAP : Bool} {s t : Adapter} {call : Call} {p r : Reply}

theorem startVideoCapture_idle (h : s.Idle) : s.startVideoCapture.2.Idle := by
  rw [Adapter.startVideoCapture]
  split
  · exact h
  · refine Core.foldl_invariant (P := fun v : KeyedVector Address Int => ∀ frameBuf refCount,
      v.valueFor frameBuf = some refCount → refCount = 0) h
      fun v key hv frameBuf refCount hcount => ?_
    rw [KeyedVector.valueFor_add] at hcount
    split at hcount
    · exact (some.inj hcount).symm
    · exact hv frameBuf refCount hcount

/-- Where no frame is with an encoder, no buffer is returned at the end of a recording. -/
theorem stopVideoCapture_idle (h : s.Idle) (hrec : s.mRecording) :
    s.stopVideoCapture =
      some (NO_ERROR, { s with mVideoBuffersAvailable := .empty, mRecording := false }) := by
  have hturn : ∀ frameBuf ∈ s.mVideoBuffersAvailable.keys, s.takeVideoFrame frameBuf = some s := by
    intro frameBuf hkey
    obtain ⟨refCount, hcount⟩ := ne_none_iff_exists'.mp (KeyedVector.mem_keys.mp hkey)
    have hzero : refCount = 0 := h frameBuf refCount hcount
    rw [Adapter.takeVideoFrame, Adapter.getFrameRefCount, hcount, hzero]
    rfl
  have hloop : ∀ keys : List Address, (∀ frameBuf ∈ keys, s.takeVideoFrame frameBuf = some s) →
      keys.foldlM Adapter.takeVideoFrame s = some s := by
    intro keys hkeys
    induction keys with
    | nil => rfl
    | cons frameBuf keys ih =>
      rw [foldlM_cons, hkeys frameBuf mem_cons_self]
      exact ih fun frameBuf' h' => hkeys frameBuf' (mem_cons_of_mem frameBuf h')
  rw [Adapter.stopVideoCapture, hrec, hloop _ hturn]
  rfl

theorem Performs.idle (h : Performs call s p) (hidle : s.Idle) : p.adapter.Idle := by
  cases h with
  | run | invalid | unsupported => exact hidle
  | supplied operation t hbuffers hcontrol hvideo =>
    intro frameBuf refCount hcount
    rw [hvideo] at hcount
    exact hidle frameBuf refCount hcount
  | startVideo hstart => exact startVideoCapture_idle hidle
  | stopVideo hstop ret t hrun =>
    cases hrec : s.mRecording with
    | false =>
      rw [Adapter.stopVideoCapture, hrec] at hrun
      obtain ⟨-, rfl⟩ := Prod.mk.inj (some.inj hrun)
      exact hidle
    | true =>
      rw [stopVideoCapture_idle hidle hrec] at hrun
      obtain ⟨-, rfl⟩ := Prod.mk.inj (some.inj hrun)
      intro frameBuf refCount hcount
      cases hcount

/-- Starting and stopping set the flag if they succeed. -/
theorem Performs.flag (h : Performs call s p) (hret : p.ret = NO_ERROR) :
    (call.operation = .CAMERA_START_VIDEO → p.adapter.mRecording) ∧
      (call.operation = .CAMERA_STOP_VIDEO → p.adapter.mRecording = false) := by
  cases h with
  | run operation hstart hstop | invalid hstart hstop =>
    exact ⟨fun h => absurd h hstart, fun h => absurd h hstop⟩
  | supplied operation t hbuffers =>
    obtain ⟨hstart, hstop⟩ := operation_of_buffers (hbuffers false)
    exact ⟨fun h => absurd h hstart, fun h => absurd h hstop⟩
  | unsupported h =>
    have hcourse := h false
    constructor <;>
    · intro hop
      rw [Call.course, hop] at hcourse
      cases hcourse
  | startVideo h =>
    refine ⟨fun _ => ?_, fun hstop => absurd (h.symm.trans hstop) (by decide)⟩
    rw [Adapter.startVideoCapture] at hret ⊢
    split
    · next hrec => exact hrec
    · rfl
  | stopVideo h ret t hrun =>
    refine ⟨fun hstart => absurd (h.symm.trans hstart) (by decide), fun _ => ?_⟩
    rcases stopVideoCapture_cases hrun with ⟨hrec, -, rfl⟩ | ⟨-, -, u, -, -, rfl⟩
    · exact hrec
    · rfl

/-! ### One command -/

/-- The adapter after a command, by what became of the command. -/
inductive Leaves (ICAP : Bool) (s : Adapter) (call : Call) : Adapter → Prop where
  | unchanged (h : call.course ICAP ≠ .states)
      (hvalue : call.course ICAP = .buffers → call.value1 = 0) : Leaves ICAP s call s
  | committed (next : AdapterState) (p : Reply) (h : call.Succeeds s next p)
      (hcourse : call.course ICAP = .states ∨ call.course ICAP = .buffers ∧ call.value1 ≠ 0) :
      Leaves ICAP s call (p.committed next).adapter
  | rolledBack (t : Adapter) (hcontrol : t.control = s.rolledBack.control)
      (hidle : s.Idle → t.Idle)
      (hcourse : call.course ICAP = .states ∨
        call.course ICAP = .buffers ∧ call.value1 ≠ 0 ∧
          (s.mAdapterState.next call.operation = none → call.outcome ≠ NO_ERROR)) :
      Leaves ICAP s call t
  | unasked (hcourse : call.course ICAP = .buffers) (hvalue : call.value1 ≠ 0)
      (hforbidden : s.mAdapterState.next call.operation = none) (hok : call.outcome = NO_ERROR) :
      Leaves ICAP s call s.commitState.2

theorem leaves (h : s.step ICAP call = some t) : Leaves ICAP s call t := by
  obtain ⟨r, hr, rfl⟩ := map_eq_some_iff.mp h
  cases hcourse : call.course ICAP with
  | direct =>
    obtain ⟨operation, hsend⟩ := sendCommand_direct (s := s) hcourse
    obtain rfl := some.inj (hsend.symm.trans hr)
    exact .unchanged (by simp [hcourse]) (by simp [hcourse])
  | unsupported =>
    obtain rfl := some.inj ((sendCommand_unsupported hcourse).symm.trans hr)
    exact .unchanged (by simp [hcourse]) (by simp [hcourse])
  | states =>
    by_cases hsucc : ∃ next p, call.Succeeds s next p
    · obtain ⟨next, p, hp⟩ := hsucc
      obtain rfl := some.inj ((states_succeeds hcourse hp).symm.trans hr)
      exact .committed next p hp (.inl hcourse)
    · have hno : ∀ next p, ¬ call.Succeeds s next p := fun next p hp => hsucc ⟨next, p, hp⟩
      rw [(states_fails hcourse hno hr).1]
      exact .rolledBack s.rolledBack rfl id (.inl hcourse)
  | buffers =>
    obtain ⟨mode, hsend⟩ := sendCommand_buffers (s := s) hcourse
    by_cases hvalue : call.value1 = 0
    · rw [hsend, Call.supply, if_pos hvalue] at hr
      obtain rfl := some.inj hr
      exact .unchanged (by simp [hcourse]) fun _ => hvalue
    · cases hallowed : s.mAdapterState.next call.operation with
      | none =>
        rw [hsend, Call.supply, if_neg hvalue, Adapter.setState, hallowed] at hr
        rw [if_neg INVALID_OPERATION_ne] at hr
        obtain rfl := some.inj hr
        by_cases hok : call.outcome = NO_ERROR
        · rw [Reply.settle, if_pos hok]
          exact .unasked hcourse hvalue hallowed hok
        · rw [settle_failed hok]
          exact .rolledBack s.rolledBack rfl id (.inr ⟨hcourse, hvalue, fun _ => hok⟩)
      | some next =>
        by_cases hsucc : ∃ p, call.Succeeds s next p
        · obtain ⟨p, hp⟩ := hsucc
          rw [hsend, supply_succeeds hvalue hp] at hr
          obtain rfl := some.inj hr
          exact .committed next p hp (.inr ⟨hcourse, hvalue⟩)
        · have hno : ∀ p, ¬ call.Succeeds s next p := fun p hp => hsucc ⟨p, hp⟩
          obtain ⟨p, hp, -, hsupply⟩ := supply_fails hcourse hvalue hallowed hno
          rw [hsend, hsupply] at hr
          obtain rfl := some.inj hr
          refine .rolledBack _ (control_rolledBack hcourse hp) (performs hp).idle
            (.inr ⟨hcourse, hvalue, ?_⟩)
          rw [hallowed]
          exact fun hnone => absurd hnone (some_ne_none next)

/-- The command ends with `commitState` or `rollbackState`, and `commitState` finds nothing in
`mNextState` that `setState` has not put there, or it finds a state that serves. -/
def Call.Settles (ICAP : Bool) (s : Adapter) (call : Call) : Prop :=
  s.mNextState = s.mAdapterState ∨ call.course ICAP = .states ∨
    call.course ICAP = .buffers ∧ call.value1 ≠ 0 ∧
      (s.mAdapterState.next call.operation = none → call.outcome = NO_ERROR →
        s.mNextState.declared ∧ s.mNextState.isVideo = s.mAdapterState.isVideo)

theorem Adapter.Tracks.agrees (h : t.Tracks) (hsettled : t.mNextState = t.mAdapterState) :
    t.Agrees := ⟨hsettled, h.declared, h.recording⟩

/-- A command that is carried out brings the flag and the state on together. -/
theorem committed_tracks {next : AdapterState} (h : s.Tracks) (hp : call.Succeeds s next p) :
    (p.committed next).adapter.Tracks := by
  obtain ⟨hdeclared, hvideo, hno, hsame⟩ := next_tracks hp.allowed
  have hrun := performs hp.performed
  refine ⟨hdeclared, ?_, hrun.idle h.idle⟩
  change p.adapter.mRecording = next.isVideo
  by_cases hstart : call.operation = .CAMERA_START_VIDEO
  · exact ((hrun.flag hp.ok).1 hstart).trans (hvideo hstart).symm
  · by_cases hstop : call.operation = .CAMERA_STOP_VIDEO
    · exact ((hrun.flag hp.ok).2 hstop).trans (hno hstop).symm
    · rw [(control_eq_iff.mp (hrun.control_eq hstart hstop)).2.2, hsame hstart hstop]
      exact h.recording

/-- Where no frame is with an encoder, every command comes back. -/
theorem step_some (ICAP : Bool) (h : s.Tracks) (call : Call) : ∃ t, s.step ICAP call = some t := by
  cases hsend : s.sendCommand ICAP call with
  | some r => exact ⟨r.adapter, by rw [Adapter.step, hsend, map_some]⟩
  | none =>
    obtain ⟨-, next, -, hnone⟩ := sendCommand_none hsend
    cases hrec : s.mRecording with
    | false =>
      rw [Adapter.stopVideoCapture] at hnone
      rw [hrec] at hnone
      cases hnone
    | true => cases hnone.symm.trans (stopVideoCapture_idle h.idle hrec)

/-- A command leaves flag and state in agreement exactly if it settles `mNextState`. -/
theorem step_agrees_iff (h : s.Tracks) (hstep : s.step ICAP call = some t) :
    t.Agrees ↔ call.Settles ICAP s := by
  cases leaves hstep with
  | unchanged hcourse hvalue =>
    constructor
    · exact fun hagrees => .inl hagrees.settled
    · rintro (hsettled | hstates | ⟨hbuffers, hne, -⟩)
      · exact h.agrees hsettled
      · exact absurd hstates hcourse
      · exact absurd (hvalue hbuffers) hne
  | committed next p hp hcourse =>
    refine iff_of_true ((committed_tracks h hp).agrees rfl) (.inr ?_)
    refine hcourse.imp_right fun hbuffers => ⟨hbuffers.1, hbuffers.2, fun hforbidden => ?_⟩
    exact nomatch hforbidden.symm.trans hp.allowed
  | rolledBack _ hcontrol hidle hcourse =>
    obtain ⟨hadapter, hnext, hrec⟩ := control_eq_iff.mp hcontrol
    refine iff_of_true ⟨hnext.trans hadapter.symm, ?_, ?_⟩ (.inr ?_)
    · rw [hadapter]
      exact h.declared
    · rw [hrec, hadapter]
      exact h.recording
    · refine hcourse.imp_right fun hbuffers => ⟨hbuffers.1, hbuffers.2.1, fun hforbidden hok => ?_⟩
      exact absurd hok (hbuffers.2.2 hforbidden)
  | unasked hcourse hvalue hforbidden hok =>
    constructor
    · intro hagrees
      refine .inr (.inr ⟨hcourse, hvalue, fun _ _ => ⟨hagrees.declared, ?_⟩⟩)
      exact hagrees.recording.symm.trans h.recording
    · rintro (hsettled | hstates | ⟨-, -, hserves⟩)
      · refine ⟨rfl, ?_, ?_⟩
        · change s.mNextState.declared
          rw [hsettled]
          exact h.declared
        · change s.mRecording = s.mNextState.isVideo
          rw [hsettled]
          exact h.recording
      · exact nomatch hstates.symm.trans hcourse
      · obtain ⟨hdeclared, hvideo⟩ := hserves hforbidden hok
        exact ⟨rfl, hdeclared, h.recording.trans hvideo.symm⟩

theorem step_idle (h : s.Idle) (hstep : s.step ICAP call = some t) : t.Idle := by
  cases leaves hstep with
  | unchanged | unasked => exact h
  | committed next p hp => exact (performs hp.performed).idle h
  | rolledBack _ _ hidle => exact hidle h

/-- Agreement, and no frame with an encoder, last from one command to the next. -/
theorem step_steady (h : s.Agrees ∧ s.Idle) (hstep : s.step ICAP call = some t) :
    t.Agrees ∧ t.Idle :=
  ⟨(step_agrees_iff ⟨h.1.declared, h.1.recording, h.2⟩ hstep).mpr (.inl h.1.settled),
    step_idle h.2 hstep⟩

/-- A run that starts in agreement stays in it. -/
theorem run_agrees (calls : List Call) (h : s.Agrees) (hidle : s.Idle) :
    ∃ t, calls.foldlM (Adapter.step ICAP) s = some t ∧ t.Agrees := by
  induction calls generalizing s with
  | nil => exact ⟨s, rfl, h⟩
  | cons call calls ih =>
    obtain ⟨t, ht⟩ := step_some ICAP ⟨h.declared, h.recording, hidle⟩ call
    obtain ⟨hagrees, htidle⟩ := step_steady ⟨h, hidle⟩ ht
    rw [foldlM_cons, ht]
    exact ih hagrees htidle

/-! ### Runs -/

theorem construct_tracks (mNextState : AdapterState)
    (mFramesWithDisplay mFramesWithEncoder : BitVec 32) :
    (Adapter.construct mNextState mFramesWithDisplay mFramesWithEncoder).Tracks :=
  ⟨rfl, rfl, nofun⟩

/-- After the constructor flag and state agree exactly if the memory happened to hold the first
state. They agree after every command of a run exactly if the first command settles
`mNextState`. -/
theorem recording_agrees (ICAP : Bool) (mNextState : AdapterState)
    (mFramesWithDisplay mFramesWithEncoder : BitVec 32) (calls : List Call) :
    ((Adapter.construct mNextState mFramesWithDisplay mFramesWithEncoder).Agrees ↔
      mNextState = .INTIALIZED_STATE) ∧
    ((∀ done, done <+: calls → done ≠ [] → ∃ t, done.foldlM (Adapter.step ICAP)
        (Adapter.construct mNextState mFramesWithDisplay mFramesWithEncoder) = some t ∧ t.Agrees) ↔
    ∀ call ∈ calls.head?, call.Settles ICAP
      (Adapter.construct mNextState mFramesWithDisplay mFramesWithEncoder)) := by
  have htracks := construct_tracks mNextState mFramesWithDisplay mFramesWithEncoder
  refine ⟨⟨fun h => h.settled, fun h => htracks.agrees h⟩, ?_⟩
  cases calls with
  | nil =>
    refine iff_of_true (fun done hdone hne => absurd (prefix_nil.mp hdone) hne) ?_
    exact fun call hcall => nomatch hcall
  | cons call calls =>
    obtain ⟨t, ht⟩ := step_some ICAP htracks call
    constructor
    · intro h first hfirst
      obtain rfl := some.inj hfirst
      have hfirst : [call] <+: call :: calls := cons_prefix_cons.mpr ⟨rfl, nil_prefix⟩
      obtain ⟨u, hu, hagrees⟩ := h [call] hfirst (cons_ne_nil call [])
      rw [foldlM_cons, ht] at hu
      obtain rfl : t = u := some.inj hu
      exact (step_agrees_iff htracks ht).mp hagrees
    · intro h done hdone hne
      cases done with
      | nil => exact absurd rfl hne
      | cons first done =>
        obtain ⟨rfl, -⟩ := cons_prefix_cons.mp hdone
        have hagrees := (step_agrees_iff htracks ht).mpr (h first rfl)
        rw [foldlM_cons, ht]
        exact run_agrees done hagrees (step_idle htracks.idle ht)

/-- Buffers for image capture, supplied before there is a preview: what the memory held becomes
the state of the adapter. -/
theorem undeclared_state_committed :
    ¬ ∀ t, [⟨.CAMERA_USE_BUFFERS_IMAGE_CAPTURE, 1, ⟨fun _ => 0, 1, 1⟩, NO_ERROR⟩].foldlM
      (Adapter.step false) (Adapter.construct (.undeclared 0) 0 0) = some t → t.Agrees :=
  fun h => nomatch (h _ rfl).declared

end OmapHal.Camera
