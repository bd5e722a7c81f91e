import OmapHal.Camera.VideoTables

/-!
# Sessions of the notifier

A notifier with the frames that it took and gave back, the frames that the recorder has, and the
buffers of the recording. Functions run one after the other; where one waits for ever or ends the
process, the session has no next state.
-/

namespace OmapHal.Camera

open Option List

open OmapHal.Core (KeyedVector AlongSome)

structure NotifierSession where
  notifier : AppCallbackNotifier
  /-- by buffer and type -/
  accepted : List (Address × FrameType)
  returned : List (Address × FrameType)
  /-- the data of the memory and the buffer of each frame that was not released yet -/
  recorder : List (Address × Address)
  bufArr : List Address
  vBufArr : List Address
  deriving DecidableEq, Repr

inductive NotifierEvent where
  | frameCallback (caFrame : Option CameraFrame)
  | notifyFrame (replies : NotifierReplies)
  | EncoderDoneCb (replies : NotifierReplies) (encoder : Encoder)
  /-- what the memory holds at an address, and what is released -/
  | releaseRecordingFrame (word : Address → Address) (recorded : Address × Address)
  | start
  | stop (replies : NotifierReplies)
  | flushAndReturnFrames
  | useMetaDataBufferMode (enable : Bool)
  /-- the calls of `CameraHal::startRecording` -/
  | halStartRecording (useVideoBuffers : Bool) (mRequestMemory : Nat → Option Address)
    (bufArr vBufArr : List Address)
  | startRecording
  | stopRecording

/-- The functions that set a recording up, start it or stop it. -/
def NotifierEvent.sets : NotifierEvent → Bool
  | .useMetaDataBufferMode _ | .halStartRecording .. | .startRecording | .stopRecording => true
  | _ => false

namespace NotifierSession

def construct (notifier : AppCallbackNotifier) : NotifierSession := ⟨notifier, [], [], [], [], []⟩

/-- A function with calls out of the notifier is done. -/
def done (s : NotifierSession) (calls : List CallOut) (n : AppCallbackNotifier) : NotifierSession :=
  { s with notifier := n, returned := returnedOf calls ++ s.returned }

/-- The recorder has got the data of memory for the first frame of the queue. -/
def record (s : NotifierSession) (calls : List CallOut) : List (Address × Address) :=
  match s.notifier.mFrameQ with
  | [] => s.recorder
  | frame :: _ => (recordedOf calls).map (fun data => (data, frame.mBuffer)) ++ s.recorder

/-- `notifyFrame` is done. -/
def notified (s : NotifierSession) (calls : List CallOut) (n : AppCallbackNotifier) :
    NotifierSession :=
  { s with notifier := n, returned := returnedOf calls ++ s.returned, recorder := s.record calls }

def step (build : Build) (s : NotifierSession) : NotifierEvent → Option NotifierSession
  | .frameCallback caFrame =>
    some { s with
      notifier := s.notifier.frameCallback caFrame
      accepted := caFrame.toList.map CameraFrame.key ++ s.accepted }
  | .notifyFrame replies => do
    let (calls, n) ← s.notifier.notifyFrame build replies
    some (s.notified calls n)
  | .EncoderDoneCb replies encoder => do
    let (calls, n) ← s.notifier.EncoderDoneCb replies encoder
    some (s.done calls n)
  | .releaseRecordingFrame word recorded => do
    let (_, calls) ← s.notifier.releaseRecordingFrame word recorded.1
    some { s with
      returned := returnedOf calls ++ s.returned
      recorder := s.recorder.erase recorded }
  | .start => some { s with notifier := s.notifier.start.2 }
  | .stop replies => do
    let (_, calls, n) ← s.notifier.stop replies
    some (s.done calls n)
  | .flushAndReturnFrames => do
    let (calls, n) ← s.notifier.flushAndReturnFrames
    some (s.done calls n)
  | .useMetaDataBufferMode enable =>
    some { s with notifier := { s.notifier with mUseMetaDataBufferMode := enable } }
  | .halStartRecording useVideoBuffers mRequestMemory bufArr vBufArr => do
    let n := { s.notifier with mUseVideoBuffers := useVideoBuffers }
    let (ret, n) ← n.initSharedVideoBuffers mRequestMemory bufArr bufArr.length vBufArr
    if ret ≠ NO_ERROR then some { s with notifier := n }
    else
      let (_, n) ← n.startRecording
      some { s with notifier := n, bufArr, vBufArr }
  | .startRecording => do
    let (_, n) ← s.notifier.startRecording
    some { s with notifier := n }
  | .stopRecording => do
    let (_, n) ← s.notifier.stopRecording
    some { s with notifier := n, bufArr := [], vBufArr := [] }

/-- What the callers of the functions promise. The recorder releases what it has, and has released
everything before the recording is stopped; the buffers of the preview differ, and those of
`getVirtualAddress` ascend. -/
def Possible (s : NotifierSession) : NotifierEvent → Prop
  | .EncoderDoneCb _ encoder => encoder ∈ s.notifier.encoders
  | .releaseRecordingFrame _ recorded => recorded ∈ s.recorder
  | .useMetaDataBufferMode _ => s.notifier.mRecording = false
  | .halStartRecording _ mRequestMemory bufArr vBufArr =>
    s.notifier.mRecording = false ∧ bufArr.Nodup ∧ vBufArr.Pairwise (· < ·) ∧
      bufArr.length = vBufArr.length ∧ (s.notifier.mUseMetaDataBufferMode = false →
        bufArr.length = MAX_CAMERA_BUFFERS) ∧
      Fresh mRequestMemory s.notifier.mVideoMetadataBufferReverseMap.keys
  | .stopRecording => s.notifier.mRecording = true → s.recorder = []
  | _ => True

/-! ### What every step keeps -/

/-- The metadata that the recorder has lead back to their buffers, and between recordings it has
none. -/
structure Inv (s : NotifierSession) : Prop where
  paired : s.notifier.Paired
  held : s.notifier.mUseMetaDataBufferMode = true → ∀ r ∈ s.recorder,
    s.notifier.mVideoMetadataBufferReverseMap.valueFor r.1 = some r.2 ∧ r.1 ≠ 0
  idle : s.notifier.mRecording = false → s.recorder = []

variable {build : Build} {s t : NotifierSession} {replies : NotifierReplies}

/-- Where the recording stays as it is and the recorder gets nothing. -/
theorem Inv.congr (h : s.Inv)
    (hrecording : t.notifier.toRecordingState = s.notifier.toRecordingState)
    (hrecorder : t.recorder = s.recorder) : t.Inv := by
  constructor
  · rw [hrecording]
    exact h.paired
  · rw [hrecording, hrecorder]
    exact h.held
  · rw [hrecording, hrecorder]
    exact h.idle

theorem construct_inv {n : AppCallbackNotifier} (h : n.Paired) : (construct n).Inv :=
  ⟨h, fun _ r hr => (by cases hr), fun _ => rfl⟩

/-- The recorder gets frames of the buffers of the recording. -/
theorem Inv.notifyFrame (h : s.Inv) (ht : s.step build (.notifyFrame replies) = some t) :
    t.Inv := by
  obtain ⟨⟨calls, n⟩, hn, ht⟩ := bind_eq_some_iff.mp ht
  obtain rfl := some.inj ht
  obtain ⟨hrecording, hnone | ⟨frame, rest, data, handle, hqueue, rfl, hrec, hrecorded⟩⟩ :=
    AppCallbackNotifier.notifyFrame_recording h.paired.data hn
  · refine h.congr hrecording ?_
    change s.record calls = _
    rw [record, hnone]
    split <;> rfl
  · have hrecorder : s.record [.mDataCbTimestamp data handle] =
        (data, frame.mBuffer) :: s.recorder := by
      rw [record, hqueue]
      rfl
    constructor
    · change n.toRecordingState.Paired
      rw [hrecording]
      exact h.paired
    · intro hmeta r hr
      change n.mUseMetaDataBufferMode = true at hmeta
      change r ∈ s.record _ at hr
      change n.mVideoMetadataBufferReverseMap.valueFor r.1 = _ ∧ _
      rw [hrecording] at hmeta ⊢
      rw [hrecorder] at hr
      rcases mem_cons.mp hr with rfl | hr
      · rw [AppCallbackNotifier.Recorded, if_pos hmeta] at hrecorded
        exact ⟨h.paired.reverse _ _ hrecorded.1, h.paired.data _ _ hrecorded.1⟩
      · exact h.held hmeta r hr
    · intro hidle
      change n.mRecording = false at hidle
      rw [hrecording, hrec] at hidle
      cases hidle

section Start

variable {useVideoBuffers : Bool} {mRequestMemory : Nat → Option Address}
  {bufArr vBufArr : List Address}

/-- The buffers are set up, and the recording starts if there is memory for it. -/
theorem step_halStartRecording (build : Build) (h : s.Inv)
    (hpossible : s.Possible (.halStartRecording useVideoBuffers mRequestMemory bufArr vBufArr)) :
    ∃ ret rs, { s.notifier with mUseVideoBuffers := useVideoBuffers }.toRecordingState.Filled bufArr
        vBufArr ret rs ∧
      s.step build (.halStartRecording useVideoBuffers mRequestMemory bufArr vBufArr) =
        if ret ≠ NO_ERROR then some { s with notifier := s.notifier.withRecordingState rs }
        else (s.notifier.withRecordingState rs).startRecording.map
          fun result : status_t × AppCallbackNotifier =>
            { s with notifier := result.2, bufArr, vBufArr } := by
  obtain ⟨-, hbuf, hasc, hlen, hplain, hfresh⟩ := hpossible
  obtain ⟨ret, rs, heq, hfilled⟩ := AppCallbackNotifier.initSharedVideoBuffers_filled
    (s := { s.notifier with mUseVideoBuffers := useVideoBuffers }) hbuf hasc hlen hplain hfresh
    ⟨h.paired.data, h.paired.reverse⟩
  refine ⟨ret, rs, hfilled, ?_⟩
  rw [step, heq]
  dsimp only [bind_eq_bind, bind_some]
  rw [map_eq_bind]
  rfl

theorem halStartRecording_cases (h : s.Inv)
    (hpossible : s.Possible (.halStartRecording useVideoBuffers mRequestMemory bufArr vBufArr))
    (ht : s.step build (.halStartRecording useVideoBuffers mRequestMemory bufArr vBufArr) =
    some t) :
    ∃ ret rs, { s.notifier with mUseVideoBuffers := useVideoBuffers }.toRecordingState.Filled bufArr
        vBufArr ret rs ∧
      (ret ≠ NO_ERROR ∧ t = { s with notifier := s.notifier.withRecordingState rs } ∨
        ret = NO_ERROR ∧ t = { s with
          notifier := s.notifier.withRecordingState { rs with mRecording := true }
          bufArr, vBufArr }) := by
  obtain ⟨ret, rs, hfilled, hstep⟩ := step_halStartRecording build h hpossible
  refine ⟨ret, rs, hfilled, ?_⟩
  rw [hstep] at ht
  split at ht
  · next hret => exact .inl ⟨hret, (some.inj ht).symm⟩
  · next hret =>
    obtain ⟨⟨ret', n⟩, hn, rfl⟩ := map_eq_some_iff.mp ht
    obtain ⟨ret'', heq⟩ := AppCallbackNotifier.startRecording_eq
      (AppCallbackNotifier.free_of_autolockRecording hn)
    obtain ⟨-, rfl⟩ := Prod.mk.inj (some.inj (heq.symm.trans hn))
    exact .inr ⟨not_not.mp hret, rfl⟩

/-- Where the lock is free the functions come to their end. -/
theorem halStartRecording_ne_none (build : Build) (h : s.Inv)
    (hlock : s.notifier.mRecordingLock = false)
    (hpossible : s.Possible (.halStartRecording useVideoBuffers mRequestMemory bufArr vBufArr)) :
    s.step build (.halStartRecording useVideoBuffers mRequestMemory bufArr vBufArr) ≠ none := by
  obtain ⟨ret, rs, -, hstep⟩ := step_halStartRecording build h hpossible
  obtain ⟨ret', heq⟩ := AppCallbackNotifier.startRecording_eq
    (s := s.notifier.withRecordingState rs) hlock
  rw [hstep, heq]
  split <;> exact some_ne_none _

end Start

/-- The other functions leave the recording as it is. -/
theorem step_keeps {event : NotifierEvent} (h : s.Inv) (ht : s.step build event = some t)
    (hsets : event.sets = false) :
    t.notifier.toRecordingState = s.notifier.toRecordingState ∧ t.bufArr = s.bufArr ∧
      t.vBufArr = s.vBufArr := by
  cases event with
  | frameCallback caFrame =>
    obtain rfl := some.inj ht
    cases caFrame <;> exact ⟨rfl, rfl, rfl⟩
  | notifyFrame replies =>
    obtain ⟨⟨calls, n⟩, hn, ht⟩ := bind_eq_some_iff.mp ht
    obtain rfl := some.inj ht
    exact ⟨(AppCallbackNotifier.notifyFrame_recording h.paired.data hn).1, rfl, rfl⟩
  | EncoderDoneCb replies encoder =>
    obtain ⟨⟨calls, n⟩, hn, ht⟩ := bind_eq_some_iff.mp ht
    obtain rfl := some.inj ht
    exact ⟨AppCallbackNotifier.EncoderDoneCb_recording hn, rfl, rfl⟩
  | releaseRecordingFrame word recorded =>
    obtain ⟨⟨ret, calls⟩, -, ht⟩ := bind_eq_some_iff.mp ht
    obtain rfl := some.inj ht
    exact ⟨rfl, rfl, rfl⟩
  | start =>
    obtain rfl := some.inj ht
    refine ⟨?_, rfl, rfl⟩
    change s.notifier.start.2.toRecordingState = _
    rw [AppCallbackNotifier.start]
    split <;> rfl
  | stop replies =>
    obtain ⟨⟨ret, calls, n⟩, hn, ht⟩ := bind_eq_some_iff.mp ht
    obtain rfl := some.inj ht
    exact ⟨AppCallbackNotifier.stop_recording hn, rfl, rfl⟩
  | flushAndReturnFrames =>
    obtain ⟨⟨calls, n⟩, hn, ht⟩ := bind_eq_some_iff.mp ht
    obtain rfl := some.inj ht
    have hlock := AppCallbackNotifier.free_of_autolock hn
    rw [AppCallbackNotifier.flushAndReturnFrames_eq hlock] at hn
    obtain ⟨-, rfl⟩ := Prod.mk.inj (some.inj hn)
    exact ⟨rfl, rfl, rfl⟩
  | useMetaDataBufferMode _ => cases hsets
  | halStartRecording _ _ _ _ => cases hsets
  | startRecording => cases hsets
  | stopRecording => cases hsets

theorem step_startRecording (ht : s.step build .startRecording = some t) :
    t = { s with notifier := { s.notifier with mRecording := true } } := by
  obtain ⟨⟨ret, n⟩, hn, ht⟩ := bind_eq_some_iff.mp ht
  obtain rfl := some.inj ht
  obtain ⟨ret', heq⟩ := AppCallbackNotifier.startRecording_eq
    (AppCallbackNotifier.free_of_autolockRecording hn)
  obtain ⟨-, rfl⟩ := Prod.mk.inj (some.inj (heq.symm.trans hn))
  rfl

theorem step_stopRecording (ht : s.step build .stopRecording = some t) :
    t = { s with
      notifier := if s.notifier.mRecording then
          s.notifier.withRecordingState { s.notifier.releaseSharedVideoBuffers with
            mRecording := false }
        else s.notifier
      bufArr := []
      vBufArr := [] } := by
  obtain ⟨⟨ret, n⟩, hn, ht⟩ := bind_eq_some_iff.mp ht
  obtain rfl := some.inj ht
  obtain ⟨ret', heq⟩ := AppCallbackNotifier.stopRecording_eq
    (AppCallbackNotifier.free_of_autolockRecording hn)
  obtain ⟨-, rfl⟩ := Prod.mk.inj (some.inj (heq.symm.trans hn))
  rfl

theorem Inv.step {event : NotifierEvent} (h : s.Inv) (hpossible : s.Possible event)
    (ht : s.step build event = some t) : t.Inv := by
  cases hsets : event.sets with
  | false =>
    obtain ⟨hrecording, -, -⟩ := step_keeps h ht hsets
    cases event with
    | notifyFrame replies => exact h.notifyFrame ht
    | releaseRecordingFrame word recorded =>
      obtain ⟨⟨ret, calls⟩, -, ht⟩ := bind_eq_some_iff.mp ht
      obtain rfl := some.inj ht
      refine ⟨h.paired, fun hmeta r hr => h.held hmeta r (mem_of_mem_erase hr),
        fun hidle => ?_⟩
      change s.recorder.erase recorded = []
      rw [h.idle hidle, erase_nil]
    | frameCallback _ | start =>
      obtain rfl := some.inj ht
      exact h.congr hrecording rfl
    | EncoderDoneCb _ _ | stop _ | flushAndReturnFrames =>
      obtain ⟨_, -, ht⟩ := bind_eq_some_iff.mp ht
      obtain rfl := some.inj ht
      exact h.congr hrecording rfl
    | useMetaDataBufferMode _ | halStartRecording _ _ _ _ | startRecording | stopRecording =>
      cases hsets
  | true =>
    cases event with
    | useMetaDataBufferMode enable =>
      obtain rfl := some.inj ht
      have hidle := h.idle hpossible
      refine ⟨⟨h.paired.data, h.paired.reverse⟩, fun _ r hr => ?_, fun _ => hidle⟩
      change r ∈ s.recorder at hr
      rw [hidle] at hr
      cases hr
    | halStartRecording useVideoBuffers mRequestMemory bufArr vBufArr =>
      obtain ⟨ret, rs, hfilled, ht⟩ := halStartRecording_cases h hpossible ht
      have hidle := h.idle hpossible.1
      have hnone : t.recorder = [] := by
        rcases ht with ⟨-, rfl⟩ | ⟨-, rfl⟩ <;> exact hidle
      have hpaired : t.notifier.Paired := by
        rcases ht with ⟨-, rfl⟩ | ⟨-, rfl⟩
        · exact hfilled.paired
        · exact ⟨hfilled.paired.data, hfilled.paired.reverse⟩
      refine ⟨hpaired, fun _ r hr => ?_, fun _ => hnone⟩
      rw [hnone] at hr
      cases hr
    | startRecording =>
      obtain rfl := step_startRecording ht
      exact ⟨⟨h.paired.data, h.paired.reverse⟩, h.held, fun hidle => by cases hidle⟩
    | stopRecording =>
      obtain rfl := step_stopRecording ht
      by_cases hrec : s.notifier.mRecording = true
      · rw [if_pos hrec]
        have hidle := hpossible hrec
        refine ⟨?_, fun _ r hr => ?_, fun _ => hidle⟩
        · have hpaired := h.paired.releaseSharedVideoBuffers
          exact ⟨hpaired.data, hpaired.reverse⟩
        · change r ∈ s.recorder at hr
          rw [hidle] at hr
          cases hr
      · rw [if_neg hrec]
        exact ⟨h.paired, h.held, h.idle⟩
    | frameCallback _ | notifyFrame _ | EncoderDoneCb _ _ | releaseRecordingFrame _ _ | start
    | stop _ | flushAndReturnFrames => cases hsets

end NotifierSession

/-! ### A session with one buffer -/

/-- A notifier that runs, with callbacks of the application, for metadata. -/
def sampleNotifier : AppCallbackNotifier where
  mRecording := false
  mUseMetaDataBufferMode := true
  mUseVideoBuffers := false
  mVideoMetadataBufferMemoryMap := .empty
  mVideoMetadataBufferReverseMap := .empty
  mVideoMap := .empty
  mPreviewBufIndex := .empty
  mVirtualBuffer := .empty
  mLock := false
  mRecordingLock := false
  mCameraHal := true
  mNotifyCb := true
  mDataCb := true
  mNotifierState := .NOTIFIER_STARTED
  mFrameQ := []
  gEncoderQueue := .empty
  mRawAvailable := false
  mMeasurementEnabled := false
  mBurst := false
  mPreviewMemory := true
  mPreviewBufs := [1000]
  mPreviewBufCount := 0
  encoders := []

/-- All messages are enabled, and memory is there. -/
def sampleReplies : NotifierReplies := ⟨fun _ => true, some 500, some 501, true, false, some 502⟩

/-- A frame of a buffer for the recorder. -/
def sampleFrame (mBuffer : Address) : CameraFrame :=
  ⟨.VIDEO_FRAME_SYNC, .VIDEO_FRAME_SYNC, mBuffer, false⟩

/-- The notifier while it records two buffers. -/
def sampleRecording (useVideoBuffers : Bool) : NotifierSession :=
  { NotifierSession.construct { sampleNotifier with
      mRecording := true
      mUseVideoBuffers := useVideoBuffers
      mVideoMetadataBufferMemoryMap := ⟨[(10, 300), (20, 301)], by decide⟩
      mVideoMetadataBufferReverseMap := ⟨[(300, 10), (301, 20)], by decide⟩
      mVideoMap := ⟨[(10, 100), (20, 200)], by decide⟩
      mPreviewBufIndex := ⟨[(10, 0), (20, 1)], by decide⟩
      mVirtualBuffer := ⟨[(100, 0), (200, 1)], by decide⟩ } with
    bufArr := [10, 20]
    vBufArr := [100, 200] }

theorem sampleRecording_eq (useVideoBuffers : Bool) :
    NotifierSession.step ⟨true, false⟩ (.construct sampleNotifier)
      (.halStartRecording useVideoBuffers (fun i => some (300 + i)) [10, 20] [100, 200]) =
        some (sampleRecording useVideoBuffers) :=
  rfl

theorem sampleRecording_possible (useVideoBuffers : Bool) :
    (NotifierSession.construct sampleNotifier).Possible
      (.halStartRecording useVideoBuffers (fun i => some (300 + i)) [10, 20] [100, 200]) := by
  refine ⟨rfl, by simp, by simp, rfl, nofun, fun i _ => not_mem_nil, ?_⟩
  exact fun i j _ h => Int.ofNat.inj (Int.add_left_cancel h)

end OmapHal.Camera
