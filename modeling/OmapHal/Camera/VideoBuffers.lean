import OmapHal.Camera.NotifierSession

/-!
# The buffers that the recorder is told

The recorder is told the virtual buffer of each frame, and what it releases is the buffer of the
frame. Between recordings the tables are empty, where recordings use metadata with buffers of their
own.
-/

namespace OmapHal.Camera

open Option List

open OmapHal.Core (KeyedVector AlongSome)

/-- All the tables of a recording are empty. -/
structure RecordingState.Cleared (rs : RecordingState) : Prop where
  memory : rs.mVideoMetadataBufferMemoryMap = .empty
  reverse : rs.mVideoMetadataBufferReverseMap = .empty
  video : rs.mVideoMap = .empty
  index : rs.mPreviewBufIndex = .empty
  virtual : rs.mVirtualBuffer = .empty

theorem RecordingState.cleared_releaseSharedVideoBuffers {rs : RecordingState}
    (h : rs.mUseMetaDataBufferMode ∧ (rs.mUseVideoBuffers ∨ rs.mVideoMap = .empty) ∨
      rs.Cleared) : rs.releaseSharedVideoBuffers.Cleared := by
  rw [releaseSharedVideoBuffers]
  split
  · refine ⟨rfl, rfl, ?_, rfl, rfl⟩
    have hvideo : rs.mUseVideoBuffers ∨ rs.mVideoMap = .empty :=
      h.elim And.right fun hcleared => .inr hcleared.video
    split
    · rfl
    · next hshared => exact hvideo.resolve_left hshared
  · next hplain => exact h.resolve_left fun hmeta => hplain hmeta.1

namespace NotifierSession

variable {build : Build} {s t : NotifierSession} {event : NotifierEvent}

/-- The recorder is told the virtual buffer of a frame, what it releases comes back as the buffer of
the frame, and a recording that stops leaves nothing in the tables. -/
def RecordsRight (build : Build) (s : NotifierSession) : NotifierEvent → Prop
  | .notifyFrame replies => ∀ (calls : List CallOut) (n : AppCallbackNotifier) (frame : CameraFrame)
      (data : Address) (handle : Option Address),
    s.notifier.notifyFrame build replies = some (calls, n) →
      s.notifier.mFrameQ.head? = some frame → .mDataCbTimestamp data handle ∈ calls →
        ∀ i : Nat, s.bufArr[i]? = some frame.mBuffer → s.vBufArr[i]? = some (handle.getD data)
  | .releaseRecordingFrame word recorded =>
    s.notifier.releaseRecordingFrame word recorded.1 =
      some (NO_ERROR, [.returnFrame recorded.2 .VIDEO_FRAME_SYNC])
  | .stopRecording => ∀ ret n, s.notifier.stopRecording = some (ret, n) → n.Cleared
  | _ => True

/-- What a step must find for the recorder to be told right. -/
def Separate (s : NotifierSession) : NotifierEvent → Prop
  | .halStartRecording useVideoBuffers _ _ vBufArr =>
    s.notifier.mUseMetaDataBufferMode = true ∧ useVideoBuffers = true ∨
      RecordingState.Above s.notifier.mVirtualBuffer.keys vBufArr
  | .releaseRecordingFrame word recorded =>
    s.notifier.mUseMetaDataBufferMode = true ∨ recorded.1 ≠ 0 ∧ word recorded.1 = recorded.2
  | .stopRecording =>
    s.notifier.mRecording = true ∧ s.notifier.mUseMetaDataBufferMode = true ∧
      (s.notifier.mUseVideoBuffers = true ∨ s.notifier.mVideoMap = .empty) ∨ s.notifier.Cleared
  | _ => True

/-- Each buffer of the recording is told as its virtual buffer. -/
structure Named (s : NotifierSession) : Prop where
  length : s.bufArr.length = s.vBufArr.length
  named : ∀ i < s.vBufArr.length,
    s.notifier.named (s.bufArr.getD i 0) = some (s.vBufArr.getD i 0)
  idle : s.notifier.mRecording = false → s.vBufArr = []

theorem named_of_nil (hbuf : s.bufArr = []) (hvbuf : s.vBufArr = []) : s.Named := by
  refine ⟨by rw [hbuf, hvbuf], fun i hi => ?_, fun _ => hvbuf⟩
  rw [hvbuf] at hi
  cases hi

theorem Named.congr (h : s.Named) (hrs : t.notifier.toRecordingState = s.notifier.toRecordingState)
    (hbuf : t.bufArr = s.bufArr) (hvbuf : t.vBufArr = s.vBufArr) : t.Named := by
  constructor
  · rw [hbuf, hvbuf]
    exact h.length
  · rw [hbuf, hvbuf, hrs]
    exact h.named
  · rw [hvbuf, hrs]
    exact h.idle

theorem Named.nil (h : s.Named) (hidle : s.notifier.mRecording = false) :
    s.bufArr = [] ∧ s.vBufArr = [] := by
  have hvbuf := h.idle hidle
  refine ⟨eq_nil_of_length_eq_zero ?_, hvbuf⟩
  rw [h.length, hvbuf, length_nil]

theorem Named.step (h : s.Named) (hinv : s.Inv) (hpossible : s.Possible event)
    (hseparate : s.Separate event) (ht : s.step build event = some t) : t.Named := by
  cases hsets : event.sets with
  | false =>
    obtain ⟨hrs, hbuf, hvbuf⟩ := step_keeps hinv ht hsets
    exact h.congr hrs hbuf hvbuf
  | true =>
    cases event with
    | useMetaDataBufferMode enable =>
      obtain rfl := some.inj ht
      obtain ⟨hbuf, hvbuf⟩ := h.nil hpossible
      exact named_of_nil hbuf hvbuf
    | halStartRecording useVideoBuffers mRequestMemory bufArr vBufArr =>
      obtain ⟨ret, rs, hfilled, ⟨-, rfl⟩ | ⟨hret, rfl⟩⟩ := halStartRecording_cases hinv hpossible ht
      · obtain ⟨hbuf, hvbuf⟩ := h.nil hpossible.1
        exact named_of_nil hbuf hvbuf
      · obtain ⟨-, -, -, hlen, -, -⟩ := hpossible
        exact ⟨hlen, hfilled.named hret hseparate, nofun⟩
    | startRecording =>
      obtain rfl := step_startRecording ht
      exact ⟨h.length, h.named, nofun⟩
    | stopRecording =>
      obtain rfl := step_stopRecording ht
      exact named_of_nil rfl rfl
    | frameCallback _ | notifyFrame _ | EncoderDoneCb _ _ | releaseRecordingFrame _ _ | start
    | stop _ | flushAndReturnFrames => cases hsets

/-! ### Single steps -/

theorem recordsRight_notifyFrame (h : s.Named) (hinv : s.Inv) (replies : NotifierReplies) :
    s.RecordsRight build (.notifyFrame replies) := by
  intro calls n frame data handle hn hhead hmem i hi
  obtain ⟨-, hnone | ⟨frame', rest, data', handle', hqueue, rfl, -, hrecorded⟩⟩ :=
    AppCallbackNotifier.notifyFrame_recording hinv.paired.data hn
  · have hrec : data ∈ recordedOf calls := mem_filterMap.mpr ⟨_, hmem, rfl⟩
    rw [hnone] at hrec
    cases hrec
  · rw [hqueue] at hhead
    obtain rfl := some.inj hhead
    obtain ⟨rfl, rfl⟩ := CallOut.mDataCbTimestamp.inj (mem_singleton.mp hmem)
    obtain ⟨hlt, hbuf⟩ := List.getElem?_eq_some_iff.mp hi
    have hvlt : i < s.vBufArr.length := h.length ▸ hlt
    have hnamed := h.named i hvlt
    rw [RecordingState.getD_of_lt hlt, RecordingState.getD_of_lt hvlt, hbuf,
      RecordingState.named] at hnamed
    rw [AppCallbackNotifier.Recorded] at hrecorded
    rw [getElem?_eq_getElem hvlt]
    split at hnamed
    · next hmeta =>
      rw [if_pos hmeta, hnamed] at hrecorded
      rw [hrecorded.2, getD_some]
    · next hplain =>
      rw [if_neg hplain, hnamed] at hrecorded
      rw [hrecorded.1, getD_none]
      exact hrecorded.2

theorem recordsRight_releaseRecordingFrame (hinv : s.Inv) {word : Address → Address}
    {recorded : Address × Address} (hmem : recorded ∈ s.recorder)
    (hseparate : s.Separate (.releaseRecordingFrame word recorded)) :
    s.RecordsRight build (.releaseRecordingFrame word recorded) := by
  change s.notifier.releaseRecordingFrame word recorded.1 = _
  rw [AppCallbackNotifier.releaseRecordingFrame]
  by_cases hmeta : s.notifier.mUseMetaDataBufferMode
  · obtain ⟨hreverse, hne⟩ := hinv.held hmeta recorded hmem
    rw [if_neg hne, RecordingState.releasedFrame, if_pos hmeta, hreverse]
    rfl
  · obtain ⟨hne, hword⟩ := hseparate.resolve_left hmeta
    rw [if_neg hne, RecordingState.releasedFrame, if_neg hmeta, hword]
    rfl

theorem recordsRight_stopRecording (hseparate : s.Separate .stopRecording) :
    s.RecordsRight build .stopRecording := by
  intro ret n hn
  obtain ⟨ret', heq⟩ := AppCallbackNotifier.stopRecording_eq
    (AppCallbackNotifier.free_of_autolockRecording hn)
  obtain ⟨-, rfl⟩ := Prod.mk.inj (some.inj (heq.symm.trans hn))
  split
  · have hcleared := RecordingState.cleared_releaseSharedVideoBuffers (hseparate.imp_left And.right)
    exact { hcleared with }
  · next hidle => exact hseparate.resolve_left fun hmeta => hidle hmeta.1

theorem recordsRight (h : s.Named) (hinv : s.Inv) (hpossible : s.Possible event)
    (hseparate : s.Separate event) : s.RecordsRight build event := by
  cases event with
  | notifyFrame replies => exact recordsRight_notifyFrame h hinv replies
  | releaseRecordingFrame word recorded =>
    exact recordsRight_releaseRecordingFrame hinv hpossible hseparate
  | stopRecording => exact recordsRight_stopRecording hseparate
  | frameCallback _ | EncoderDoneCb _ _ | start | stop _ | flushAndReturnFrames
  | useMetaDataBufferMode _ | halStartRecording _ _ _ _ | startRecording => trivial

end NotifierSession

/-- In a run every step tells the recorder right if every step finds what it needs. -/
theorem recordsRight_of_separate (build : Build) (n : AppCallbackNotifier)
    (events : List NotifierEvent) (hstart : n.Cleared)
    (hrun : AlongSome (NotifierSession.step build) NotifierSession.Possible (.construct n) events)
    (hseparate : AlongSome (NotifierSession.step build) NotifierSession.Separate (.construct n)
      events) :
    AlongSome (NotifierSession.step build) (NotifierSession.RecordsRight build) (.construct n)
      events := by
  have hpaired : n.Paired := by
    constructor <;> intro b data hb <;> rw [hstart.memory] at hb <;> cases hb
  refine AlongSome.mono_invariant (I := fun s => s.Inv ∧ s.Named) hrun hseparate
    ⟨NotifierSession.construct_inv hpaired, NotifierSession.named_of_nil rfl rfl⟩ ?_ ?_
  · intro s event hI hpossible hok
    exact NotifierSession.recordsRight hI.2 hI.1 hpossible hok
  · intro s event t hI hpossible hok ht
    exact ⟨hI.1.step hpossible ht, hI.2.step hI.1 hpossible hok ht⟩

/-- A recording for metadata with buffers of its own. -/
theorem recordsRight_two_buffers :
    AlongSome (NotifierSession.step ⟨true, false⟩) (NotifierSession.RecordsRight ⟨true, false⟩)
      (.construct sampleNotifier)
      [.halStartRecording true (fun i => some (300 + i)) [10, 20] [100, 200],
        .frameCallback (sampleFrame 10), .notifyFrame sampleReplies,
        .frameCallback (sampleFrame 20), .notifyFrame sampleReplies,
        .releaseRecordingFrame (fun _ => 0) (301, 20),
        .releaseRecordingFrame (fun _ => 0) (300, 10), .stopRecording] := by
  refine recordsRight_of_separate ⟨true, false⟩ sampleNotifier _ ⟨rfl, rfl, rfl, rfl, rfl⟩ ?_ ?_
  · refine .cons (sampleRecording_possible true) (sampleRecording_eq true) ?_
    refine .cons trivial rfl (.cons trivial rfl (.cons trivial rfl (.cons trivial rfl ?_)))
    refine .cons mem_cons_self rfl (.cons mem_cons_self rfl ?_)
    exact ⟨fun _ => rfl, fun t _ => trivial⟩
  · refine .cons (.inl ⟨rfl, rfl⟩) (sampleRecording_eq true) ?_
    refine .cons trivial rfl (.cons trivial rfl (.cons trivial rfl (.cons trivial rfl ?_)))
    refine .cons (.inl rfl) rfl (.cons (.inl rfl) rfl ?_)
    exact ⟨.inl ⟨rfl, rfl, .inl rfl⟩, fun t _ => trivial⟩

/-- Where the buffers of the preview are recorded, the map to the virtual buffers is kept. -/
theorem videoMap_left_behind :
    ∃ events, AlongSome (NotifierSession.step ⟨true, false⟩) NotifierSession.Possible
        (.construct sampleNotifier) events ∧
      ¬ AlongSome (NotifierSession.step ⟨true, false⟩)
        (NotifierSession.RecordsRight ⟨true, false⟩) (.construct sampleNotifier) events := by
  refine ⟨[.halStartRecording false (fun i => some (300 + i)) [10, 20] [100, 200],
    .stopRecording], ?_, fun h => ?_⟩
  · refine .cons (sampleRecording_possible false) (sampleRecording_eq false) ?_
    exact ⟨fun _ => rfl, fun t _ => trivial⟩
  · obtain ⟨hright, -⟩ := h.2 _ (sampleRecording_eq false)
    have hcleared := hright NO_ERROR _ rfl
    exact absurd hcleared.video (by decide)

end OmapHal.Camera
