import OmapHal.Camera.Commands
import OmapHal.Camera.NotifierSession

/-!
# Starting a recording

`CameraHal::startRecording` over the notifier and the adapter. `mFrameProvider` stands for the
callback and the cookie with which it subscribes.
-/

namespace OmapHal.Camera

open Option

structure CameraHal where
  notifier : AppCallbackNotifier
  mFrameProvider : Option (frame_callback × Address)
  adapter : Adapter
  mPreviewRunning : Bool
  mRecordingEnabled : Bool
  mPreviewBufs : Option (List Address)
  /-- how much memory for metadata was requested and not released -/
  metadataMemory : Nat

/-- What the HAL is answered: the data of the memory for metadata, where there is memory, and the
virtual addresses. -/
structure RecordingReplies where
  mRequestMemory : Nat → Option Address
  getVirtualAddress : Option (List Address)

/-- How much memory the loop of `initSharedVideoBuffers` gets over turns. -/
def requested (mRequestMemory : Nat → Option Address) : List Nat → Nat
  | [] => 0
  | i :: rest =>
    match mRequestMemory i with
    | none => 0
    | some data => if data = 0 then 1 else requested mRequestMemory rest + 1

namespace CameraHal

/-- `initSharedVideoBuffers` for the buffers of the preview. -/
def initBuffers (s : CameraHal) (replies : RecordingReplies) : Option (status_t × CameraHal) := do
  let n := { s.notifier with mUseVideoBuffers := false }
  let (ret, n) ← n.initSharedVideoBuffers replies.mRequestMemory s.mPreviewBufs MAX_CAMERA_BUFFERS
    replies.getVirtualAddress
  some (ret, { s with
    notifier := n
    metadataMemory := s.metadataMemory +
      if s.notifier.mUseMetaDataBufferMode ∧ s.mPreviewBufs ≠ none then
        requested replies.mRequestMemory (List.range MAX_CAMERA_BUFFERS)
      else 0 })

/-- `AppCallbackNotifier::startRecording` with its frame provider. -/
def startNotifier (s : CameraHal) : Option (status_t × CameraHal) := do
  let (ret, n) ← s.notifier.startRecording
  let s := { s with notifier := n }
  if ret ≠ NO_ERROR then some (ret, s)
  else
    match s.mFrameProvider with
    | none => some (-1, s)
    | some (callback, cookie) =>
      some (NO_ERROR, { s with
        adapter := s.adapter.enableMsgType .VIDEO_FRAME_SYNC callback cookie })

/-- `sendCommand` with `CAMERA_START_VIDEO`. -/
def startVideo (ICAP : Bool) (s : CameraHal) : Option (status_t × CameraHal) := do
  let r ← s.adapter.sendCommand ICAP ⟨.CAMERA_START_VIDEO, 0, ⟨fun _ => 0, 0, 0⟩, NO_ERROR⟩
  some (r.ret, { s with
    adapter := r.adapter
    mRecordingEnabled := if r.ret = NO_ERROR then true else s.mRecordingEnabled })

def startRecording (ICAP : Bool) (s : CameraHal) (replies : RecordingReplies) :
    Option (status_t × CameraHal) :=
  if !s.mPreviewRunning then some (NO_INIT, s)
  else do
    let (ret, s) ← s.initBuffers replies
    if ret ≠ NO_ERROR then some (ret, s)
    else
      let (ret, s) ← s.startNotifier
      if ret ≠ NO_ERROR then some (ret, s) else startVideo ICAP s

/-- A call leaves tables, subscription, flags and memory as they were, and the next one is like a
first one. -/
structure Unchanged (ICAP : Bool) (s t : CameraHal) : Prop where
  memoryMap : t.notifier.mVideoMetadataBufferMemoryMap = s.notifier.mVideoMetadataBufferMemoryMap
  reverseMap : t.notifier.mVideoMetadataBufferReverseMap = s.notifier.mVideoMetadataBufferReverseMap
  videoMap : t.notifier.mVideoMap = s.notifier.mVideoMap
  previewBufIndex : t.notifier.mPreviewBufIndex = s.notifier.mPreviewBufIndex
  virtualBuffer : t.notifier.mVirtualBuffer = s.notifier.mVirtualBuffer
  recording : t.notifier.mRecording = s.notifier.mRecording
  subscribers : t.adapter.mVideoSubscribers = s.adapter.mVideoSubscribers
  recordingEnabled : t.mRecordingEnabled = s.mRecordingEnabled
  metadataMemory : t.metadataMemory = s.metadataMemory
  again : ∀ replies, startRecording ICAP t replies = startRecording ICAP s replies

variable {ICAP : Bool} {s t : CameraHal} {replies : RecordingReplies} {ret : status_t}

/-- Nothing has been done when the buffers are refused. -/
def Refused (s : CameraHal) (replies : RecordingReplies) : Prop :=
  s.notifier.mUseMetaDataBufferMode ∧ (s.mPreviewBufs = none ∨ replies.mRequestMemory 0 = none)

theorem initBuffers_of_refused (h : s.Refused replies) :
    ∃ ret, ret ≠ NO_ERROR ∧ s.initBuffers replies =
      some (ret, { s with notifier := { s.notifier with mUseVideoBuffers := false } }) := by
  obtain ⟨hmeta, hrefused⟩ := h
  simp only [initBuffers, AppCallbackNotifier.initSharedVideoBuffers, if_pos hmeta]
  cases hbufs : s.mPreviewBufs with
  | none =>
    refine ⟨BAD_VALUE, by decide, ?_⟩
    simp
  | some bufArr =>
    have hnone : replies.mRequestMemory 0 = none := by simpa [hbufs] using hrefused
    refine ⟨NO_MEMORY, by decide, ?_⟩
    simp [MAX_CAMERA_BUFFERS, List.range_succ_eq_map, AppCallbackNotifier.initMetadataBuffers,
      requested, hnone]

theorem initPlainBuffers_ret {bufArr vBufArr : List Address} {turns : List Nat}
    {n n' : AppCallbackNotifier}
    (h : AppCallbackNotifier.initPlainBuffers bufArr vBufArr turns n = some (ret, n')) :
    ret = NO_ERROR := by
  induction turns generalizing n with
  | nil => exact (Prod.mk.inj (some.inj h)).1.symm
  | cons i turns ih =>
    obtain ⟨buf, -, h⟩ := bind_eq_some_iff.mp h
    obtain ⟨vBuf, -, h⟩ := bind_eq_some_iff.mp h
    exact ih h

theorem requested_pos {mRequestMemory : Nat → Option Address} (h : mRequestMemory 0 ≠ none) :
    0 < requested mRequestMemory (List.range MAX_CAMERA_BUFFERS) := by
  obtain ⟨data, hdata⟩ := ne_none_iff_exists'.mp h
  rw [MAX_CAMERA_BUFFERS, List.range_succ_eq_map, requested, hdata]
  dsimp only
  split
  · exact Nat.one_pos
  · exact Nat.succ_pos _

/-- Where buffers fail that were not refused at once, memory stays. -/
theorem memory_of_initBuffers (hnot : ¬ s.Refused replies) (hret : ret ≠ NO_ERROR)
    (h : s.initBuffers replies = some (ret, t)) : s.metadataMemory < t.metadataMemory := by
  obtain ⟨⟨ret', n⟩, hinit, h⟩ := bind_eq_some_iff.mp h
  obtain ⟨rfl, rfl⟩ := Prod.mk.inj (some.inj h)
  unfold AppCallbackNotifier.initSharedVideoBuffers at hinit
  by_cases hmeta : s.notifier.mUseMetaDataBufferMode = true
  · obtain ⟨hbufs, hmemory⟩ := not_or.mp (not_and.mp hnot hmeta)
    have hpos := requested_pos hmemory
    simpa [hmeta, hbufs] using hpos
  · rw [if_neg hmeta] at hinit
    obtain ⟨bufArr, -, hinit⟩ := bind_eq_some_iff.mp hinit
    obtain ⟨vBufArr, -, hinit⟩ := bind_eq_some_iff.mp hinit
    exact absurd (initPlainBuffers_ret hinit) hret

theorem mRecording_startNotifier (h : s.startNotifier = some (ret, t)) :
    t.notifier.mRecording = true := by
  obtain ⟨⟨ret', n⟩, hstart, h⟩ := bind_eq_some_iff.mp h
  have hn : n.mRecording = true := by
    have hlock : s.notifier.mRecordingLock = false := by
      by_contra hlocked
      rw [AppCallbackNotifier.startRecording, AppCallbackNotifier.autolockRecording,
        if_pos (by simpa using hlocked)] at hstart
      cases hstart
    obtain ⟨ret'', heq⟩ := AppCallbackNotifier.startRecording_eq hlock
    rw [heq] at hstart
    obtain ⟨-, rfl⟩ := Prod.mk.inj (some.inj hstart)
    rfl
  dsimp only at h
  split at h
  · cases h
    exact hn
  · split at h <;> cases h <;> exact hn

/-- A call that fails leaves everything as it was exactly if the buffers were refused at once. -/
theorem unchanged_iff (ICAP : Bool) (s t : CameraHal) (replies : RecordingReplies) (ret : status_t)
    (hpreview : s.mPreviewRunning) (hidle : s.notifier.mRecording = false)
    (h : startRecording ICAP s replies = some (ret, t)) (hret : ret ≠ NO_ERROR) :
    Unchanged ICAP s t ↔ s.Refused replies := by
  by_cases hrefused : s.Refused replies
  · obtain ⟨ret', hret', hinit⟩ := initBuffers_of_refused hrefused
    rw [startRecording, if_neg (by simp [hpreview]), hinit] at h
    obtain ⟨-, rfl⟩ := Prod.mk.inj (some.inj ((if_pos hret').symm.trans h))
    refine iff_of_true ⟨rfl, rfl, rfl, rfl, rfl, rfl, rfl, rfl, rfl, fun replies => ?_⟩ hrefused
    rw [startRecording, startRecording, if_neg (by simp [hpreview]), if_neg (by simp [hpreview])]
    rfl
  · refine iff_of_false (fun hsame => ?_) hrefused
    rw [startRecording, if_neg (by simp [hpreview])] at h
    obtain ⟨⟨ret₁, s₁⟩, hinit, h⟩ := bind_eq_some_iff.mp h
    dsimp only at h
    split at h
    · next hfail =>
      obtain ⟨rfl, rfl⟩ := Prod.mk.inj (some.inj h)
      have hlt := memory_of_initBuffers hrefused hfail hinit
      exact absurd hsame.metadataMemory hlt.ne'
    · obtain ⟨⟨ret₂, s₂⟩, hstart, h⟩ := bind_eq_some_iff.mp h
      have hrecording : t.notifier.mRecording = true := by
        have hs₂ := mRecording_startNotifier hstart
        dsimp only at h
        split at h
        · cases h
          exact hs₂
        · obtain ⟨r, -, h⟩ := bind_eq_some_iff.mp h
          cases h
          exact hs₂
      rw [hsame.recording, hidle] at hrecording
      cases hrecording

/-- The preview runs, and metadata is used for six buffers. -/
def sampleHal (mAdapterState : AdapterState) : CameraHal where
  notifier := sampleNotifier
  mFrameProvider := some (7, 8)
  adapter := { Adapter.construct .PREVIEW_STATE 0 0 with mAdapterState := mAdapterState }
  mPreviewRunning := true
  mRecordingEnabled := false
  mPreviewBufs := some [1, 2, 3, 4, 5, 6]
  metadataMemory := 0

/-- There is no memory for metadata. -/
theorem refused_unchanged : ∃ t,
    startRecording false (sampleHal .PREVIEW_STATE) ⟨fun _ => none, none⟩ = some (NO_MEMORY, t) ∧
      Unchanged false (sampleHal .PREVIEW_STATE) t :=
  ⟨_, rfl, (unchanged_iff false (sampleHal .PREVIEW_STATE) _ ⟨fun _ => none, none⟩ NO_MEMORY rfl rfl
    rfl (by decide)).mpr ⟨rfl, Or.inr rfl⟩⟩

/-- The adapter focuses, and does not start the recording; the notifier records, with all tables. -/
theorem focusing_not_unchanged : ∃ ret t,
    startRecording false (sampleHal .AF_STATE)
        ⟨fun i => some (100 + i), some [11, 12, 13, 14, 15, 16]⟩ = some (ret, t) ∧
      ret ≠ NO_ERROR ∧ t.notifier.mRecording = true ∧ t.metadataMemory = 6 ∧
        ¬ Unchanged false (sampleHal .AF_STATE) t :=
  ⟨_, _, rfl, by decide, rfl, by decide, fun h => absurd h.recording (by decide)⟩

end CameraHal

end OmapHal.Camera
