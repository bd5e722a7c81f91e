import OmapHal.Camera.Notifier

/-!
# What the notifier does with a frame

A frame from the queue goes back to the provider, to an encoder or to the recorder.
-/

namespace OmapHal.Camera

open Option List

open OmapHal.Core (KeyedVector)

/-- The buffer and the type by which a frame is given back. -/
def CameraFrame.key (frame : CameraFrame) : Address × FrameType := (frame.mBuffer, frame.mFrameType)

def Encoder.key (encoder : Encoder) : Address × FrameType := (encoder.mBuffer, encoder.mType)

def CallOut.returned? : CallOut → Option (Address × FrameType)
  | .returnFrame mBuffer mFrameType => some (mBuffer, mFrameType)
  | _ => none

/-- The data of the memory that the recorder gets. -/
def CallOut.recorded? : CallOut → Option Address
  | .mDataCbTimestamp data _ => some data
  | _ => none

def returnedOf (calls : List CallOut) : List (Address × FrameType) :=
  calls.filterMap CallOut.returned?

def recordedOf (calls : List CallOut) : List Address := calls.filterMap CallOut.recorded?

@[simp] theorem returnedOf_nil : returnedOf [] = [] := rfl

@[simp] theorem recordedOf_nil : recordedOf [] = [] := rfl

@[simp] theorem returnedOf_append (l l' : List CallOut) :
    returnedOf (l ++ l') = returnedOf l ++ returnedOf l' := filterMap_append

@[simp] theorem recordedOf_append (l l' : List CallOut) :
    recordedOf (l ++ l') = recordedOf l ++ recordedOf l' := filterMap_append

@[simp] theorem returnedOf_returnFrame (b : Address) (frameType : FrameType) (l : List CallOut) :
    returnedOf (.returnFrame b frameType :: l) = (b, frameType) :: returnedOf l := rfl

@[simp] theorem recordedOf_returnFrame (b : Address) (frameType : FrameType) (l : List CallOut) :
    recordedOf (.returnFrame b frameType :: l) = recordedOf l := rfl

@[simp] theorem returnedOf_mNotifyCb (msg : CameraMsg) (l : List CallOut) :
    returnedOf (.mNotifyCb msg :: l) = returnedOf l := rfl

@[simp] theorem recordedOf_mNotifyCb (msg : CameraMsg) (l : List CallOut) :
    recordedOf (.mNotifyCb msg :: l) = recordedOf l := rfl

@[simp] theorem returnedOf_mDataCb (msg : CameraMsg) (l : List CallOut) :
    returnedOf (.mDataCb msg :: l) = returnedOf l := rfl

@[simp] theorem recordedOf_mDataCb (msg : CameraMsg) (l : List CallOut) :
    recordedOf (.mDataCb msg :: l) = recordedOf l := rfl

@[simp] theorem returnedOf_mDataCbTimestamp (data : Address) (handle : Option Address)
    (l : List CallOut) : returnedOf (.mDataCbTimestamp data handle :: l) = returnedOf l := rfl

@[simp] theorem recordedOf_mDataCbTimestamp (data : Address) (handle : Option Address)
    (l : List CallOut) :
    recordedOf (.mDataCbTimestamp data handle :: l) = data :: recordedOf l := rfl

/-- A picture that is sent only sometimes. -/
@[simp] theorem returnedOf_ite_mDataCb (c : Prop) [Decidable c] (msg : CameraMsg) :
    returnedOf (if c then [.mDataCb msg] else []) = [] := by
  split <;> rfl

@[simp] theorem recordedOf_ite_mDataCb (c : Prop) [Decidable c] (msg : CameraMsg) :
    recordedOf (if c then [.mDataCb msg] else []) = [] := by
  split <;> rfl

namespace AppCallbackNotifier

variable {build : Build} {s t : AppCallbackNotifier} {replies : NotifierReplies}
  {frame : CameraFrame} {calls : List CallOut} {msgType : CameraMsg}

/-! ### Locks -/

theorem autolock_eq {α : Type} {block : AppCallbackNotifier → α × AppCallbackNotifier}
    (h : s.mLock = false) : s.autolock block =
      some ((block { s with mLock := true }).1,
        { (block { s with mLock := true }).2 with mLock := false }) :=
  if_neg (by rw [h]; exact Bool.false_ne_true)

theorem free_of_autolock {α : Type} {block : AppCallbackNotifier → α × AppCallbackNotifier}
    {result : α × AppCallbackNotifier} (h : s.autolock block = some result) : s.mLock = false := by
  rw [autolock] at h
  split at h
  · cases h
  · next hlock => exact Bool.not_eq_true _ |>.mp hlock

theorem free_of_autolockRecording {α : Type}
    {block : AppCallbackNotifier → α × AppCallbackNotifier} {result : α × AppCallbackNotifier}
    (h : s.autolockRecording block = some result) : s.mRecordingLock = false := by
  rw [autolockRecording] at h
  split at h
  · cases h
  · next hlock => exact Bool.not_eq_true _ |>.mp hlock

/-- A block that reads only. -/
theorem autolock_read {α : Type} {f : AppCallbackNotifier → α} (h : s.mLock = false) :
    s.autolock (fun s => (f s, s)) = some (f { s with mLock := true }, s) := by
  rw [autolock_eq h, ← h]

/-! ### Frames that go back at once -/

theorem returnedOf_dummyRaw : returnedOf (s.dummyRaw replies) = [] := by
  rw [dummyRaw]
  split_ifs <;> rfl

theorem recordedOf_dummyRaw : recordedOf (s.dummyRaw replies) = [] := by
  rw [dummyRaw]
  split_ifs <;> rfl

theorem settleRaw_eq (s : AppCallbackNotifier) (replies : NotifierReplies) :
    ∃ raw a, s.settleRaw replies = (raw, { s with mRawAvailable := a }) ∧
      returnedOf raw = [] ∧ recordedOf raw = [] := by
  rw [settleRaw]
  split
  · exact ⟨_, s.mRawAvailable, rfl, returnedOf_dummyRaw, recordedOf_dummyRaw⟩
  · exact ⟨[], false, rfl, rfl, rfl⟩

/-- The frame goes back and nothing else, and only the bookkeeping for pictures changes. -/
def GivesBack (s : AppCallbackNotifier) (frame : CameraFrame)
    (result : Option (List CallOut × AppCallbackNotifier)) : Prop :=
  ∃ calls a n, result = some (calls, { s with mRawAvailable := a, mPreviewBufCount := n }) ∧
    returnedOf calls = [frame.key] ∧ recordedOf calls = []

theorem copyAndSendPictureFrame_eq (replies : NotifierReplies) (frame : CameraFrame)
    (msgType : CameraMsg) (h : s.mLock = false) :
    ∃ calls, s.copyAndSendPictureFrame replies frame msgType = some (calls, s) ∧
      returnedOf calls = [frame.key] ∧ recordedOf calls = [] := by
  rw [copyAndSendPictureFrame, autolock_read h]
  refine ⟨_, rfl, ?_, ?_⟩
  · simp only [returnedOf_returnFrame, returnedOf_ite_mDataCb]
    rfl
  · simp only [recordedOf_returnFrame, recordedOf_ite_mDataCb]

theorem copyAndSendPreviewFrame_gives (h : s.mLock = false) :
    s.GivesBack frame (s.copyAndSendPreviewFrame replies frame msgType) := by
  rw [copyAndSendPreviewFrame, autolock_read h]
  refine ⟨_, s.mRawAvailable, _, rfl, ?_, ?_⟩
  · simp only [returnedOf_returnFrame, returnedOf_ite_mDataCb]
    rfl
  · simp only [recordedOf_returnFrame, recordedOf_ite_mDataCb]

theorem gives_returnFrame :
    s.GivesBack frame (some ([.returnFrame frame.mBuffer frame.mFrameType], s)) :=
  ⟨_, s.mRawAvailable, s.mPreviewBufCount, rfl, rfl, rfl⟩

theorem rawFrame_gives (h : s.mLock = false) : s.GivesBack frame (s.rawFrame replies frame) := by
  rw [rawFrame]
  split
  · obtain ⟨calls, heq, hreturned, hrecorded⟩ :=
      copyAndSendPictureFrame_eq replies frame .RAW_IMAGE h
    rw [heq]
    exact ⟨calls, true, s.mPreviewBufCount, rfl, hreturned, hrecorded⟩
  · refine ⟨_, true, s.mPreviewBufCount, rfl, ?_, ?_⟩
    · split <;> rfl
    · split <;> rfl

theorem imageFrame_gives (h : s.mLock = false) :
    s.GivesBack frame (s.imageFrame replies frame) := by
  obtain ⟨raw, a, hs, hraw, hraw'⟩ := s.settleRaw_eq replies
  obtain ⟨calls, heq, hreturned, hrecorded⟩ :=
    copyAndSendPictureFrame_eq replies frame .COMPRESSED_IMAGE
    (s := { s with mRawAvailable := a }) h
  rw [imageFrame, hs]
  dsimp only
  rw [heq]
  refine ⟨_, a, s.mPreviewBufCount, rfl, ?_, ?_⟩
  · rw [returnedOf_append, hraw, hreturned, nil_append]
  · rw [recordedOf_append, hraw', hrecorded, nil_append]

theorem measuredFrame_gives (h : s.mLock = false) :
    s.GivesBack frame (s.measuredFrame replies frame msgType) := by
  rw [measuredFrame]
  split
  · exact copyAndSendPreviewFrame_gives h
  · exact gives_returnFrame

/-! ### The branches of a frame -/

/-- An image that is still to be encoded. -/
def Encodes (s : AppCallbackNotifier) (frame : CameraFrame) : Prop :=
  frame.mFrameType = .IMAGE_FRAME ∧ s.mCameraHal ∧ s.mDataCb ∧ frame.ENCODE_RAW_YUV422I_TO_JPEG

/-- A video frame, and the application asks for such. -/
def Records (s : AppCallbackNotifier) (replies : NotifierReplies) (frame : CameraFrame) : Prop :=
  frame.mFrameType = .VIDEO_FRAME_SYNC ∧ s.mCameraHal ∧ s.mDataCb ∧
    replies.msgTypeEnabled .VIDEO_FRAME

instance : Decidable (s.Encodes frame) := inferInstanceAs (Decidable (_ ∧ _))

instance : Decidable (s.Records replies frame) := inferInstanceAs (Decidable (_ ∧ _))

theorem processFrame_encodes (h : s.Encodes frame) :
    s.processFrame build replies frame = s.encodeFrame build replies frame := by
  simp only [processFrame, h.1, reduceCtorEq, false_and, if_false]
  exact if_pos ⟨trivial, h.2⟩

theorem processFrame_records (h : s.Records replies frame) :
    s.processFrame build replies frame = s.videoFrame replies frame := by
  simp only [processFrame, h.1, reduceCtorEq, false_and, if_false]
  exact if_pos ⟨trivial, h.2⟩

/-- Every other frame goes back at once. -/
theorem processFrame_gives (build : Build) (hlock : s.mLock = false) (hencodes : ¬ s.Encodes frame)
    (hrecords : ¬ s.Records replies frame) :
    s.GivesBack frame (s.processFrame build replies frame) := by
  rw [processFrame]
  split
  · exact rawFrame_gives hlock
  split
  · next h => exact absurd h hencodes
  split
  · exact imageFrame_gives hlock
  split
  · next h => exact absurd h hrecords
  split
  · exact measuredFrame_gives hlock
  split
  · exact measuredFrame_gives hlock
  split
  · exact copyAndSendPreviewFrame_gives hlock
  · exact gives_returnFrame

theorem notifyFrame_nil (hlock : s.mLock = false) (h : s.mFrameQ = []) :
    s.notifyFrame build replies = some ([], s) := by
  obtain ⟨⟩ := s
  obtain rfl : _ = false := hlock
  obtain rfl : _ = [] := h
  rfl

theorem notifyFrame_cons (hlock : s.mLock = false) {rest : List CameraFrame}
    (h : s.mFrameQ = frame :: rest) : s.notifyFrame build replies =
      { s with mFrameQ := rest }.processFrame build replies frame := by
  obtain ⟨⟩ := s
  obtain rfl : _ = false := hlock
  obtain rfl : _ = frame :: rest := h
  rfl

theorem encodeFrame_JPEG (hbuild : build.JPEG = true) (replies : NotifierReplies)
    (frame : CameraFrame) : ∃ calls, s.encodeFrame build replies frame = some (calls, s) ∧
      recordedOf calls = [] ∧
      returnedOf calls = if s.mNotifierState = .NOTIFIER_STARTED then [frame.key] else [] := by
  rw [encodeFrame, if_neg (by rw [hbuild]; exact Bool.false_ne_true)]
  refine ⟨_, rfl, ?_, ?_⟩
  · split_ifs <;> rfl
  · simp only [decide_eq_true_eq]
    split_ifs <;> rfl

/-! ### Recorded frames -/

/-- A recording is made with this buffer, and without metadata there is memory to tell it in. -/
def Recordable (s : AppCallbackNotifier) (replies : NotifierReplies) (mBuffer : Address) : Prop :=
  s.mRecording ∧ mBuffer ≠ 0 ∧
    if s.mUseMetaDataBufferMode then
      mBuffer ∈ s.mVideoMetadataBufferMemoryMap.keys ∧ s.handle mBuffer ≠ none
    else replies.mRequestMemory.getD 0 ≠ 0 ∧ s.virtualBuffer mBuffer ≠ none

/-- What the recorder gets for a frame. -/
def Recorded (s : AppCallbackNotifier) (mBuffer data : Address) (handle : Option Address) : Prop :=
  if s.mUseMetaDataBufferMode then
    s.mVideoMetadataBufferMemoryMap.valueFor mBuffer = some data ∧ handle = s.handle mBuffer
  else handle = none ∧ s.virtualBuffer mBuffer = some data

/-- The recorder gets a frame exactly if it can be recorded, else the frame is lost. -/
theorem videoFrame_cases (replies : NotifierReplies) (frame : CameraFrame)
    (hlock : s.mRecordingLock = false)
    (hdata : ∀ b data, s.mVideoMetadataBufferMemoryMap.valueFor b = some data → data ≠ 0) :
    (s.Recordable replies frame.mBuffer ∧ ∃ data handle,
      s.videoFrame replies frame = some ([.mDataCbTimestamp data handle], s) ∧
        s.Recorded frame.mBuffer data handle) ∨
    (¬ s.Recordable replies frame.mBuffer ∧ ∀ calls t,
      s.videoFrame replies frame = some (calls, t) →
        calls = [] ∧ t = { s with mRecordingLock := t.mRecordingLock }) := by
  have hlost : ∀ {result : Option (List CallOut × AppCallbackNotifier)} {lock : Bool},
      some ([], { s with mRecordingLock := lock }) = result → ∀ calls t, result = some (calls, t) →
        calls = [] ∧ t = { s with mRecordingLock := t.mRecordingLock } := by
    rintro _ lock rfl calls t h
    obtain ⟨rfl, rfl⟩ := Prod.mk.inj (some.inj h)
    exact ⟨rfl, rfl⟩
  generalize hresult : s.videoFrame replies frame = result
  rw [videoFrame, if_neg (by rw [hlock]; exact Bool.false_ne_true)] at hresult
  rw [Recordable]
  by_cases hrec : s.mRecording = true
  swap
  · rw [if_pos (by rw [Bool.not_eq_true] at hrec; rw [hrec]; rfl)] at hresult
    exact .inr ⟨fun h => hrec h.1, hlost hresult⟩
  rw [if_neg (by rw [hrec]; exact Bool.false_ne_true)] at hresult
  by_cases hmeta : s.mUseMetaDataBufferMode = true
  · rw [if_pos hmeta] at hresult ⊢
    cases hval : s.mVideoMetadataBufferMemoryMap.valueFor frame.mBuffer with
    | none =>
      rw [hval] at hresult
      subst hresult
      exact .inr ⟨fun h => KeyedVector.mem_keys.mp h.2.2.1 hval, fun calls t h => by cases h⟩
    | some data =>
      rw [hval, bind_eq_bind, bind_some] at hresult
      by_cases hzero : frame.mBuffer = 0
      · rw [if_pos (.inr hzero)] at hresult
        exact .inr ⟨fun h => h.2.1 hzero, hlost hresult⟩
      rw [if_neg (not_or.mpr ⟨hdata _ _ hval, hzero⟩)] at hresult
      cases hhandle : s.handle frame.mBuffer with
      | none =>
        rw [hhandle] at hresult
        subst hresult
        exact .inr ⟨fun h => h.2.2.2 rfl, fun calls t h => by cases h⟩
      | some handle =>
        rw [hhandle, bind_some, ← hlock] at hresult
        refine .inl ⟨⟨hrec, hzero, KeyedVector.mem_keys.mpr ?_, some_ne_none handle⟩,
          data, some handle, hresult.symm, ?_⟩
        · rw [hval]
          exact some_ne_none data
        · rw [Recorded, if_pos hmeta]
          exact ⟨hval, hhandle.symm⟩
  · rw [if_neg hmeta] at hresult ⊢
    by_cases hmem : replies.mRequestMemory.getD 0 = 0
    · rw [if_pos (.inl hmem)] at hresult
      exact .inr ⟨fun h => h.2.2.1 hmem, hlost hresult⟩
    by_cases hzero : frame.mBuffer = 0
    · rw [if_pos (.inr hzero)] at hresult
      exact .inr ⟨fun h => h.2.1 hzero, hlost hresult⟩
    rw [if_neg (not_or.mpr ⟨hmem, hzero⟩)] at hresult
    cases hbuf : s.virtualBuffer frame.mBuffer with
    | none =>
      rw [hbuf] at hresult
      subst hresult
      exact .inr ⟨fun h => h.2.2.2 rfl, fun calls t h => by cases h⟩
    | some data =>
      rw [hbuf, bind_eq_bind, bind_some, ← hlock] at hresult
      refine .inl ⟨⟨hrec, hzero, hmem, some_ne_none data⟩, data, none, hresult.symm, ?_⟩
      rw [Recorded, if_neg hmeta]
      exact ⟨rfl, hbuf⟩

/-! ### Encoders -/

theorem settleRaw_if (s : AppCallbackNotifier) (replies : NotifierReplies) (c : Prop)
    [Decidable c] : ∃ raw a,
      (if c then s.settleRaw replies else ([], s)) = (raw, { s with mRawAvailable := a }) ∧
        returnedOf raw = [] ∧ recordedOf raw = [] := by
  split
  · exact s.settleRaw_eq replies
  · exact ⟨[], s.mRawAvailable, rfl, rfl, rfl⟩

/-- The end of an encoder while the notifier is stopped. -/
theorem EncoderDoneCb_stopped (hlock : s.mLock = false)
    (hstate : s.mNotifierState ≠ .NOTIFIER_STARTED) (replies : NotifierReplies)
    (encoder : Encoder) : ∃ calls a, s.EncoderDoneCb replies encoder =
        some (calls, { s with encoders := s.encoders.erase encoder, mRawAvailable := a }) ∧
      returnedOf calls = [] ∧ recordedOf calls = [] := by
  obtain ⟨raw, a, hs, hraw, hraw'⟩ :=
    { s with encoders := s.encoders.erase encoder }.settleRaw_if replies encoder.main_jpeg
  rw [EncoderDoneCb, autolock_eq hlock]
  dsimp only [bind_eq_bind, bind_some]
  rw [← hlock, hs]
  rw [if_neg hstate]
  exact ⟨_, a, rfl, by simp [hraw], by simp [hraw']⟩

/-- The end of an encoder while the notifier runs. -/
theorem EncoderDoneCb_started (hlock : s.mLock = false)
    (hstate : s.mNotifierState = .NOTIFIER_STARTED) (replies : NotifierReplies)
    (encoder : Encoder) : ∃ calls a, s.EncoderDoneCb replies encoder =
        ((s.gEncoderQueue.valueFor encoder.src).map fun _ =>
          (calls, { s with
            encoders := s.encoders.erase encoder
            mRawAvailable := a
            gEncoderQueue := s.gEncoderQueue.removeItem encoder.src })) ∧
      returnedOf calls = [(encoder.src, encoder.mType)] ∧ recordedOf calls = [] := by
  obtain ⟨raw, a, hs, hraw, hraw'⟩ :=
    { s with encoders := s.encoders.erase encoder }.settleRaw_if replies encoder.main_jpeg
  rw [EncoderDoneCb, autolock_eq hlock]
  dsimp only [bind_eq_bind, bind_some]
  rw [← hlock, hs]
  rw [if_pos hstate]
  cases s.gEncoderQueue.valueFor encoder.src with
  | none => exact ⟨[.returnFrame encoder.src encoder.mType], a, rfl, rfl, rfl⟩
  | some e => exact ⟨_, a, rfl, by simp [hraw], by simp [hraw']⟩

theorem joinEncoder_stopped (hlock : s.mLock = false)
    (hstate : s.mNotifierState ≠ .NOTIFIER_STARTED) (replies : NotifierReplies)
    (encoder : Encoder) : ∃ calls a, s.joinEncoder replies encoder =
        some (calls, { s with encoders := s.encoders.erase encoder, mRawAvailable := a }) ∧
      returnedOf calls = [] ∧ recordedOf calls = [] := by
  rw [joinEncoder]
  split
  · exact EncoderDoneCb_stopped hlock hstate replies encoder
  · next hmem =>
    refine ⟨[], s.mRawAvailable, ?_, rfl, rfl⟩
    rw [erase_of_not_mem hmem]

theorem joinEncoders_stopped (replies : NotifierReplies) (es : List Encoder)
    (hlock : s.mLock = false) (hstate : s.mNotifierState ≠ .NOTIFIER_STARTED) :
    ∃ calls a q, joinEncoders replies es s =
        some (calls, { s with
          encoders := s.encoders.diff es
          mRawAvailable := a
          gEncoderQueue := q }) ∧
      returnedOf calls = [] ∧ recordedOf calls = [] := by
  induction es generalizing s with
  | nil => exact ⟨[], s.mRawAvailable, s.gEncoderQueue, rfl, rfl, rfl⟩
  | cons e es ih =>
    obtain ⟨calls, a, heq, hreturned, hrecorded⟩ := joinEncoder_stopped hlock hstate replies e
    obtain ⟨calls', a', q, heq', hreturned', hrecorded'⟩ := ih
      (s := { s with
        encoders := s.encoders.erase e
        mRawAvailable := a
        gEncoderQueue := s.gEncoderQueue.removeItem e.mBuffer }) hlock hstate
    rw [joinEncoders, heq]
    dsimp only [bind_eq_bind, bind_some]
    rw [heq', diff_cons]
    exact ⟨_, a', q, rfl, by simp [hreturned, hreturned'], by simp [hrecorded, hrecorded']⟩

/-! ### Functions without frames -/

theorem flushAndReturnFrames_eq (h : s.mLock = false) : s.flushAndReturnFrames =
    some (s.mFrameQ.map fun frame => .returnFrame frame.mBuffer frame.mFrameType,
      { s with mFrameQ := [] }) := by
  rw [flushAndReturnFrames, autolock_eq h, ← h]

theorem startRecording_eq (h : s.mRecordingLock = false) :
    ∃ ret, s.startRecording = some (ret, { s with mRecording := true }) := by
  obtain ⟨⟨mRecording⟩⟩ := s
  obtain rfl : _ = false := h
  cases mRecording with
  | true => exact ⟨NO_INIT, rfl⟩
  | false => exact ⟨NO_ERROR, rfl⟩

theorem stopRecording_eq (h : s.mRecordingLock = false) :
    ∃ ret, s.stopRecording = some (ret, if s.mRecording then
      { s with toRecordingState := { s.toRecordingState.releaseSharedVideoBuffers with
          mRecording := false } } else s) := by
  obtain ⟨⟨mRecording⟩⟩ := s
  obtain rfl : _ = false := h
  cases mRecording with
  | true => exact ⟨NO_ERROR, rfl⟩
  | false => exact ⟨NO_INIT, rfl⟩

/-! ### What a recording notices -/

/-- A frame leaves the recording as it is; the recorder gets it only as a recorded one. -/
theorem notifyFrame_recording
    (hdata : ∀ b data, s.mVideoMetadataBufferMemoryMap.valueFor b = some data → data ≠ 0)
    (h : s.notifyFrame build replies = some (calls, t)) :
    t.toRecordingState = s.toRecordingState ∧ (recordedOf calls = [] ∨
      ∃ frame rest data handle, s.mFrameQ = frame :: rest ∧
        calls = [.mDataCbTimestamp data handle] ∧ s.mRecording = true ∧
          s.Recorded frame.mBuffer data handle) := by
  have hlock : s.mLock = false := by
    obtain ⟨_, hlock, -⟩ := bind_eq_some_iff.mp h
    exact free_of_autolock hlock
  cases hqueue : s.mFrameQ with
  | nil =>
    rw [notifyFrame_nil hlock hqueue] at h
    obtain ⟨rfl, rfl⟩ := Prod.mk.inj (some.inj h)
    exact ⟨rfl, .inl rfl⟩
  | cons frame rest =>
    rw [notifyFrame_cons hlock hqueue] at h
    by_cases hencodes : ({ s with mFrameQ := rest }).Encodes frame
    · rw [processFrame_encodes hencodes] at h
      cases hbuild : build.JPEG with
      | true =>
        obtain ⟨calls', heq, hrecorded, -⟩ :=
          ({ s with mFrameQ := rest }).encodeFrame_JPEG hbuild replies frame
        obtain ⟨rfl, rfl⟩ := Prod.mk.inj (some.inj (heq.symm.trans h))
        exact ⟨rfl, .inl hrecorded⟩
      | false =>
        rw [encodeFrame, if_pos (by rw [hbuild]; rfl)] at h
        split at h
        · cases h
        · obtain ⟨rfl, rfl⟩ := Prod.mk.inj (some.inj h)
          exact ⟨rfl, .inl rfl⟩
    by_cases hrecords : ({ s with mFrameQ := rest }).Records replies frame
    · rw [processFrame_records hrecords] at h
      have hreclock : s.mRecordingLock = false := by
        rw [videoFrame] at h
        split at h
        · cases h
        · next hlock => exact Bool.not_eq_true _ |>.mp hlock
      rcases videoFrame_cases replies frame (s := { s with mFrameQ := rest }) hreclock hdata with
        ⟨hrecordable, data, handle, heq, hrecorded⟩ | ⟨-, hlost⟩
      · obtain ⟨rfl, rfl⟩ := Prod.mk.inj (some.inj (heq.symm.trans h))
        exact ⟨rfl, .inr ⟨frame, rest, data, handle, rfl, rfl, hrecordable.1, hrecorded⟩⟩
      · obtain ⟨rfl, ht⟩ := hlost calls t h
        rw [ht]
        exact ⟨rfl, .inl rfl⟩
    · obtain ⟨calls', a, n, heq, -, hrecorded⟩ := processFrame_gives build
        (s := { s with mFrameQ := rest }) hlock hencodes hrecords
      obtain ⟨rfl, rfl⟩ := Prod.mk.inj (some.inj (heq.symm.trans h))
      exact ⟨rfl, .inl hrecorded⟩

theorem EncoderDoneCb_recording {encoder : Encoder}
    (h : s.EncoderDoneCb replies encoder = some (calls, t)) :
    t.toRecordingState = s.toRecordingState := by
  have hlock : s.mLock = false := by
    obtain ⟨_, hlock, -⟩ := bind_eq_some_iff.mp h
    exact free_of_autolock hlock
  by_cases hstate : s.mNotifierState = .NOTIFIER_STARTED
  · obtain ⟨calls', a, heq, -⟩ := EncoderDoneCb_started hlock hstate replies encoder
    rw [heq] at h
    obtain ⟨-, -, h⟩ := map_eq_some_iff.mp h
    rw [← (Prod.mk.inj h).2]
  · obtain ⟨calls', a, heq, -⟩ := EncoderDoneCb_stopped hlock hstate replies encoder
    obtain ⟨-, rfl⟩ := Prod.mk.inj (some.inj (heq.symm.trans h))
    rfl

/-- Stopping ends the encoders that still are in the queue. -/
theorem stop_started (hlock : s.mLock = false) (hstate : s.mNotifierState = .NOTIFIER_STARTED)
    (replies : NotifierReplies) : ∃ calls a q, s.stop replies =
        some (NO_ERROR, calls, { s with
          mNotifierState := .NOTIFIER_STOPPED
          encoders := s.encoders.diff s.gEncoderQueue.values
          mRawAvailable := a
          gEncoderQueue := q }) ∧
      returnedOf calls = [] ∧ recordedOf calls = [] := by
  obtain ⟨calls, a, q, heq, hreturned, hrecorded⟩ :=
    joinEncoders_stopped replies s.gEncoderQueue.values
      (s := { s with mNotifierState := .NOTIFIER_STOPPED }) hlock (by simp)
  rw [stop, if_neg (not_not.mpr hstate), autolock_eq hlock]
  dsimp only [bind_eq_bind, bind_some]
  rw [← hlock, heq]
  exact ⟨calls, a, q, rfl, hreturned, hrecorded⟩

theorem stop_recording {ret : status_t} (h : s.stop replies = some (ret, calls, t)) :
    t.toRecordingState = s.toRecordingState := by
  by_cases hstate : s.mNotifierState = .NOTIFIER_STARTED
  · have hlock : s.mLock = false := by
      rw [stop, if_neg (not_not.mpr hstate)] at h
      obtain ⟨_, hlock, -⟩ := bind_eq_some_iff.mp h
      exact free_of_autolock hlock
    obtain ⟨calls', a, q, heq, -⟩ := stop_started hlock hstate replies
    obtain ⟨-, h⟩ := Prod.mk.inj (some.inj (heq.symm.trans h))
    rw [← (Prod.mk.inj h).2]
  · rw [stop, if_pos hstate] at h
    obtain ⟨-, h⟩ := Prod.mk.inj (some.inj h)
    rw [← (Prod.mk.inj h).2]

end AppCallbackNotifier

end OmapHal.Camera
