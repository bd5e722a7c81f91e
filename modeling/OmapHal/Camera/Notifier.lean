import OmapHal.Camera.Capture

/-!
# The notifier of the application

Frames in `AppCallbackNotifier`, built with `COPY_IMAGE_BUFFER`. What a function calls of the frame
provider and of the application stands beside its result. A lock that is held already, a key that
is not in a vector and an index outside of an array have no result.
-/

namespace OmapHal.Camera

open OmapHal.Core (KeyedVector)

def MAX_CAMERA_BUFFERS : Nat := 6

/-- The kinds of `CAMERA_MSG_*`. -/
inductive CameraMsg where
  | RAW_IMAGE | RAW_IMAGE_NOTIFY | COMPRESSED_IMAGE | COMPRESSED_BURST_IMAGE | VIDEO_FRAME
  | POSTVIEW_FRAME | PREVIEW_FRAME
  deriving DecidableEq, Repr

inductive NotifierState where
  | NOTIFIER_STOPPED | NOTIFIER_STARTED | NOTIFIER_EXITED
  deriving DecidableEq, Repr

/-- The symbols of the preprocessor that `notifyFrame` asks for. -/
structure Build where
  JPEG : Bool
  /-- `TARGET_OMAP3` and `OMAP_ENHANCEMENT` -/
  OMAP_ENHANCEMENT : Bool
  deriving DecidableEq, Repr

/-- A thread that encodes a frame. -/
structure Encoder where
  mBuffer : Address
  mType : FrameType
  /-- whether its parameters, with the address of the buffer, could be allocated -/
  main_jpeg : Bool
  deriving DecidableEq, Repr

/-- Without parameters an encoder knows no address. -/
def Encoder.src (encoder : Encoder) : Address := if encoder.main_jpeg then encoder.mBuffer else 0

/-- A call out of the notifier. -/
inductive CallOut where
  | returnFrame (mBuffer : Address) (mFrameType : FrameType)
  | mNotifyCb (msg : CameraMsg)
  | mDataCb (msg : CameraMsg)
  /-- the data of the memory and, where it holds metadata, the handle in it -/
  | mDataCbTimestamp (data : Address) (handle : Option Address)
  deriving DecidableEq, Repr

/-- What the notifier asks for outside of it. A request for memory answers `NULL` or the data of
the memory, which can be `NULL` too. -/
structure NotifierReplies where
  msgTypeEnabled : CameraMsg → Bool
  mRequestMemory : Option Address
  /-- the request in `dummyRaw` -/
  dummyRaw : Option Address
  /-- whether the parameters of an encoder are allocated -/
  main_jpeg : Bool
  /-- whether a thumbnail is asked for and its parameters are allocated -/
  tn_jpeg : Bool
  /-- the memory with the encoded picture -/
  picture : Option Address

/-- What a recording uses. -/
structure RecordingState where
  mRecording : Bool
  mUseMetaDataBufferMode : Bool
  mUseVideoBuffers : Bool
  /-- from a buffer to the data of its memory -/
  mVideoMetadataBufferMemoryMap : KeyedVector Address Address
  mVideoMetadataBufferReverseMap : KeyedVector Address Address
  mVideoMap : KeyedVector Address Address
  mPreviewBufIndex : KeyedVector Address Nat
  mVirtualBuffer : KeyedVector Address Nat
  deriving DecidableEq, Repr

/-- The virtual buffer at the index of a preview buffer. -/
def RecordingState.virtualBuffer (s : RecordingState) (mBuffer : Address) : Option Address := do
  let index ← s.mPreviewBufIndex.valueFor mBuffer
  s.mVirtualBuffer.keyAt index

/-- The handle that is put into the metadata of a frame. -/
def RecordingState.handle (s : RecordingState) (mBuffer : Address) : Option Address :=
  if s.mUseVideoBuffers then s.mVideoMap.valueFor mBuffer else s.virtualBuffer mBuffer

def RecordingState.releaseSharedVideoBuffers (s : RecordingState) : RecordingState :=
  if s.mUseMetaDataBufferMode then
    { s with
      mVideoMetadataBufferMemoryMap := .empty
      mVideoMetadataBufferReverseMap := .empty
      mVideoMap := if s.mUseVideoBuffers then .empty else s.mVideoMap
      mVirtualBuffer := .empty
      mPreviewBufIndex := .empty }
  else s

/-- The buffer that the recorder releases; `word` is what the memory holds at an address. -/
def RecordingState.releasedFrame (s : RecordingState) (word : Address → Address) (mem : Address) :
    Option Address :=
  if s.mUseMetaDataBufferMode then s.mVideoMetadataBufferReverseMap.valueFor mem
  else some (word mem)

structure AppCallbackNotifier extends RecordingState where
  mLock : Bool
  mRecordingLock : Bool
  mCameraHal : Bool
  mNotifyCb : Bool
  mDataCb : Bool
  mNotifierState : NotifierState
  mFrameQ : List CameraFrame
  gEncoderQueue : KeyedVector Address Encoder
  mRawAvailable : Bool
  mMeasurementEnabled : Bool
  mBurst : Bool
  mPreviewMemory : Bool
  mPreviewBufs : List Address
  mPreviewBufCount : Nat
  /-- the encoders that run -/
  encoders : List Encoder
  deriving DecidableEq, Repr

namespace AppCallbackNotifier

def MAX_BUFFERS : Nat := 8

/-- `Mutex::Autolock lock(mLock)` in front of a block. -/
def autolock {α : Type} (s : AppCallbackNotifier)
    (block : AppCallbackNotifier → α × AppCallbackNotifier) : Option (α × AppCallbackNotifier) :=
  if s.mLock then none
  else
    let (x, s) := block { s with mLock := true }
    some (x, { s with mLock := false })

/-- `Mutex::Autolock lock(mRecordingLock)` in front of a block. -/
def autolockRecording {α : Type} (s : AppCallbackNotifier)
    (block : AppCallbackNotifier → α × AppCallbackNotifier) : Option (α × AppCallbackNotifier) :=
  if s.mRecordingLock then none
  else
    let (x, s) := block { s with mRecordingLock := true }
    some (x, { s with mRecordingLock := false })

/-! ### Pictures -/

def dummyRaw (s : AppCallbackNotifier) (replies : NotifierReplies) : List CallOut :=
  if s.mCameraHal && s.mDataCb && s.mNotifyCb then
    if replies.msgTypeEnabled .RAW_IMAGE then
      if replies.dummyRaw = none then [] else [.mDataCb .RAW_IMAGE]
    else if replies.msgTypeEnabled .RAW_IMAGE_NOTIFY then [.mNotifyCb .RAW_IMAGE_NOTIFY]
    else []
  else []

/-- The raw image that belongs to a picture was there, or a dummy takes its place. -/
def settleRaw (s : AppCallbackNotifier) (replies : NotifierReplies) :
    List CallOut × AppCallbackNotifier :=
  if !s.mRawAvailable then (s.dummyRaw replies, s) else ([], { s with mRawAvailable := false })

def copyAndSendPictureFrame (s : AppCallbackNotifier) (replies : NotifierReplies)
    (frame : CameraFrame) (msgType : CameraMsg) : Option (List CallOut × AppCallbackNotifier) := do
  let (picture, s) ← s.autolock fun s =>
    (if s.mNotifierState ≠ .NOTIFIER_STARTED then none else replies.mRequestMemory, s)
  let sent :=
    if picture ≠ none ∧ s.mNotifierState = .NOTIFIER_STARTED ∧ replies.msgTypeEnabled msgType then
      [CallOut.mDataCb msgType]
    else []
  some (.returnFrame frame.mBuffer frame.mFrameType :: sent, s)

def copyAndSendPreviewFrame (s : AppCallbackNotifier) (replies : NotifierReplies)
    (frame : CameraFrame) (msgType : CameraMsg) : Option (List CallOut × AppCallbackNotifier) := do
  let (dest, s) ← s.autolock fun s =>
    (if s.mNotifierState ≠ .NOTIFIER_STARTED then 0
      else if !s.mPreviewMemory ∨ frame.mBuffer = 0 then 0
      else s.mPreviewBufs.getD s.mPreviewBufCount 0, s)
  let sent :=
    if s.mNotifierState = .NOTIFIER_STARTED ∧ replies.msgTypeEnabled msgType ∧ dest ≠ 0 then
      [CallOut.mDataCb msgType]
    else []
  some (.returnFrame frame.mBuffer frame.mFrameType :: sent,
    { s with mPreviewBufCount := (s.mPreviewBufCount + 1) % MAX_BUFFERS })

/-! ### Frames -/

def rawFrame (s : AppCallbackNotifier) (replies : NotifierReplies) (frame : CameraFrame) :
    Option (List CallOut × AppCallbackNotifier) := do
  let (calls, s) ←
    if replies.msgTypeEnabled .RAW_IMAGE then s.copyAndSendPictureFrame replies frame .RAW_IMAGE
    else
      let notified :=
        if replies.msgTypeEnabled .RAW_IMAGE_NOTIFY then [CallOut.mNotifyCb .RAW_IMAGE_NOTIFY]
        else []
      some (notified ++ [.returnFrame frame.mBuffer frame.mFrameType], s)
  some (calls, { s with mRawAvailable := true })

/-- Without `JPEG` an encoder gets the frame, else its picture was encoded before. -/
def encodeFrame (build : Build) (s : AppCallbackNotifier) (replies : NotifierReplies)
    (frame : CameraFrame) : Option (List CallOut × AppCallbackNotifier) :=
  if !build.JPEG then
    let encoder : Encoder := ⟨frame.mBuffer, frame.mFrameType, replies.main_jpeg⟩
    if replies.tn_jpeg && !s.mPreviewMemory then none
    else
      some ([], { s with
        encoders := encoder :: s.encoders
        gEncoderQueue := s.gEncoderQueue.add frame.mBuffer encoder })
  else
    let started : Bool := s.mNotifierState = .NOTIFIER_STARTED
    let sent :=
      if build.OMAP_ENHANCEMENT then
        if s.mBurst then [CallOut.mDataCb .COMPRESSED_BURST_IMAGE]
        else if replies.mRequestMemory ≠ none ∧ started ∧ replies.msgTypeEnabled .COMPRESSED_IMAGE
        then [.mDataCb .COMPRESSED_IMAGE]
        else []
      else [.mDataCb .COMPRESSED_IMAGE]
    let back := if started then [CallOut.returnFrame frame.mBuffer frame.mFrameType] else []
    some (sent ++ back, s)

def imageFrame (s : AppCallbackNotifier) (replies : NotifierReplies) (frame : CameraFrame) :
    Option (List CallOut × AppCallbackNotifier) := do
  let (raw, s) := s.settleRaw replies
  let (calls, s) ← s.copyAndSendPictureFrame replies frame .COMPRESSED_IMAGE
  some (raw ++ calls, s)

/-- Where one of the pointers is `NULL`, the lock stays held. -/
def videoFrame (s : AppCallbackNotifier) (replies : NotifierReplies) (frame : CameraFrame) :
    Option (List CallOut × AppCallbackNotifier) :=
  if s.mRecordingLock then none
  else
    let s := { s with mRecordingLock := true }
    if !s.mRecording then some ([], { s with mRecordingLock := false })
    else if s.mUseMetaDataBufferMode then do
      let data ← s.mVideoMetadataBufferMemoryMap.valueFor frame.mBuffer
      if data = 0 ∨ frame.mBuffer = 0 then some ([], s)
      else
        let handle ← s.handle frame.mBuffer
        some ([.mDataCbTimestamp data (some handle)], { s with mRecordingLock := false })
    else if replies.mRequestMemory.getD 0 = 0 ∨ frame.mBuffer = 0 then some ([], s)
    else do
      let data ← s.virtualBuffer frame.mBuffer
      some ([.mDataCbTimestamp data none], { s with mRecordingLock := false })

def measuredFrame (s : AppCallbackNotifier) (replies : NotifierReplies) (frame : CameraFrame)
    (msgType : CameraMsg) : Option (List CallOut × AppCallbackNotifier) :=
  if !s.mMeasurementEnabled then s.copyAndSendPreviewFrame replies frame msgType
  else some ([.returnFrame frame.mBuffer frame.mFrameType], s)

/-- `NOTIFIER_CMD_PROCESS_FRAME` -/
def processFrame (build : Build) (s : AppCallbackNotifier) (replies : NotifierReplies)
    (frame : CameraFrame) : Option (List CallOut × AppCallbackNotifier) :=
  if frame.mFrameType = .RAW_FRAME ∧ s.mCameraHal ∧ s.mDataCb ∧ s.mNotifyCb then
    s.rawFrame replies frame
  else if frame.mFrameType = .IMAGE_FRAME ∧ s.mCameraHal ∧ s.mDataCb ∧
      frame.ENCODE_RAW_YUV422I_TO_JPEG then
    s.encodeFrame build replies frame
  else if frame.mFrameType = .IMAGE_FRAME ∧ s.mCameraHal ∧ s.mDataCb then
    s.imageFrame replies frame
  else if frame.mFrameType = .VIDEO_FRAME_SYNC ∧ s.mCameraHal ∧ s.mDataCb ∧
      replies.msgTypeEnabled .VIDEO_FRAME then
    s.videoFrame replies frame
  else if frame.mFrameType = .SNAPSHOT_FRAME ∧ s.mCameraHal ∧ s.mDataCb ∧ s.mNotifyCb then
    s.measuredFrame replies frame .POSTVIEW_FRAME
  else if frame.mFrameType = .PREVIEW_FRAME_SYNC ∧ s.mCameraHal ∧ s.mDataCb ∧
      replies.msgTypeEnabled .PREVIEW_FRAME then
    s.measuredFrame replies frame .PREVIEW_FRAME
  else if frame.mFrameType = .FRAME_DATA_SYNC ∧ s.mCameraHal ∧ s.mDataCb ∧
      replies.msgTypeEnabled .PREVIEW_FRAME then
    s.copyAndSendPreviewFrame replies frame .PREVIEW_FRAME
  else some ([.returnFrame frame.mBuffer frame.mFrameType], s)

def notifyFrame (build : Build) (s : AppCallbackNotifier) (replies : NotifierReplies) :
    Option (List CallOut × AppCallbackNotifier) := do
  let (msg, s) ← s.autolock fun s => (s.mFrameQ.head?, { s with mFrameQ := s.mFrameQ.tail })
  match msg with
  | none => some ([], s)
  | some frame => s.processFrame build replies frame

/-- `caFrame` is `NULL` or a frame. -/
def frameCallback (s : AppCallbackNotifier) (caFrame : Option CameraFrame) : AppCallbackNotifier :=
  match caFrame with
  | none => s
  | some frame => { s with mFrameQ := s.mFrameQ ++ [frame] }

def flushAndReturnFrames (s : AppCallbackNotifier) : Option (List CallOut × AppCallbackNotifier) :=
  s.autolock fun s =>
    (s.mFrameQ.map fun frame => .returnFrame frame.mBuffer frame.mFrameType,
      { s with mFrameQ := [] })

/-! ### Encoders -/

/-- The end of an encoder. -/
def EncoderDoneCb (s : AppCallbackNotifier) (replies : NotifierReplies) (encoder : Encoder) :
    Option (List CallOut × AppCallbackNotifier) := do
  let (_, s) ← s.autolock fun s => ((), { s with encoders := s.encoders.erase encoder })
  let (raw, s) := if encoder.main_jpeg then s.settleRaw replies else ([], s)
  let sent :=
    if encoder.main_jpeg ∧ replies.picture ≠ none ∧ s.mNotifierState = .NOTIFIER_STARTED ∧
        replies.msgTypeEnabled .COMPRESSED_IMAGE then
      [CallOut.mDataCb .COMPRESSED_IMAGE]
    else []
  if s.mNotifierState = .NOTIFIER_STARTED then
    let _ ← s.gEncoderQueue.valueFor encoder.src
    some (raw ++ sent ++ [.returnFrame encoder.src encoder.mType],
      { s with gEncoderQueue := s.gEncoderQueue.removeItem encoder.src })
  else some (raw ++ sent, s)

/-- `cancel` and `join`: an encoder that still runs comes to its end. -/
def joinEncoder (s : AppCallbackNotifier) (replies : NotifierReplies) (encoder : Encoder) :
    Option (List CallOut × AppCallbackNotifier) :=
  if encoder ∈ s.encoders then s.EncoderDoneCb replies encoder else some ([], s)

/-- The loop of `stop` over encoders. -/
def joinEncoders (replies : NotifierReplies) :
    List Encoder → AppCallbackNotifier → Option (List CallOut × AppCallbackNotifier)
  | [], s => some ([], s)
  | encoder :: rest, s => do
    let (done, s) ← s.joinEncoder replies encoder
    let s := { s with gEncoderQueue := s.gEncoderQueue.removeItem encoder.mBuffer }
    let (calls, s) ← joinEncoders replies rest s
    some (done ++ calls, s)

def stop (s : AppCallbackNotifier) (replies : NotifierReplies) :
    Option (status_t × List CallOut × AppCallbackNotifier) :=
  if s.mNotifierState ≠ .NOTIFIER_STARTED then some (ALREADY_EXISTS, [], s)
  else do
    let (_, s) ← s.autolock fun s => ((), { s with mNotifierState := .NOTIFIER_STOPPED })
    let (calls, s) ← joinEncoders replies s.gEncoderQueue.values s
    some (NO_ERROR, calls, s)

def start (s : AppCallbackNotifier) : status_t × AppCallbackNotifier :=
  if s.mNotifierState = .NOTIFIER_STARTED then (ALREADY_EXISTS, s)
  else (NO_ERROR, { s with mNotifierState := .NOTIFIER_STARTED, gEncoderQueue := .empty })

/-! ### Recording -/

/-- The loop of `initSharedVideoBuffers` over turns, for metadata. -/
def initMetadataBuffers (mRequestMemory : Nat → Option Address) (bufArr : List Address)
    (vBufArr : Option (List Address)) :
    List Nat → AppCallbackNotifier → Option (status_t × AppCallbackNotifier)
  | [], s => some (NO_ERROR, s)
  | i :: rest, s =>
    let data := (mRequestMemory i).getD 0
    if data = 0 then some (NO_MEMORY, s)
    else do
      let buf ← bufArr[i]?
      let s := { s with
        mVideoMetadataBufferMemoryMap := s.mVideoMetadataBufferMemoryMap.add buf data
        mVideoMetadataBufferReverseMap := s.mVideoMetadataBufferReverseMap.add data buf
        mPreviewBufIndex := s.mPreviewBufIndex.add buf i }
      match vBufArr with
      | none => initMetadataBuffers mRequestMemory bufArr vBufArr rest s
      | some vBufs => do
        let vBuf ← vBufs[i]?
        initMetadataBuffers mRequestMemory bufArr vBufArr rest { s with
          mVirtualBuffer := s.mVirtualBuffer.add vBuf i
          mVideoMap := s.mVideoMap.add buf vBuf }

/-- The loop of `initSharedVideoBuffers` over turns, without metadata. -/
def initPlainBuffers (bufArr vBufArr : List Address) :
    List Nat → AppCallbackNotifier → Option (status_t × AppCallbackNotifier)
  | [], s => some (NO_ERROR, s)
  | i :: rest, s => do
    let buf ← bufArr[i]?
    let vBuf ← vBufArr[i]?
    initPlainBuffers bufArr vBufArr rest { s with
      mPreviewBufIndex := s.mPreviewBufIndex.add buf i
      mVirtualBuffer := s.mVirtualBuffer.add vBuf i }

/-- `buffers` and `vidBufs` are `NULL` or point to addresses. -/
def initSharedVideoBuffers (s : AppCallbackNotifier) (mRequestMemory : Nat → Option Address)
    (buffers : Option (List Address)) (count : Nat) (vidBufs : Option (List Address)) :
    Option (status_t × AppCallbackNotifier) :=
  if s.mUseMetaDataBufferMode then
    match buffers with
    | none => some (BAD_VALUE, s)
    | some bufArr => initMetadataBuffers mRequestMemory bufArr vidBufs (List.range count) s
  else do
    let bufArr ← buffers
    let vBufArr ← vidBufs
    initPlainBuffers bufArr vBufArr (List.range 6) s

def startRecording (s : AppCallbackNotifier) : Option (status_t × AppCallbackNotifier) :=
  s.autolockRecording fun s =>
    if s.mRecording then (NO_INIT, s) else (NO_ERROR, { s with mRecording := true })

def stopRecording (s : AppCallbackNotifier) : Option (status_t × AppCallbackNotifier) :=
  s.autolockRecording fun s =>
    if !s.mRecording then (NO_INIT, s)
    else
      (NO_ERROR, { s with
        toRecordingState := { s.toRecordingState.releaseSharedVideoBuffers with
          mRecording := false } })

def releaseRecordingFrame (s : AppCallbackNotifier) (word : Address → Address) (mem : Address) :
    Option (status_t × List CallOut) :=
  if mem = 0 then some (-1, [])
  else do
    let frame ← s.releasedFrame word mem
    some (NO_ERROR, [.returnFrame frame .VIDEO_FRAME_SYNC])

end AppCallbackNotifier

end OmapHal.Camera
