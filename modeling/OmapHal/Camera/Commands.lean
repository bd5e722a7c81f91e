import OmapHal.Camera.Model

/-!
# Camera commands

`setState`, `commitState`, `rollbackState` and `sendCommand` of `BaseCameraAdapter`. What the
operation of a derived adapter returns comes with the command; recording is started and stopped by
the base class itself.
-/

namespace OmapHal.Camera

open OmapHal.Core (KeyedVector)

inductive CameraCommands where
  | CAMERA_START_PREVIEW | CAMERA_STOP_PREVIEW | CAMERA_START_VIDEO | CAMERA_STOP_VIDEO
  | CAMERA_START_IMAGE_CAPTURE | CAMERA_STOP_IMAGE_CAPTURE | CAMERA_PERFORM_AUTOFOCUS
  | CAMERA_CANCEL_AUTOFOCUS | CAMERA_PREVIEW_FLUSH_BUFFERS | CAMERA_START_SMOOTH_ZOOM
  | CAMERA_STOP_SMOOTH_ZOOM | CAMERA_USE_BUFFERS_PREVIEW | CAMERA_SET_TIMEOUT
  | CAMERA_CANCEL_TIMEOUT | CAMERA_START_BRACKET_CAPTURE | CAMERA_STOP_BRACKET_CAPTURE
  | CAMERA_QUERY_RESOLUTION_PREVIEW | CAMERA_QUERY_BUFFER_SIZE_IMAGE_CAPTURE
  | CAMERA_QUERY_BUFFER_SIZE_PREVIEW_DATA | CAMERA_USE_BUFFERS_IMAGE_CAPTURE
  | CAMERA_USE_BUFFERS_PREVIEW_DATA | CAMERA_TIMEOUT_EXPIRED | CAMERA_START_FD | CAMERA_STOP_FD
  | CAMERA_SWITCH_TO_EXECUTING
  deriving DecidableEq, Repr

/-- The state that `setState` designates, where it allows the command. -/
def AdapterState.next : AdapterState → CameraCommands → Option AdapterState
  | .INTIALIZED_STATE, operation =>
    match operation with
    | .CAMERA_USE_BUFFERS_PREVIEW => some .LOADED_PREVIEW_STATE
    | .CAMERA_QUERY_RESOLUTION_PREVIEW | .CAMERA_QUERY_BUFFER_SIZE_IMAGE_CAPTURE
    | .CAMERA_QUERY_BUFFER_SIZE_PREVIEW_DATA => some .INTIALIZED_STATE
    | _ => none
  | .LOADED_PREVIEW_STATE, operation =>
    match operation with
    | .CAMERA_START_PREVIEW => some .PREVIEW_STATE
    | .CAMERA_QUERY_BUFFER_SIZE_IMAGE_CAPTURE | .CAMERA_QUERY_BUFFER_SIZE_PREVIEW_DATA
    | .CAMERA_USE_BUFFERS_PREVIEW_DATA => some .LOADED_PREVIEW_STATE
    | _ => none
  | .PREVIEW_STATE, operation =>
    match operation with
    | .CAMERA_STOP_PREVIEW => some .INTIALIZED_STATE
    | .CAMERA_PERFORM_AUTOFOCUS => some .AF_STATE
    | .CAMERA_START_SMOOTH_ZOOM => some .ZOOM_STATE
    | .CAMERA_USE_BUFFERS_IMAGE_CAPTURE => some .LOADED_CAPTURE_STATE
    | .CAMERA_START_VIDEO => some .VIDEO_STATE
    | .CAMERA_CANCEL_AUTOFOCUS | .CAMERA_QUERY_BUFFER_SIZE_IMAGE_CAPTURE
    | .CAMERA_STOP_SMOOTH_ZOOM => some .PREVIEW_STATE
    | _ => none
  | .LOADED_CAPTURE_STATE, operation =>
    match operation with
    | .CAMERA_START_IMAGE_CAPTURE => some .CAPTURE_STATE
    | .CAMERA_START_BRACKET_CAPTURE => some .BRACKETING_STATE
    | _ => none
  | .CAPTURE_STATE, operation =>
    match operation with
    | .CAMERA_STOP_IMAGE_CAPTURE | .CAMERA_STOP_BRACKET_CAPTURE => some .PREVIEW_STATE
    | _ => none
  | .BRACKETING_STATE, operation =>
    match operation with
    | .CAMERA_STOP_IMAGE_CAPTURE | .CAMERA_STOP_BRACKET_CAPTURE => some .PREVIEW_STATE
    | .CAMERA_START_IMAGE_CAPTURE => some .CAPTURE_STATE
    | _ => none
  | .AF_STATE, operation =>
    match operation with
    | .CAMERA_CANCEL_AUTOFOCUS => some .PREVIEW_STATE
    | .CAMERA_START_SMOOTH_ZOOM => some .AF_ZOOM_STATE
    | _ => none
  | .ZOOM_STATE, operation =>
    match operation with
    | .CAMERA_CANCEL_AUTOFOCUS => some .ZOOM_STATE
    | .CAMERA_STOP_SMOOTH_ZOOM => some .PREVIEW_STATE
    | .CAMERA_PERFORM_AUTOFOCUS => some .AF_ZOOM_STATE
    | .CAMERA_START_VIDEO => some .VIDEO_ZOOM_STATE
    | _ => none
  | .VIDEO_STATE, operation =>
    match operation with
    | .CAMERA_STOP_VIDEO => some .PREVIEW_STATE
    | .CAMERA_PERFORM_AUTOFOCUS => some .VIDEO_AF_STATE
    | .CAMERA_START_SMOOTH_ZOOM => some .VIDEO_ZOOM_STATE
    | .CAMERA_USE_BUFFERS_IMAGE_CAPTURE => some .VIDEO_LOADED_CAPTURE_STATE
    | .CAMERA_QUERY_BUFFER_SIZE_IMAGE_CAPTURE => some .VIDEO_STATE
    | _ => none
  | .VIDEO_AF_STATE, operation =>
    match operation with
    | .CAMERA_CANCEL_AUTOFOCUS => some .VIDEO_STATE
    | _ => none
  | .VIDEO_LOADED_CAPTURE_STATE, operation =>
    match operation with
    | .CAMERA_START_IMAGE_CAPTURE => some .VIDEO_CAPTURE_STATE
    | _ => none
  | .VIDEO_CAPTURE_STATE, operation =>
    match operation with
    | .CAMERA_STOP_IMAGE_CAPTURE => some .VIDEO_STATE
    | _ => none
  | .AF_ZOOM_STATE, operation =>
    match operation with
    | .CAMERA_STOP_SMOOTH_ZOOM => some .AF_STATE
    | .CAMERA_CANCEL_AUTOFOCUS => some .ZOOM_STATE
    | _ => none
  | .VIDEO_ZOOM_STATE, operation =>
    match operation with
    | .CAMERA_STOP_SMOOTH_ZOOM => some .VIDEO_STATE
    | .CAMERA_STOP_VIDEO => some .ZOOM_STATE
    | _ => none
  | .BRACKETING_ZOOM_STATE, operation =>
    match operation with
    | .CAMERA_STOP_SMOOTH_ZOOM => some .BRACKETING_STATE
    | _ => none
  | .undeclared _, _ => none

def Adapter.setState (s : Adapter) (operation : CameraCommands) : status_t × Adapter :=
  match s.mAdapterState.next operation with
  | some next => (NO_ERROR, { s with mNextState := next })
  | none => (INVALID_OPERATION, s)

def Adapter.commitState (s : Adapter) : status_t × Adapter :=
  (NO_ERROR, { s with mAdapterState := s.mNextState })

def Adapter.rollbackState (s : Adapter) : status_t × Adapter :=
  (NO_ERROR, { s with mNextState := s.mAdapterState })

inductive CameraMode where
  | CAMERA_PREVIEW | CAMERA_IMAGE_CAPTURE | CAMERA_MEASUREMENT
  deriving DecidableEq, Repr

/-- The operations behind the commands. -/
inductive Operation where
  | startPreview | stopPreview | startVideoCapture | stopVideoCapture | takePicture
  | stopImageCapture | autoFocus | cancelAutoFocus | flushBuffers | startSmoothZoom
  | stopSmoothZoom | useBuffers (mode : CameraMode) | startBracketing | stopBracketing
  | getFrameSize | getPictureBufferSize | getFrameDataSize | startFaceDetection
  | stopFaceDetection | switchToExecuting
  deriving DecidableEq, Repr

structure BuffersDescriptor where
  mBuffers : Nat → Address
  mCount : Nat
  mMaxQueueable : Nat

/-- The counts of new buffers: those that cannot be queued are still with their provider. -/
def BuffersDescriptor.available {α : Type} (desc : BuffersDescriptor) (free held : α) :
    KeyedVector Address α :=
  (List.range' desc.mMaxQueueable (desc.mCount - desc.mMaxQueueable)).foldl
    (fun v i => v.add (desc.mBuffers i) held)
    ((List.range desc.mMaxQueueable).foldl (fun v i => v.add (desc.mBuffers i) free) .empty)

/-- A call of `sendCommand`: the command and its first value, what a descriptor at that address
holds, and what the operation of the derived adapter returns. -/
structure Call where
  operation : CameraCommands
  value1 : Address
  desc : BuffersDescriptor
  outcome : status_t

/-- The status so far, the operation that was called, and the adapter. -/
structure Reply where
  ret : status_t
  executed : Option Operation
  adapter : Adapter
  deriving DecidableEq, Repr

def Call.run (call : Call) (operation : Operation) (s : Adapter) : Option Reply :=
  some ⟨call.outcome, some operation, s⟩

/-- An operation that writes to the frame at `value1`. -/
def Call.query (call : Call) (operation : Operation) (s : Adapter) : Option Reply :=
  if call.value1 = 0 then some ⟨-EINVAL, none, s⟩ else call.run operation s

/-- What a command does between `setState` and `commitState`. `flushBuffers` sends its own
command, which waits for the lock that `setState` has taken. -/
def Call.perform (call : Call) (s : Adapter) : Option Reply :=
  match call.operation with
  | .CAMERA_USE_BUFFERS_PREVIEW =>
    call.run (.useBuffers .CAMERA_PREVIEW)
      { s with mPreviewBuffersAvailable := call.desc.available 0 1 }
  | .CAMERA_USE_BUFFERS_PREVIEW_DATA =>
    call.run (.useBuffers .CAMERA_MEASUREMENT)
      { s with mPreviewDataBuffersAvailable := call.desc.available false true }
  | .CAMERA_USE_BUFFERS_IMAGE_CAPTURE =>
    call.run (.useBuffers .CAMERA_IMAGE_CAPTURE)
      { s with mCaptureBuffersAvailable := call.desc.available false true }
  | .CAMERA_START_SMOOTH_ZOOM => call.run .startSmoothZoom s
  | .CAMERA_STOP_SMOOTH_ZOOM => call.run .stopSmoothZoom s
  | .CAMERA_START_PREVIEW => call.run .startPreview s
  | .CAMERA_STOP_PREVIEW => call.run .stopPreview s
  | .CAMERA_START_VIDEO =>
    some ⟨s.startVideoCapture.1, some .startVideoCapture, s.startVideoCapture.2⟩
  | .CAMERA_STOP_VIDEO =>
    s.stopVideoCapture.map fun (ret, s) => ⟨ret, some .stopVideoCapture, s⟩
  | .CAMERA_PREVIEW_FLUSH_BUFFERS => none
  | .CAMERA_START_IMAGE_CAPTURE => call.run .takePicture s
  | .CAMERA_STOP_IMAGE_CAPTURE => call.run .stopImageCapture s
  | .CAMERA_START_BRACKET_CAPTURE => call.run .startBracketing s
  | .CAMERA_STOP_BRACKET_CAPTURE => call.run .stopBracketing s
  | .CAMERA_PERFORM_AUTOFOCUS => call.run .autoFocus s
  | .CAMERA_CANCEL_AUTOFOCUS => call.run .cancelAutoFocus s
  | .CAMERA_QUERY_RESOLUTION_PREVIEW => call.query .getFrameSize s
  | .CAMERA_QUERY_BUFFER_SIZE_IMAGE_CAPTURE => call.query .getPictureBufferSize s
  | .CAMERA_QUERY_BUFFER_SIZE_PREVIEW_DATA => call.query .getFrameDataSize s
  | .CAMERA_START_FD => call.run .startFaceDetection s
  | .CAMERA_STOP_FD => call.run .stopFaceDetection s
  | .CAMERA_SWITCH_TO_EXECUTING => call.run .switchToExecuting s
  | .CAMERA_SET_TIMEOUT | .CAMERA_CANCEL_TIMEOUT | .CAMERA_TIMEOUT_EXPIRED =>
    some ⟨NO_ERROR, none, s⟩

/-- The end of most commands. -/
def Reply.settle (r : Reply) : Reply :=
  if r.ret = NO_ERROR then
    { r with ret := r.adapter.commitState.1, adapter := r.adapter.commitState.2 }
  else
    { r with
      ret := r.ret ||| r.adapter.rollbackState.1
      adapter := r.adapter.rollbackState.2 }

/-- The end of `CAMERA_START_PREVIEW`, where the status of the rollback takes the place of the
error. -/
def Reply.settlePreview (r : Reply) : Reply :=
  if r.ret = NO_ERROR then
    { r with ret := r.adapter.commitState.1, adapter := r.adapter.commitState.2 }
  else { r with ret := r.adapter.rollbackState.1, adapter := r.adapter.rollbackState.2 }

/-- `setState`, and the operation where it allows the command. -/
def Call.attempt (call : Call) (s : Adapter) : Option Reply :=
  if (s.setState call.operation).1 = NO_ERROR then call.perform (s.setState call.operation).2
  else some ⟨(s.setState call.operation).1, none, (s.setState call.operation).2⟩

/-- The commands with a descriptor: `useBuffers` is called whether the command is allowed or
not. -/
def Call.supply (call : Call) (mode : CameraMode) (s : Adapter) : Option Reply :=
  if call.value1 = 0 then some ⟨-EINVAL, none, s⟩
  else if (s.setState call.operation).1 = NO_ERROR then
    (call.perform (s.setState call.operation).2).map Reply.settle
  else (call.run (.useBuffers mode) (s.setState call.operation).2).map Reply.settle

/-- `sendCommand`; `ICAP` is an option of the build. -/
def Adapter.sendCommand (ICAP : Bool) (s : Adapter) (call : Call) : Option Reply :=
  match call.operation with
  | .CAMERA_USE_BUFFERS_PREVIEW => call.supply .CAMERA_PREVIEW s
  | .CAMERA_USE_BUFFERS_PREVIEW_DATA => call.supply .CAMERA_MEASUREMENT s
  | .CAMERA_USE_BUFFERS_IMAGE_CAPTURE => call.supply .CAMERA_IMAGE_CAPTURE s
  | .CAMERA_START_PREVIEW =>
    if call.value1 = 1 then (call.attempt s).map Reply.settlePreview else call.perform s
  | .CAMERA_STOP_PREVIEW =>
    if call.value1 = 1 ∨ ICAP then (call.attempt s).map Reply.settle else call.perform s
  | .CAMERA_START_FD | .CAMERA_STOP_FD | .CAMERA_SWITCH_TO_EXECUTING | .CAMERA_SET_TIMEOUT
  | .CAMERA_CANCEL_TIMEOUT | .CAMERA_TIMEOUT_EXPIRED => call.perform s
  | _ => (call.attempt s).map Reply.settle

end OmapHal.Camera
