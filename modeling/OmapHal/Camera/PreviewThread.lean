import OmapHal.Camera.Capture

/-!
# The preview thread

`previewThread` of `CameraHal`, which takes commands from one queue and answers them on another
one, with the functions of the camera that it calls. The camera adapter is there since
`initialize`; the build is the one without `FW3A`, `ICAP` and the image pipeline. What the driver
and the adapters answer comes with an iteration of the thread.
-/

namespace OmapHal.Camera

inductive PreviewThreadCommands where
  | PREVIEW_START | PREVIEW_STOP | PREVIEW_AF_START | PREVIEW_AF_STOP | PREVIEW_CAPTURE
  | PREVIEW_CAPTURE_CANCEL | PREVIEW_KILL | PREVIEW_CAF_START | PREVIEW_CAF_STOP | PREVIEW_FPS
  | START_SMOOTH_ZOOM | STOP_SMOOTH_ZOOM | PREVIEW_ACK | PREVIEW_NACK
  deriving DecidableEq, Repr

structure PreviewMessage where
  command : PreviewThreadCommands
  arg1 : Int
  deriving DecidableEq, Repr

inductive SmoothZoomStatus where
  | SMOOTH_START | SMOOTH_NOTIFY_AND_STOP | SMOOTH_STOP
  deriving DecidableEq, Repr

def ZOOM_STAGES : Int := 41

/-- What the driver, the display adapter, the callback notifier and the camera adapter answer
while a command is served. -/
structure PreviewSteps where
  /-- whether `VIDEO_DEVICE` opens -/
  opened : Bool
  VIDIOC_S_FMT : Int
  VIDIOC_G_PARM : Int
  VIDIOC_S_PARM : Int
  VIDIOC_G_CROP : Int
  /-- whether it is not `NULL` -/
  allocateBuffer : Bool
  /-- whether it is not `NULL` -/
  getOffsets : Bool
  getFd : Int
  maxQueueableBuffers : status_t
  enableDisplay : status_t
  pauseDisplay : status_t
  /-- `start` of the callback notifier -/
  notifierStart : status_t
  getState : AdapterState
  CAMERA_USE_BUFFERS_PREVIEW : status_t
  CAMERA_QUERY_BUFFER_SIZE_IMAGE_CAPTURE : status_t
  CAMERA_USE_BUFFERS_IMAGE_CAPTURE : status_t
  CAMERA_START_IMAGE_CAPTURE : status_t
  CAMERA_START_PREVIEW : status_t
  deriving DecidableEq, Repr

/-- What `CameraHal` keeps for its preview thread. -/
structure PreviewThread where
  /-- whether it is an open device -/
  camera_device : Bool
  mDisplayAdapter : Bool
  mPreviewBufs : Bool
  /-- whether it is a display adapter that is there -/
  mBufProvider : Bool
  mPreviewRunning : Bool
  mCaptureRunning : Bool
  mCaptureMode : Bool
  mFalsePreview : Bool
  mCAFafterPreview : Bool
  frame_count : Int
  mZoomCurrentIdx : Int
  mZoomTargetIdx : Int
  mZoomSpeed : Int
  mSmoothZoomStatus : SmoothZoomStatus
  shouldLive : Bool
  previewThreadCommandQ : List PreviewMessage
  /-- all the answers, also those that their clients took -/
  previewThreadAckQ : List PreviewMessage
  deriving DecidableEq, Repr

namespace PreviewThread

/-! ### The camera -/

/-- Its own answer is 0 also if the device does not open. -/
def CameraCreate (s : PreviewThread) (steps : PreviewSteps) : Int × PreviewThread :=
  (0, { s with camera_device := steps.opened })

/-- Without the provider of the buffers the process ends. -/
def freePreviewBufs (s : PreviewThread) : Option PreviewThread :=
  if !s.mPreviewBufs then some s
  else if s.mBufProvider then some { s with mPreviewBufs := false }
  else none

/-- The answers of what it stops are not looked at. -/
def forceStopPreview (s : PreviewThread) : Option PreviewThread := s.freePreviewBufs

def CameraDestroy (s : PreviewThread) : Option (Int × PreviewThread) :=
  { s with camera_device := false }.forceStopPreview.map (0, ·)

/-- A call of the driver fails without the device. -/
def ioctl (s : PreviewThread) (answer : Int) : Int := if s.camera_device then answer else -1

def CameraConfigure (s : PreviewThread) (steps : PreviewSteps) : Int :=
  if s.ioctl steps.VIDIOC_S_FMT < 0 then -1
  else if s.ioctl steps.VIDIOC_G_PARM ≠ 0 then -1
  else if s.ioctl steps.VIDIOC_S_PARM ≠ 0 then -1
  else 0

/-- The buffers stay also if a step behind their allocation fails. -/
def allocPreviewBufs (s : PreviewThread) (steps : PreviewSteps) : status_t × PreviewThread :=
  if !s.mDisplayAdapter then (NO_MEMORY, s)
  else if s.mPreviewBufs then (NO_ERROR, s)
  else if !steps.allocateBuffer then (NO_MEMORY, s)
  else
    let s := { s with mPreviewBufs := true }
    if !steps.getOffsets then (BAD_VALUE, s)
    else if steps.getFd = -1 then (BAD_VALUE, s)
    else (steps.maxQueueableBuffers, { s with mBufProvider := true })

/-- With buffers from before, the answer of the adapter to them is not looked at. -/
def CameraStart (s : PreviewThread) (steps : PreviewSteps) : Option (Int × PreviewThread) :=
  if s.mPreviewBufs then some (0, s)
  else
    let (ret, s) := s.allocPreviewBufs steps
    if ret ≠ NO_ERROR then some (ret.toInt, s)
    else if steps.CAMERA_USE_BUFFERS_PREVIEW ≠ NO_ERROR then
      s.freePreviewBufs.map (steps.CAMERA_USE_BUFFERS_PREVIEW.toInt, ·)
    else if steps.notifierStart ≠ NO_ERROR ∧ steps.notifierStart ≠ ALREADY_EXISTS then some (-1, s)
    else if s.ioctl steps.VIDIOC_G_CROP < 0 then some (-1, s)
    else if s.mDisplayAdapter ∧ steps.enableDisplay ≠ NO_ERROR then s.freePreviewBufs.map (-1, ·)
    else some (0, s)

/-- If the display does not pause, no capture is started, and the answer is 0 all the same. -/
def ICapturePerform (s : PreviewThread) (steps : PreviewSteps) : Int :=
  if steps.CAMERA_QUERY_BUFFER_SIZE_IMAGE_CAPTURE ≠ NO_ERROR then -1
  else if steps.CAMERA_USE_BUFFERS_IMAGE_CAPTURE ≠ NO_ERROR then -1
  else
    let ret := if s.mDisplayAdapter ∧ steps.getState ≠ .VIDEO_STATE then steps.pauseDisplay
      else NO_ERROR
    if ret = NO_ERROR ∧ steps.CAMERA_START_IMAGE_CAPTURE ≠ NO_ERROR then -1 else 0

/-- It does not look at the answers of the adapter. -/
def CameraStop (s : PreviewThread) : Int × PreviewThread :=
  (0, { s with mZoomCurrentIdx := 0 })

/-- The zoom follows its target; what shows the frame is not here. -/
def nextPreview (s : PreviewThread) : PreviewThread :=
  let s := { s with frame_count := s.frame_count + 1 }
  if s.mZoomCurrentIdx = s.mZoomTargetIdx then s
  else
    let zoom_inc : Int := if s.mZoomCurrentIdx < s.mZoomTargetIdx then 1 else -1
    if 0 < s.mZoomSpeed then
      let s := if s.frame_count % s.mZoomSpeed = 0 then
        { s with mZoomCurrentIdx := s.mZoomCurrentIdx + zoom_inc } else s
      if s.mSmoothZoomStatus = .SMOOTH_NOTIFY_AND_STOP then
        { s with mZoomTargetIdx := s.mZoomCurrentIdx, mSmoothZoomStatus := .SMOOTH_STOP }
      else s
    else { s with mZoomCurrentIdx := s.mZoomTargetIdx }

/-! ### The commands -/

/-- The message of a command comes back as its answer. -/
def answer (msg : PreviewMessage) (ack : Bool) : PreviewMessage :=
  { msg with command := if ack then .PREVIEW_ACK else .PREVIEW_NACK }

/-- Each case ends in an answer and the state behind it; what goes wrong in `CameraCreate`,
`CameraConfigure` and `CameraStart` is overwritten by the answer of the adapter. -/
def start (s : PreviewThread) (steps : PreviewSteps) : Option (Bool × PreviewThread) := do
  let s := { s with mCaptureMode := false }
  let (err, s) ←
    if s.mCaptureRunning then pure (steps.CAMERA_START_PREVIEW.toInt, s)
    else if !s.mPreviewRunning then do
      let (_err, s) := s.CameraCreate steps
      let _err := s.CameraConfigure steps
      let (_err, s) ← s.CameraStart steps
      pure (steps.CAMERA_START_PREVIEW.toInt, s)
    else pure (-1, s)
  if err = 0 then return (true, { s with mPreviewRunning := true, mCaptureRunning := false })
  else return (false, s)

def stop (s : PreviewThread) : Option (Bool × PreviewThread) := do
  let s := { s with mCaptureMode := false }
  if s.mPreviewRunning then
    let (err, s) := s.CameraStop
    let (err', s) ← s.CameraDestroy
    return (0 ≤ err ∧ 0 ≤ err', { s with mPreviewRunning := false })
  else return (false, s)

/-- Only a capture that runs already is refused; what goes wrong in `ICapturePerform`,
`CameraConfigure` and `CameraStart` is only logged. -/
def capture (s : PreviewThread) (steps : PreviewSteps) : Option (Bool × PreviewThread) := do
  let s := { s with mCaptureMode := true }
  if s.mCaptureRunning then return (false, s)
  else
    let s := if s.mPreviewRunning then { s.CameraStop.2 with mPreviewRunning := false } else s
    let _err := s.ICapturePerform steps
    let _err := s.CameraConfigure steps
    let (_err, s) ← s.CameraStart steps
    return (true, { s with mCaptureRunning := true })

def kill (s : PreviewThread) : Bool × PreviewThread :=
  let (err, s) :=
    if s.mPreviewRunning then
      let (err, s) := s.CameraStop
      (err, { s with mPreviewRunning := false })
    else (0, s)
  (0 ≤ err, { s with shouldLive := false })

/-- A process that ends answers nothing any more. -/
def answered (s : PreviewThread) : Option (Bool × PreviewThread) → Option Bool × PreviewThread
  | none => (none, { s with shouldLive := false })
  | some (ack, t) => (some ack, t)

/-- The case of a command, with whether it is acknowledged; a command without a case has no
answer. -/
def serve (s : PreviewThread) (msg : PreviewMessage) (steps : PreviewSteps) :
    Option Bool × PreviewThread :=
  match msg.command with
  | .PREVIEW_START => s.answered (s.start steps)
  | .PREVIEW_STOP => s.answered s.stop
  | .START_SMOOTH_ZOOM =>
    if 0 ≤ msg.arg1 ∧ msg.arg1 < ZOOM_STAGES then
      (some true, { s with
        mZoomTargetIdx := msg.arg1, mZoomSpeed := 1, mSmoothZoomStatus := .SMOOTH_START })
    else (some false, s)
  | .STOP_SMOOTH_ZOOM =>
    (some true, if s.mSmoothZoomStatus = .SMOOTH_START then
      { s with mSmoothZoomStatus := .SMOOTH_NOTIFY_AND_STOP } else s)
  | .PREVIEW_AF_START | .PREVIEW_AF_STOP => (some s.mPreviewRunning, s)
  | .PREVIEW_CAF_START =>
    (some true, if s.mPreviewRunning then s else { s with mCAFafterPreview := true })
  | .PREVIEW_CAF_STOP => (some true, s)
  | .PREVIEW_CAPTURE => s.answered (s.capture steps)
  | .PREVIEW_CAPTURE_CANCEL => (some false, s)
  | .PREVIEW_KILL => s.kill.map some id
  | .PREVIEW_FPS | .PREVIEW_ACK | .PREVIEW_NACK => (none, s)

/-- The message of an iteration; while the preview runs the thread does not wait for one. -/
def incoming (s : PreviewThread) (ready : Bool) : Option (PreviewMessage × List PreviewMessage) :=
  match s.previewThreadCommandQ with
  | [] => none
  | msg :: rest => if s.shouldLive ∧ (s.mPreviewRunning → ready) then some (msg, rest) else none

/-- A frame is shown, while there is a preview. -/
def shown (s : PreviewThread) : PreviewThread :=
  if s.shouldLive ∧ s.mPreviewRunning then s.nextPreview else s

/-- The state in which a command is served that leaves the others in the queue. -/
def serving (s : PreviewThread) (rest : List PreviewMessage) : PreviewThread :=
  { s.shown with previewThreadCommandQ := rest }

/-- An iteration of the thread. -/
def turn (s : PreviewThread) (ready : Bool) (steps : PreviewSteps) : PreviewThread :=
  match s.incoming ready with
  | none => s.shown
  | some (msg, rest) =>
    let (ack, t) := (s.serving rest).serve msg steps
    { t with previewThreadAckQ := t.previewThreadAckQ ++ (ack.map (answer msg)).toList }

/-! ### The clients -/

def put (s : PreviewThread) (msg : PreviewMessage) : PreviewThread :=
  { s with previewThreadCommandQ := s.previewThreadCommandQ ++ [msg] }

/-- Without a display adapter no command is put, and the preview is said to run. -/
def startPreview (s : PreviewThread) (msg : PreviewMessage) : PreviewThread :=
  if !s.mDisplayAdapter then { s with mPreviewRunning := true, mFalsePreview := true }
  else { s with mZoomCurrentIdx := s.mZoomTargetIdx, mFalsePreview := false }.put
    { msg with command := .PREVIEW_START }

def stopPreview (s : PreviewThread) (msg : PreviewMessage) : PreviewThread :=
  { s with mFalsePreview := false }.put { msg with command := .PREVIEW_STOP }

/-- The display adapter goes with the window; a new one restarts a preview that runs. -/
def setPreviewWindow (s : PreviewThread) (window : Bool) (initialized : status_t)
    (msg : PreviewMessage) : PreviewThread :=
  if !window then { s with mDisplayAdapter := false, mBufProvider := false }
  else if s.mDisplayAdapter ∨ initialized ≠ NO_ERROR then s
  else
    let s := { s with mDisplayAdapter := true }
    if s.mPreviewRunning then { s with mPreviewRunning := false }.startPreview msg else s

/-- The constructor opens the device. -/
def construct (steps : PreviewSteps) : PreviewThread where
  camera_device := steps.opened
  mDisplayAdapter := false
  mPreviewBufs := false
  mBufProvider := false
  mPreviewRunning := false
  mCaptureRunning := false
  mCaptureMode := false
  mFalsePreview := false
  mCAFafterPreview := false
  frame_count := 0
  mZoomCurrentIdx := 0
  mZoomTargetIdx := 0
  mZoomSpeed := 0
  mSmoothZoomStatus := .SMOOTH_STOP
  shouldLive := true
  previewThreadCommandQ := []
  previewThreadAckQ := []

end PreviewThread

end OmapHal.Camera
