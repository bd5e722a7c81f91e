import OmapHal.Camera.PreviewThread

/-!
# What the preview thread answers

Over a run of clients that put commands and of the thread that takes them, each command that was
taken has its answer, in order, and the flags of the thread agree with the camera.
-/

namespace OmapHal.Camera

open Option List

open OmapHal.Core (Along)

namespace PreviewThread

variable {s : PreviewThread} {msg : PreviewMessage} {steps : PreviewSteps}

/-- The steps of `CameraConfigure` succeed. -/
def configures (s : PreviewThread) (steps : PreviewSteps) : Bool :=
  0 ≤ s.ioctl steps.VIDIOC_S_FMT ∧ s.ioctl steps.VIDIOC_G_PARM = 0 ∧
    s.ioctl steps.VIDIOC_S_PARM = 0

/-- The steps of `CameraStart` succeed, which with buffers from before is one command. -/
def starts (s : PreviewThread) (steps : PreviewSteps) : Bool :=
  steps.CAMERA_USE_BUFFERS_PREVIEW = NO_ERROR ∧ (s.mPreviewBufs ∨
    s.mDisplayAdapter ∧ steps.allocateBuffer ∧ steps.getOffsets ∧ steps.getFd ≠ -1 ∧
      steps.maxQueueableBuffers = NO_ERROR ∧
      (steps.notifierStart = NO_ERROR ∨ steps.notifierStart = ALREADY_EXISTS) ∧
      0 ≤ s.ioctl steps.VIDIOC_G_CROP ∧ steps.enableDisplay = NO_ERROR)

/-- The steps of `ICapturePerform` succeed; the display is paused unless a video is recorded. -/
def captures (s : PreviewThread) (steps : PreviewSteps) : Bool :=
  steps.CAMERA_QUERY_BUFFER_SIZE_IMAGE_CAPTURE = NO_ERROR ∧
    steps.CAMERA_USE_BUFFERS_IMAGE_CAPTURE = NO_ERROR ∧
    (s.mDisplayAdapter ∧ steps.getState ≠ .VIDEO_STATE → steps.pauseDisplay = NO_ERROR) ∧
    steps.CAMERA_START_IMAGE_CAPTURE = NO_ERROR

/-- The steps that a command must not miss. -/
def succeeded (s : PreviewThread) (msg : PreviewMessage) (steps : PreviewSteps) : Bool :=
  match msg.command with
  | .PREVIEW_START =>
    steps.CAMERA_START_PREVIEW = NO_ERROR ∧ (s.mCaptureRunning ∨ steps.opened ∧
      (s.CameraCreate steps).2.configures steps ∧ (s.CameraCreate steps).2.starts steps)
  | .PREVIEW_CAPTURE => s.captures steps ∧ s.configures steps ∧ s.starts steps
  | _ => true

/-- What holds of the flags. -/
structure Consistent (s : PreviewThread) : Prop where
  alive : s.previewThreadCommandQ = [] ∨ s.shouldLive = true
  apart : ¬ (s.mPreviewRunning = true ∧ s.mCaptureRunning = true)
  opened : s.mPreviewRunning = true → s.camera_device = true

/-- A command that is acknowledged rightly, and leaves the flags right. -/
def Serves (s : PreviewThread) (msg : PreviewMessage) (steps : PreviewSteps) : Prop :=
  match msg.command with
  | .PREVIEW_START =>
    if s.mCaptureRunning then steps.CAMERA_START_PREVIEW = NO_ERROR → s.camera_device = true
    else s.mPreviewRunning = true ∨ (steps.CAMERA_START_PREVIEW = NO_ERROR →
      steps.opened = true ∧ (s.CameraCreate steps).2.configures steps = true ∧
        (s.CameraCreate steps).2.starts steps = true)
  | .PREVIEW_CAPTURE =>
    s.mCaptureRunning = true ∨
      s.captures steps = true ∧ s.configures steps = true ∧ s.starts steps = true
  | .PREVIEW_STOP => s.mPreviewRunning = true → s.mPreviewBufs = true → s.mBufProvider = true
  | .PREVIEW_KILL => s.previewThreadCommandQ = []
  | .PREVIEW_FPS | .PREVIEW_ACK | .PREVIEW_NACK => False
  | _ => True

/-- A command has an answer, which is an acknowledgement only if its steps succeeded. -/
def Acknowledges (s : PreviewThread) (msg : PreviewMessage) (steps : PreviewSteps) : Prop :=
  ∃ ack, (s.serve msg steps).1 = some ack ∧ (ack = true → s.succeeded msg steps = true)

theorem toInt_eq_zero (ret : status_t) : ret.toInt = 0 ↔ ret = NO_ERROR :=
  BitVec.toInt_inj (y := NO_ERROR)

theorem allocPreviewBufs_eq (hbufs : s.mPreviewBufs = false) (steps : PreviewSteps) :
    ∃ ret mPreviewBufs mBufProvider, s.allocPreviewBufs steps =
      (ret, { s with mPreviewBufs := mPreviewBufs, mBufProvider := mBufProvider }) ∧
        (ret = NO_ERROR → mBufProvider = true) := by
  have hmemory : NO_MEMORY ≠ NO_ERROR := by decide
  have hvalue : BAD_VALUE ≠ NO_ERROR := by decide
  rw [allocPreviewBufs, hbufs]
  repeat' split
  · exact ⟨_, s.mPreviewBufs, s.mBufProvider, rfl, fun h => absurd h hmemory⟩
  · contradiction
  · exact ⟨_, s.mPreviewBufs, s.mBufProvider, rfl, fun h => absurd h hmemory⟩
  · exact ⟨_, _, _, rfl, fun h => absurd h hvalue⟩
  · exact ⟨_, _, _, rfl, fun h => absurd h hvalue⟩
  · exact ⟨_, _, _, rfl, fun _ => rfl⟩

theorem freePreviewBufs_eq (h : s.mBufProvider = true) :
    ∃ mPreviewBufs, s.freePreviewBufs = some { s with mPreviewBufs := mPreviewBufs } := by
  rw [freePreviewBufs]
  split
  · exact ⟨s.mPreviewBufs, rfl⟩
  · exact ⟨false, rfl⟩

/-- `CameraStart` frees only buffers whose provider is there. -/
theorem CameraStart_eq (s : PreviewThread) (steps : PreviewSteps) :
    ∃ ret mPreviewBufs mBufProvider, s.CameraStart steps =
      some (ret, { s with mPreviewBufs := mPreviewBufs, mBufProvider := mBufProvider }) := by
  cases hbufs : s.mPreviewBufs with
  | true => exact ⟨0, s.mPreviewBufs, s.mBufProvider, if_pos hbufs⟩
  | false =>
    obtain ⟨ret, bufs, provider, halloc, hprovider⟩ := allocPreviewBufs_eq hbufs steps
    rw [CameraStart, hbufs, halloc, if_neg Bool.false_ne_true]
    dsimp only
    by_cases hret : ret = NO_ERROR
    · obtain ⟨bufs', hfree⟩ :=
        freePreviewBufs_eq (s := { s with mPreviewBufs := bufs, mBufProvider := provider })
          (hprovider hret)
      rw [if_neg (not_not.mpr hret), hfree]
      repeat' split
      all_goals exact ⟨_, _, _, rfl⟩
    · exact ⟨_, _, _, if_pos hret⟩

theorem start_of_capture (hcapture : s.mCaptureRunning = true) :
    s.start steps = some (if steps.CAMERA_START_PREVIEW = NO_ERROR then
        (true, { s with mCaptureMode := false, mPreviewRunning := true, mCaptureRunning := false })
      else (false, { s with mCaptureMode := false })) := by
  simp only [start, hcapture, if_true, pure_bind, toInt_eq_zero]
  split <;> rfl

theorem start_of_preview (hcapture : s.mCaptureRunning = false)
    (hpreview : s.mPreviewRunning = true) :
    s.start steps = some (false, { s with mCaptureMode := false }) := by
  simp [start, hcapture, hpreview]

theorem start_of_idle (steps : PreviewSteps) (hcapture : s.mCaptureRunning = false)
    (hpreview : s.mPreviewRunning = false) : ∃ mPreviewBufs mBufProvider,
    s.start steps = some (if steps.CAMERA_START_PREVIEW = NO_ERROR then
        (true, { s with
          mCaptureMode := false, camera_device := steps.opened, mPreviewRunning := true
          mCaptureRunning := false, mPreviewBufs := mPreviewBufs, mBufProvider := mBufProvider })
      else (false, { s with
        mCaptureMode := false, camera_device := steps.opened
        mPreviewBufs := mPreviewBufs, mBufProvider := mBufProvider })) := by
  obtain ⟨ret, mPreviewBufs, mBufProvider, hstart⟩ :=
    { s with mCaptureMode := false, camera_device := steps.opened }.CameraStart_eq steps
  have hidle : ¬ s.mCaptureRunning = true := by simp [hcapture]
  have hstopped : (!s.mPreviewRunning) = true := by simp [hpreview]
  refine ⟨mPreviewBufs, mBufProvider, ?_⟩
  rw [start]
  dsimp only [CameraCreate] at hstart ⊢
  rw [if_neg hidle, if_pos hstopped, hstart]
  simp only [Option.bind_eq_bind, Option.bind_some, Option.pure_def, toInt_eq_zero]
  split <;> rfl

theorem capture_of_capture (hcapture : s.mCaptureRunning = true) :
    s.capture steps = some (false, { s with mCaptureMode := true }) := by
  simp [capture, hcapture]

theorem capture_of_idle (steps : PreviewSteps) (hcapture : s.mCaptureRunning = false) :
    ∃ mPreviewBufs mBufProvider mZoomCurrentIdx, s.capture steps = some (true, { s with
      mCaptureMode := true, mPreviewRunning := false, mCaptureRunning := true
      mZoomCurrentIdx := mZoomCurrentIdx
      mPreviewBufs := mPreviewBufs, mBufProvider := mBufProvider }) := by
  have hidle : ¬ s.mCaptureRunning = true := by simp [hcapture]
  rw [capture]
  dsimp only
  rw [if_neg hidle]
  cases hpreview : s.mPreviewRunning with
  | true =>
    obtain ⟨ret, bufs, provider, hstart⟩ := { s with
      mCaptureMode := true, mPreviewRunning := false, mZoomCurrentIdx := 0 }.CameraStart_eq steps
    refine ⟨bufs, provider, 0, ?_⟩
    rw [if_pos rfl]
    dsimp only [CameraStop]
    rw [hstart]
    rfl
  | false =>
    obtain ⟨ret, bufs, provider, hstart⟩ :=
      { s with mCaptureMode := true }.CameraStart_eq steps
    refine ⟨bufs, provider, s.mZoomCurrentIdx, ?_⟩
    rw [if_neg Bool.false_ne_true, ← hpreview, hstart]
    rfl

/-- Without a preview the flags are right. -/
theorem Consistent.of_idle {t : PreviewThread}
    (halive : t.previewThreadCommandQ = [] ∨ t.shouldLive = true)
    (hidle : t.mPreviewRunning = false) : t.Consistent := by
  refine ⟨halive, fun hboth => ?_, fun hrun => ?_⟩
  · exact absurd (hidle.symm.trans hboth.1) Bool.false_ne_true
  · exact absurd (hidle.symm.trans hrun) Bool.false_ne_true

theorem serves_start (h : s.Consistent) (hcommand : msg.command = .PREVIEW_START) :
    s.Acknowledges msg steps ∧ (s.serve msg steps).2.Consistent ↔ s.Serves msg steps := by
  rw [Acknowledges, Serves, serve, succeeded, hcommand]
  dsimp only
  cases hcapture : s.mCaptureRunning with
  | true =>
    rw [start_of_capture hcapture, if_pos rfl]
    by_cases hsend : steps.CAMERA_START_PREVIEW = NO_ERROR
    · rw [if_pos hsend]
      constructor
      · exact fun hnext _ => hnext.2.opened rfl
      · intro hdevice
        refine ⟨⟨true, rfl, fun _ => by simp [hsend]⟩, h.alive, fun hboth => ?_,
          fun _ => hdevice hsend⟩
        exact absurd hboth.2 Bool.false_ne_true
    · rw [if_neg hsend]
      exact iff_of_true ⟨⟨false, rfl, nofun⟩, h.alive, h.apart, h.opened⟩
        fun heq => absurd heq hsend
  | false =>
    rw [if_neg Bool.false_ne_true]
    cases hpreview : s.mPreviewRunning with
    | true =>
      rw [start_of_preview hcapture hpreview]
      exact iff_of_true ⟨⟨false, rfl, nofun⟩, h.alive, h.apart, h.opened⟩ (.inl rfl)
    | false =>
      obtain ⟨bufs, provider, hstart⟩ := start_of_idle steps hcapture hpreview
      rw [hstart]
      by_cases hsend : steps.CAMERA_START_PREVIEW = NO_ERROR
      · rw [if_pos hsend]
        constructor
        · rintro ⟨⟨ack, hack, hok⟩, hnext⟩
          refine .inr fun _ => ⟨hnext.opened rfl, ?_⟩
          have hall := hok (some.inj hack).symm
          simp only [hsend, true_and, decide_eq_true_eq, Bool.false_eq_true, false_or] at hall
          exact hall.2
        · intro hserves
          obtain ⟨hopened, hsteps⟩ := (hserves.resolve_left Bool.false_ne_true) hsend
          refine ⟨⟨true, rfl, fun _ => ?_⟩, h.alive, fun hboth => ?_, fun _ => hopened⟩
          · exact decide_eq_true ⟨hsend, .inr ⟨hopened, hsteps⟩⟩
          · exact absurd hboth.2 Bool.false_ne_true
      · rw [if_neg hsend]
        exact iff_of_true ⟨⟨false, rfl, nofun⟩, Consistent.of_idle h.alive hpreview⟩
          (.inr fun heq => absurd heq hsend)

theorem serves_capture (h : s.Consistent) (hcommand : msg.command = .PREVIEW_CAPTURE) :
    s.Acknowledges msg steps ∧ (s.serve msg steps).2.Consistent ↔ s.Serves msg steps := by
  rw [Acknowledges, Serves, serve, succeeded, hcommand]
  dsimp only
  cases hcapture : s.mCaptureRunning with
  | true =>
    rw [capture_of_capture hcapture]
    exact iff_of_true ⟨⟨false, rfl, nofun⟩, h.alive, h.apart, h.opened⟩ (.inl rfl)
  | false =>
    obtain ⟨bufs, provider, zoom, heq⟩ := capture_of_idle steps hcapture
    rw [heq]
    constructor
    · rintro ⟨⟨ack, hack, hok⟩, -⟩
      exact .inr (of_decide_eq_true (hok (some.inj hack).symm))
    · intro hserves
      have hsteps := hserves.resolve_left Bool.false_ne_true
      exact ⟨⟨true, rfl, fun _ => decide_eq_true hsteps⟩, Consistent.of_idle h.alive rfl⟩

/-- The buffers of a preview that stops go back to their provider. -/
theorem serves_stop (h : s.Consistent) (hcommand : msg.command = .PREVIEW_STOP) :
    s.Acknowledges msg steps ∧ (s.serve msg steps).2.Consistent ↔ s.Serves msg steps := by
  rw [Acknowledges, Serves, serve, succeeded, hcommand]
  dsimp only
  cases hpreview : s.mPreviewRunning with
  | false =>
    have hstop : s.stop =
        some (false, { s with mCaptureMode := false, mPreviewRunning := false }) := by
      simp [stop, hpreview]
    rw [hstop]
    exact iff_of_true ⟨⟨false, rfl, nofun⟩, Consistent.of_idle h.alive rfl⟩ nofun
  | true =>
    rw [stop]
    dsimp only [CameraStop, CameraDestroy, forceStopPreview, freePreviewBufs]
    rw [if_pos hpreview]
    cases hbufs : s.mPreviewBufs with
    | false => exact iff_of_true ⟨⟨true, rfl, fun _ => rfl⟩, Consistent.of_idle h.alive rfl⟩ nofun
    | true =>
      cases hprovider : s.mBufProvider with
      | true =>
        exact iff_of_true ⟨⟨true, rfl, fun _ => rfl⟩, Consistent.of_idle h.alive rfl⟩
          fun _ _ => rfl
      | false =>
        exact iff_of_false (fun ⟨⟨_, hack, _⟩, _⟩ => nomatch hack) fun hall =>
          absurd (hall rfl rfl) Bool.false_ne_true

theorem serves_kill (hcommand : msg.command = .PREVIEW_KILL) :
    s.Acknowledges msg steps ∧ (s.serve msg steps).2.Consistent ↔ s.Serves msg steps := by
  rw [Acknowledges, Serves, serve, succeeded, hcommand]
  dsimp only [Prod.map, id]
  have hqueue : s.kill.2.previewThreadCommandQ = s.previewThreadCommandQ := by
    cases hpreview : s.mPreviewRunning <;> simp [kill, hpreview, CameraStop]
  have hdead : s.kill.2.shouldLive = false := rfl
  have hidle : s.kill.2.mPreviewRunning = false := by
    cases hpreview : s.mPreviewRunning <;> simp [kill, hpreview]
  constructor
  · intro hnext
    rw [← hqueue]
    exact hnext.2.alive.resolve_right fun halive =>
      absurd (hdead.symm.trans halive) Bool.false_ne_true
  · intro hempty
    exact ⟨⟨s.kill.1, rfl, fun _ => rfl⟩, Consistent.of_idle (.inl (hqueue.trans hempty)) hidle⟩

/-- The other commands, which leave the flags as they are. -/
theorem serves_zoom (h : s.Consistent)
    (hcommand : msg.command = .START_SMOOTH_ZOOM ∨ msg.command = .STOP_SMOOTH_ZOOM) :
    s.Acknowledges msg steps ∧ (s.serve msg steps).2.Consistent := by
  rcases hcommand with hcommand | hcommand
  · rw [Acknowledges, serve, succeeded, hcommand]
    dsimp only
    split
    · exact ⟨⟨true, rfl, fun _ => rfl⟩, h.alive, h.apart, h.opened⟩
    · exact ⟨⟨false, rfl, nofun⟩, h⟩
  · rw [Acknowledges, serve, succeeded, hcommand]
    refine ⟨⟨true, rfl, fun _ => rfl⟩, ?_⟩
    dsimp only
    split
    · exact ⟨h.alive, h.apart, h.opened⟩
    · exact h

theorem serves_focus (h : s.Consistent)
    (hcommand : msg.command = .PREVIEW_AF_START ∨ msg.command = .PREVIEW_AF_STOP ∨
      msg.command = .PREVIEW_CAF_START ∨ msg.command = .PREVIEW_CAF_STOP) :
    s.Acknowledges msg steps ∧ (s.serve msg steps).2.Consistent := by
  rcases hcommand with hcommand | hcommand | hcommand | hcommand
  all_goals rw [Acknowledges, serve, succeeded, hcommand]
  · exact ⟨⟨_, rfl, fun _ => rfl⟩, h⟩
  · exact ⟨⟨_, rfl, fun _ => rfl⟩, h⟩
  · refine ⟨⟨true, rfl, fun _ => rfl⟩, ?_⟩
    dsimp only
    split
    · exact h
    · exact ⟨h.alive, h.apart, h.opened⟩
  · exact ⟨⟨true, rfl, fun _ => rfl⟩, h⟩

variable (msg steps) in
/-- A command is served rightly exactly if its steps allow it. -/
theorem serves_iff (h : s.Consistent) :
    s.Acknowledges msg steps ∧ (s.serve msg steps).2.Consistent ↔ s.Serves msg steps := by
  cases hcommand : msg.command with
  | PREVIEW_START => exact serves_start h hcommand
  | PREVIEW_CAPTURE => exact serves_capture h hcommand
  | PREVIEW_KILL => exact serves_kill hcommand
  | PREVIEW_STOP => exact serves_stop h hcommand
  | START_SMOOTH_ZOOM | STOP_SMOOTH_ZOOM =>
    refine iff_of_true (serves_zoom h ?_) ?_
    · simp [hcommand]
    · rw [Serves, hcommand]
      trivial
  | PREVIEW_AF_START | PREVIEW_AF_STOP | PREVIEW_CAF_START | PREVIEW_CAF_STOP =>
    refine iff_of_true (serves_focus h ?_) ?_
    · simp [hcommand]
    · rw [Serves, hcommand]
      trivial
  | PREVIEW_CAPTURE_CANCEL =>
    rw [Acknowledges, Serves, serve, hcommand]
    exact iff_of_true ⟨⟨false, rfl, nofun⟩, h⟩ trivial
  | PREVIEW_FPS | PREVIEW_ACK | PREVIEW_NACK =>
    rw [Acknowledges, Serves, serve, hcommand]
    exact iff_of_false (fun ⟨⟨_, hack, _⟩, _⟩ => nomatch hack) id

/-- The preview runs as a window comes. -/
def restarts (s : PreviewThread) (window : Bool) (initialized : status_t) : Bool :=
  window ∧ !s.mDisplayAdapter ∧ initialized = NO_ERROR ∧ s.mPreviewRunning

theorem setPreviewWindow_of_restarts {window : Bool} {initialized : status_t}
    (h : s.restarts window initialized = true) : s.setPreviewWindow window initialized msg =
      { s with
        mDisplayAdapter := true, mPreviewRunning := false, mZoomCurrentIdx := s.mZoomTargetIdx
        mFalsePreview := false }.put { msg with command := .PREVIEW_START } := by
  obtain ⟨hwindow, hadapter, hinitialized, hpreview⟩ := of_decide_eq_true h
  simp only [Bool.not_eq_true'] at hadapter
  simp [setPreviewWindow, startPreview, hwindow, hadapter, hinitialized, hpreview]

/-- Otherwise only the display adapter changes. -/
theorem setPreviewWindow_of_not {window : Bool} {initialized : status_t} (msg : PreviewMessage)
    (h : s.restarts window initialized = false) : ∃ mDisplayAdapter mBufProvider,
      s.setPreviewWindow window initialized msg =
        { s with mDisplayAdapter := mDisplayAdapter, mBufProvider := mBufProvider } := by
  have hnot := of_decide_eq_false h
  rw [setPreviewWindow]
  split
  · exact ⟨false, false, rfl⟩
  · next hwindow =>
    split
    · exact ⟨s.mDisplayAdapter, s.mBufProvider, rfl⟩
    · next hnew =>
      have hidle : ¬ s.mPreviewRunning = true := fun hpreview => hnot (by grind)
      exact ⟨true, s.mBufProvider, if_neg hidle⟩

/-! ### Answers and queues -/

theorem answer_inj {ack ack' : Bool} (h : answer msg ack = answer msg ack') : ack = ack' := by
  have hcommand := congrArg PreviewMessage.command h
  cases ack <;> cases ack'
  · rfl
  · cases hcommand
  · cases hcommand
  · rfl

/-- The queues that are left alone. -/
structure SameQueues (s t : PreviewThread) : Prop where
  previewThreadCommandQ : t.previewThreadCommandQ = s.previewThreadCommandQ
  previewThreadAckQ : t.previewThreadAckQ = s.previewThreadAckQ

theorem answered_queues {r : Option (Bool × PreviewThread)}
    (h : ∀ ack t, r = some (ack, t) → s.SameQueues t) : s.SameQueues (s.answered r).2 := by
  cases r with
  | none => exact ⟨rfl, rfl⟩
  | some taken => exact h taken.1 taken.2 rfl

theorem start_queues {ack : Bool} {t : PreviewThread} (h : s.start steps = some (ack, t)) :
    s.SameQueues t := by
  cases hcapture : s.mCaptureRunning with
  | true =>
    rw [start_of_capture hcapture] at h
    split at h
    all_goals
      cases h
      exact ⟨rfl, rfl⟩
  | false =>
    cases hpreview : s.mPreviewRunning with
    | true =>
      rw [start_of_preview hcapture hpreview] at h
      cases h
      exact ⟨rfl, rfl⟩
    | false =>
      obtain ⟨_, _, hstart⟩ := start_of_idle steps hcapture hpreview
      rw [hstart] at h
      split at h
      all_goals
        cases h
        exact ⟨rfl, rfl⟩

theorem stop_queues {ack : Bool} {t : PreviewThread} (h : s.stop = some (ack, t)) :
    s.SameQueues t := by
  rw [stop] at h
  dsimp only [CameraStop, CameraDestroy, forceStopPreview, freePreviewBufs] at h
  repeat' split at h
  all_goals
    cases h
    try exact ⟨rfl, rfl⟩

theorem capture_queues {ack : Bool} {t : PreviewThread} (h : s.capture steps = some (ack, t)) :
    s.SameQueues t := by
  cases hcapture : s.mCaptureRunning with
  | true =>
    rw [capture_of_capture hcapture] at h
    cases h
    exact ⟨rfl, rfl⟩
  | false =>
    obtain ⟨_, _, _, heq⟩ := capture_of_idle steps hcapture
    rw [heq] at h
    cases h
    exact ⟨rfl, rfl⟩

theorem kill_queues (s : PreviewThread) : s.SameQueues s.kill.2 := by
  cases hpreview : s.mPreviewRunning <;> constructor <;> simp [kill, hpreview, CameraStop]

theorem serve_queues (s : PreviewThread) (msg : PreviewMessage) (steps : PreviewSteps) :
    s.SameQueues (s.serve msg steps).2 := by
  rw [serve]
  cases msg.command with
  | PREVIEW_START => exact answered_queues fun _ _ => start_queues
  | PREVIEW_STOP => exact answered_queues fun _ _ => stop_queues
  | PREVIEW_CAPTURE => exact answered_queues fun _ _ => capture_queues
  | PREVIEW_KILL => exact s.kill_queues
  | START_SMOOTH_ZOOM | STOP_SMOOTH_ZOOM | PREVIEW_CAF_START =>
    dsimp only
    split <;> exact ⟨rfl, rfl⟩
  | PREVIEW_AF_START | PREVIEW_AF_STOP | PREVIEW_CAF_STOP | PREVIEW_CAPTURE_CANCEL | PREVIEW_FPS
  | PREVIEW_ACK | PREVIEW_NACK => exact ⟨rfl, rfl⟩

/-! ### Frames in between -/

theorem shown_eq (s : PreviewThread) : ∃ frame_count mZoomCurrentIdx mZoomTargetIdx
    mSmoothZoomStatus, s.shown = { s with
      frame_count := frame_count, mZoomCurrentIdx := mZoomCurrentIdx
      mZoomTargetIdx := mZoomTargetIdx, mSmoothZoomStatus := mSmoothZoomStatus } := by
  rw [shown]
  split
  · rw [nextPreview]
    dsimp only
    generalize (if s.mZoomCurrentIdx < s.mZoomTargetIdx then (1 : Int) else -1) = zoom_inc
    split
    · exact ⟨_, _, _, _, rfl⟩
    · split
      · split <;> split <;> exact ⟨_, _, _, _, rfl⟩
      · exact ⟨_, _, _, _, rfl⟩
  · exact ⟨_, _, _, _, rfl⟩

theorem Consistent.shown (h : s.Consistent) : s.shown.Consistent := by
  obtain ⟨_, _, _, _, heq⟩ := s.shown_eq
  rw [heq]
  exact ⟨h.alive, h.apart, h.opened⟩

theorem Consistent.serving (h : s.Consistent) (hlive : s.shouldLive = true)
    (rest : List PreviewMessage) : (s.serving rest).Consistent := by
  obtain ⟨_, _, _, _, heq⟩ := s.shown_eq
  rw [PreviewThread.serving, heq]
  exact ⟨.inr hlive, h.apart, h.opened⟩

theorem incoming_eq_some {ready : Bool} {rest : List PreviewMessage}
    (h : s.incoming ready = some (msg, rest)) :
    s.previewThreadCommandQ = msg :: rest ∧ s.shouldLive = true := by
  rw [incoming] at h
  split at h
  · cases h
  · next heq =>
    split at h
    · next hlive =>
      obtain ⟨rfl, rfl⟩ := Prod.mk.inj (some.inj h)
      exact ⟨heq, hlive.1⟩
    · cases h

end PreviewThread

/-- The thread, with all the commands that were put, and those that it took, each with whether its
steps succeeded. -/
structure PreviewSession where
  thread : PreviewThread
  commands : List PreviewMessage
  served : List (PreviewMessage × Bool)
  deriving DecidableEq, Repr

inductive PreviewEvent where
  | put (msg : PreviewMessage)
  | startPreview (msg : PreviewMessage)
  | stopPreview (msg : PreviewMessage)
  | setPreviewWindow (window : Bool) (initialized : status_t) (msg : PreviewMessage)
  | turn (ready : Bool) (steps : PreviewSteps)
  deriving DecidableEq, Repr

namespace PreviewSession

def step (σ : PreviewSession) : PreviewEvent → PreviewSession
  | .put msg => { σ with thread := σ.thread.put msg, commands := σ.commands ++ [msg] }
  | .startPreview msg => { σ with
    thread := σ.thread.startPreview msg
    commands := σ.commands ++ if σ.thread.mDisplayAdapter then
      [{ msg with command := .PREVIEW_START }] else [] }
  | .stopPreview msg => { σ with
    thread := σ.thread.stopPreview msg
    commands := σ.commands ++ [{ msg with command := .PREVIEW_STOP }] }
  | .setPreviewWindow window initialized msg => { σ with
    thread := σ.thread.setPreviewWindow window initialized msg
    commands := σ.commands ++ if σ.thread.restarts window initialized then
      [{ msg with command := .PREVIEW_START }] else [] }
  | .turn ready steps => { σ with
    thread := σ.thread.turn ready steps
    served := σ.served ++ match σ.thread.incoming ready with
      | none => []
      | some (msg, rest) => [(msg, (σ.thread.serving rest).succeeded msg steps)] }

def construct (steps : PreviewSteps) : PreviewSession := ⟨.construct steps, [], []⟩

/-- The answer to a command that was taken; an acknowledgement says that its steps succeeded. -/
def Answers (taken : PreviewMessage × Bool) (msg : PreviewMessage) : Prop :=
  ∃ ack, msg = PreviewThread.answer taken.1 ack ∧ (ack = true → taken.2 = true)

/-- The commands are taken in order and each has its answer, and the flags are right. -/
structure Right (σ : PreviewSession) : Prop where
  order : σ.served.map Prod.fst ++ σ.thread.previewThreadCommandQ = σ.commands
  answered : List.Forall₂ Answers σ.served σ.thread.previewThreadAckQ
  consistent : σ.thread.Consistent

/-- What a step must find. -/
def Sound (σ : PreviewSession) : PreviewEvent → Prop
  | .put _ | .stopPreview _ => σ.thread.shouldLive = true
  | .startPreview _ =>
    if σ.thread.mDisplayAdapter then σ.thread.shouldLive = true
    else σ.thread.camera_device = true ∧ σ.thread.mCaptureRunning = false
  | .setPreviewWindow window initialized _ =>
    σ.thread.restarts window initialized = true → σ.thread.shouldLive = true
  | .turn ready steps => ∀ msg rest, σ.thread.incoming ready = some (msg, rest) →
    (σ.thread.serving rest).Serves msg steps

variable {σ : PreviewSession}

theorem construct_right (steps : PreviewSteps) : (construct steps).Right :=
  ⟨rfl, .nil, .of_idle (.inl rfl) rfl⟩

/-- A command that is put waits, if the thread lives. -/
theorem right_put_iff (h : σ.Right) {t : PreviewThread} {msg : PreviewMessage}
    (hqueue : t.previewThreadCommandQ = σ.thread.previewThreadCommandQ ++ [msg])
    (hacks : t.previewThreadAckQ = σ.thread.previewThreadAckQ)
    (hlive : t.shouldLive = σ.thread.shouldLive)
    (hpreview : t.mPreviewRunning = true → σ.thread.mPreviewRunning = true)
    (hcapture : t.mCaptureRunning = σ.thread.mCaptureRunning)
    (hdevice : t.camera_device = σ.thread.camera_device) :
    Right { σ with thread := t, commands := σ.commands ++ [msg] } ↔
      σ.thread.shouldLive = true := by
  constructor
  · intro hnext
    have hwaits : t.previewThreadCommandQ ≠ [] := by simp [hqueue]
    exact hlive ▸ hnext.consistent.alive.resolve_left hwaits
  · intro halive
    refine ⟨?_, ?_, .inr (hlive.trans halive), fun hboth => ?_, fun hrun => ?_⟩
    · dsimp only
      rw [hqueue, ← append_assoc, h.order]
    · dsimp only
      rw [hacks]
      exact h.answered
    · exact h.consistent.apart ⟨hpreview hboth.1, hcapture ▸ hboth.2⟩
    · exact hdevice.trans (h.consistent.opened (hpreview hrun))

/-- One more command is taken, which has an answer or not. -/
theorem forall₂_answers_iff {served : List (PreviewMessage × Bool)} {acks : List PreviewMessage}
    (h : List.Forall₂ Answers served acks) (msg : PreviewMessage) (ack : Option Bool)
    (succeeded : Bool) :
    List.Forall₂ Answers (served ++ [(msg, succeeded)])
        (acks ++ (ack.map (PreviewThread.answer msg)).toList) ↔
      ∃ a, ack = some a ∧ (a = true → succeeded = true) := by
  cases ack with
  | none =>
    refine iff_of_false (fun hnext => ?_) nofun
    have hlength := hnext.length_eq
    rw [length_append, h.length_eq] at hlength
    simp at hlength
  | some a =>
    constructor
    · intro hnext
      have hreversed := rel_reverse hnext
      rw [reverse_append, reverse_append] at hreversed
      obtain ⟨⟨a', heq, hok⟩, -⟩ := forall₂_cons.mp hreversed
      obtain rfl : a = a' := PreviewThread.answer_inj heq
      exact ⟨a, rfl, hok⟩
    · rintro ⟨_, heq, hok⟩
      obtain rfl := some.inj heq
      exact rel_append h (.cons ⟨a, rfl, hok⟩ .nil)

theorem right_turn_iff (h : σ.Right) (ready : Bool) (steps : PreviewSteps) :
    (σ.step (.turn ready steps)).Right ↔ σ.Sound (.turn ready steps) := by
  rw [step, Sound, PreviewThread.turn]
  obtain ⟨_, _, _, _, hshown⟩ := σ.thread.shown_eq
  cases hincoming : σ.thread.incoming ready with
  | none =>
    refine iff_of_true ⟨?_, ?_, h.consistent.shown⟩ nofun
    · dsimp only
      rw [append_nil, hshown]
      exact h.order
    · dsimp only
      rw [append_nil, hshown]
      exact h.answered
  | some taken =>
    obtain ⟨msg, rest⟩ := taken
    obtain ⟨hqueue, hlive⟩ := PreviewThread.incoming_eq_some hincoming
    have hserves := PreviewThread.serves_iff msg steps
      (h.consistent.serving hlive rest)
    have hsame := (σ.thread.serving rest).serve_queues msg steps
    have hacks : (σ.thread.serving rest).previewThreadAckQ = σ.thread.previewThreadAckQ := by
      rw [PreviewThread.serving, hshown]
    have hanswers := forall₂_answers_iff h.answered msg ((σ.thread.serving rest).serve msg steps).1
      ((σ.thread.serving rest).succeeded msg steps)
    constructor
    · intro hnext msg' rest' heq
      obtain ⟨rfl, rfl⟩ := Prod.mk.inj (some.inj heq)
      refine hserves.mp ⟨hanswers.mp ?_, hnext.consistent.alive, hnext.consistent.apart,
        hnext.consistent.opened⟩
      rw [← hacks, ← hsame.previewThreadAckQ]
      exact hnext.answered
    · intro hsound
      obtain ⟨hacknowledges, hconsistent⟩ := hserves.mpr (hsound msg rest rfl)
      refine ⟨?_, ?_, hconsistent.alive, hconsistent.apart, hconsistent.opened⟩
      · dsimp only
        rw [map_append, append_assoc, hsame.previewThreadCommandQ, ← h.order, hqueue]
        rfl
      · dsimp only
        rw [hsame.previewThreadAckQ, hacks]
        exact hanswers.mpr hacknowledges

/-- A preview without a display adapter needs an open device and no capture. -/
theorem right_startPreview_iff (h : σ.Right) (msg : PreviewMessage) :
    (σ.step (.startPreview msg)).Right ↔ σ.Sound (.startPreview msg) := by
  rw [step, Sound, PreviewThread.startPreview]
  cases hadapter : σ.thread.mDisplayAdapter with
  | true => exact right_put_iff h rfl rfl rfl id rfl rfl
  | false =>
    constructor
    · intro hnext
      refine ⟨hnext.consistent.opened rfl, Bool.eq_false_iff.mpr fun hcapture => ?_⟩
      exact hnext.consistent.apart ⟨rfl, hcapture⟩
    · rintro ⟨hdevice, hcapture⟩
      refine ⟨?_, h.answered, h.consistent.alive, fun hboth => ?_, fun _ => hdevice⟩
      · exact h.order.trans (append_nil σ.commands).symm
      · exact absurd (hcapture.symm.trans hboth.2) Bool.false_ne_true

theorem right_setPreviewWindow_iff (h : σ.Right) (window : Bool) (initialized : status_t)
    (msg : PreviewMessage) : (σ.step (.setPreviewWindow window initialized msg)).Right ↔
      σ.Sound (.setPreviewWindow window initialized msg) := by
  rw [step, Sound]
  cases hrestarts : σ.thread.restarts window initialized with
  | true =>
    rw [PreviewThread.setPreviewWindow_of_restarts hrestarts, if_pos rfl]
    have hput := right_put_iff h (t := { σ.thread with
        mDisplayAdapter := true, mPreviewRunning := false
        mZoomCurrentIdx := σ.thread.mZoomTargetIdx, mFalsePreview := false }.put
          { msg with command := .PREVIEW_START })
      rfl rfl rfl (fun hrun => absurd hrun Bool.false_ne_true) rfl rfl
    exact hput.trans ⟨fun hlive _ => hlive, fun hsound => hsound rfl⟩
  | false =>
    obtain ⟨adapter, provider, heq⟩ :=
      PreviewThread.setPreviewWindow_of_not msg hrestarts
    rw [heq]
    refine iff_of_true ⟨?_, h.answered, h.consistent.alive, h.consistent.apart,
      h.consistent.opened⟩ nofun
    exact h.order.trans (append_nil σ.commands).symm

/-- A step leaves everything right exactly if it finds what it needs. -/
theorem right_iff (h : σ.Right) (event : PreviewEvent) : (σ.step event).Right ↔ σ.Sound event := by
  cases event with
  | put msg => exact right_put_iff h rfl rfl rfl id rfl rfl
  | startPreview msg => exact right_startPreview_iff h msg
  | stopPreview msg => exact right_put_iff h rfl rfl rfl id rfl rfl
  | setPreviewWindow window initialized msg =>
    exact right_setPreviewWindow_iff h window initialized msg
  | turn ready steps => exact right_turn_iff h ready steps

end PreviewSession

/-- Everything behind a command succeeds. -/
def PreviewSteps.fine : PreviewSteps where
  opened := true
  VIDIOC_S_FMT := 0
  VIDIOC_G_PARM := 0
  VIDIOC_S_PARM := 0
  VIDIOC_G_CROP := 0
  allocateBuffer := true
  getOffsets := true
  getFd := 5
  maxQueueableBuffers := NO_ERROR
  enableDisplay := NO_ERROR
  pauseDisplay := NO_ERROR
  notifierStart := ALREADY_EXISTS
  getState := .LOADED_PREVIEW_STATE
  CAMERA_USE_BUFFERS_PREVIEW := NO_ERROR
  CAMERA_QUERY_BUFFER_SIZE_IMAGE_CAPTURE := NO_ERROR
  CAMERA_USE_BUFFERS_IMAGE_CAPTURE := NO_ERROR
  CAMERA_START_IMAGE_CAPTURE := NO_ERROR
  CAMERA_START_PREVIEW := NO_ERROR

end OmapHal.Camera
