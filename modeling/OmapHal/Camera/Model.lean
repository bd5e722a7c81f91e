import OmapHal.Core.KeyedVector
import OmapHal.Core.Run

/-!
# The camera adapter

State and frame bookkeeping of `BaseCameraAdapter`. Addresses are `int`s, zero is `NULL`. The
status of `fillThisBuffer` is not looked at; what it was called with is kept beside the state. A
lookup of a key that is not in a vector ends the process and has no result.
-/

namespace OmapHal.Camera

open Option

open OmapHal.Core (KeyedVector)

abbrev status_t := BitVec 32

def NO_ERROR : status_t := 0

def EINVAL : status_t := 22

/-- `-ENOSYS` -/
def INVALID_OPERATION : status_t := -38

/-- `-ENODEV` -/
def NO_INIT : status_t := -19

/-- `-EEXIST` -/
def ALREADY_EXISTS : status_t := -17

theorem neg_EINVAL_ne : -EINVAL ≠ NO_ERROR := by decide

theorem INVALID_OPERATION_ne : INVALID_OPERATION ≠ NO_ERROR := by decide

inductive AdapterState where
  | INTIALIZED_STATE | LOADED_PREVIEW_STATE | PREVIEW_STATE | LOADED_CAPTURE_STATE | CAPTURE_STATE
  | BRACKETING_STATE | AF_STATE | ZOOM_STATE | VIDEO_STATE | VIDEO_AF_STATE | VIDEO_ZOOM_STATE
  | VIDEO_LOADED_CAPTURE_STATE | VIDEO_CAPTURE_STATE | AF_ZOOM_STATE | BRACKETING_ZOOM_STATE
  /-- what the enumeration does not name -/
  | undeclared (value : Nat)
  deriving DecidableEq, Repr

/-- The kinds of `CameraFrame::FrameType`, by the place of their bit. -/
inductive FrameType where
  | PREVIEW_FRAME_SYNC | PREVIEW_FRAME | IMAGE_FRAME_SYNC | IMAGE_FRAME | VIDEO_FRAME_SYNC
  | VIDEO_FRAME | FRAME_DATA_SYNC | FRAME_DATA | RAW_FRAME | SNAPSHOT_FRAME
  deriving DecidableEq, Repr

abbrev Address := Int

abbrev frame_callback := Address

structure Adapter where
  mAdapterState : AdapterState
  mNextState : AdapterState
  mRecording : Bool
  mPreviewBuffersAvailable : KeyedVector Address Int
  mVideoBuffersAvailable : KeyedVector Address Int
  mCaptureBuffersAvailable : KeyedVector Address Bool
  mPreviewDataBuffersAvailable : KeyedVector Address Bool
  mFrameSubscribers : KeyedVector Address frame_callback
  mFrameDataSubscribers : KeyedVector Address frame_callback
  mVideoSubscribers : KeyedVector Address frame_callback
  mImageSubscribers : KeyedVector Address frame_callback
  mRawSubscribers : KeyedVector Address frame_callback
  /-- the addresses of luma and chroma of each buffer -/
  mFrameQueue : KeyedVector Address (Address × Address)
  mFramesWithDisplay : BitVec 32
  mFramesWithEncoder : BitVec 32
  /-- what `fillThisBuffer` was called with, the last call first -/
  filled : List (Address × FrameType)
  deriving DecidableEq, Repr

/-- The constructor. It leaves `mNextState` and the two numbers of frames as the memory has
them. -/
def Adapter.construct (mNextState : AdapterState)
    (mFramesWithDisplay mFramesWithEncoder : BitVec 32) : Adapter where
  mAdapterState := .INTIALIZED_STATE
  mNextState
  mRecording := false
  mPreviewBuffersAvailable := .empty
  mVideoBuffersAvailable := .empty
  mCaptureBuffersAvailable := .empty
  mPreviewDataBuffersAvailable := .empty
  mFrameSubscribers := .empty
  mFrameDataSubscribers := .empty
  mVideoSubscribers := .empty
  mImageSubscribers := .empty
  mRawSubscribers := .empty
  mFrameQueue := .empty
  mFramesWithDisplay
  mFramesWithEncoder
  filled := []

/-! ### Reference counts -/

def Adapter.getFrameRefCount (s : Adapter) (frameBuf : Address) : FrameType → Option Int
  | .IMAGE_FRAME | .RAW_FRAME =>
    (s.mCaptureBuffersAvailable.valueFor frameBuf).map fun available => available.toNat
  | .PREVIEW_FRAME_SYNC | .SNAPSHOT_FRAME => s.mPreviewBuffersAvailable.valueFor frameBuf
  | .FRAME_DATA_SYNC =>
    (s.mPreviewDataBuffersAvailable.valueFor frameBuf).map fun available => available.toNat
  | .VIDEO_FRAME_SYNC => s.mVideoBuffersAvailable.valueFor frameBuf
  | _ => some (-1)

/-- A buffer that is not in the vector gets no count. -/
def Adapter.setFrameRefCount (s : Adapter) (frameBuf : Address) (frameType : FrameType)
    (refCount : Int) : Adapter :=
  match frameType with
  | .IMAGE_FRAME | .RAW_FRAME =>
    { s with mCaptureBuffersAvailable :=
        s.mCaptureBuffersAvailable.replaceValueFor frameBuf (refCount ≠ 0) }
  | .PREVIEW_FRAME_SYNC | .SNAPSHOT_FRAME =>
    { s with mPreviewBuffersAvailable :=
        s.mPreviewBuffersAvailable.replaceValueFor frameBuf refCount }
  | .FRAME_DATA_SYNC =>
    { s with mPreviewDataBuffersAvailable :=
        s.mPreviewDataBuffersAvailable.replaceValueFor frameBuf (refCount ≠ 0) }
  | .VIDEO_FRAME_SYNC =>
    { s with mVideoBuffersAvailable :=
        s.mVideoBuffersAvailable.replaceValueFor frameBuf refCount }
  | _ => s

def Adapter.fillThisBuffer (s : Adapter) (frameBuf : Address) (frameType : FrameType) : Adapter :=
  { s with filled := (frameBuf, frameType) :: s.filled }

/-- The numbers of frames that display and encoder have, at a return. -/
def Adapter.countReturn (s : Adapter) : FrameType → Adapter
  | .PREVIEW_FRAME_SYNC => { s with mFramesWithDisplay := s.mFramesWithDisplay - 1 }
  | .VIDEO_FRAME_SYNC => { s with mFramesWithEncoder := s.mFramesWithEncoder - 1 }
  | _ => s

/-- The count that the return of a frame also looks at while recording. -/
def Adapter.otherRefCount (s : Adapter) (frameBuf : Address) (frameType : FrameType) :
    Option Int :=
  match s.mRecording, frameType with
  | true, .VIDEO_FRAME_SYNC => s.getFrameRefCount frameBuf .PREVIEW_FRAME_SYNC
  | true, .PREVIEW_FRAME_SYNC => s.getFrameRefCount frameBuf .VIDEO_FRAME_SYNC
  | true, .SNAPSHOT_FRAME => s.getFrameRefCount frameBuf .VIDEO_FRAME_SYNC
  | _, _ => some 0

def Adapter.returnFrame (s : Adapter) (frameBuf : Address) (frameType : FrameType) :
    Option Adapter :=
  if frameBuf = 0 then some s
  else do
    let refCount ← s.getFrameRefCount frameBuf frameType
    let s := s.countReturn frameType
    if 0 < refCount then
      let refCount := refCount - 1
      let s := s.setFrameRefCount frameBuf frameType refCount
      let other ← s.otherRefCount frameBuf frameType
      if refCount + other = 0 then some (s.fillThisBuffer frameBuf frameType) else some s
    else some s

/-- What commands go by: the two states, and whether a recording is on. -/
def Adapter.control (s : Adapter) : AdapterState × AdapterState × Bool :=
  (s.mAdapterState, s.mNextState, s.mRecording)

theorem control_eq_iff {s t : Adapter} : t.control = s.control ↔
    t.mAdapterState = s.mAdapterState ∧ t.mNextState = s.mNextState ∧
      t.mRecording = s.mRecording := by
  simp only [Adapter.control, Prod.mk.injEq]

@[simp] theorem control_countReturn (s : Adapter) (frameType : FrameType) :
    (s.countReturn frameType).control = s.control := by
  cases frameType <;> rfl

@[simp] theorem control_setFrameRefCount (s : Adapter) (frameBuf : Address)
    (frameType : FrameType) (refCount : Int) :
    (s.setFrameRefCount frameBuf frameType refCount).control = s.control := by
  cases frameType <;> rfl

@[simp] theorem control_fillThisBuffer (s : Adapter) (frameBuf : Address)
    (frameType : FrameType) : (s.fillThisBuffer frameBuf frameType).control = s.control := rfl

/-- A return that has an effect on the counts. -/
def Adapter.dropped (s : Adapter) (frameBuf : Address) (frameType : FrameType) (refCount : Int) :
    Adapter :=
  (s.countReturn frameType).setFrameRefCount frameBuf frameType (refCount - 1)

@[simp] theorem control_dropped (s : Adapter) (frameBuf : Address) (frameType : FrameType)
    (refCount : Int) : (s.dropped frameBuf frameType refCount).control = s.control := by
  rw [Adapter.dropped, control_setFrameRefCount, control_countReturn]

/-- What `returnFrame` does with a buffer. -/
theorem returnFrame_cases {s s' : Adapter} {frameBuf : Address} {frameType : FrameType}
    (h : s.returnFrame frameBuf frameType = some s') :
    (frameBuf = 0 ∧ s' = s) ∨
    ∃ refCount, frameBuf ≠ 0 ∧ s.getFrameRefCount frameBuf frameType = some refCount ∧
      ((refCount ≤ 0 ∧ s' = s.countReturn frameType) ∨ ∃ other, 0 < refCount ∧
        (s.dropped frameBuf frameType refCount).otherRefCount frameBuf frameType = some other ∧
        s' = if refCount - 1 + other = 0 then
            (s.dropped frameBuf frameType refCount).fillThisBuffer frameBuf frameType
          else s.dropped frameBuf frameType refCount) := by
  rw [Adapter.returnFrame] at h
  split at h
  · next hnull => exact .inl ⟨hnull, (some.inj h).symm⟩
  · next hnull =>
    obtain ⟨refCount, hcount, h⟩ := bind_eq_some_iff.mp h
    refine .inr ⟨refCount, hnull, hcount, ?_⟩
    split at h
    · next hpos =>
      obtain ⟨other, hother, h⟩ := bind_eq_some_iff.mp h
      refine .inr ⟨other, hpos, hother, ?_⟩
      split at h
      · next hzero =>
        rw [if_pos hzero]
        exact (some.inj h).symm
      · next hzero =>
        rw [if_neg hzero]
        exact (some.inj h).symm
    · next hpos => exact .inl ⟨not_lt.mp hpos, (some.inj h).symm⟩

theorem control_returnFrame {s s' : Adapter} {frameBuf : Address} {frameType : FrameType}
    (h : s.returnFrame frameBuf frameType = some s') : s'.control = s.control := by
  rcases returnFrame_cases h with ⟨-, rfl⟩ | ⟨refCount, -, -, ⟨-, rfl⟩ | ⟨other, -, -, rfl⟩⟩
  · rfl
  · exact control_countReturn s frameType
  · split
    · rw [control_fillThisBuffer, control_dropped]
    · exact control_dropped s frameBuf frameType refCount

/-! ### Recording -/

def Adapter.startVideoCapture (s : Adapter) : status_t × Adapter :=
  if s.mRecording then (NO_INIT, s)
  else
    (NO_ERROR,
      { s with
        mVideoBuffersAvailable :=
          s.mPreviewBuffersAvailable.keys.foldl (fun v frameBuf => v.add frameBuf 0)
            s.mVideoBuffersAvailable
        mRecording := true })

/-- One turn of the loop of `stopVideoCapture`. -/
def Adapter.takeVideoFrame (s : Adapter) (frameBuf : Address) : Option Adapter := do
  let refCount ← s.getFrameRefCount frameBuf .VIDEO_FRAME_SYNC
  if 0 < refCount then s.returnFrame frameBuf .VIDEO_FRAME_SYNC else some s

def Adapter.stopVideoCapture (s : Adapter) : Option (status_t × Adapter) :=
  if !s.mRecording then some (NO_INIT, s)
  else do
    let s ← s.mVideoBuffersAvailable.keys.foldlM Adapter.takeVideoFrame s
    some (NO_ERROR, { s with mVideoBuffersAvailable := .empty, mRecording := false })

theorem control_takeVideoFrame {s s' : Adapter} {frameBuf : Address}
    (h : s.takeVideoFrame frameBuf = some s') : s'.control = s.control := by
  obtain ⟨refCount, -, h⟩ := bind_eq_some_iff.mp h
  split at h
  · exact control_returnFrame h
  · rw [some.inj h]

/-- The two ways in which `stopVideoCapture` ends. -/
theorem stopVideoCapture_cases {s s' : Adapter} {ret : status_t}
    (h : s.stopVideoCapture = some (ret, s')) :
    (s.mRecording = false ∧ ret = NO_INIT ∧ s' = s) ∨
    (s.mRecording = true ∧ ret = NO_ERROR ∧ ∃ t : Adapter, t.control = s.control ∧
      s.mVideoBuffersAvailable.keys.foldlM Adapter.takeVideoFrame s = some t ∧
      s' = { t with mVideoBuffersAvailable := .empty, mRecording := false }) := by
  rw [Adapter.stopVideoCapture] at h
  split at h
  · next hrec =>
    obtain ⟨rfl, rfl⟩ := Prod.mk.inj (some.inj h)
    exact .inl ⟨by simpa using hrec, rfl, rfl⟩
  · next hrec =>
    obtain ⟨t, hloop, h⟩ := bind_eq_some_iff.mp h
    obtain ⟨rfl, rfl⟩ := Prod.mk.inj (some.inj h)
    refine .inr ⟨by simpa using hrec, rfl, t, ?_, hloop, rfl⟩
    exact Core.foldlM_invariant (P := fun u => u.control = s.control) rfl
      (fun u buf v hu hv => (control_takeVideoFrame hv).trans hu) hloop

end OmapHal.Camera
