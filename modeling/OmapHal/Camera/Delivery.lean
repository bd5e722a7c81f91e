import OmapHal.Camera.Model

/-!
# Frames on their way

A frame comes in for the types of its mask and goes to the subscribers of one type after the
other. Between two calls a subscriber may give a frame back, and recording may start or stop; the
lists of subscribers are locked. Beside the adapter stand the frames that subscribers hold, and
the references that were taken and not given back.
-/

namespace OmapHal.Camera

open OmapHal.Core (KeyedVector)

/-- The vectors that hold counts. -/
inductive Pool where
  | preview | video | capture | previewData
  deriving DecidableEq, Repr

/-- Where the count of a frame stands. -/
def FrameType.pool : FrameType → Option Pool
  | .IMAGE_FRAME | .RAW_FRAME => some .capture
  | .PREVIEW_FRAME_SYNC | .SNAPSHOT_FRAME => some .preview
  | .FRAME_DATA_SYNC => some .previewData
  | .VIDEO_FRAME_SYNC => some .video
  | _ => none

def Adapter.count (s : Adapter) (frameBuf : Address) : Pool → Option Int
  | .preview => s.mPreviewBuffersAvailable.valueFor frameBuf
  | .video => s.mVideoBuffersAvailable.valueFor frameBuf
  | .capture => (s.mCaptureBuffersAvailable.valueFor frameBuf).map fun available => available.toNat
  | .previewData =>
    (s.mPreviewDataBuffersAvailable.valueFor frameBuf).map fun available => available.toNat

/-! ### Subscribers -/

def Adapter.subscribers (s : Adapter) : FrameType → Option (KeyedVector Address frame_callback)
  | .IMAGE_FRAME => some s.mImageSubscribers
  | .RAW_FRAME => some s.mRawSubscribers
  | .PREVIEW_FRAME_SYNC | .SNAPSHOT_FRAME => some s.mFrameSubscribers
  | .VIDEO_FRAME_SYNC => some s.mVideoSubscribers
  | .FRAME_DATA_SYNC => some s.mFrameDataSubscribers
  | _ => none

def Adapter.enableMsgType (s : Adapter) (msgs : FrameType) (callback : frame_callback)
    (cookie : Address) : Adapter :=
  match msgs with
  | .PREVIEW_FRAME_SYNC => { s with mFrameSubscribers := s.mFrameSubscribers.add cookie callback }
  | .FRAME_DATA_SYNC =>
    { s with mFrameDataSubscribers := s.mFrameDataSubscribers.add cookie callback }
  | .IMAGE_FRAME => { s with mImageSubscribers := s.mImageSubscribers.add cookie callback }
  | .RAW_FRAME => { s with mRawSubscribers := s.mRawSubscribers.add cookie callback }
  | .VIDEO_FRAME_SYNC => { s with mVideoSubscribers := s.mVideoSubscribers.add cookie callback }
  | _ => s

def Adapter.disableMsgType (s : Adapter) (msgs : FrameType) (cookie : Address) : Adapter :=
  match msgs with
  | .PREVIEW_FRAME_SYNC => { s with mFrameSubscribers := s.mFrameSubscribers.removeItem cookie }
  | .FRAME_DATA_SYNC =>
    { s with mFrameDataSubscribers := s.mFrameDataSubscribers.removeItem cookie }
  | .IMAGE_FRAME => { s with mImageSubscribers := s.mImageSubscribers.removeItem cookie }
  | .RAW_FRAME => { s with mRawSubscribers := s.mRawSubscribers.removeItem cookie }
  | .VIDEO_FRAME_SYNC => { s with mVideoSubscribers := s.mVideoSubscribers.removeItem cookie }
  | _ => s

/-- `disableMsgType` with `ALL_FRAMES`. -/
def Adapter.disableAllFrames (s : Adapter) (cookie : Address) : Adapter :=
  { s with
    mFrameSubscribers := s.mFrameSubscribers.removeItem cookie
    mFrameDataSubscribers := s.mFrameDataSubscribers.removeItem cookie
    mImageSubscribers := s.mImageSubscribers.removeItem cookie
    mRawSubscribers := s.mRawSubscribers.removeItem cookie
    mVideoSubscribers := s.mVideoSubscribers.removeItem cookie }

/-- `addFramePointers`; `buf` is `NULL` or points to the two addresses. -/
def Adapter.addFramePointers (s : Adapter) (frameBuf : Address)
    (buf : Option (Address × Address)) : Adapter :=
  match buf with
  | some yuv =>
    if frameBuf ≠ 0 then { s with mFrameQueue := s.mFrameQueue.add frameBuf yuv } else s
  | none => s

def Adapter.removeFramePointers (s : Adapter) : Adapter := { s with mFrameQueue := .empty }

/-! ### Arrival and delivery -/

def FrameType.bit : FrameType → Nat
  | .PREVIEW_FRAME_SYNC => 0
  | .PREVIEW_FRAME => 1
  | .IMAGE_FRAME_SYNC => 2
  | .IMAGE_FRAME => 3
  | .VIDEO_FRAME_SYNC => 4
  | .VIDEO_FRAME => 5
  | .FRAME_DATA_SYNC => 6
  | .FRAME_DATA => 7
  | .RAW_FRAME => 8
  | .SNAPSHOT_FRAME => 9

/-- The types of a mask, from the lowest bit up. Nothing is done for the bits above. -/
def FrameType.ofMask (mask : Nat) : List FrameType :=
  [.PREVIEW_FRAME_SYNC, .PREVIEW_FRAME, .IMAGE_FRAME_SYNC, .IMAGE_FRAME, .VIDEO_FRAME_SYNC,
    .VIDEO_FRAME, .FRAME_DATA_SYNC, .FRAME_DATA, .RAW_FRAME, .SNAPSHOT_FRAME].filter
      fun frameType => mask.testBit frameType.bit

/-- One turn of the loop of `setInitFrameRefCount`. -/
def Adapter.setInit (buf : Address) (s : Adapter) (frameType : FrameType) : Adapter :=
  match s.subscribers frameType with
  | some subscribers => s.setFrameRefCount buf frameType subscribers.size
  | none => s

def Adapter.setInitFrameRefCount (s : Adapter) (buf : Address) (mask : Nat) : Adapter :=
  if buf = 0 then s else (FrameType.ofMask mask).foldl (Adapter.setInit buf) s

/-- Whether the addresses of the planes are at hand; not every type needs them. -/
def Adapter.hasPointers (s : Adapter) (frameBuf : Address) : FrameType → Option Bool
  | .PREVIEW_FRAME_SYNC | .VIDEO_FRAME_SYNC | .SNAPSHOT_FRAME =>
    if 0 < s.mFrameQueue.size then (s.mFrameQueue.valueFor frameBuf).map fun _ => true
    else some false
  | _ => some true

/-- `__sendFrameToSubscribers` up to its loop: the callbacks that the loop goes through, or
`-EINVAL`. -/
def Adapter.callbacks (s : Adapter) (frameBuf : Address) (frameType : FrameType)
    (subscribers : KeyedVector Address frame_callback) : Option (Option (List frame_callback)) := do
  if ← s.hasPointers frameBuf frameType then
    let refCount ← s.getFrameRefCount frameBuf frameType
    if refCount = 0 then some none
    else if refCount < 0 ∨ subscribers.size < refCount then some none
    else some (some (subscribers.values.take refCount.toNat))
  else some none

/-- Where `sendFrameToSubscribers` is: between two types, or in the loop over callbacks. -/
inductive Delivery where
  | between (frameBuf : Address) (todo : List FrameType)
  | calling (frameBuf : Address) (frameType : FrameType) (callbacks : List frame_callback)
      (todo : List FrameType)
  deriving DecidableEq, Repr

structure Session where
  adapter : Adapter
  delivery : Option Delivery
  /-- the frames that subscribers hold -/
  held : List (Address × FrameType)
  /-- the references that were taken and not given back -/
  refs : Address → Pool → Nat

/-- One turn of `sendFrameToSubscribers`. -/
def Session.send (s : Session) : Option Session :=
  match s.delivery with
  | none => some s
  | some (.between _ []) => some { s with delivery := none }
  | some (.between frameBuf (frameType :: todo)) =>
    match s.adapter.subscribers frameType with
    | none => some { s with delivery := some (.between frameBuf todo) }
    | some subscribers =>
      (s.adapter.callbacks frameBuf frameType subscribers).map fun
        | none => { s with delivery := none }
        | some callbacks =>
          { s with delivery := some (.calling frameBuf frameType callbacks todo) }
  | some (.calling frameBuf _ [] todo) => some { s with delivery := some (.between frameBuf todo) }
  | some (.calling frameBuf frameType (callback :: callbacks) todo) =>
    if callback = 0 then some { s with delivery := none }
    else
      some { s with
        delivery := some (.calling frameBuf frameType callbacks todo)
        held := (frameBuf, frameType) :: s.held }

/-- Whether an arrival sets the count of a pool. -/
def Adapter.sets (s : Adapter) (frameBuf : Address) (mask : Nat) (pool : Pool) : Bool :=
  frameBuf ≠ 0 ∧ (s.count frameBuf pool).isSome ∧
    (FrameType.ofMask mask).any fun frameType => frameType.pool = some pool

/-- The references after an arrival: those that the new counts stand for, and the others. -/
def Session.taken (s : Session) (frameBuf : Address) (mask : Nat) (pool : Pool) : Nat :=
  if s.adapter.sets frameBuf mask pool then
    (((s.adapter.setInitFrameRefCount frameBuf mask).count frameBuf pool).getD 0).toNat
  else s.refs frameBuf pool

def Session.arrive (s : Session) (frameBuf : Address) (mask : Nat) : Session :=
  { s with
    adapter := s.adapter.setInitFrameRefCount frameBuf mask
    delivery := some (.between frameBuf (FrameType.ofMask mask))
    refs := Function.update s.refs frameBuf (s.taken frameBuf mask) }

/-- The references after one of a type is given back. -/
def Session.givenBack (s : Session) (frameBuf : Address) (frameType : FrameType) :
    Address → Pool → Nat :=
  fun frameBuf' pool =>
    if frameBuf' = frameBuf ∧ frameType.pool = some pool then s.refs frameBuf' pool - 1
    else s.refs frameBuf' pool

inductive Event where
  | enableMsgType (msgs : FrameType) (callback : frame_callback) (cookie : Address)
  | disableMsgType (msgs : FrameType) (cookie : Address)
  | disableAllFrames (cookie : Address)
  | addFramePointers (frameBuf : Address) (buf : Option (Address × Address))
  | removeFramePointers
  | arrive (frameBuf : Address) (mask : Nat)
  | send
  | returnFrame (frameBuf : Address) (frameType : FrameType)
  | startVideoCapture
  | stopVideoCapture
  deriving DecidableEq, Repr

/-- With the end of a recording its references are gone. -/
def Session.withoutVideo (s : Session) : Address → Pool → Nat :=
  fun frameBuf pool => if s.adapter.mRecording ∧ pool = .video then 0 else s.refs frameBuf pool

def Session.step (s : Session) : Event → Option Session
  | .enableMsgType msgs callback cookie =>
    some { s with adapter := s.adapter.enableMsgType msgs callback cookie }
  | .disableMsgType msgs cookie => some { s with adapter := s.adapter.disableMsgType msgs cookie }
  | .disableAllFrames cookie => some { s with adapter := s.adapter.disableAllFrames cookie }
  | .addFramePointers frameBuf buf =>
    some { s with adapter := s.adapter.addFramePointers frameBuf buf }
  | .removeFramePointers => some { s with adapter := s.adapter.removeFramePointers }
  | .arrive frameBuf mask => some (s.arrive frameBuf mask)
  | .send => s.send
  | .returnFrame frameBuf frameType =>
    (s.adapter.returnFrame frameBuf frameType).map fun adapter =>
      { s with
        adapter
        held := s.held.erase (frameBuf, frameType)
        refs := s.givenBack frameBuf frameType }
  | .startVideoCapture => some { s with adapter := s.adapter.startVideoCapture.2 }
  | .stopVideoCapture =>
    s.adapter.stopVideoCapture.map fun (_, adapter) =>
      { s with adapter, refs := s.withoutVideo }

/-- What can happen: who returns a frame holds it, and while a frame is on its way the lists of
subscribers and of pointers stay and no other frame comes in. -/
def Session.Enabled (s : Session) : Event → Prop
  | .send => s.delivery ≠ none
  | .returnFrame frameBuf frameType => (frameBuf, frameType) ∈ s.held
  | .startVideoCapture | .stopVideoCapture => True
  | _ => s.delivery = none

end OmapHal.Camera
