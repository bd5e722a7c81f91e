import OmapHal.Camera.Delivery

/-!
# Capture with V4L2

The part of `V4LCameraAdapter` that gives buffers to the driver and takes them back, built
without `ICAP`. What was given to `VIDIOC_QBUF` stands beside the result of a function; a key
that is not in a vector, an index outside of it and a pointer that was never set have no result.
-/

namespace OmapHal.Camera

open Option List

open OmapHal.Core (KeyedVector)

/-- `-EINVAL` -/
def BAD_VALUE : status_t := -EINVAL

/-- `-ENOMEM` -/
def NO_MEMORY : status_t := -12

/-- `index` and `m.userptr` of the `v4l2_buffer` in a call of `VIDIOC_QBUF`. -/
structure v4l2_buffer where
  index : Nat
  userptr : Address
  deriving DecidableEq, Repr

structure V4LCameraAdapter where
  mPreviewBufs : KeyedVector Address Nat
  mIonHandle : KeyedVector Address Nat
  mPreviewBufferCount : Nat
  mPreviewing : Bool
  isStreaming : Bool
  nQueued : BitVec 32
  deriving DecidableEq, Repr

/-- What the calls of `UseBuffersPreview` answer; those in a loop by the number of the turn. -/
structure MapReplies where
  VIDIOC_REQBUFS : Bool
  VIDIOC_QUERYBUF : Nat → Bool
  ION_IOC_MAP_GRALLOC : Nat → Bool
  /-- the address of the mapping, where there is one -/
  ion_map : Nat → Option Address

/-- The loop of `UseBuffersPreview` over buffers with their numbers. -/
def V4LCameraAdapter.mapBuffers (replies : MapReplies) :
    List (Address × Nat) → V4LCameraAdapter → status_t × V4LCameraAdapter
  | [], a => (NO_ERROR, a)
  | (ptr, i) :: rest, a =>
    let a := { a with mPreviewBufs := a.mPreviewBufs.add ptr i }
    if !replies.ION_IOC_MAP_GRALLOC i then (BAD_VALUE, a)
    else
      match replies.ion_map i with
      | none => (BAD_VALUE, a)
      | some buff_t => mapBuffers replies rest { a with mIonHandle := a.mIonHandle.add buff_t i }

/-- `bufArr` is `NULL` or points to `num` buffers. -/
def V4LCameraAdapter.UseBuffersPreview (a : V4LCameraAdapter) (replies : MapReplies)
    (bufArr : Option (List Address)) : status_t × V4LCameraAdapter :=
  match bufArr with
  | none => (BAD_VALUE, a)
  | some ptrs =>
    if !replies.VIDIOC_REQBUFS then (-1, a)
    else if (List.range ptrs.length).any fun i => !replies.VIDIOC_QUERYBUF i then (-1, a)
    else if a.mIonHandle.size = 0 then
      let (ret, a) := mapBuffers replies ptrs.zipIdx a
      if ret ≠ NO_ERROR then (ret, a)
      else (NO_ERROR, { a with mPreviewBufferCount := ptrs.length })
    else (NO_ERROR, { a with mPreviewBufferCount := ptrs.length })

/-- The loop of `startPreview` over indices: the status, what the driver was given, the state. -/
def V4LCameraAdapter.queueBuffers (VIDIOC_QBUF : Nat → Bool) :
    List Nat → V4LCameraAdapter → Option (status_t × List v4l2_buffer × V4LCameraAdapter)
  | [], a => some (NO_ERROR, [], a)
  | i :: rest, a => do
    let userptr ← a.mIonHandle.keyAt i
    if !VIDIOC_QBUF i then some (-EINVAL, [⟨i, userptr⟩], a)
    else
      let (ret, queued, a) ← queueBuffers VIDIOC_QBUF rest { a with nQueued := a.nQueued + 1 }
      some (ret, ⟨i, userptr⟩ :: queued, a)

def V4LCameraAdapter.startPreview (a : V4LCameraAdapter) (VIDIOC_QBUF : Nat → Bool)
    (VIDIOC_STREAMON : Bool) : Option (status_t × List v4l2_buffer × V4LCameraAdapter) :=
  if a.mPreviewing then some (BAD_VALUE, [], a)
  else do
    let (ret, queued, a) ← queueBuffers VIDIOC_QBUF (List.range a.mPreviewBufferCount) a
    if ret ≠ NO_ERROR then some (ret, queued, a)
    else if !a.isStreaming && !VIDIOC_STREAMON then some (-1, queued, a)
    else some (NO_ERROR, queued, { a with isStreaming := true, mPreviewing := true })

/-- A value of `mPreviewBufs` is the number of a turn, so that the test `i < 0` never holds. The
callback at the end of an image capture is left out. -/
def V4LCameraAdapter.fillThisBuffer (a : V4LCameraAdapter) (VIDIOC_QBUF : Nat → Bool)
    (frameBuf : Address) (frameType : FrameType) :
    Option (status_t × List v4l2_buffer × V4LCameraAdapter) :=
  if frameType = .IMAGE_FRAME ∨ frameType = .RAW_FRAME then some (NO_ERROR, [], a)
  else if !a.isStreaming then some (NO_ERROR, [], a)
  else do
    let i ← a.mPreviewBufs.valueFor frameBuf
    let userptr ← a.mIonHandle.keyAt i
    if !VIDIOC_QBUF i then some (-1, [⟨i, userptr⟩], a)
    else some (NO_ERROR, [⟨i, userptr⟩], { a with nQueued := a.nQueued + 1 })

/-- `CameraFrame`, as far as `queueToGralloc` tells it from others of its kind. -/
structure CameraFrame where
  mFrameType : FrameType
  mFrameMask : FrameType
  mBuffer : Address
  ENCODE_RAW_YUV422I_TO_JPEG : Bool
  deriving DecidableEq, Repr

/-- The loop of `queueToGralloc`; without a hit the pointer stays unset. -/
def V4LCameraAdapter.grallocPtr (a : V4LCameraAdapter) (index : Nat) : Option Address :=
  (a.mPreviewBufs.entries.find? fun e => e.2 = index).map Prod.fst

/-- The frame that `queueToGralloc` announces, or `BAD_VALUE`. -/
def V4LCameraAdapter.queueToGralloc (a : V4LCameraAdapter) (index : Nat) (fp : Address)
    (frameType : FrameType) : Option (Except status_t CameraFrame) :=
  if fp = 0 then some (.error BAD_VALUE)
  else
    match frameType with
    | .IMAGE_FRAME => some (.ok ⟨.SNAPSHOT_FRAME, .IMAGE_FRAME, fp, true⟩)
    | .VIDEO_FRAME_SYNC =>
      (a.grallocPtr index).map fun b => .ok ⟨.VIDEO_FRAME_SYNC, .VIDEO_FRAME_SYNC, b, false⟩
    | _ =>
      (a.grallocPtr index).map fun b => .ok ⟨.PREVIEW_FRAME_SYNC, .PREVIEW_FRAME_SYNC, b, false⟩

/-! ### The registered buffers -/

section Registered

variable {replies : MapReplies} {a a' : V4LCameraAdapter}

/-- The mappings that a loop over buffers gets, when it comes to its end. -/
theorem mapBuffers_ok {ptrs : List Address} {k : Nat}
    (h : V4LCameraAdapter.mapBuffers replies (ptrs.zipIdx k) a = (NO_ERROR, a')) :
    ∃ maps : List Address, maps.length = ptrs.length ∧
      (∀ i < ptrs.length, replies.ion_map (k + i) = maps[i]?) ∧
      a' = { a with
        mPreviewBufs := a.mPreviewBufs.addAll (ptrs.zipIdx k)
        mIonHandle := a.mIonHandle.addAll (maps.zipIdx k) } := by
  induction ptrs generalizing k a with
  | nil => exact ⟨[], rfl, fun i hi => absurd hi (Nat.not_lt_zero i), (Prod.mk.inj h).2.symm⟩
  | cons ptr ptrs ih =>
    rw [zipIdx_cons, V4LCameraAdapter.mapBuffers] at h
    split at h
    · exact absurd (Prod.mk.inj h).1 neg_EINVAL_ne
    · split at h
      · exact absurd (Prod.mk.inj h).1 neg_EINVAL_ne
      · next buff_t hmap =>
        obtain ⟨maps, hlen, hmaps, rfl⟩ := ih h
        refine ⟨buff_t :: maps, congrArg (· + 1) hlen, fun i hi => ?_, rfl⟩
        cases i with
        | zero => exact hmap
        | succ i =>
          rw [getElem?_cons_succ, ← hmaps i (Nat.lt_of_succ_lt_succ hi)]
          exact congrArg replies.ion_map (by omega)

/-- What a successful registration leaves on an adapter that had no buffers. -/
theorem UseBuffersPreview_ok {ptrs : List Address} (hion : a.mIonHandle = .empty)
    (h : a.UseBuffersPreview replies (some ptrs) = (NO_ERROR, a')) :
    ∃ maps : List Address, maps.length = ptrs.length ∧
      (∀ i < ptrs.length, replies.ion_map i = maps[i]?) ∧
      a' = { a with
        mPreviewBufs := a.mPreviewBufs.addAll ptrs.zipIdx
        mIonHandle := KeyedVector.empty.addAll maps.zipIdx
        mPreviewBufferCount := ptrs.length } := by
  have hneg : (-1 : status_t) ≠ NO_ERROR := by decide
  rw [V4LCameraAdapter.UseBuffersPreview] at h
  dsimp only at h
  split at h
  · exact absurd (Prod.mk.inj h).1 hneg
  · split at h
    · exact absurd (Prod.mk.inj h).1 hneg
    · rw [if_pos (by rw [hion]; rfl)] at h
      split at h
      · next hret => exact absurd (Prod.mk.inj h).1 hret
      · next hret =>
        rcases hloop : V4LCameraAdapter.mapBuffers replies ptrs.zipIdx a with ⟨ret, a₁⟩
        rw [hloop] at h hret
        obtain rfl : ret = NO_ERROR := not_not.mp hret
        obtain ⟨maps, hlen, hmaps, rfl⟩ := mapBuffers_ok hloop
        refine ⟨maps, hlen, fun i hi => ?_, ?_⟩
        · rw [← hmaps i hi, Nat.zero_add]
        · rw [← (Prod.mk.inj h).2, hion]

end Registered

/-! ### What the driver is given -/

section Queued

variable {VIDIOC_QBUF : Nat → Bool} {a a' : V4LCameraAdapter} {l : List Nat} {ret : status_t}
  {queued : List v4l2_buffer}

/-- Each request is for one of the indices, with the address at this place. -/
theorem mem_queueBuffers
    (h : V4LCameraAdapter.queueBuffers VIDIOC_QBUF l a = some (ret, queued, a')) {r : v4l2_buffer}
    (hr : r ∈ queued) : r.index ∈ l ∧ a.mIonHandle.keyAt r.index = some r.userptr := by
  induction l generalizing a ret queued a' with
  | nil =>
    rw [← (Prod.mk.inj (Prod.mk.inj (some.inj h)).2).1] at hr
    cases hr
  | cons i rest ih =>
    obtain ⟨userptr, hptr, h⟩ := bind_eq_some_iff.mp h
    split at h
    · rw [← (Prod.mk.inj (Prod.mk.inj (some.inj h)).2).1] at hr
      rw [mem_singleton.mp hr]
      exact ⟨mem_cons_self, hptr⟩
    · obtain ⟨⟨ret₁, queued₁, a₁⟩, hrest, h⟩ := bind_eq_some_iff.mp h
      rw [← (Prod.mk.inj (Prod.mk.inj (some.inj h)).2).1] at hr
      rcases mem_cons.mp hr with rfl | hr
      · exact ⟨mem_cons_self, hptr⟩
      · exact (ih hrest hr).imp_left (mem_cons_of_mem i)

/-- A loop that comes to its end has a request for each index. -/
theorem index_queueBuffers
    (h : V4LCameraAdapter.queueBuffers VIDIOC_QBUF l a = some (NO_ERROR, queued, a')) :
    queued.map v4l2_buffer.index = l := by
  induction l generalizing a queued a' with
  | nil =>
    rw [← (Prod.mk.inj (Prod.mk.inj (some.inj h)).2).1]
    rfl
  | cons i rest ih =>
    obtain ⟨userptr, hptr, h⟩ := bind_eq_some_iff.mp h
    split at h
    · exact absurd (Prod.mk.inj (some.inj h)).1 neg_EINVAL_ne
    · obtain ⟨⟨ret₁, queued₁, a₁⟩, hrest, h⟩ := bind_eq_some_iff.mp h
      obtain ⟨rfl, hqueued⟩ := Prod.mk.inj (some.inj h)
      rw [← (Prod.mk.inj hqueued).1, map_cons, ih hrest]

/-- The loop comes to its end where the driver takes every buffer. -/
theorem ret_queueBuffers
    (h : V4LCameraAdapter.queueBuffers (fun _ => true) l a = some (ret, queued, a')) :
    ret = NO_ERROR := by
  induction l generalizing a queued a' with
  | nil => exact (Prod.mk.inj (some.inj h)).1.symm
  | cons i rest ih =>
    obtain ⟨userptr, hptr, h⟩ := bind_eq_some_iff.mp h
    obtain ⟨⟨ret₁, queued₁, a₁⟩, hrest, h⟩ := bind_eq_some_iff.mp h
    obtain ⟨rfl, -⟩ := Prod.mk.inj (some.inj h)
    exact ih hrest

/-- The loop has a result where there is an address at each index. -/
theorem queueBuffers_ne_none (VIDIOC_QBUF : Nat → Bool) (h : ∀ i ∈ l, a.mIonHandle.keyAt i ≠ none) :
    V4LCameraAdapter.queueBuffers VIDIOC_QBUF l a ≠ none := by
  induction l generalizing a with
  | nil => exact some_ne_none _
  | cons i rest ih =>
    obtain ⟨userptr, hptr⟩ := ne_none_iff_exists'.mp (h i mem_cons_self)
    rw [V4LCameraAdapter.queueBuffers, hptr, bind_eq_bind, bind_some]
    split
    · exact some_ne_none _
    · obtain ⟨result, hresult⟩ := ne_none_iff_exists'.mp
        (ih (a := { a with nQueued := a.nQueued + 1 }) fun j hj => h j (mem_cons_of_mem i hj))
      rw [hresult]
      exact some_ne_none _

/-- What `startPreview` gives to the driver comes from its loop. -/
theorem startPreview_cases {VIDIOC_STREAMON : Bool} (hprev : a.mPreviewing = false)
    (h : a.startPreview VIDIOC_QBUF VIDIOC_STREAMON = some (ret, queued, a')) :
    ∃ ret₁ a₁, V4LCameraAdapter.queueBuffers VIDIOC_QBUF (List.range a.mPreviewBufferCount) a =
        some (ret₁, queued, a₁) ∧
      (ret = NO_ERROR ↔ ret₁ = NO_ERROR ∧ (a₁.isStreaming || VIDIOC_STREAMON)) := by
  rw [V4LCameraAdapter.startPreview, if_neg (by rw [hprev]; exact Bool.false_ne_true)] at h
  obtain ⟨⟨ret₁, queued₁, a₁⟩, hloop, h⟩ := bind_eq_some_iff.mp h
  refine ⟨ret₁, a₁, ?_⟩
  dsimp only at h
  split at h
  · next hret =>
    obtain ⟨rfl, hqueued⟩ := Prod.mk.inj (some.inj h)
    rw [hloop, (Prod.mk.inj hqueued).1]
    exact ⟨rfl, iff_of_false hret fun h => hret h.1⟩
  · next hret =>
    split at h
    · next hoff =>
      obtain ⟨rfl, hqueued⟩ := Prod.mk.inj (some.inj h)
      rw [hloop, (Prod.mk.inj hqueued).1]
      rw [← Bool.not_or] at hoff
      exact ⟨rfl, iff_of_false (by decide) fun h => absurd h.2 (by simpa using hoff)⟩
    · next hoff =>
      obtain ⟨rfl, hqueued⟩ := Prod.mk.inj (some.inj h)
      rw [hloop, (Prod.mk.inj hqueued).1]
      rw [← Bool.not_or] at hoff
      rw [Bool.not_eq_true, Bool.not_eq_false'] at hoff
      exact ⟨rfl, iff_of_true rfl ⟨not_not.mp hret, hoff⟩⟩

end Queued

end OmapHal.Camera
