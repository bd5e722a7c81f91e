import OmapHal.Camera.Capture

/-!
# Where captured frames land

The driver writes a frame to the address that was queued with its index; the subscribers are told
of the graphics buffer that belongs to this index. Addresses are looked up by their place in a
vector that is sorted by address, graphics buffers by their number.
-/

namespace OmapHal.Camera

open List Option

open OmapHal.Core (KeyedVector)

variable {replies : MapReplies} {a₀ a : V4LCameraAdapter} {ptrs maps : List Address}

/-- A preview buffer and its mapping. -/
def MapReplies.Mapped (replies : MapReplies) (ptrs : List Address) (frameBuf userptr : Address) :
    Prop :=
  ∃ i, ptrs[i]? = some frameBuf ∧ replies.ion_map i = some userptr

/-- A frame that is captured for a request is in the buffer that is announced for its index. -/
def V4LCameraAdapter.Lands (a : V4LCameraAdapter) (mapped : Address → Address → Prop)
    (r : v4l2_buffer) : Prop :=
  ∀ fp ≠ 0, ∀ frameType ∈ [FrameType.PREVIEW_FRAME_SYNC, .VIDEO_FRAME_SYNC], ∃ frame,
    a.queueToGralloc r.index fp frameType = some (.ok frame) ∧ mapped frame.mBuffer r.userptr

/-- Requests at the start of the preview and after the return of a frame. -/
structure V4LCameraAdapter.CapturesAnnounced (a : V4LCameraAdapter) (ptrs : List Address)
    (mapped : Address → Address → Prop) : Prop where
  startPreview : ∀ VIDIOC_QBUF VIDIOC_STREAMON, ∃ ret queued a',
    a.startPreview VIDIOC_QBUF VIDIOC_STREAMON = some (ret, queued, a') ∧
      (ret = NO_ERROR → queued.map v4l2_buffer.index = List.range ptrs.length) ∧
      ∀ r ∈ queued, a.Lands mapped r
  fillThisBuffer : ∀ frameBuf ∈ ptrs, ∀ frameType ∈ [FrameType.PREVIEW_FRAME_SYNC,
    .VIDEO_FRAME_SYNC], ∀ VIDIOC_QBUF, ∃ ret r a',
      { a with isStreaming := true }.fillThisBuffer VIDIOC_QBUF frameBuf frameType =
        some (ret, [r], a') ∧ a.Lands mapped r

/-- An adapter without buffers that does not preview. -/
structure V4LCameraAdapter.Unused (a : V4LCameraAdapter) : Prop where
  mPreviewBufs : a.mPreviewBufs = .empty
  mIonHandle : a.mIonHandle = .empty
  mPreviewing : a.mPreviewing = false

/-- The mappings come at ascending addresses. -/
def MapReplies.Ascends (replies : MapReplies) (num : Nat) : Prop :=
  ∀ i j p q, i < j → j < num → replies.ion_map i = some p → replies.ion_map j = some q → p < q

/-! ### Buffers and their numbers -/

theorem mem_zipIdx_reverse_lookup {b : Address} {i : Nat}
    (h : ptrs.zipIdx.reverse.lookup b = some i) : ptrs[i]? = some b := by
  rw [lookup_eq_some_iff] at h
  obtain ⟨before, after, heq, -⟩ := h
  have hmem : (b, i) ∈ ptrs.zipIdx.reverse := heq ▸ mem_append_right _ mem_cons_self
  exact mem_zipIdx_iff_getElem?.mp (mem_reverse.mp hmem)

/-- The number of a buffer that occurs once. -/
theorem valueFor_zipIdx {b : Address} {i : Nat} (hnodup : ptrs.Nodup)
    (h : ptrs[i]? = some b) : (KeyedVector.empty.addAll ptrs.zipIdx).valueFor b = some i := by
  rw [KeyedVector.valueFor_addAll]
  cases hlookup : ptrs.zipIdx.reverse.lookup b with
  | none =>
    rw [lookup_eq_none_iff] at hlookup
    have hmem : (b, i) ∈ ptrs.zipIdx := mem_zipIdx_iff_getElem?.mpr h
    exact absurd (hlookup _ (mem_reverse.mpr hmem)) (by simp)
  | some j =>
    obtain ⟨hi, hib⟩ := List.getElem?_eq_some_iff.mp h
    obtain ⟨hj, hjb⟩ := List.getElem?_eq_some_iff.mp (mem_zipIdx_reverse_lookup hlookup)
    rw [(hnodup.getElem_inj_iff (i := j) (j := i)).mp (hjb.trans hib.symm)]

/-- The buffer that is announced for an index has this number. -/
theorem valueFor_of_grallocPtr {i : Nat} {b : Address} (h : a.grallocPtr i = some b) :
    a.mPreviewBufs.valueFor b = some i := by
  obtain ⟨e, hfind, rfl⟩ := map_eq_some_iff.mp h
  have hi : e.2 = i := by simpa using find?_some hfind
  exact hi ▸ KeyedVector.valueFor_of_mem (mem_of_find?_eq_some hfind)

theorem grallocPtr_ne_none {i : Nat} {b : Address} (h : a.mPreviewBufs.valueFor b = some i) :
    a.grallocPtr i ≠ none := by
  intro hnone
  have hmiss := find?_eq_none.mp (map_eq_none_iff.mp hnone)
  exact hmiss (b, i) (KeyedVector.mem_entries.mpr h) (decide_eq_true rfl)

/-- Registered buffers are announced for their numbers where each occurs once. -/
theorem grallocPtr_registered {i : Nat} (hbufs : a.mPreviewBufs = .addAll .empty ptrs.zipIdx)
    (hnodup : ptrs.Nodup) (hi : i < ptrs.length) : a.grallocPtr i = some ptrs[i] := by
  have hvalue := valueFor_zipIdx hnodup (getElem?_eq_getElem hi)
  rw [← hbufs] at hvalue
  obtain ⟨b, hb⟩ := ne_none_iff_exists'.mp (grallocPtr_ne_none hvalue)
  have hget := valueFor_of_grallocPtr hb
  rw [hbufs, KeyedVector.valueFor_addAll] at hget
  rw [hb, ← mem_zipIdx_reverse_lookup hget, getElem?_eq_getElem hi]

/-- Where a buffer occurs twice, one index has no buffer to announce. -/
theorem nodup_of_grallocPtr (hbufs : a.mPreviewBufs = .addAll .empty ptrs.zipIdx)
    (h : ∀ i < ptrs.length, a.grallocPtr i ≠ none) : ptrs.Nodup := by
  refine nodup_iff_injective_get.mpr fun i j hij => Fin.ext ?_
  have hvalue : ∀ n : Fin ptrs.length, a.mPreviewBufs.valueFor (ptrs.get n) = some n.val := by
    intro n
    obtain ⟨b, hb⟩ := ne_none_iff_exists'.mp (h n n.isLt)
    have hget := valueFor_of_grallocPtr hb
    have hat := hget
    rw [hbufs, KeyedVector.valueFor_addAll] at hat
    obtain ⟨hn, rfl⟩ := List.getElem?_eq_some_iff.mp (mem_zipIdx_reverse_lookup hat)
    exact hget
  have hsame := (hvalue i).symm.trans ((congrArg _ hij).trans (hvalue j))
  exact some.inj hsame

/-- The addresses stand by number in the vector that is sorted by address where they ascend. -/
theorem keyAt_zipIdx_iff :
    (∀ i < maps.length, (KeyedVector.empty.addAll maps.zipIdx).keyAt i = maps[i]?) ↔
      maps.Pairwise (· < ·) := by
  have hmap : ∀ i : Nat, maps.zipIdx[i]?.map Prod.fst = maps[i]? := by
    intro i
    rw [← getElem?_map, zipIdx_map_fst]
  have hpairs := pairwise_map (f := Prod.fst) (R := (· < ·)) (l := maps.zipIdx)
  rw [zipIdx_map_fst] at hpairs
  rw [hpairs, ← KeyedVector.keyAt_addAll_iff, length_zipIdx]
  simp only [hmap]

theorem pairwise_iff_ascends (hlen : maps.length = ptrs.length)
    (hmaps : ∀ i < ptrs.length, replies.ion_map i = maps[i]?) :
    maps.Pairwise (· < ·) ↔ replies.Ascends ptrs.length := by
  rw [pairwise_iff_getElem]
  constructor
  · intro h i j p q hij hj hp hq
    rw [hmaps i (Nat.lt_trans hij hj)] at hp
    rw [hmaps j hj] at hq
    obtain ⟨hi, rfl⟩ := List.getElem?_eq_some_iff.mp hp
    obtain ⟨hj, rfl⟩ := List.getElem?_eq_some_iff.mp hq
    exact h i j hi hj hij
  · intro h i j hi hj hij
    refine h i j _ _ hij (hlen ▸ hj) ?_ ?_
    · rw [hmaps i (hlen ▸ hi), getElem?_eq_getElem hi]
    · rw [hmaps j (hlen ▸ hj), getElem?_eq_getElem hj]

/-! ### Requests -/

/-- What lands: there is a buffer to announce, and its mapping was queued. -/
theorem lands_iff {mapped : Address → Address → Prop} {r : v4l2_buffer} :
    a.Lands mapped r ↔ ∃ b, a.grallocPtr r.index = some b ∧ mapped b r.userptr := by
  constructor
  · intro h
    obtain ⟨frame, hframe, hmapped⟩ := h 1 (by decide) .VIDEO_FRAME_SYNC (by decide)
    obtain ⟨b, hb, hframe⟩ := map_eq_some_iff.mp hframe
    rw [← Except.ok.inj hframe] at hmapped
    exact ⟨b, hb, hmapped⟩
  · rintro ⟨b, hb, hmapped⟩ fp hfp frameType hmem
    simp only [mem_cons, not_mem_nil, or_false] at hmem
    rcases hmem with rfl | rfl
    · refine ⟨⟨.PREVIEW_FRAME_SYNC, .PREVIEW_FRAME_SYNC, b, false⟩, ?_, hmapped⟩
      simp [V4LCameraAdapter.queueToGralloc, hfp, hb]
    · refine ⟨⟨.VIDEO_FRAME_SYNC, .VIDEO_FRAME_SYNC, b, false⟩, ?_, hmapped⟩
      simp [V4LCameraAdapter.queueToGralloc, hfp, hb]

/-- The index and the address of a request that follows the return of a frame. -/
theorem fillThisBuffer_streaming (VIDIOC_QBUF : Nat → Bool) {frameBuf userptr : Address}
    {frameType : FrameType} {i : Nat}
    (hmem : frameType ∈ [FrameType.PREVIEW_FRAME_SYNC, .VIDEO_FRAME_SYNC])
    (hbuf : a.mPreviewBufs.valueFor frameBuf = some i)
    (hptr : a.mIonHandle.keyAt i = some userptr) : ∃ ret a',
    { a with isStreaming := true }.fillThisBuffer VIDIOC_QBUF frameBuf frameType =
      some (ret, [⟨i, userptr⟩], a') := by
  have hkind : ¬(frameType = .IMAGE_FRAME ∨ frameType = .RAW_FRAME) := by
    simp only [mem_cons, not_mem_nil, or_false] at hmem
    rcases hmem with rfl | rfl <;> decide
  rw [V4LCameraAdapter.fillThisBuffer, if_neg hkind, if_neg (by simp)]
  change ∃ ret a', (a.mPreviewBufs.valueFor frameBuf).bind _ = _
  rw [hbuf, bind_some, bind_eq_bind]
  change ∃ ret a', (a.mIonHandle.keyAt i).bind _ = _
  rw [hptr, bind_some]
  split
  · exact ⟨_, _, rfl⟩
  · exact ⟨_, _, rfl⟩

theorem startPreview_ret (VIDIOC_QBUF : Nat → Bool) (VIDIOC_STREAMON : Bool)
    (hprev : a.mPreviewing = false) (h : ∀ i < a.mPreviewBufferCount, a.mIonHandle.keyAt i ≠ none) :
    a.startPreview VIDIOC_QBUF VIDIOC_STREAMON ≠ none := by
  obtain ⟨⟨ret, queued, a'⟩, hloop⟩ := ne_none_iff_exists'.mp
    (queueBuffers_ne_none VIDIOC_QBUF (l := range a.mPreviewBufferCount) fun i hi =>
    h i (mem_range.mp hi))
  rw [V4LCameraAdapter.startPreview, if_neg (by rw [hprev]; exact Bool.false_ne_true), hloop,
    bind_eq_bind, bind_some]
  dsimp only
  split
  · exact some_ne_none _
  · split <;> exact some_ne_none _

/-! ### The registered buffers are captured into -/

section Registered

variable (hbufs : a.mPreviewBufs = .addAll .empty ptrs.zipIdx)
  (hion : a.mIonHandle = .addAll .empty maps.zipIdx) (hnum : a.mPreviewBufferCount = ptrs.length)
  (hlen : maps.length = ptrs.length) (hmaps : ∀ i < ptrs.length, replies.ion_map i = maps[i]?)
  (hprev : a.mPreviewing = false)

include hbufs hmaps in
/-- A request with the mapping of its own number lands. -/
theorem lands_of_getElem? (hnodup : ptrs.Nodup) {r : v4l2_buffer} (hi : r.index < ptrs.length)
    (hptr : maps[r.index]? = some r.userptr) : a.Lands (replies.Mapped ptrs) r :=
  lands_iff.mpr ⟨ptrs[r.index], grallocPtr_registered hbufs hnodup hi, r.index,
    getElem?_eq_getElem hi, (hmaps r.index hi).trans hptr⟩

include hbufs hmaps in
theorem getElem?_of_lands (hnodup : ptrs.Nodup) {r : v4l2_buffer} (hi : r.index < ptrs.length)
    (h : a.Lands (replies.Mapped ptrs) r) : maps[r.index]? = some r.userptr := by
  obtain ⟨b, hb, j, hj, hmap⟩ := lands_iff.mp h
  rw [grallocPtr_registered hbufs hnodup hi] at hb
  obtain ⟨hj', hjb⟩ := List.getElem?_eq_some_iff.mp (hj.trans hb.symm)
  rw [← hmaps r.index hi, ← (hnodup.getElem_inj_iff (i := j) (j := r.index)).mp hjb, hmap]

include hbufs hion hnum hlen hmaps hprev in
theorem capturesAnnounced_of_ascends (hnodup : ptrs.Nodup)
    (hasc : replies.Ascends ptrs.length) : a.CapturesAnnounced ptrs (replies.Mapped ptrs) := by
  have hkey : ∀ i < ptrs.length, a.mIonHandle.keyAt i = maps[i]? := by
    intro i hi
    rw [hion]
    exact keyAt_zipIdx_iff.mpr ((pairwise_iff_ascends hlen hmaps).mpr hasc) i (hlen ▸ hi)
  have hsome : ∀ i < ptrs.length, ∃ p, a.mIonHandle.keyAt i = some p := by
    intro i hi
    exact ⟨maps[i], (hkey i hi).trans (getElem?_eq_getElem (hlen ▸ hi))⟩
  constructor
  · intro VIDIOC_QBUF VIDIOC_STREAMON
    obtain ⟨⟨ret, queued, a'⟩, hstart⟩ := ne_none_iff_exists'.mp
      (startPreview_ret VIDIOC_QBUF VIDIOC_STREAMON hprev
        fun i hi => ne_none_iff_exists'.mpr (hsome i (hnum ▸ hi)))
    obtain ⟨ret₁, a₁, hloop, hret⟩ := startPreview_cases hprev hstart
    refine ⟨ret, queued, a', hstart, fun h => ?_, fun r hr => ?_⟩
    · rw [(hret.mp h).1] at hloop
      rw [index_queueBuffers hloop, hnum]
    · obtain ⟨hmem, hptr⟩ := mem_queueBuffers hloop hr
      have hi : r.index < ptrs.length := hnum ▸ mem_range.mp hmem
      exact lands_of_getElem? hbufs hmaps hnodup hi ((hkey r.index hi).symm.trans hptr)
  · intro frameBuf hmem frameType hkind VIDIOC_QBUF
    obtain ⟨i, hi⟩ := mem_iff_getElem?.mp hmem
    obtain ⟨hlt, -⟩ := List.getElem?_eq_some_iff.mp hi
    obtain ⟨p, hp⟩ := hsome i hlt
    obtain ⟨ret, a', hfill⟩ := fillThisBuffer_streaming VIDIOC_QBUF hkind
      (hbufs ▸ valueFor_zipIdx hnodup hi) hp
    exact ⟨ret, ⟨i, p⟩, a', hfill,
      lands_of_getElem? hbufs hmaps hnodup hlt ((hkey i hlt).symm.trans hp)⟩

include hbufs hion hlen hmaps hprev in
theorem ascends_of_capturesAnnounced (h : a.CapturesAnnounced ptrs (replies.Mapped ptrs)) :
    ptrs.Nodup ∧ replies.Ascends ptrs.length := by
  obtain ⟨ret, queued, a', hstart, hall, hlands⟩ := h.startPreview (fun _ => true) true
  obtain ⟨ret₁, a₁, hloop, hret⟩ := startPreview_cases hprev hstart
  have hindex := hall (hret.mpr ⟨ret_queueBuffers hloop, Bool.or_true _⟩)
  -- Each index has its request.
  have hrequest : ∀ i < ptrs.length, ∃ r ∈ queued, r.index = i := by
    intro i hi
    exact mem_map.mp (hindex ▸ mem_range.mpr hi)
  have hnodup : ptrs.Nodup := by
    refine nodup_of_grallocPtr hbufs fun i hi => ?_
    obtain ⟨r, hr, rfl⟩ := hrequest i hi
    obtain ⟨b, hb, -⟩ := lands_iff.mp (hlands r hr)
    exact ne_none_iff_exists'.mpr ⟨b, hb⟩
  refine ⟨hnodup, (pairwise_iff_ascends hlen hmaps).mp (keyAt_zipIdx_iff.mp fun i hi => ?_)⟩
  obtain ⟨r, hr, rfl⟩ := hrequest i (hlen ▸ hi)
  rw [← hion, (mem_queueBuffers hloop hr).2,
    getElem?_of_lands hbufs hmaps hnodup (hlen ▸ hi) (hlands r hr)]

end Registered

/-- Once buffers are registered, frames land where they are announced if and only if the mappings
came at ascending addresses, for an array that names each buffer once. -/
theorem capturesAnnounced_iff (hunused : a₀.Unused)
    (h : a₀.UseBuffersPreview replies (some ptrs) = (NO_ERROR, a)) :
    a.CapturesAnnounced ptrs (replies.Mapped ptrs) ↔
      ptrs.Nodup ∧ replies.Ascends ptrs.length := by
  obtain ⟨maps, hlen, hmaps, rfl⟩ := UseBuffersPreview_ok hunused.mIonHandle h
  have hbufs := congrArg (·.addAll ptrs.zipIdx) hunused.mPreviewBufs
  constructor
  · exact ascends_of_capturesAnnounced hbufs rfl hlen hmaps hunused.mPreviewing
  · rintro ⟨hnodup, hasc⟩
    exact capturesAnnounced_of_ascends hbufs rfl rfl hlen hmaps hunused.mPreviewing hnodup hasc

/-- An adapter that was just initialized. -/
def V4LCameraAdapter.initialized : V4LCameraAdapter where
  mPreviewBufs := .empty
  mIonHandle := .empty
  mPreviewBufferCount := 0
  mPreviewing := false
  isStreaming := false
  nQueued := 0

theorem initialized_unused : V4LCameraAdapter.initialized.Unused := ⟨rfl, rfl, rfl⟩

/-- Nothing fails, and the mappings are at these addresses. -/
def MapReplies.at (maps : List Address) : MapReplies where
  VIDIOC_REQBUFS := true
  VIDIOC_QUERYBUF := fun _ => true
  ION_IOC_MAP_GRALLOC := fun _ => true
  ion_map := fun i => maps[i]?

theorem capturesAnnounced_two_buffers :
    (V4LCameraAdapter.initialized.UseBuffersPreview (.at [100, 200])
        (some [20, 10])).2.CapturesAnnounced [20, 10] ((MapReplies.at [100, 200]).Mapped [20, 10]) ↔
      [(20 : Address), 10].Nodup ∧ (MapReplies.at [100, 200]).Ascends 2 :=
  capturesAnnounced_iff initialized_unused rfl

/-- The second mapping lies below the first: the driver writes the frames of each of the two
indices into the buffer that is announced for the other one. -/
theorem captures_into_other_buffer :
    V4LCameraAdapter.initialized.UseBuffersPreview (.at [200, 100]) (some [10, 20]) =
        (NO_ERROR, { V4LCameraAdapter.initialized with
          mPreviewBufs := .addAll .empty [(10, 0), (20, 1)]
          mIonHandle := .addAll .empty [(200, 0), (100, 1)]
          mPreviewBufferCount := 2 }) ∧
      ¬(V4LCameraAdapter.initialized.UseBuffersPreview (.at [200, 100])
        (some [10, 20])).2.CapturesAnnounced [10, 20]
          ((MapReplies.at [200, 100]).Mapped [10, 20]) := by
  refine ⟨rfl, fun h => ?_⟩
  obtain ⟨ret, queued, a', hstart, -, hlands⟩ := h.startPreview (fun _ => true) true
  have hqueued : queued = [⟨0, 100⟩, ⟨1, 200⟩] :=
    ((Prod.mk.inj (Prod.mk.inj (some.inj hstart)).2).1).symm
  obtain ⟨b, hb, i, hbuf, hmap⟩ := lands_iff.mp (hlands ⟨0, 100⟩ (hqueued ▸ mem_cons_self))
  obtain rfl : 10 = b := some.inj hb
  match i with
  | 0 => exact absurd hmap (by decide)
  | 1 => exact absurd hbuf (by decide)
  | i + 2 => exact absurd hbuf (by simp)

end OmapHal.Camera
