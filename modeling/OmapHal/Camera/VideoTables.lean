import OmapHal.Camera.NotifiedFrames

/-!
# The tables of a recording

What `initSharedVideoBuffers` leaves in the tables: the pairs of the turns that it took, all of
them if it succeeds.
-/

namespace OmapHal.Camera

open List Option

open OmapHal.Core (KeyedVector)

/-- Memory that is handed out is in no use and is not handed out again. -/
structure Fresh (mRequestMemory : Nat → Option Address) (used : List Address) : Prop where
  unused : ∀ i, (mRequestMemory i).getD 0 ≠ 0 → (mRequestMemory i).getD 0 ∉ used
  apart : ∀ i j, (mRequestMemory i).getD 0 ≠ 0 →
    (mRequestMemory j).getD 0 = (mRequestMemory i).getD 0 → j = i

namespace RecordingState

variable {rs : RecordingState} {mRequestMemory : Nat → Option Address}
  {bufArr vBufArr : List Address}
  {turns : List Nat} {i : Nat} {b data : Address}

/-- The pairs of these turns, for metadata. -/
def fillMetadata (rs : RecordingState) (mRequestMemory : Nat → Option Address)
    (bufArr vBufArr : List Address) (turns : List Nat) : RecordingState :=
  { rs with
    mVideoMetadataBufferMemoryMap := rs.mVideoMetadataBufferMemoryMap.addAll
      (turns.map fun i => (bufArr.getD i 0, (mRequestMemory i).getD 0))
    mVideoMetadataBufferReverseMap := rs.mVideoMetadataBufferReverseMap.addAll
      (turns.map fun i => ((mRequestMemory i).getD 0, bufArr.getD i 0))
    mVideoMap := rs.mVideoMap.addAll (turns.map fun i => (bufArr.getD i 0, vBufArr.getD i 0))
    mPreviewBufIndex := rs.mPreviewBufIndex.addAll (turns.map fun i => (bufArr.getD i 0, i))
    mVirtualBuffer := rs.mVirtualBuffer.addAll (turns.map fun i => (vBufArr.getD i 0, i)) }

/-- The pairs of these turns, without metadata. -/
def fillPlain (rs : RecordingState) (bufArr vBufArr : List Address) (turns : List Nat) :
    RecordingState :=
  { rs with
    mPreviewBufIndex := rs.mPreviewBufIndex.addAll (turns.map fun i => (bufArr.getD i 0, i))
    mVirtualBuffer := rs.mVirtualBuffer.addAll (turns.map fun i => (vBufArr.getD i 0, i)) }

/-! ### Memory and buffers -/

/-- The two maps for metadata lead back. -/
structure Paired (rs : RecordingState) : Prop where
  data : ∀ b data, rs.mVideoMetadataBufferMemoryMap.valueFor b = some data → data ≠ 0
  reverse : ∀ b data, rs.mVideoMetadataBufferMemoryMap.valueFor b = some data →
    rs.mVideoMetadataBufferReverseMap.valueFor data = some b

theorem getD_of_lt {l : List Address} (hi : i < l.length) : l.getD i 0 = l[i] := by
  rw [getD_eq_getElem?_getD, getElem?_eq_getElem hi, getD_some]

theorem Paired.releaseSharedVideoBuffers (h : rs.Paired) :
    rs.releaseSharedVideoBuffers.Paired := by
  rw [RecordingState.releaseSharedVideoBuffers]
  split
  · exact ⟨fun b data hb => (by cases hb), fun b data hb => (by cases hb)⟩
  · exact h

/-- The places of an array without repetitions. -/
theorem getD_inj {l : List Address} (hnodup : l.Nodup) {i j : Nat} (hi : i < l.length)
    (hj : j < l.length) (h : l.getD j 0 = l.getD i 0) : j = i := by
  rw [getD_of_lt hi, getD_of_lt hj] at h
  exact hnodup.getElem_inj_iff.mp h

section Filled

variable (hbuf : bufArr.Nodup) (hturns : ∀ i ∈ turns, i < bufArr.length)

include hbuf hturns

theorem fillMetadata_memory (hi : i ∈ turns) :
    (rs.fillMetadata mRequestMemory bufArr vBufArr turns).mVideoMetadataBufferMemoryMap.valueFor
      (bufArr.getD i 0) = some ((mRequestMemory i).getD 0) := by
  refine KeyedVector.valueFor_addAll_of_mem hi fun j hj h => ?_
  rw [getD_inj hbuf (hturns i hi) (hturns j hj) h]

theorem fillMetadata_paired (h : rs.Paired) (hdata : ∀ i ∈ turns, (mRequestMemory i).getD 0 ≠ 0)
    (hfresh : Fresh mRequestMemory rs.mVideoMetadataBufferReverseMap.keys) :
    (rs.fillMetadata mRequestMemory bufArr vBufArr turns).Paired := by
  have hcases : ∀ b data,
      (rs.fillMetadata mRequestMemory bufArr vBufArr
        turns).mVideoMetadataBufferMemoryMap.valueFor b = some data →
      (∃ i ∈ turns, b = bufArr.getD i 0 ∧ data = (mRequestMemory i).getD 0) ∨
        rs.mVideoMetadataBufferMemoryMap.valueFor b = some data := by
    intro b data hb
    by_cases hturn : ∃ i ∈ turns, bufArr.getD i 0 = b
    · obtain ⟨i, hi, rfl⟩ := hturn
      rw [fillMetadata_memory hbuf hturns hi] at hb
      exact .inl ⟨i, hi, rfl, (some.inj hb).symm⟩
    · have hne : ∀ j ∈ turns, bufArr.getD j 0 ≠ b := fun j hj heq => hturn ⟨j, hj, heq⟩
      exact .inr ((KeyedVector.valueFor_addAll_of_ne hne).symm.trans hb)
  constructor
  · intro b data hb
    rcases hcases b data hb with ⟨i, hi, -, rfl⟩ | hb
    · exact hdata i hi
    · exact h.data b data hb
  · intro b data hb
    rcases hcases b data hb with ⟨i, hi, rfl, rfl⟩ | hb
    · refine KeyedVector.valueFor_addAll_of_mem hi fun j _ heq => ?_
      rw [hfresh.apart i j (hdata i hi) heq]
    · have hrev := h.reverse b data hb
      refine (KeyedVector.valueFor_addAll_of_ne fun j hj heq => ?_).trans hrev
      apply hfresh.unused j (hdata j hj)
      rw [heq, KeyedVector.mem_keys, hrev]
      exact some_ne_none b

/-! ### The virtual buffer of a buffer -/

theorem valueFor_index (hi : i ∈ turns) :
    (rs.mPreviewBufIndex.addAll (turns.map fun i => (bufArr.getD i 0, i))).valueFor
      (bufArr.getD i 0) = some i :=
  KeyedVector.valueFor_addAll_of_mem hi fun j hj h => getD_inj hbuf (hturns i hi) (hturns j hj) h

theorem fillMetadata_videoMap (hi : i ∈ turns) :
    (rs.fillMetadata mRequestMemory bufArr vBufArr turns).mVideoMap.valueFor (bufArr.getD i 0) =
      some (vBufArr.getD i 0) := by
  refine KeyedVector.valueFor_addAll_of_mem hi fun j hj h => ?_
  rw [getD_inj hbuf (hturns i hi) (hturns j hj) h]

end Filled

/-- What is left of earlier recordings lies above the virtual buffers of this one. -/
def Above (left vBufArr : List Address) : Prop :=
  ∀ k ∈ left, k ∉ vBufArr → ∀ v ∈ vBufArr, v < k

theorem keyAt_virtualBuffer (hasc : vBufArr.Pairwise (· < ·))
    (habove : Above rs.mVirtualBuffer.keys vBufArr) (hi : i < vBufArr.length) :
    (rs.mVirtualBuffer.addAll
      ((List.range vBufArr.length).map fun i => (vBufArr.getD i 0, i))).keyAt i =
        some (vBufArr.getD i 0) := by
  have hmem : ∀ k, (∃ j ∈ range vBufArr.length, vBufArr.getD j 0 = k) ↔ k ∈ vBufArr := by
    intro k
    constructor
    · rintro ⟨j, hj, rfl⟩
      rw [getD_of_lt (mem_range.mp hj)]
      exact getElem_mem _
    · intro hk
      obtain ⟨j, hj, rfl⟩ := mem_iff_getElem.mp hk
      exact ⟨j, mem_range.mpr hj, getD_of_lt hj⟩
  have hv : vBufArr.getD i 0 ∈ vBufArr := (hmem _).mp ⟨i, mem_range.mpr hi, rfl⟩
  refine KeyedVector.keyAt_eq_of_lower hasc ?_ ?_ fun k hk => ?_
  · rw [getElem?_eq_getElem hi, getD_of_lt hi]
  · exact KeyedVector.mem_keys_addAll.mpr (.inl ⟨i, mem_range.mpr hi, rfl⟩)
  · rw [KeyedVector.mem_keys_addAll, hmem, or_iff_left_of_imp]
    intro hleft
    by_contra hnot
    exact absurd (habove k hleft hnot _ hv) hk.not_gt

theorem virtualBuffer_fillMetadata (hbuf : bufArr.Nodup) (hasc : vBufArr.Pairwise (· < ·))
    (hlen : bufArr.length = vBufArr.length) (habove : Above rs.mVirtualBuffer.keys vBufArr)
    (hi : i < vBufArr.length) :
    (rs.fillMetadata mRequestMemory bufArr vBufArr (List.range vBufArr.length)).virtualBuffer
      (bufArr.getD i 0) = some (vBufArr.getD i 0) :=
  bind_eq_some_iff.mpr ⟨i, valueFor_index hbuf
    (fun _ hj => hlen ▸ mem_range.mp hj) (mem_range.mpr hi), keyAt_virtualBuffer hasc habove hi⟩

theorem virtualBuffer_fillPlain (hbuf : bufArr.Nodup) (hasc : vBufArr.Pairwise (· < ·))
    (hlen : bufArr.length = vBufArr.length) (habove : Above rs.mVirtualBuffer.keys vBufArr)
    (hi : i < vBufArr.length) :
    (rs.fillPlain bufArr vBufArr (List.range vBufArr.length)).virtualBuffer (bufArr.getD i 0) =
      some (vBufArr.getD i 0) :=
  bind_eq_some_iff.mpr ⟨i, valueFor_index hbuf
    (fun _ hj => hlen ▸ mem_range.mp hj) (mem_range.mpr hi), keyAt_virtualBuffer hasc habove hi⟩

end RecordingState

namespace AppCallbackNotifier

variable {s : AppCallbackNotifier} {mRequestMemory : Nat → Option Address}
  {bufArr vBufArr : List Address} {turns : List Nat}

/-- A notifier with the recording in another state. -/
def withRecordingState (s : AppCallbackNotifier) (rs : RecordingState) : AppCallbackNotifier :=
  { s with toRecordingState := rs }

theorem initMetadataBuffers_eq (s : AppCallbackNotifier) (mRequestMemory : Nat → Option Address)
    (h : ∀ i ∈ turns, i < bufArr.length ∧ i < vBufArr.length) :
    ∃ ret done, initMetadataBuffers mRequestMemory bufArr (some vBufArr) turns s =
        some (ret, s.withRecordingState
          (s.toRecordingState.fillMetadata mRequestMemory bufArr vBufArr done)) ∧
      (∀ i ∈ done, i ∈ turns ∧ (mRequestMemory i).getD 0 ≠ 0) ∧
      (ret = NO_ERROR → done = turns) := by
  induction turns generalizing s with
  | nil => exact ⟨NO_ERROR, [], rfl, fun i hi => (by cases hi), fun _ => rfl⟩
  | cons i turns ih =>
    obtain ⟨hbuf, hvbuf⟩ := h i mem_cons_self
    rw [initMetadataBuffers]
    dsimp only
    split
    · next hzero =>
      exact ⟨NO_MEMORY, [], rfl, fun i hi => (by cases hi), fun h => absurd h (by decide)⟩
    · next hdata =>
      rw [getElem?_eq_getElem hbuf, getElem?_eq_getElem hvbuf]
      obtain ⟨ret, done, heq, hdone, hall⟩ := ih _ fun j hj => h j (mem_cons_of_mem i hj)
      refine ⟨ret, i :: done, heq.trans ?_, fun j hj => ?_, fun hret => ?_⟩
      · rw [RecordingState.fillMetadata, RecordingState.fillMetadata]
        simp only [withRecordingState, map_cons, KeyedVector.addAll_cons, getD_eq_getElem?_getD,
          getElem?_eq_getElem hbuf, getElem?_eq_getElem hvbuf, getD_some]
      · rcases mem_cons.mp hj with rfl | hj
        · exact ⟨mem_cons_self, hdata⟩
        · exact (hdone j hj).imp_left (mem_cons_of_mem i)
      · rw [hall hret]

theorem initPlainBuffers_eq (h : ∀ i ∈ turns, i < bufArr.length ∧ i < vBufArr.length) :
    initPlainBuffers bufArr vBufArr turns s =
      some
      (NO_ERROR, s.withRecordingState (s.toRecordingState.fillPlain bufArr vBufArr turns)) := by
  induction turns generalizing s with
  | nil => rfl
  | cons i turns ih =>
    obtain ⟨hbuf, hvbuf⟩ := h i mem_cons_self
    rw [initPlainBuffers, getElem?_eq_getElem hbuf, getElem?_eq_getElem hvbuf]
    refine (ih fun j hj => h j (mem_cons_of_mem i hj)).trans ?_
    rw [RecordingState.fillPlain, RecordingState.fillPlain]
    simp only [withRecordingState, map_cons, KeyedVector.addAll_cons,
      getD_eq_getElem?_getD, getElem?_eq_getElem hbuf, getElem?_eq_getElem hvbuf, getD_some]

end AppCallbackNotifier

/-! ### The buffers of a recording -/

/-- The buffer that the recorder is told for a buffer of the preview. -/
def RecordingState.named (rs : RecordingState) (mBuffer : Address) : Option Address :=
  if rs.mUseMetaDataBufferMode then rs.handle mBuffer else rs.virtualBuffer mBuffer

/-- What `initSharedVideoBuffers` makes of the state of a recording. The names are right if nothing
of earlier recordings stands below, or if it is not looked at. -/
structure RecordingState.Filled (rs : RecordingState) (bufArr vBufArr : List Address)
    (ret : status_t) (rs' : RecordingState) : Prop where
  recording : rs'.mRecording = rs.mRecording
  mode : rs'.mUseMetaDataBufferMode = rs.mUseMetaDataBufferMode
  paired : rs'.Paired
  named : ret = NO_ERROR → rs.mUseMetaDataBufferMode = true ∧ rs.mUseVideoBuffers = true ∨
    Above rs.mVirtualBuffer.keys vBufArr →
      ∀ i < vBufArr.length, rs'.named (bufArr.getD i 0) = some (vBufArr.getD i 0)

theorem AppCallbackNotifier.initSharedVideoBuffers_filled {s : AppCallbackNotifier}
    {mRequestMemory : Nat → Option Address} {bufArr vBufArr : List Address}
    (hbuf : bufArr.Nodup) (hasc : vBufArr.Pairwise (· < ·)) (hlen : bufArr.length = vBufArr.length)
    (hplain : s.mUseMetaDataBufferMode = false → bufArr.length = MAX_CAMERA_BUFFERS)
    (hfresh : Fresh mRequestMemory s.mVideoMetadataBufferReverseMap.keys)
    (hpaired : s.Paired) :
    ∃ ret rs, s.initSharedVideoBuffers mRequestMemory bufArr bufArr.length vBufArr =
        some (ret, s.withRecordingState rs) ∧
      s.toRecordingState.Filled bufArr vBufArr ret rs := by
  rw [initSharedVideoBuffers]
  by_cases hmeta : s.mUseMetaDataBufferMode = true
  · obtain ⟨ret, done, heq, hdone, hall⟩ := s.initMetadataBuffers_eq mRequestMemory
      fun i (hi : i ∈ range bufArr.length) =>
        ⟨mem_range.mp hi, hlen ▸ mem_range.mp hi⟩
    rw [if_pos hmeta]
    refine ⟨ret, _, heq, rfl, rfl, ?_, fun hret habove i hi => ?_⟩
    · exact RecordingState.fillMetadata_paired hbuf
        (fun i hi => mem_range.mp (hdone i hi).1) hpaired (fun i hi => (hdone i hi).2) hfresh
    · rw [hall hret, hlen]
      refine (if_pos hmeta).trans ?_
      by_cases hvideo : s.mUseVideoBuffers = true
      · refine (if_pos hvideo).trans (RecordingState.fillMetadata_videoMap hbuf
          (fun j hj => hlen ▸ mem_range.mp hj) (mem_range.mpr hi))
      · refine (if_neg hvideo).trans
          (RecordingState.virtualBuffer_fillMetadata hbuf hasc hlen ?_ hi)
        exact habove.resolve_left fun h => hvideo h.2
  · rw [if_neg hmeta]
    have hsix := hplain (Bool.not_eq_true _ |>.mp hmeta)
    have heq : initPlainBuffers bufArr vBufArr (range 6) s = _ := initPlainBuffers_eq (s := s)
      fun i hi => ⟨hsix ▸ mem_range.mp hi, hlen ▸ hsix ▸ mem_range.mp hi⟩
    refine ⟨NO_ERROR, _, heq, rfl, rfl, ⟨hpaired.data, hpaired.reverse⟩, fun _ habove i hi => ?_⟩
    refine (if_neg hmeta).trans ?_
    have hrange : range 6 = range vBufArr.length := by
      rw [← hlen, hsix]
      rfl
    rw [hrange]
    refine RecordingState.virtualBuffer_fillPlain hbuf hasc hlen ?_ hi
    exact habove.resolve_left fun h => hmeta h.1

end OmapHal.Camera
