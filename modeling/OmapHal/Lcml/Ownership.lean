import OmapHal.Core.Ledger
import OmapHal.Lcml.Buffers

/-!
# Who holds a mapping

An open reservation is held by a structure in a storage array, by the reuse table or by a control
block, and its holder releases it. The DSP only holds structures whose mappings are open. The
handlers of the messages keep this.
-/

namespace OmapHal.Lcml

open Function List Option

open OmapHal.Core (Owns)

variable {only : Option Nat} {control : Control}

variable {s t : State} {d : Direction} {i k : Nat} {entry : TArmDspCommunicationStruct}
  {dsp : Bridge} {pDmmBuf : DMM_BUFFER_OBJ} {r : Reservation}

/-- Who can hold a reservation. -/
inductive Owner where
  | slot (d : Direction) (i : Nat) (use : Use)
  | reused (k : Nat)
  | control (kind : ControlKind) (i : Nat)
  deriving DecidableEq, Repr

/-- The reservation that a handler would release for a structure. -/
def heldFor (ReUseMap : Bool) (entry : TArmDspCommunicationStruct) (pDmmBuf : DMM_BUFFER_OBJ) :
    Use → Option Reservation
  | .buffer =>
    if entry.iBufferPtr ≠ 0 ∧ ¬ReUseMap ∧ pDmmBuf.bufReserved ≠ 0 then
      some ⟨.buffer, entry.iArmbufferArg, some entry.iBufferPtr, pDmmBuf.bufReserved⟩ else none
  | .parameter =>
    if entry.iParamPtr ≠ 0 ∧ pDmmBuf.paramReserved ≠ 0 then
      some ⟨.parameter, entry.iArmParamArg, some entry.iParamPtr, pDmmBuf.paramReserved⟩ else none
  | .commStruct =>
    if pDmmBuf.pMapped ≠ 0 ∧ pDmmBuf.pReserved ≠ 0 then
      some ⟨.commStruct, pDmmBuf.pAllocated, some pDmmBuf.pMapped, pDmmBuf.pReserved⟩ else none
  | .control => none

/-- The reservation of a control block that is mapped. -/
def Control.holds (control : Control) (i : Nat) : Option Reservation :=
  match control.pDmmBuf i with
  | some pDmmBuf =>
    if control.mapped i then
      some ⟨.control, pDmmBuf.pAllocated, some pDmmBuf.pMapped, pDmmBuf.pReserved⟩ else none
  | none => none

/-- The reservation of a place in the reuse table. -/
def heldReused (ReUseMap : Bool) (mapped_dmm_buffers : Nat → DMM_BUFFER_OBJ)
    (mapped_buffer_count k : Nat) : Option Reservation :=
  if ReUseMap ∧ k < mapped_buffer_count then
    some ⟨.buffer, (mapped_dmm_buffers k).pAllocated, some (mapped_dmm_buffers k).pMapped,
      (mapped_dmm_buffers k).bufReserved⟩ else none

def State.holds (s : State) : Owner → Option Reservation
  | .slot d i use =>
    ((s.storage d).Armstorage i).bind fun entry =>
      heldFor s.ReUseMap entry ((s.storage d).DmmBuffer i) use
  | .reused k => heldReused s.ReUseMap s.mapped_dmm_buffers s.mapped_buffer_count k
  | .control kind i => (s.controls kind).holds i

/-- The reservations are as their holders have them. -/
structure Genuine (dsp : Bridge) (holds : Owner → Option Reservation) : Prop where
  reserved : Owns Reservation.pReserved dsp.ledger holds
  mapped : Owns Reservation.pMapped dsp.ledger holds
  nonzero : ∀ r ∈ dsp.ledger, r.pReserved ≠ 0 ∧ ∃ m, r.pMapped = some m ∧ m ≠ 0
  stray : dsp.stray = []

/-- The slot of a structure that the DSP holds. -/
def State.SentFrom (s : State) (sent : Sent) (d : Direction) (i : Nat) : Prop :=
  d = directionOf sent.streamId ∧ i < QUEUE_SIZE ∧
    ((s.storage d).DmmBuffer i).pMapped = sent.dwArg1 ∧
    (∃ entry, (s.storage d).Armstorage i = some entry ∧ entry.iStreamID = sent.streamId) ∧
    ∀ r ∈ sent.uses, (∃ use, s.holds (.slot d i use) = some r) ∨ ∃ k, s.holds (.reused k) = some r

/-- The reuse table is filled from its start, with different buffers. -/
structure ReuseTable (ReUseMap : Bool) (mapped_dmm_buffers : Nat → DMM_BUFFER_OBJ)
    (mapped_buffer_count : Nat) : Prop where
  unused : ReUseMap = false → mapped_buffer_count = 0
  rest : ∀ k, mapped_buffer_count ≤ k → (mapped_dmm_buffers k).pAllocated = 0
  reused : ∀ k < mapped_buffer_count, (mapped_dmm_buffers k).pAllocated ≠ 0 ∧
    (mapped_dmm_buffers k).bufReserved ≠ 0 ∧ (mapped_dmm_buffers k).pMapped ≠ 0
  once : ∀ k < mapped_buffer_count, ∀ k' < mapped_buffer_count,
    (mapped_dmm_buffers k).pAllocated = (mapped_dmm_buffers k').pAllocated → k = k'

/-- What the steps keep. -/
structure State.Balanced (s : State) : Prop where
  genuine : Genuine s.dsp s.holds
  /-- an empty slot has no mapping, and a taken slot has all of one or nothing -/
  empty : ∀ d, ∀ i < QUEUE_SIZE, (s.storage d).Armstorage i = none →
    ((s.storage d).DmmBuffer i).pMapped = 0
  struct : ∀ d, ∀ i < QUEUE_SIZE, ((s.storage d).DmmBuffer i).pMapped ≠ 0 →
    ((s.storage d).DmmBuffer i).pReserved ≠ 0
  slot : ∀ d i entry, (s.storage d).Armstorage i = some entry → i < QUEUE_SIZE
  index : ∀ d i entry, (s.storage d).Armstorage i = some entry → entry.index d = i
  table : ReuseTable s.ReUseMap s.mapped_dmm_buffers s.mapped_buffer_count
  marked : ∀ kind i, (s.controls kind).pDmmBuf i = none → (s.controls kind).mapped i = false
  sent : ∀ sent ∈ s.dsp.queued, sent.dwArg1 ≠ 0 ∧ ∃ d i, s.SentFrom sent d i
  distinct : (s.dsp.queued.map (·.dwArg1)).Nodup

/-! ## Releases -/

variable {holds : Owner → Option Reservation} {o : Owner}

/-- The release of an open reservation takes it out of the ledger. -/
theorem Genuine.release (h : Genuine dsp holds) (hr : r ∈ dsp.ledger) {m : Ptr}
    (hm : r.pMapped = some m) :
    dsp.release m r.pReserved = { dsp with ledger := dsp.ledger.erase r } := by
  have hat : ∀ r' ∈ dsp.ledger, r'.isAt m r.pReserved ↔ r' = r := by
    intro r' hr'
    constructor
    · intro hat
      exact h.reserved.eq_of_key hr' hr (of_decide_eq_true hat).2
    · rintro rfl
      exact decide_eq_true ⟨hm, rfl⟩
  unfold Bridge.release
  rw [if_pos (any_eq_true.mpr ⟨r, hr, (hat r hr).mpr rfl⟩), Core.eraseP_eq_erase hat]

/-- `DmmUnMap` with the pair of a holder, or with a pair that is nobody's. -/
theorem Genuine.unmap (h : Genuine dsp holds) {use : Use} {pArmPtr pMapPtr pResPtr : Ptr}
    (ho : holds o = if pMapPtr ≠ 0 ∧ pResPtr ≠ 0 then
      some ⟨use, pArmPtr, some pMapPtr, pResPtr⟩ else none) :
    Genuine (DmmUnMap pMapPtr pResPtr dsp) (update holds o none) ∧
      (DmmUnMap pMapPtr pResPtr dsp).queued = dsp.queued := by
  unfold DmmUnMap
  by_cases hnull : pMapPtr = 0 ∨ pResPtr = 0
  · rw [if_neg fun hboth => hnull.elim hboth.1 hboth.2] at ho
    rw [if_pos hnull]
    exact ⟨⟨h.reserved.update_none ho, h.mapped.update_none ho, h.nonzero, h.stray⟩, rfl⟩
  · rw [not_or] at hnull
    rw [if_pos hnull] at ho
    rw [if_neg (not_or.mpr hnull)]
    have hr := h.reserved.kept o _ ho
    rw [show dsp.release pMapPtr pResPtr = _ from h.release hr rfl]
    exact ⟨⟨h.reserved.erase ho, h.mapped.erase ho,
      fun r hr' => h.nonzero r (mem_of_mem_erase hr'), h.stray⟩, rfl⟩

/-- A slot without its reservations. -/
def withoutSlot (holds : Owner → Option Reservation) (d : Direction) (i : Nat) :
    Owner → Option Reservation :=
  Function.update
  (Function.update (Function.update (Function.update holds (.slot d i .control) none)
    (.slot d i .buffer) none) (.slot d i .parameter) none) (.slot d i .commStruct) none

/-- What a structure has mapped is released by the pairs that it was mapped with. -/
theorem Genuine.unmapEntry (h : Genuine dsp holds) {ReUseMap : Bool}
    (hslot : ∀ use, holds (.slot d i use) = heldFor ReUseMap entry pDmmBuf use) :
    Genuine (unmapEntry ReUseMap entry pDmmBuf dsp) (withoutSlot holds d i) ∧
      (Lcml.unmapEntry ReUseMap entry pDmmBuf dsp).queued = dsp.queued := by
  have hcontrol := hslot .control
  have hbuffer := hslot .buffer
  have hparameter := hslot .parameter
  have hstruct := hslot .commStruct
  dsimp only [heldFor] at hcontrol hbuffer hparameter hstruct
  unfold Lcml.unmapEntry withoutSlot
  dsimp only
  have hsame : update holds (.slot d i .control) none = holds := by
    rw [← hcontrol, update_eq_self]
  rw [hsame]
  obtain ⟨h₁, hq₁⟩ : Genuine (if entry.iBufferPtr ≠ 0 ∧ ¬ReUseMap then
      DmmUnMap entry.iBufferPtr pDmmBuf.bufReserved dsp else dsp)
      (update holds (.slot d i .buffer) none) ∧
      (if entry.iBufferPtr ≠ 0 ∧ ¬ReUseMap then
        DmmUnMap entry.iBufferPtr pDmmBuf.bufReserved dsp else dsp).queued = dsp.queued := by
    split
    · rename_i hreleased
      have hheld : holds (.slot d i .buffer) =
          if entry.iBufferPtr ≠ 0 ∧ pDmmBuf.bufReserved ≠ 0 then
            some ⟨.buffer, entry.iArmbufferArg, some entry.iBufferPtr, pDmmBuf.bufReserved⟩
          else none := by
        rw [hbuffer]
        by_cases hnull : pDmmBuf.bufReserved = 0
        · rw [if_neg fun hall => hall.2.2 hnull, if_neg fun hall => hall.2 hnull]
        · rw [if_pos ⟨hreleased.1, hreleased.2, hnull⟩, if_pos ⟨hreleased.1, hnull⟩]
      exact h.unmap hheld
    · rename_i hkept
      rw [if_neg fun hall => hkept ⟨hall.1, hall.2.1⟩] at hbuffer
      exact ⟨⟨h.reserved.update_none hbuffer, h.mapped.update_none hbuffer, h.nonzero, h.stray⟩,
        rfl⟩
  generalize (if entry.iBufferPtr ≠ 0 ∧ ¬ReUseMap then
    DmmUnMap entry.iBufferPtr pDmmBuf.bufReserved dsp else dsp) = dsp₁ at h₁ hq₁ ⊢
  have hparameter' : update holds (.slot d i .buffer) none (.slot d i .parameter) = _ :=
    (update_of_ne (by simp) ..).trans hparameter
  obtain ⟨h₂, hq₂⟩ : Genuine (if entry.iParamPtr ≠ 0 then
      DmmUnMap entry.iParamPtr pDmmBuf.paramReserved dsp₁ else dsp₁)
      (update (update holds (.slot d i .buffer) none) (.slot d i .parameter) none) ∧
      (if entry.iParamPtr ≠ 0 then
        DmmUnMap entry.iParamPtr pDmmBuf.paramReserved dsp₁ else dsp₁).queued = dsp₁.queued := by
    split
    · exact h₁.unmap hparameter'
    · rename_i hnull
      rw [if_neg fun hall => hnull hall.1] at hparameter'
      exact ⟨⟨h₁.reserved.update_none hparameter', h₁.mapped.update_none hparameter', h₁.nonzero,
        h₁.stray⟩, rfl⟩
  generalize (if entry.iParamPtr ≠ 0 then
    DmmUnMap entry.iParamPtr pDmmBuf.paramReserved dsp₁ else dsp₁) = dsp₂ at h₂ hq₂ ⊢
  have hstruct' : update (update holds (.slot d i .buffer) none)
      (.slot d i .parameter) none (.slot d i .commStruct) = _ :=
    (update_of_ne (by simp) ..).trans ((update_of_ne (by simp) ..).trans hstruct)
  obtain ⟨h₃, hq₃⟩ := h₂.unmap hstruct'
  exact ⟨h₃, hq₃.trans (hq₂.trans hq₁)⟩

theorem withoutSlot_self (holds : Owner → Option Reservation) (d : Direction) (i : Nat)
    (use : Use) :
    withoutSlot holds d i (.slot d i use) = none := by
  unfold withoutSlot
  cases use <;> simp

theorem withoutSlot_of_ne {o : Owner} (h : ∀ use, o ≠ .slot d i use) :
    withoutSlot holds d i o = holds o := by
  unfold withoutSlot
  rw [update_of_ne (h _), update_of_ne (h _), update_of_ne (h _), update_of_ne (h _)]

/-! ## The slot of a structure is emptied -/

theorem State.holds_slot (hin : (s.storage d).Armstorage i = some entry) (use : Use) :
    s.holds (.slot d i use) = heldFor s.ReUseMap entry ((s.storage d).DmmBuffer i) use := by
  unfold State.holds
  dsimp only
  rw [hin, bind_some]

theorem State.holds_empty (hin : (s.storage d).Armstorage i = none) (use : Use) :
    s.holds (.slot d i use) = none := by
  unfold State.holds
  dsimp only
  rw [hin, bind_none]

section Finish

variable {bufType iBufSizeUsed nFlags : Nat}

theorem finish_DmmBuffer (s : State) (d : Direction) (i : Nat) (entry : TArmDspCommunicationStruct)
    (bufType iBufSizeUsed nFlags : Nat) (d' : Direction) (i' : Nat) :
    ((s.finish d i entry bufType iBufSizeUsed nFlags).storage d').DmmBuffer i' =
      if d' = d ∧ i' = entry.index d then { (s.storage d').DmmBuffer i' with pMapped := 0 }
      else (s.storage d').DmmBuffer i' := by
  show ((update s.storage d ((s.storage d).take i (entry.index d))) d').DmmBuffer i' = _
  by_cases hd : d' = d
  · subst hd
    rw [update_self]
    show update (s.storage d').DmmBuffer (entry.index d') _ i' = _
    by_cases hi : i' = entry.index d'
    · rw [hi, update_self, if_pos ⟨rfl, rfl⟩]
    · rw [update_of_ne hi, if_neg fun h => hi h.2]
  · rw [update_of_ne hd, if_neg fun h => hd h.1]

/-- Who holds what when a slot is empty. -/
theorem State.Balanced.finish_holds (h : s.Balanced) (hin : (s.storage d).Armstorage i = some entry)
    (o : Owner) :
    (s.finish d i entry bufType iBufSizeUsed nFlags).holds o = withoutSlot s.holds d i o := by
  have hindex := h.index d i entry hin
  cases o with
  | slot d' i' use =>
    by_cases hslot : d' = d ∧ i' = i
    · obtain ⟨rfl, rfl⟩ := hslot
      have hempty := finish_Armstorage s d' i' entry bufType iBufSizeUsed nFlags d' i'
      rw [if_pos ⟨rfl, rfl⟩] at hempty
      rw [State.holds_empty hempty, withoutSlot_self]
    · rw [withoutSlot_of_ne]
      · unfold State.holds
        dsimp only
        rw [finish_Armstorage, if_neg hslot, finish_DmmBuffer, if_neg (hindex ▸ hslot)]
        rfl
      · rintro use' heq
        injection heq with hd hi
        exact hslot ⟨hd, hi⟩
  | reused k =>
    rw [withoutSlot_of_ne (by simp)]
    rfl
  | control kind k =>
    rw [withoutSlot_of_ne (by simp)]
    rfl

theorem State.Balanced.finish_queued (h : s.Balanced)
    (hin : (s.storage d).Armstorage i = some entry) :
    (s.finish d i entry bufType iBufSizeUsed nFlags).dsp.queued = s.dsp.queued := by
  show (unmapEntry s.ReUseMap entry ((s.storage d).DmmBuffer (entry.index d)) s.dsp).queued = _
  rw [h.index d i entry hin]
  exact (h.genuine.unmapEntry (State.holds_slot hin)).2

/-- A structure that the DSP does not hold is answered. -/
theorem State.Balanced.finish (h : s.Balanced) (hin : (s.storage d).Armstorage i = some entry)
    (hback : ∀ sent ∈ s.dsp.queued, ¬s.SentFrom sent d i) :
    (s.finish d i entry bufType iBufSizeUsed nFlags).Balanced := by
  have hindex := h.index d i entry hin
  have hslot := h.slot d i entry hin
  have hgenuine := (h.genuine.unmapEntry (State.holds_slot hin)).1
  have hunmapped : (s.finish d i entry bufType iBufSizeUsed nFlags).dsp =
      unmapEntry s.ReUseMap entry ((s.storage d).DmmBuffer i) s.dsp := by
    rw [← hindex]
    rfl
  have hqueued : (s.finish d i entry bufType iBufSizeUsed nFlags).dsp.queued = s.dsp.queued :=
    h.finish_queued hin
  refine ⟨?_, fun d' i' hi' hempty => ?_, fun d' i' hi' hmapped => ?_, fun d' i' entry' hin' => ?_,
    fun d' i' entry' hin' => ?_, h.table, h.marked, ?_, ?_⟩
  · rw [hunmapped]
    refine ⟨hgenuine.reserved.congr (h.finish_holds hin),
      hgenuine.mapped.congr (h.finish_holds hin), hgenuine.nonzero, hgenuine.stray⟩
  · rw [finish_DmmBuffer, hindex]
    rw [finish_Armstorage] at hempty
    by_cases heq : d' = d ∧ i' = i
    · rw [if_pos heq]
    · rw [if_neg heq] at hempty ⊢
      exact h.empty d' i' hi' hempty
  · rw [finish_DmmBuffer, hindex] at hmapped ⊢
    by_cases heq : d' = d ∧ i' = i
    · rw [if_pos heq] at hmapped
      exact absurd rfl hmapped
    · rw [if_neg heq] at hmapped ⊢
      exact h.struct d' i' hi' hmapped
  · exact h.slot d' i' entry' (finish_stored_of hin').1
  · exact h.index d' i' entry' (finish_stored_of hin').1
  · rw [hqueued]
    intro sent hsent
    obtain ⟨hne, d', i', hd', hi', hmapped, ⟨entry', hin', hstream⟩, huses⟩ := h.sent sent hsent
    have hother : ¬(d' = d ∧ i' = i) := by
      rintro ⟨rfl, rfl⟩
      exact hback sent hsent ⟨hd', hi', hmapped, ⟨entry', hin', hstream⟩, huses⟩
    refine ⟨hne, d', i', hd', hi', ?_, ⟨entry', ?_, hstream⟩, fun r hr => ?_⟩
    · rw [finish_DmmBuffer, hindex, if_neg hother]
      exact hmapped
    · rw [finish_Armstorage, if_neg hother]
      exact hin'
    · refine (huses r hr).imp (fun ⟨use, huse⟩ => ⟨use, ?_⟩) fun ⟨k, hk⟩ => ⟨k, ?_⟩
      · rw [h.finish_holds hin, withoutSlot_of_ne]
        · exact huse
        · intro use' heq
          injection heq with hd hi
          exact hother ⟨hd, hi⟩
      · rw [h.finish_holds hin, withoutSlot_of_ne (by simp)]
        exact hk
  · rw [hqueued]
    exact h.distinct

end Finish

/-- The DSP holds fewer structures. -/
theorem State.Balanced.sublist (h : s.Balanced) {queued : List Sent}
    (hsub : queued.Sublist s.dsp.queued) :
    { s with dsp := { s.dsp with queued := queued } }.Balanced where
  genuine := ⟨h.genuine.reserved, h.genuine.mapped, h.genuine.nonzero, h.genuine.stray⟩
  empty := h.empty
  struct := h.struct
  slot := h.slot
  index := h.index
  table := h.table
  marked := h.marked
  sent sent hsent := h.sent sent (hsub.subset hsent)
  distinct := h.distinct.sublist (hsub.map _)

theorem givesBack_sublist (dsp : Bridge) (event : Event) :
    (dsp.givesBack event).queued.Sublist dsp.queued := by
  unfold Bridge.givesBack
  split
  · exact eraseP_sublist
  · exact nil_sublist _
  · exact filter_sublist
  · exact Sublist.refl _

theorem State.Balanced.givesBack (h : s.Balanced) (event : Event) :
    (s.givesBack event).Balanced := by
  have hsame : s.givesBack event =
      { s with dsp := { s.dsp with queued := (s.dsp.givesBack event).queued } } := by
    unfold State.givesBack Bridge.givesBack
    split <;> rfl
  rw [hsame]
  exact h.sublist (givesBack_sublist s.dsp event)

/-! ## Stops and flushes -/

/-- The DSP holds no structure that is drained. -/
def State.Released (s : State) (only : Option Nat) (d : Direction) : Prop :=
  ∀ sent ∈ s.dsp.queued, directionOf sent.streamId = d → only.all (· = sent.streamId) = false

theorem State.Balanced.drain (h : s.Balanced) (hreleased : s.Released only d)
    (i : Nat) : (s.drain only d i).Balanced ∧ (s.drain only d i).dsp.queued = s.dsp.queued := by
  rcases drain_cases s only d i with heq | ⟨entry, bufType, iBufSizeUsed, hin, honly, heq⟩
  · rw [heq]
    exact ⟨h, rfl⟩
  · rw [heq]
    refine ⟨h.finish hin fun sent hsent hfrom => ?_, h.finish_queued hin⟩
    obtain ⟨hd, -, -, ⟨entry', hin', hstream⟩, -⟩ := hfrom
    obtain rfl := some.inj (hin.symm.trans hin')
    rw [hstream, hreleased sent hsent hd.symm] at honly
    cases honly

theorem State.Balanced.drainAll {slots : List (Direction × Nat)}
    (h : s.Balanced) (hreleased : ∀ slot ∈ slots, s.Released only slot.1) :
    (s.drainAll only slots).Balanced := by
  induction slots generalizing s with
  | nil => exact h
  | cons slot slots ih =>
    obtain ⟨hfirst, hqueued⟩ := h.drain (hreleased slot mem_cons_self) slot.2
    refine ih hfirst fun other hother => ?_
    unfold State.Released
    rw [hqueued]
    exact hreleased other (mem_cons_of_mem slot hother)

theorem State.Balanced.flush (h : s.Balanced) (hreleased : s.Released only d) :
    (s.flush d only).Balanced := by
  rw [flush_eq]
  refine h.drainAll fun slot hslot => ?_
  obtain ⟨i, -, rfl⟩ := mem_map.mp hslot
  exact hreleased

theorem State.Balanced.stop (h : s.Balanced) (hnone : s.dsp.queued = []) : s.stop.Balanced := by
  by_cases hdevice : s.TypeofDevice = 0
  · rw [stop_eq s hdevice]
    refine h.drainAll fun slot _ sent hsent => ?_
    rw [hnone] at hsent
    cases hsent
  · unfold State.stop
    rw [if_neg hdevice]
    exact h

/-- The structure that the DSP gives back is in the slot that is found by its address. -/
theorem State.Balanced.bufferFree (h : s.Balanced) {sent : Sent} (hsent : sent ∈ s.dsp.queued)
    (iBufSizeUsed : Nat) :
    ((s.givesBack (.BUFF_FREE sent.streamId sent.dwArg1 iBufSizeUsed)).bufferFree sent.streamId
      sent.dwArg1 iBufSizeUsed).Balanced := by
  have hgiven := h.givesBack (.BUFF_FREE sent.streamId sent.dwArg1 iBufSizeUsed)
  -- what is left of the structures that the DSP holds has other addresses
  have hother : ∀ other ∈
    (s.givesBack (.BUFF_FREE sent.streamId sent.dwArg1 iBufSizeUsed)).dsp.queued,
      other.dwArg1 ≠ sent.dwArg1 := by
    have hone : ∀ other ∈ s.dsp.queued,
        decide (other.streamId = sent.streamId ∧ other.dwArg1 = sent.dwArg1) ↔ other = sent := by
      intro other hin
      constructor
      · intro heq
        exact inj_on_of_nodup_map h.distinct hin hsent (of_decide_eq_true heq).2
      · rintro rfl
        exact decide_eq_true ⟨rfl, rfl⟩
    intro other hin heq
    have hin : other ∈ s.dsp.queued.eraseP fun other =>
        decide (other.streamId = sent.streamId ∧ other.dwArg1 = sent.dwArg1) := hin
    rw [Core.eraseP_eq_erase hone] at hin
    have hnodup : s.dsp.queued.Nodup := Nodup.of_map _ h.distinct
    obtain ⟨hne, hin⟩ := hnodup.mem_erase_iff.mp hin
    exact hne (inj_on_of_nodup_map h.distinct hin hsent heq)
  unfold State.bufferFree
  dsimp only
  split
  · exact hgiven
  · rename_i i hfind
    split
    · exact hgiven
    · rename_i entry hin
      have hfound := find?_some (show find? _ _ = some i from hfind)
      have hmapped := (of_decide_eq_true hfound).2
      refine hgiven.finish hin fun other hin hfrom => hother other hin ?_
      exact hfrom.2.2.1.symm.trans hmapped

/-! ## Control blocks -/

theorem Control.holds_eq (hin : control.pDmmBuf k = some pDmmBuf)
    (hmapped : control.mapped k) : control.holds k =
      some ⟨.control, pDmmBuf.pAllocated, some pDmmBuf.pMapped, pDmmBuf.pReserved⟩ := by
  unfold Control.holds
  rw [hin]
  exact if_pos hmapped

theorem Control.holds_none (hin : control.pDmmBuf k = none) :
    control.holds k = none := by
  unfold Control.holds
  rw [hin]

theorem Control.holds_update (control : Control) (k : Nat) (pDmmBuf : Option DMM_BUFFER_OBJ)
    (mapped : Bool) (j : Nat) :
    Control.holds ⟨update control.pDmmBuf k pDmmBuf, update control.mapped k mapped⟩ j =
      if j = k then (pDmmBuf.bind fun pDmmBuf => if mapped then
        some ⟨.control, pDmmBuf.pAllocated, some pDmmBuf.pMapped, pDmmBuf.pReserved⟩ else none)
      else control.holds j := by
  unfold Control.holds
  by_cases hj : j = k
  · subst hj
    simp only [update_self, ↓reduceIte]
    cases pDmmBuf <;> rfl
  · simp only [update_of_ne hj, if_neg hj]

/-- An acknowledgement releases a control block by the pair that it was mapped with. -/
theorem Genuine.acknowledge (h : Genuine dsp holds) (control : Control) (owner : Nat → Owner)
    (howner : ∀ k, holds (owner k) = control.holds k) (dwArg2 : Ptr) :
    ((control.acknowledge dwArg2 dsp).2.queued = dsp.queued) ∧
      ((control.acknowledge dwArg2 dsp = (control, dsp)) ∨
        ∃ k, Genuine (control.acknowledge dwArg2 dsp).2 (update holds (owner k) none) ∧
          (control.acknowledge dwArg2 dsp).1 = ⟨update control.pDmmBuf k none,
            update control.mapped k false⟩) := by
  unfold Control.acknowledge
  split
  · exact ⟨rfl, .inl rfl⟩
  · rename_i k hfind
    split
    · exact ⟨rfl, .inl rfl⟩
    · rename_i pDmmBuf hin
      have hfound := find?_some hfind
      rw [hin, any_some, Bool.and_eq_true] at hfound
      have hheld := (howner k).trans (Control.holds_eq hin hfound.1)
      obtain ⟨hreserved, m, hm, hmne⟩ := h.nonzero _ (h.reserved.kept _ _ hheld)
      obtain rfl := some.inj hm
      have hunmap := h.unmap (hheld.trans (if_pos ⟨hmne, hreserved⟩).symm)
      exact ⟨hunmap.2, .inr ⟨k, hunmap.1, rfl⟩⟩

/-- A step that only concerns control blocks. -/
theorem State.Balanced.controlled (h : s.Balanced) (hstorage : t.storage = s.storage)
    (htable : t.mapped_dmm_buffers = s.mapped_dmm_buffers)
    (hcount : t.mapped_buffer_count = s.mapped_buffer_count) (hreuse : t.ReUseMap = s.ReUseMap)
    (hgenuine : Genuine t.dsp t.holds) (hqueued : t.dsp.queued = s.dsp.queued)
    (hmarked : ∀ kind i, (t.controls kind).pDmmBuf i = none → (t.controls kind).mapped i = false) :
    t.Balanced := by
  have hslot : ∀ d i use, t.holds (.slot d i use) = s.holds (.slot d i use) := by
    intro d i use
    unfold State.holds
    rw [hstorage, hreuse]
  have hreused : ∀ k, t.holds (.reused k) = s.holds (.reused k) := by
    intro k
    unfold State.holds
    rw [hcount, hreuse, htable]
  refine ⟨hgenuine, ?_, ?_, ?_, ?_, ?_, hmarked, ?_, ?_⟩
  · rw [hstorage]
    exact h.empty
  · rw [hstorage]
    exact h.struct
  · rw [hstorage]
    exact h.slot
  · rw [hstorage]
    exact h.index
  · rw [hreuse, hcount, htable]
    exact h.table
  · rw [hqueued]
    unfold State.SentFrom
    simp only [hstorage, hslot, hreused]
    exact h.sent
  · rw [hqueued]
    exact h.distinct

/-- A place for a control block is filled or emptied. -/
theorem State.Balanced.setPlace (h : s.Balanced) (kind : ControlKind) (k : Nat)
    (place : Option DMM_BUFFER_OBJ) {mapped : Bool} (hmarked : place = none → mapped = false)
    (hgenuine : Genuine dsp (update s.holds (.control kind k)
      (place.bind fun pDmmBuf => if mapped then
        some ⟨.control, pDmmBuf.pAllocated, some pDmmBuf.pMapped, pDmmBuf.pReserved⟩ else none)))
    (hqueued : dsp.queued = s.dsp.queued) :
    (s.setControl kind (⟨update (s.controls kind).pDmmBuf k place,
      update (s.controls kind).mapped k mapped⟩, dsp)).Balanced := by
  have hholds : ∀ o, (s.setControl kind (⟨update (s.controls kind).pDmmBuf k place,
      update (s.controls kind).mapped k mapped⟩, dsp)).holds o =
        update s.holds (.control kind k) (place.bind fun pDmmBuf => if mapped then
          some ⟨.control, pDmmBuf.pAllocated, some pDmmBuf.pMapped, pDmmBuf.pReserved⟩ else none)
          o := by
    intro o
    cases o with
    | control kind' j =>
      show (update s.controls kind _ kind').holds j = _
      by_cases hkind : kind' = kind
      · subst hkind
        rw [update_self, Control.holds_update, update_apply]
        simp only [Owner.control.injEq, true_and]
        rfl
      · rw [update_of_ne hkind, update_of_ne (by simp [hkind])]
        rfl
    | slot d i use => exact (update_of_ne (by simp) ..).symm
    | reused j => exact (update_of_ne (by simp) ..).symm
  refine h.controlled rfl rfl rfl rfl ?_ hqueued fun kind' i => ?_
  · exact ⟨hgenuine.reserved.congr hholds, hgenuine.mapped.congr hholds, hgenuine.nonzero,
      hgenuine.stray⟩
  · show (update s.controls kind _ kind').pDmmBuf i = none →
      (update s.controls kind _ kind').mapped i = false
    by_cases hkind : kind' = kind
    · subst hkind
      rw [update_self]
      dsimp only
      by_cases hi : i = k
      · rw [hi, update_self, update_self]
        exact hmarked
      · rw [update_of_ne hi, update_of_ne hi]
        exact h.marked kind' i
    · rw [update_of_ne hkind]
      exact h.marked kind' i

theorem State.Balanced.acknowledge (h : s.Balanced) (kind : ControlKind) (dwArg2 : Ptr) :
    (s.acknowledge kind dwArg2).Balanced := by
  obtain ⟨hqueued, hsame | ⟨k, hgenuine, hremoved⟩⟩ :=
    h.genuine.acknowledge (s.controls kind) (.control kind) (fun _ => rfl) dwArg2
  · unfold State.acknowledge State.setControl
    rw [hsame, update_eq_self]
    exact h
  · have hplace := h.setPlace kind k none (fun _ => rfl) hgenuine hqueued
    rw [← hremoved] at hplace
    exact hplace

end OmapHal.Lcml
