import OmapHal.Lcml.Ownership

/-!
# The mappings of a call of `QueueBuffer`

A call maps the buffer, the parameter block and the structure one after the other in one record.
When it finds an empty slot and either maps everything or fails at the first reservation, each
mapping has a holder afterwards.
-/

namespace OmapHal.Lcml

open Function Option Nat List

open OmapHal.Core (Owns)

variable {s t : State} {args : QueueArgs} {answers : QueueAnswers} {answer : MapAnswer}
  {d : Direction} {i k : Nat} {dsp : Bridge} {r : Reservation}
  {holds : Owner → Option Reservation} {o : Owner}

/-! ## The environment -/

/-- The bridge hands out addresses that are not in use. -/
structure MapAnswer.Fresh (answer : MapAnswer) (dsp : Bridge) : Prop where
  reserve : ∀ p, answer.reserve = some p → p ≠ 0 ∧ ∀ r ∈ dsp.ledger, r.pReserved ≠ p
  map : ∀ m, answer.map = some m → m ≠ 0 ∧ ∀ r ∈ dsp.ledger, r.pMapped ≠ some m

/-- Two mappings have different addresses. -/
def MapAnswer.Apart (a b : MapAnswer) : Prop :=
  (∀ p, a.reserve = some p → b.reserve ≠ some p) ∧ ∀ m, a.map = some m → b.map ≠ some m

/-- What the bridge and the DSP do: addresses are fresh, and the DSP only frees what it was sent. -/
def State.Enabled (s : State) : Event → Prop
  | .QueueBuffer _ answers =>
    s.alive = true ∧ answers.buffer.Fresh s.dsp ∧ answers.parameter.Fresh s.dsp ∧
      answers.commStruct.Fresh s.dsp ∧ answers.buffer.Apart answers.parameter ∧
      answers.buffer.Apart answers.commStruct ∧ answers.parameter.Apart answers.commStruct
  | .BUFF_FREE streamId dwArg1 _ =>
    s.alive = true ∧ ∃ sent ∈ s.dsp.queued, sent.streamId = streamId ∧ sent.dwArg1 = dwArg1
  | .controlAlgCtrl _ _ answers | .controlStrmCtrl _ _ answers =>
    s.alive = true ∧ answers.map.Fresh s.dsp
  | _ => s.alive = true

/-! ## The condition -/

def State.reuses (s : State) (args : QueueArgs) : Bool := s.ReUseMap || mapReuse args.bufType

/-- The place of a buffer in the reuse table. -/
def State.found (s : State) (args : QueueArgs) : Option Nat :=
  if args.hasBuffer && s.reuses args then
    (searchMapped s.mapped_dmm_buffers s.mapped_buffer_count args.buffer).join
  else none

/-- The direction and the slot of the next buffer. -/
def QueueArgs.direction (args : QueueArgs) : Direction := directionOf (streamOf args.bufType)

def State.slot (s : State) (args : QueueArgs) : Nat := (s.storage args.direction).slot

/-- The record of the slot, before anything is mapped. -/
def State.record (s : State) (args : QueueArgs) : DMM_BUFFER_OBJ :=
  match s.found args with
  | some k => s.mapped_dmm_buffers k
  | none => (s.storage args.direction).DmmBuffer (s.slot args)

def MapAnswer.succeeds (answer : MapAnswer) : Bool := answer.reserve.isSome && answer.map.isSome

/-- Every call of the bridge succeeds. -/
structure State.MapsAll (s : State) (args : QueueArgs) (answers : QueueAnswers) : Prop where
  cache : s.found args ≠ none → s.cares args → answers.cache
  buffer : args.hasBuffer → s.found args = none → answers.buffer.succeeds
  parameter : args.hasParameter → answers.parameter.succeeds
  commStruct : answers.commStruct.succeeds
  /-- what is given and not mapped has no reserved address in the record -/
  unmappedBuffer : args.buffer ≠ 0 → ¬args.hasBuffer → ¬s.reuses args →
    (s.record args).bufReserved = 0
  unmappedParameter : args.auxInfo ≠ 0 → ¬args.hasParameter → (s.record args).paramReserved = 0

/-- The first mapping of the call. -/
def QueueAnswers.first (answers : QueueAnswers) (args : QueueArgs) : MapAnswer :=
  if args.hasBuffer then answers.buffer
  else if args.hasParameter then answers.parameter else answers.commStruct

/-- The first mapping gets no reservation, and nothing in the record could be released. -/
structure State.FailsFirst (s : State) (args : QueueArgs) (answers : QueueAnswers) : Prop where
  found : s.found args = none
  first : (answers.first args).reserve = none
  unmappedBuffer : args.buffer ≠ 0 → ¬s.reuses args → (s.record args).bufReserved = 0
  unmappedParameter : args.auxInfo ≠ 0 → (s.record args).paramReserved = 0

/-- The condition on `QueueBuffer`. -/
structure State.MapsWell (s : State) (args : QueueArgs) (answers : QueueAnswers) : Prop where
  empty : ∀ use, s.holds (.slot args.direction (s.slot args) use) = none
  switched : mapReuse args.bufType → s.ReUseMap = false → ∀ d i, s.holds (.slot d i .buffer) = none
  within : s.Within args
  maps : s.MapsAll args answers ∨ s.FailsFirst args answers

/-! ## New mappings -/

/-- An owner takes a mapping on. -/
theorem Genuine.add (h : Genuine dsp holds) (ho : holds o = none) {use : Use} {pArmPtr p m : Ptr}
    (hfresh : MapAnswer.Fresh ⟨some p, some m⟩ dsp) :
    Genuine (dsp.reserve ⟨use, pArmPtr, some m, p⟩)
      (update holds o (some ⟨use, pArmPtr, some m, p⟩)) where
  reserved := h.reserved.add ho (hfresh.reserve p rfl).2
  mapped := h.mapped.add ho (hfresh.map m rfl).2
  nonzero r hr := by
    rcases mem_cons.mp hr with rfl | hr
    · exact ⟨(hfresh.reserve p rfl).1, m, rfl, (hfresh.map m rfl).1⟩
    · exact h.nonzero r hr
  stray := h.stray

theorem Fresh.ne_zero {p m : Ptr} (h : MapAnswer.Fresh ⟨some p, some m⟩ dsp) : p ≠ 0 ∧ m ≠ 0 :=
  ⟨(h.reserve p rfl).1, (h.map m rfl).1⟩

theorem MapAnswer.succeeds_iff (answer : MapAnswer) :
    answer.succeeds ↔ ∃ p m, answer = ⟨some p, some m⟩ := by
  obtain ⟨reserve, map⟩ := answer
  unfold MapAnswer.succeeds
  cases reserve <;> cases map <;> simp

theorem Fresh.reserve (h : answer.Fresh dsp) {use : Use} {pArmPtr p m : Ptr}
    (hapart : MapAnswer.Apart ⟨some p, some m⟩ answer) :
    answer.Fresh (dsp.reserve ⟨use, pArmPtr, some m, p⟩) where
  reserve p' hp' := by
    refine ⟨(h.reserve p' hp').1, fun r hr => ?_⟩
    rcases mem_cons.mp hr with rfl | hr
    · rintro rfl
      exact hapart.1 p rfl hp'
    · exact (h.reserve p' hp').2 r hr
  map m' hm' := by
    refine ⟨(h.map m' hm').1, fun r hr => ?_⟩
    rcases mem_cons.mp hr with rfl | hr
    · intro heq
      obtain rfl := some.inj heq
      exact hapart.2 m rfl hm'
    · exact (h.map m' hm').2 r hr

/-- A mapping that succeeds. -/
theorem map_succeeds (q : Queueing) (use : Use) (size : Nat) {pArmPtr : Ptr} (hne : pArmPtr ≠ 0)
    (p m : Ptr) : q.map use size pArmPtr ⟨some p, some m⟩ = (.OMX_ErrorNone, { q with
      pDmmBuf :=
        { q.pDmmBuf with pAllocated := pArmPtr, pReserved := p, nSize := size, pMapped := m }
      dsp := q.dsp.reserve ⟨use, pArmPtr, some m, p⟩ }) := by
  unfold Queueing.map DmmMap
  rw [if_neg hne]

/-- A mapping that gets no reservation only leaves its address. -/
theorem map_fails (q : Queueing) (use : Use) (size : Nat) (pArmPtr : Ptr)
    (hnone : answer.reserve = none) : ∃ eError pAllocated, eError ≠ .OMX_ErrorNone ∧
      q.map use size pArmPtr answer =
        (eError, { q with pDmmBuf := { q.pDmmBuf with pAllocated := pAllocated } }) := by
  unfold Queueing.map DmmMap
  by_cases hnull : pArmPtr = 0
  · rw [if_pos hnull]
    exact ⟨.OMX_ErrorBadParameter, q.pDmmBuf.pAllocated, nofun, rfl⟩
  · rw [if_neg hnull, hnone]
    exact ⟨.OMX_ErrorInsufficientResources, pArmPtr, nofun, rfl⟩

/-! ## A call of `QueueBuffer` that goes well -/

section Stages

variable {q : Queueing}

/-- Who holds what between the mapping of the buffer and that of the structure. -/
structure Midway (s : State) (args : QueueArgs) (q : Queueing)
    (holds : Owner → Option Reservation) : Prop where
  genuine : Genuine q.dsp holds
  queued : q.dsp.queued = s.dsp.queued
  entry : ∃ iBufferPtr iBufferSize iParamPtr, q.commStruct = { s.newStruct args with
    iBufferPtr := iBufferPtr, iBufferSize := iBufferSize, iParamPtr := iParamPtr }
  buffer : holds (.slot args.direction (s.slot args) .buffer) =
    heldFor (s.reuses args) q.commStruct q.pDmmBuf .buffer
  struct : holds (.slot args.direction (s.slot args) .commStruct) = none
  control : holds (.slot args.direction (s.slot args) .control) = none
  reused : ∀ k, holds (.reused k) =
    heldReused (s.reuses args) q.mapped_dmm_buffers q.mapped_buffer_count k
  others : ∀ d i use, ¬(d = args.direction ∧ i = s.slot args) →
    holds (.slot d i use) = s.holds (.slot d i use)
  controls : ∀ kind j, holds (.control kind j) = s.holds (.control kind j)
  table : ReuseTable (s.reuses args) q.mapped_dmm_buffers q.mapped_buffer_count
  uses : args.hasBuffer → ∃ o,
    (o = .slot args.direction (s.slot args) .buffer ∨ ∃ k, o = .reused k) ∧
    holds o = some ⟨.buffer, args.buffer, some q.commStruct.iBufferPtr, q.pDmmBuf.bufReserved⟩
  /-- what the DSP reaches by the reuse table stays there -/
  kept : ∀ k r, s.holds (.reused k) = some r → holds (.reused k) = some r

/-- The buffer is mapped, and the parameter block is not. -/
structure Buffered (s : State) (args : QueueArgs) (q : Queueing)
    (holds : Owner → Option Reservation) : Prop extends Midway s args q holds where
  parameter : holds (.slot args.direction (s.slot args) .parameter) = none
  iParamPtr : q.commStruct.iParamPtr = args.auxInfo
  record : q.pDmmBuf.paramReserved = (s.record args).paramReserved

/-- Buffer and parameter block are mapped. -/
structure Ready (s : State) (args : QueueArgs) (q : Queueing)
    (holds : Owner → Option Reservation) : Prop extends Midway s args q holds where
  parameter : holds (.slot args.direction (s.slot args) .parameter) =
    heldFor (s.reuses args) q.commStruct q.pDmmBuf .parameter
  usesParameter : args.hasParameter → holds (.slot args.direction (s.slot args) .parameter) =
    some ⟨.parameter, args.auxInfo, some q.commStruct.iParamPtr, q.pDmmBuf.paramReserved⟩

/-- Reuse mode can be switched on while no buffer is mapped without it. -/
theorem State.Balanced.reused_eq (h : s.Balanced) (args : QueueArgs) (k : Nat) :
    s.holds (.reused k) =
      heldReused (s.reuses args) s.mapped_dmm_buffers s.mapped_buffer_count k := by
  unfold State.holds State.reuses
  dsimp only
  cases hreuse : s.ReUseMap with
  | true => rfl
  | false =>
    unfold heldReused
    rw [h.table.unused hreuse, if_neg fun hlt => not_lt_zero k hlt.2,
      if_neg fun hlt => not_lt_zero k hlt.2]

theorem State.Balanced.reuseTable (h : s.Balanced) (args : QueueArgs) :
    ReuseTable (s.reuses args) s.mapped_dmm_buffers s.mapped_buffer_count :=
  ⟨fun hnone => h.table.unused (Bool.or_eq_false_iff.mp hnone).1, h.table.rest, h.table.reused,
    h.table.once⟩

/-- What another owner takes on leaves the slot empty. -/
theorem State.MapsWell.empty_update (hwell : s.MapsWell args answers) {use : Use}
    (ho : .slot args.direction (s.slot args) use ≠ o) :
    update s.holds o (some r) (.slot args.direction (s.slot args) use) = none :=
  (update_of_ne ho ..).trans (hwell.empty use)

theorem State.found_of_search (hbuffer : args.hasBuffer) (hreuse : s.reuses args)
    {found : Option Nat} (hsearch : searchMapped s.mapped_dmm_buffers s.mapped_buffer_count
      args.buffer = some found) : s.found args = found := by
  unfold State.found
  rw [hbuffer, hreuse, Bool.and_self, if_pos rfl, hsearch]
  rfl

theorem State.found_eq_none (h : ¬(args.hasBuffer ∧ s.reuses args)) : s.found args = none :=
  if_neg fun hboth => h (Bool.and_eq_true_iff.mp hboth)

theorem State.pDmmBuf_queueing (hnone : s.found args = none) :
    (s.queueing args).pDmmBuf = s.record args := by
  unfold State.record
  rw [hnone]
  rfl

/-- The start of a call, whose slot is empty. -/
theorem State.MapsWell.buffered (hwell : s.MapsWell args answers) (h : s.Balanced)
    (hnone : s.found args = none)
    (hbuffer : ¬args.hasBuffer) (hunmapped : args.buffer ≠ 0 → ¬s.reuses args →
      (s.record args).bufReserved = 0) : Buffered s args (s.queueing args) s.holds := by
  have hrecord := s.pDmmBuf_queueing hnone
  refine ⟨⟨h.genuine, rfl, ⟨args.buffer, args.bufferLen, args.auxInfo, rfl⟩, ?_, hwell.empty _,
    hwell.empty _, h.reused_eq args, fun _ _ _ _ => rfl, fun _ _ => rfl, h.reuseTable args,
    fun hyes => absurd hyes hbuffer, fun _ _ hr => hr⟩, hwell.empty _, rfl, by rw [hrecord]⟩
  rw [hwell.empty]
  dsimp only [heldFor]
  rw [if_neg]
  rintro ⟨hptr, hreuse, hreserved⟩
  exact hreserved (hrecord ▸ hunmapped hptr hreuse)

/-- A buffer that is mapped for the call. -/
theorem State.MapsWell.buffered_once (hwell : s.MapsWell args answers) (h : s.Balanced)
    (hbuffer : args.hasBuffer) (hreuse : ¬s.reuses args) {p m : Ptr}
    (hfresh : MapAnswer.Fresh ⟨some p, some m⟩ s.dsp) :
    ∃ q, (s.queueing args).mapOnce args ⟨some p, some m⟩ = (.OMX_ErrorNone, q) ∧
      q.dsp = s.dsp.reserve ⟨.buffer, args.buffer, some m, p⟩ ∧ ∃ holds,
      Buffered s args q holds := by
  have hne : args.buffer ≠ 0 := (of_decide_eq_true hbuffer).1
  obtain ⟨hp, hm⟩ := Fresh.ne_zero hfresh
  have hnone := s.found_eq_none fun hboth => hreuse hboth.2
  have hrecord := s.pDmmBuf_queueing hnone
  obtain ⟨q, hmap, size, nSize, rfl⟩ : ∃ q, (s.queueing args).mapOnce args ⟨some p, some m⟩ =
      (.OMX_ErrorNone, q) ∧ ∃ size nSize, q = { s.queueing args with
        commStruct := { s.newStruct args with iBufferSize := size, iBufferPtr := m }
        pDmmBuf := { (s.queueing args).pDmmBuf with
          pAllocated := args.buffer, pReserved := p, nSize := nSize, pMapped := m,
            bufReserved := p }
        dsp := s.dsp.reserve ⟨.buffer, args.buffer, some m, p⟩ } := by
    unfold Queueing.mapOnce andThen
    dsimp only
    rw [map_succeeds _ _ _ hne, if_pos rfl]
    split
    · exact ⟨_, rfl, _, _, rfl⟩
    · exact ⟨_, rfl, _, _, rfl⟩
  refine ⟨_, hmap, rfl, update s.holds (.slot args.direction (s.slot args) .buffer)
    (some ⟨.buffer, args.buffer, some m, p⟩), ?_⟩
  have hother (o : Owner) (ho : o ≠ .slot args.direction (s.slot args) .buffer) :=
    update_of_ne ho (some ⟨.buffer, args.buffer, some m, p⟩) s.holds
  refine ⟨⟨h.genuine.add (hwell.empty _) hfresh, rfl, ⟨m, size, args.auxInfo, rfl⟩, ?_, ?_, ?_,
    fun k => ?_, fun d i use hslot => ?_, fun kind j => ?_, h.reuseTable args,
    fun _ => ⟨_, .inl rfl, update_self ..⟩, fun k r hr => ?_⟩, ?_, rfl, ?_⟩
  · rw [update_self]
    exact (if_pos ⟨hm, hreuse, hp⟩).symm
  · exact hwell.empty_update (by simp)
  · exact hwell.empty_update (by simp)
  · rw [hother _ (by simp)]
    exact h.reused_eq args k
  · refine hother _ fun heq => hslot ?_
    injection heq with hd hi
    exact ⟨hd, hi⟩
  · exact hother _ (by simp)
  · rw [hother _ (by simp)]
    exact hr
  · exact hwell.empty_update (by simp)
  · rw [← hrecord]

/-- A buffer that is in the reuse table. -/
theorem State.MapsWell.buffered_again (hwell : s.MapsWell args answers) (h : s.Balanced)
    (hbuffer : args.hasBuffer) (hreuse : s.reuses args)
    (hsearch : searchMapped s.mapped_dmm_buffers s.mapped_buffer_count args.buffer =
      some (some k)) :
    ∃ q, (s.queueing args).mapAgain k false = (.OMX_ErrorNone, q) ∧ q.dsp = s.dsp ∧
      Buffered s args q s.holds := by
  have hne : args.buffer ≠ 0 := (of_decide_eq_true hbuffer).1
  have hfound := s.found_of_search hbuffer hreuse hsearch
  have hallocated : (s.mapped_dmm_buffers k).pAllocated = args.buffer := by
    unfold searchMapped at hsearch
    split at hsearch
    · rename_i i hi
      have hat := find?_some hi
      obtain rfl : i = k := some.inj (some.inj hsearch)
      exact of_decide_eq_true hat
    · split at hsearch
      · cases hsearch
      · cases some.inj hsearch
  have hk : k < s.mapped_buffer_count := by
    by_contra hge
    exact hne (hallocated.symm.trans (h.table.rest k (Nat.not_lt.mp hge)))
  unfold Queueing.mapAgain
  refine ⟨_, rfl, rfl, ⟨⟨h.genuine, rfl, ⟨_, args.bufferLen, args.auxInfo, rfl⟩, ?_, hwell.empty _,
    hwell.empty _, h.reused_eq args, fun _ _ _ _ => rfl, fun _ _ => rfl, h.reuseTable args,
    fun _ => ⟨.reused k, .inr ⟨k, rfl⟩, ?_⟩, fun _ _ hr => hr⟩, hwell.empty _, rfl, ?_⟩⟩
  · rw [hwell.empty]
    dsimp only [heldFor]
    rw [if_neg fun hall => hall.2.1 hreuse]
  · rw [h.reused_eq args, heldReused, if_pos ⟨hreuse, hk⟩, hallocated]
    rfl
  · unfold State.record
    rw [hfound]
    rfl

theorem searchMapped_eq_none {mapped_dmm_buffers : Nat → DMM_BUFFER_OBJ}
    {mapped_buffer_count : Nat} {buffer : Ptr}
    (h : searchMapped mapped_dmm_buffers mapped_buffer_count buffer = some none) :
    mapped_buffer_count < MAX_DMM_BUFFERS ∧
      ∀ k < mapped_buffer_count, (mapped_dmm_buffers k).pAllocated ≠ buffer := by
  unfold searchMapped at h
  split at h
  · cases some.inj h
  · rename_i hnone
    split at h
    · cases h
    · rename_i hroom
      have hroom := Nat.not_le.mp hroom
      refine ⟨hroom, fun k hk heq => ?_⟩
      exact find?_eq_none.mp hnone k (mem_range.mpr (by omega)) (decide_eq_true heq)

/-- The record of a new buffer is copied to the reuse table. -/
theorem ReuseTable.add {mapped_dmm_buffers : Nat → DMM_BUFFER_OBJ} {mapped_buffer_count : Nat}
    {pDmmBuf : DMM_BUFFER_OBJ} (h : ReuseTable true mapped_dmm_buffers mapped_buffer_count)
    (hnonzero : pDmmBuf.pAllocated ≠ 0 ∧ pDmmBuf.bufReserved ≠ 0 ∧ pDmmBuf.pMapped ≠ 0)
    (hnew : ∀ k < mapped_buffer_count, (mapped_dmm_buffers k).pAllocated ≠ pDmmBuf.pAllocated) :
    ReuseTable true (update mapped_dmm_buffers mapped_buffer_count pDmmBuf)
      (mapped_buffer_count + 1) where
  unused hno := nomatch hno
  rest k hk := by
    rw [update_of_ne (by omega)]
    exact h.rest k (by omega)
  reused k hk := by
    by_cases heq : k = mapped_buffer_count
    · rw [heq, update_self]
      exact hnonzero
    · rw [update_of_ne heq]
      exact h.reused k (by omega)
  once k hk k' hk' hsame := by
    by_cases heq : k = mapped_buffer_count <;> by_cases heq' : k' = mapped_buffer_count
    · exact heq.trans heq'.symm
    · rw [heq, update_self, update_of_ne heq'] at hsame
      exact absurd hsame.symm (hnew k' (by omega))
    · rw [heq', update_self, update_of_ne heq] at hsame
      exact absurd hsame (hnew k (by omega))
    · rw [update_of_ne heq, update_of_ne heq'] at hsame
      exact h.once k (by omega) k' (by omega) hsame

/-- A buffer that is new in reuse mode. -/
theorem State.MapsWell.buffered_new (hwell : s.MapsWell args answers) (h : s.Balanced)
    (hbuffer : args.hasBuffer) (hreuse : s.reuses args)
    (hsearch : searchMapped s.mapped_dmm_buffers s.mapped_buffer_count args.buffer = some none)
    {p m : Ptr} (hfresh : MapAnswer.Fresh ⟨some p, some m⟩ s.dsp) :
    ∃ q, (s.queueing args).mapNew args ⟨some p, some m⟩ = (.OMX_ErrorNone, q) ∧
      q.dsp = s.dsp.reserve ⟨.buffer, args.buffer, some m, p⟩ ∧ ∃ holds,
      Buffered s args q holds := by
  have hne : args.buffer ≠ 0 := (of_decide_eq_true hbuffer).1
  obtain ⟨hp, hm⟩ := Fresh.ne_zero hfresh
  obtain ⟨hroom, hnew⟩ := searchMapped_eq_none hsearch
  have hnone := s.found_of_search hbuffer hreuse hsearch
  have hrecord := s.pDmmBuf_queueing hnone
  obtain ⟨q, hmap, size, rfl⟩ : ∃ q, (s.queueing args).mapNew args ⟨some p, some m⟩ =
      (.OMX_ErrorNone, q) ∧ ∃ size,
      let pDmmBuf : DMM_BUFFER_OBJ := { (s.queueing args).pDmmBuf with
        pAllocated := args.buffer, pReserved := p, nSize := args.bufferLen, pMapped := m
        bufReserved := p }
      q = {
        commStruct := { s.newStruct args with iBufferSize := size, iBufferPtr := m }
        pDmmBuf := pDmmBuf
        mapped_dmm_buffers := update s.mapped_dmm_buffers s.mapped_buffer_count pDmmBuf
        mapped_buffer_count := s.mapped_buffer_count + 1
        dsp := s.dsp.reserve ⟨.buffer, args.buffer, some m, p⟩ } := by
    unfold Queueing.mapNew
    dsimp only
    rw [map_succeeds _ _ _ hne]
    rw [if_neg fun hnot => hnot rfl]
    split
    · exact ⟨_, if_pos hroom, _, rfl⟩
    · exact ⟨_, if_pos hroom, _, rfl⟩
  have hfree : s.holds (.reused s.mapped_buffer_count) = none :=
    if_neg fun hlt => Nat.lt_irrefl _ hlt.2
  refine ⟨_, hmap, rfl, update s.holds (.reused s.mapped_buffer_count)
    (some ⟨.buffer, args.buffer, some m, p⟩), ?_⟩
  have hother (o : Owner) (ho : o ≠ .reused s.mapped_buffer_count) :=
    update_of_ne ho (some ⟨.buffer, args.buffer, some m, p⟩) s.holds
  refine ⟨⟨h.genuine.add hfree hfresh, rfl, ⟨m, size, args.auxInfo, rfl⟩, ?_, ?_, ?_,
    fun k => ?_, fun d i use _ => hother _ (by simp), fun kind j => hother _ (by simp), ?_,
    fun _ => ⟨_, .inr ⟨_, rfl⟩, update_self ..⟩, fun k r hr => ?_⟩, ?_, rfl, ?_⟩
  · rw [hother _ (by simp), hwell.empty]
    dsimp only [heldFor]
    rw [if_neg fun hall => hall.2.1 hreuse]
  · exact hwell.empty_update (by simp)
  · exact hwell.empty_update (by simp)
  · unfold heldReused
    dsimp only
    by_cases hk : k = s.mapped_buffer_count
    · rw [hk, update_self, if_pos ⟨hreuse, lt_succ_self _⟩, update_self]
    · rw [hother _ (by simp [hk]), h.reused_eq args, heldReused, update_of_ne hk]
      have hiff : (s.reuses args ∧ k < s.mapped_buffer_count) ↔
          (s.reuses args ∧ k < s.mapped_buffer_count + 1) := by
        refine and_congr_right fun _ => ?_
        omega
      simp only [hiff]
  · have htable := h.reuseTable args
    rw [hreuse] at htable ⊢
    exact htable.add ⟨hne, hp, hm⟩ hnew
  · by_cases hk : k = s.mapped_buffer_count
    · rw [hk, hfree] at hr
      cases hr
    · rw [hother _ (by simp [hk])]
      exact hr
  · exact hwell.empty_update (by simp)
  · rw [← hrecord]

/-- The parameter block is mapped after the buffer, if there is one. -/
theorem Buffered.mapParameter {q : Queueing} (h : Buffered s args q holds)
    (hunmapped : args.auxInfo ≠ 0 → ¬args.hasParameter → (s.record args).paramReserved = 0)
    (hanswer : args.hasParameter → answer.succeeds) (hfresh : answer.Fresh q.dsp) :
    ∃ q', q.mapParameter args answer = (.OMX_ErrorNone, q') ∧ (∃ holds', Ready s args q' holds') ∧
      ((¬args.hasParameter ∧ q'.dsp = q.dsp) ∨ ∃ pArmPtr p m, answer = ⟨some p, some m⟩ ∧
        q'.dsp = q.dsp.reserve ⟨.parameter, pArmPtr, some m, p⟩) := by
  unfold Queueing.mapParameter
  by_cases hparameter : args.hasParameter
  · rw [if_pos hparameter]
    obtain ⟨p, m, rfl⟩ := answer.succeeds_iff.mp (hanswer hparameter)
    have hne : args.auxInfo ≠ 0 := (of_decide_eq_true hparameter).2
    obtain ⟨hp, hm⟩ := Fresh.ne_zero hfresh
    unfold andThen
    rw [map_succeeds _ _ _ (h.iParamPtr ▸ hne), if_pos rfl]
    refine ⟨_, rfl, ⟨update holds (.slot args.direction (s.slot args) .parameter)
      (some ⟨.parameter, q.commStruct.iParamPtr, some m, p⟩), ?_⟩, .inr ⟨_, p, m, rfl, rfl⟩⟩
    have hother (o : Owner) (ho : o ≠ .slot args.direction (s.slot args) .parameter) :=
      update_of_ne ho (some ⟨.parameter, q.commStruct.iParamPtr, some m, p⟩) holds
    obtain ⟨iBufferPtr, iBufferSize, iParamPtr, hentry⟩ := h.entry
    refine ⟨⟨h.genuine.add h.parameter hfresh, h.queued,
      ⟨iBufferPtr, iBufferSize, m, by rw [hentry]⟩, ?_, ?_, ?_, fun k => ?_,
      fun d i use hslot => ?_, fun kind j => ?_, h.table, fun hbuffer => ?_, fun k r hr => ?_⟩, ?_,
      ?_⟩
    · rw [hother _ (by simp)]
      exact h.buffer
    · rw [hother _ (by simp)]
      exact h.struct
    · rw [hother _ (by simp)]
      exact h.control
    · rw [hother _ (by simp)]
      exact h.reused k
    · rw [hother]
      · exact h.others d i use hslot
      · intro heq
        injection heq with hd hi
        exact hslot ⟨hd, hi⟩
    · rw [hother _ (by simp)]
      exact h.controls kind j
    · obtain ⟨o, ho, hheld⟩ := h.uses hbuffer
      refine ⟨o, ho, ?_⟩
      rw [hother]
      · exact hheld
      · rcases ho with rfl | ⟨k, rfl⟩ <;> simp
    · rw [hother _ (by simp)]
      exact h.kept k r hr
    · rw [update_self]
      refine Eq.trans ?_ (if_pos ⟨hm, hp⟩).symm
      rw [h.iParamPtr, hentry]
      rfl
    · intro _
      rw [update_self, h.iParamPtr]
  · rw [if_neg hparameter]
    refine ⟨q, rfl, ⟨holds, h.toMidway, ?_, fun hyes => absurd hyes hparameter⟩,
      .inl ⟨hparameter, rfl⟩⟩
    rw [h.parameter]
    dsimp only [heldFor]
    rw [if_neg]
    rintro ⟨hptr, hreserved⟩
    rw [h.iParamPtr] at hptr
    exact hreserved (h.record.trans (hunmapped hptr hparameter))

/-- The buffer is mapped, in one of the three ways. -/
theorem State.MapsWell.mapBuffer (hwell : s.MapsWell args answers) (hall : s.MapsAll args answers)
    (h : s.Balanced) (hfresh : answers.buffer.Fresh s.dsp) :
    ∃ q, s.mapBuffer args answers (s.queueing args) = some (.OMX_ErrorNone, q) ∧
      (∃ holds, Buffered s args q holds) ∧
      (q.dsp = s.dsp ∨ ∃ p m, answers.buffer = ⟨some p, some m⟩ ∧
        q.dsp = s.dsp.reserve ⟨.buffer, args.buffer, some m, p⟩) := by
  unfold State.mapBuffer
  by_cases hbuffer : args.hasBuffer
  · rw [if_pos hbuffer]
    by_cases hreuse : s.reuses args
    · rw [if_pos (show (s.ReUseMap || mapReuse args.bufType) = true from hreuse)]
      have hwithin := hwell.within hbuffer hreuse
      obtain ⟨found, hsearch⟩ := ne_none_iff_exists'.mp hwithin
      have hsearch' : searchMapped (s.queueing args).mapped_dmm_buffers
        (s.queueing args).mapped_buffer_count args.buffer = some found := hsearch
      rw [hsearch', map_some]
      have hfound := s.found_of_search hbuffer hreuse hsearch
      cases found with
      | none =>
        obtain ⟨p, m, hanswer⟩ := answers.buffer.succeeds_iff.mp (hall.buffer hbuffer hfound)
        rw [hanswer] at hfresh ⊢
        obtain ⟨q, hmap, hdsp, hbuffered⟩ := hwell.buffered_new h hbuffer hreuse hsearch hfresh
        exact ⟨q, congrArg some hmap, hbuffered, .inr ⟨p, m, rfl, hdsp⟩⟩
      | some k =>
        have hfails : (s.cares args && !answers.cache) = false := by
          cases hcares : s.cares args with
          | false => rfl
          | true =>
              rw [hall.cache (hfound ▸ some_ne_none k) hcares, Bool.not_true, Bool.and_false]
        rw [hfails]
        obtain ⟨q, hmap, hdsp, hbuffered⟩ := hwell.buffered_again h hbuffer hreuse hsearch
        exact ⟨q, congrArg some hmap, ⟨_, hbuffered⟩, .inl hdsp⟩
    · rw [if_neg (show ¬(s.ReUseMap || mapReuse args.bufType) = true from hreuse)]
      have hnone := s.found_eq_none fun hboth => hreuse hboth.2
      obtain ⟨p, m, hanswer⟩ := answers.buffer.succeeds_iff.mp (hall.buffer hbuffer hnone)
      rw [hanswer] at hfresh ⊢
      obtain ⟨q, hmap, hdsp, hbuffered⟩ := hwell.buffered_once h hbuffer hreuse hfresh
      exact ⟨q, congrArg some hmap, hbuffered, .inr ⟨p, m, rfl, hdsp⟩⟩
  · rw [if_neg hbuffer]
    have hnone := s.found_eq_none fun hboth => hbuffer hboth.1
    exact ⟨_, rfl, ⟨_, hwell.buffered h hnone hbuffer fun hne hreuse =>
      hall.unmappedBuffer hne hbuffer hreuse⟩, .inl rfl⟩

/-- The slot of the next buffer has no mapping. -/
theorem State.MapsWell.pMapped (hwell : s.MapsWell args answers) (h : s.Balanced) :
    ((s.storage args.direction).DmmBuffer (s.slot args)).pMapped = 0 := by
  have hlt : s.slot args < QUEUE_SIZE := mod_lt _ (by decide)
  cases hin : (s.storage args.direction).Armstorage (s.slot args) with
  | none => exact h.empty _ _ hlt hin
  | some entry =>
    by_contra hne
    have hheld := hwell.empty .commStruct
    rw [State.holds_slot hin, heldFor, if_pos ⟨hne, h.struct _ _ hlt hne⟩] at hheld
    cases hheld

/-- Switching on reuse mode changes nothing in the other slots. -/
theorem State.MapsWell.heldFor_eq (hwell : s.MapsWell args answers)
    {entry : TArmDspCommunicationStruct} (hin : (s.storage d).Armstorage i = some entry)
    (use : Use) :
    heldFor (s.reuses args) entry ((s.storage d).DmmBuffer i) use = s.holds (.slot d i use) := by
  rw [State.holds_slot hin]
  unfold State.reuses
  cases hreuse : s.ReUseMap with
  | true => rfl
  | false =>
    cases hmap : mapReuse args.bufType with
    | false => rfl
    | true =>
      cases use with
      | buffer =>
        have hheld := hwell.switched hmap hreuse d i
        rw [State.holds_slot hin, hreuse] at hheld
        rw [hheld]
        exact if_neg fun hall => hall.2.1 rfl
      | parameter => rfl
      | commStruct => rfl
      | control => rfl

theorem queued_DmmBuffer (s : State) (args : QueueArgs) (r : OMX_ERRORTYPE × Queueing)
    (d : Direction) (i : Nat) :
    ((s.queued args r).storage d).DmmBuffer i =
      if d = args.direction ∧ i = s.slot args then r.2.pDmmBuf
      else (s.storage d).DmmBuffer i := by
  show (update s.storage args.direction
    ((s.storage args.direction).put r.2.commStruct r.2.pDmmBuf) d).DmmBuffer i = _
  by_cases hd : d = args.direction
  · subst hd
    rw [update_self]
    show update _ _ _ i = _
    rw [update_apply]
    simp only [true_and]
    rfl
  · rw [update_of_ne hd, if_neg fun h => hd h.1]

theorem queued_Armstorage' (s : State) (args : QueueArgs) (r : OMX_ERRORTYPE × Queueing)
    (d : Direction) (i : Nat) :
    ((s.queued args r).storage d).Armstorage i =
      if d = args.direction ∧ i = s.slot args then some r.2.commStruct
      else (s.storage d).Armstorage i := by
  rw [queued_Armstorage]
  by_cases hd : d = args.direction
  · subst hd
    rfl
  · rw [if_neg fun h => hd h.1, if_neg fun h => hd h.1]

/-- A call that has taken its slot keeps the balance, if who holds what afterwards is as it was
elsewhere. -/
theorem State.MapsWell.balanced {q : Queueing} {eError : OMX_ERRORTYPE}
    (hwell : s.MapsWell args answers) (h : s.Balanced)
    (hgenuine : Genuine q.dsp holds)
    (hslot : ∀ use, holds (.slot args.direction (s.slot args) use) =
      heldFor (s.reuses args) q.commStruct q.pDmmBuf use)
    (hreused : ∀ k, holds (.reused k) =
      heldReused (s.reuses args) q.mapped_dmm_buffers q.mapped_buffer_count k)
    (hothers : ∀ d i use, ¬(d = args.direction ∧ i = s.slot args) →
      holds (.slot d i use) = s.holds (.slot d i use))
    (hcontrols : ∀ kind j, holds (.control kind j) = s.holds (.control kind j))
    (hkept : ∀ k r, s.holds (.reused k) = some r → holds (.reused k) = some r)
    (htable : ReuseTable (s.reuses args) q.mapped_dmm_buffers q.mapped_buffer_count)
    (hstruct : q.pDmmBuf.pMapped ≠ 0 → q.pDmmBuf.pReserved ≠ 0)
    (hentry : q.commStruct.index args.direction = s.slot args)
    (hqueued : ∀ sent ∈ q.dsp.queued, sent ∈ s.dsp.queued ∨
      (sent.dwArg1 ≠ 0 ∧ directionOf sent.streamId = args.direction ∧
        q.pDmmBuf.pMapped = sent.dwArg1 ∧ q.commStruct.iStreamID = sent.streamId ∧
        ∀ r ∈ sent.uses, (∃ use, holds (.slot args.direction (s.slot args) use) = some r) ∨
          ∃ k, holds (.reused k) = some r))
    (hdistinct : (q.dsp.queued.map (·.dwArg1)).Nodup) : (s.queued args (eError, q)).Balanced := by
  have hlt : s.slot args < QUEUE_SIZE := mod_lt _ (by decide)
  have hholds : ∀ o, (s.queued args (eError, q)).holds o = holds o := by
    intro o
    cases o with
    | slot d i use =>
      unfold State.holds
      dsimp only
      rw [queued_Armstorage', queued_DmmBuffer]
      by_cases hat : d = args.direction ∧ i = s.slot args
      · rw [if_pos hat, if_pos hat, bind_some, hat.1, hat.2]
        exact (hslot use).symm
      · rw [if_neg hat, if_neg hat, hothers d i use hat]
        cases hin : (s.storage d).Armstorage i with
        | none => exact (State.holds_empty hin use).symm
        | some entry => exact hwell.heldFor_eq hin use
    | reused k => exact (hreused k).symm
    | control kind j => exact (hcontrols kind j).symm
  refine ⟨?_, fun d i hi hin => ?_, fun d i hi hmapped => ?_, fun d i entry hin => ?_,
    fun d i entry hin => ?_, htable, h.marked, fun sent hsent => ?_, hdistinct⟩
  · exact ⟨hgenuine.reserved.congr hholds, hgenuine.mapped.congr hholds, hgenuine.nonzero,
      hgenuine.stray⟩
  · rw [queued_Armstorage'] at hin
    rw [queued_DmmBuffer]
    split at hin
    · cases hin
    · rename_i hat
      rw [if_neg hat]
      exact h.empty d i hi hin
  · rw [queued_DmmBuffer] at hmapped ⊢
    split at hmapped
    · rename_i hat
      rw [if_pos hat]
      exact hstruct hmapped
    · rename_i hat
      rw [if_neg hat]
      exact h.struct d i hi hmapped
  · rw [queued_Armstorage'] at hin
    split at hin
    · rename_i hat
      exact hat.2 ▸ hlt
    · exact h.slot d i entry hin
  · rw [queued_Armstorage'] at hin
    split at hin
    · rename_i hat
      obtain rfl := some.inj hin
      rw [hat.1, hat.2]
      exact hentry
    · exact h.index d i entry hin
  · rcases hqueued sent hsent with hold | ⟨hne, hd, hmapped, hstream, huses⟩
    · obtain ⟨hne, d, i, hd, hi, hmapped, ⟨entry, hin, hstream⟩, huses⟩ := h.sent sent hold
      have hat : ¬(d = args.direction ∧ i = s.slot args) := by
        rintro ⟨rfl, rfl⟩
        exact hne (hmapped.symm.trans (hwell.pMapped h))
      refine ⟨hne, d, i, hd, hi, ?_, ⟨entry, ?_, hstream⟩, fun r hr => ?_⟩
      · rw [queued_DmmBuffer, if_neg hat]
        exact hmapped
      · rw [queued_Armstorage', if_neg hat]
        exact hin
      · refine (huses r hr).imp (fun ⟨use, huse⟩ => ⟨use, ?_⟩) fun ⟨k, hk⟩ => ⟨k, ?_⟩
        · rw [hholds, hothers d i use hat]
          exact huse
        · rw [hholds]
          exact hkept k r hk
    · refine ⟨hne, args.direction, s.slot args, hd.symm, hlt, ?_, ⟨q.commStruct, ?_, hstream⟩,
        fun r hr => ?_⟩
      · rw [queued_DmmBuffer, if_pos ⟨rfl, rfl⟩]
        exact hmapped
      · rw [queued_Armstorage', if_pos ⟨rfl, rfl⟩]
      · simp only [hholds]
        exact huses r hr

theorem andThen_ok (q : Queueing) (next : Queueing → OMX_ERRORTYPE × Queueing) :
    andThen (.OMX_ErrorNone, q) next = next q := rfl

theorem andThen_error {eError : OMX_ERRORTYPE} (herror : eError ≠ .OMX_ErrorNone) (q : Queueing)
    (next : Queueing → OMX_ERRORTYPE × Queueing) : andThen (eError, q) next = (eError, q) :=
  if_neg herror

/-- The structures that the DSP holds are mapped. -/
theorem State.Balanced.sent_mapped (h : s.Balanced) {sent : Sent} (hsent : sent ∈ s.dsp.queued) :
    ∃ d i, ∃ r ∈ s.dsp.ledger, s.holds (.slot d i .commStruct) = some r ∧
      r.pMapped = some sent.dwArg1 := by
  obtain ⟨hne, d, i, -, hi, hmapped, ⟨entry, hin, -⟩, -⟩ := h.sent sent hsent
  have hheld : s.holds (.slot d i .commStruct) = _ := (State.holds_slot hin .commStruct).trans
    (if_pos ⟨hmapped ▸ hne, h.struct d i hi (hmapped ▸ hne)⟩)
  exact ⟨d, i, _, h.genuine.reserved.kept _ _ hheld, hheld, congrArg some hmapped⟩

/-- The message only changes what the DSP holds. -/
theorem Queueing.send_eq (q : Queueing) (args : QueueArgs) (sent : Bool) : ∃ eError queued,
    q.send args sent = (eError, { q with dsp := { q.dsp with queued := queued } }) ∧
      (queued = q.dsp.queued ∨ queued =
        ⟨streamOf args.bufType, q.pDmmBuf.pMapped, q.uses args⟩ :: q.dsp.queued) := by
  unfold Queueing.send
  split
  · exact ⟨_, _, rfl, .inr rfl⟩
  · exact ⟨_, q.dsp.queued, rfl, .inl rfl⟩

theorem Queueing.forall_uses {q : Queueing} {P : Reservation → Prop}
    (hbuffer : args.hasBuffer →
      P ⟨.buffer, args.buffer, some q.commStruct.iBufferPtr, q.pDmmBuf.bufReserved⟩)
    (hparameter : args.hasParameter →
      P ⟨.parameter, args.auxInfo, some q.commStruct.iParamPtr, q.pDmmBuf.paramReserved⟩)
    (hstruct : P ⟨.commStruct, q.pDmmBuf.pAllocated, some q.pDmmBuf.pMapped,
      q.pDmmBuf.pReserved⟩) : ∀ r ∈ q.uses args, P r := by
  intro r hr
  unfold Queueing.uses at hr
  rcases mem_append.mp hr with hr | hr
  · rcases mem_append.mp hr with hr | hr
    · split at hr
      · rename_i hin
        exact mem_singleton.mp hr ▸ hbuffer hin
      · cases hr
    · split at hr
      · rename_i hin
        exact mem_singleton.mp hr ▸ hparameter hin
      · cases hr
  · exact mem_singleton.mp hr ▸ hstruct

/-- A call in which every call of the bridge succeeds keeps the balance, whether or not the message
is sent. -/
theorem State.MapsWell.queued_all (hwell : s.MapsWell args answers) (hall : s.MapsAll args answers)
    (h : s.Balanced) (henabled : s.Enabled (.QueueBuffer args answers))
    (hmemalign : answers.memalign ≠ 0) :
    ∃ r, s.fill args answers = some r ∧ (s.queued args r).Balanced := by
  obtain ⟨-, hfresh₁, hfresh₂, hfresh₃, hapart₁₂, hapart₁₃, hapart₂₃⟩ := henabled
  obtain ⟨q₁, hq₁, ⟨holds₁, hbuffered⟩, hdsp₁⟩ := hwell.mapBuffer hall h hfresh₁
  -- what the later mappings get is still fresh
  have hfresh₂' : answers.parameter.Fresh q₁.dsp := by
    rcases hdsp₁ with heq | ⟨p, m, hanswer, heq⟩
    · exact heq ▸ hfresh₂
    · exact heq ▸ Fresh.reserve hfresh₂ (hanswer ▸ hapart₁₂)
  have hfresh₃' : answers.commStruct.Fresh q₁.dsp := by
    rcases hdsp₁ with heq | ⟨p, m, hanswer, heq⟩
    · exact heq ▸ hfresh₃
    · exact heq ▸ Fresh.reserve hfresh₃ (hanswer ▸ hapart₁₃)
  obtain ⟨q₂, hq₂, ⟨holds₂, hready⟩, hdsp₂⟩ :=
    hbuffered.mapParameter hall.unmappedParameter hall.parameter hfresh₂'
  have hfresh₃'' : answers.commStruct.Fresh q₂.dsp := by
    rcases hdsp₂ with ⟨-, heq⟩ | ⟨pArmPtr, p, m, hanswer, heq⟩
    · exact heq ▸ hfresh₃'
    · exact heq ▸ Fresh.reserve hfresh₃' (hanswer ▸ hapart₂₃)
  obtain ⟨p, m, hanswer⟩ := answers.commStruct.succeeds_iff.mp hall.commStruct
  rw [hanswer] at hfresh₃''
  obtain ⟨q₃, hq₃, hentry₃, hdmm₃, htable₃, hcount₃, hdsp₃⟩ :
      ∃ q₃, q₂.map .commStruct sizeofStruct answers.memalign
      ⟨some p, some m⟩ = (.OMX_ErrorNone, q₃) ∧
        q₃.commStruct = q₂.commStruct ∧ q₃.pDmmBuf = { q₂.pDmmBuf with
          pAllocated := answers.memalign, pReserved := p, nSize := sizeofStruct, pMapped := m } ∧
        q₃.mapped_dmm_buffers = q₂.mapped_dmm_buffers ∧
        q₃.mapped_buffer_count = q₂.mapped_buffer_count ∧
        q₃.dsp = q₂.dsp.reserve ⟨.commStruct, answers.memalign, some m, p⟩ :=
    ⟨_, map_succeeds q₂ .commStruct sizeofStruct hmemalign p m, rfl, rfl, rfl, rfl, rfl⟩
  obtain ⟨hp, hm⟩ := Fresh.ne_zero hfresh₃''
  have hfill : s.fill args answers = some (q₃.send args answers.DSPNode_PutMessage) := by
    unfold State.fill
    rw [hq₁, map_some, andThen_ok, hq₂, andThen_ok, hanswer, hq₃, andThen_ok]
  refine ⟨_, hfill, ?_⟩
  have hother (o : Owner) (ho : o ≠ .slot args.direction (s.slot args) .commStruct) :=
    update_of_ne ho (some ⟨.commStruct, answers.memalign, some m, p⟩) holds₂
  obtain ⟨iBufferPtr, iBufferSize, iParamPtr, hentry⟩ := hready.entry
  have hgenuine : Genuine q₃.dsp (update holds₂
      (.slot args.direction (s.slot args) .commStruct)
      (some ⟨.commStruct, answers.memalign, some m, p⟩)) := by
    rw [hdsp₃]
    exact hready.genuine.add hready.struct hfresh₃''
  have hsame : q₃.dsp.queued = s.dsp.queued := by
    rw [hdsp₃]
    exact hready.queued
  obtain ⟨eError, queued, hsend, hqueued⟩ := q₃.send_eq args answers.DSPNode_PutMessage
  rw [hsame] at hqueued
  rw [hsend]
  refine hwell.balanced h
    { hgenuine with } (fun use => ?_)
    (fun k => ?_) (fun d i use hat => ?_) (fun kind j => ?_) (fun k r hr => ?_) ?_ (fun _ => ?_) ?_
    (fun sent hsent => ?_) ?_
  · show _ = heldFor (s.reuses args) q₃.commStruct q₃.pDmmBuf use
    rw [hentry₃, hdmm₃]
    cases use with
    | buffer =>
      rw [hother _ (by simp)]
      exact hready.buffer
    | parameter =>
      rw [hother _ (by simp)]
      exact hready.parameter
    | commStruct =>
      rw [update_self]
      exact (if_pos ⟨hm, hp⟩).symm
    | control =>
      rw [hother _ (by simp)]
      exact hready.control
  · rw [hother _ (by simp), htable₃, hcount₃]
    exact hready.reused k
  · rw [hother]
    · exact hready.others d i use hat
    · intro heq
      injection heq with hd hi
      exact hat ⟨hd, hi⟩
  · rw [hother _ (by simp)]
    exact hready.controls kind j
  · rw [hother _ (by simp)]
    exact hready.kept k r hr
  · show ReuseTable _ q₃.mapped_dmm_buffers q₃.mapped_buffer_count
    rw [htable₃, hcount₃]
    exact hready.table
  · show q₃.pDmmBuf.pReserved ≠ 0
    rw [hdmm₃]
    exact hp
  · show q₃.commStruct.index args.direction = s.slot args
    rw [hentry₃, hentry]
    unfold State.slot
    cases args.direction <;> rfl
  · rcases hqueued with rfl | rfl
    · exact .inl hsent
    · rcases mem_cons.mp hsent with rfl | hsent
      · refine .inr ⟨?_, rfl, rfl, ?_,
          Queueing.forall_uses (fun hbuffer => ?_) (fun hparameter => ?_) ?_⟩
        · show q₃.pDmmBuf.pMapped ≠ 0
          rw [hdmm₃]
          exact hm
        · show q₃.commStruct.iStreamID = streamOf args.bufType
          rw [hentry₃, hentry]
          rfl
        · rw [hentry₃, hdmm₃]
          obtain ⟨o, ho, hheld⟩ := hready.uses hbuffer
          rcases ho with rfl | ⟨k, rfl⟩
          · exact .inl ⟨.buffer, (hother _ (by simp)).trans hheld⟩
          · exact .inr ⟨k, (hother _ (by simp)).trans hheld⟩
        · rw [hentry₃, hdmm₃]
          exact .inl
            ⟨.parameter, (hother _ (by simp)).trans (hready.usesParameter hparameter)⟩
        · rw [hdmm₃]
          exact .inl ⟨.commStruct, update_self ..⟩
      · exact .inl hsent
  · rcases hqueued with rfl | rfl
    · exact h.distinct
    · refine nodup_cons.mpr ⟨fun hmem => ?_, h.distinct⟩
      obtain ⟨sent, hsent, heq⟩ := mem_map.mp hmem
      obtain ⟨-, -, r, hr, -, hmapped⟩ := h.sent_mapped hsent
      rw [hanswer] at hfresh₃
      refine (hfresh₃.map m rfl).2 r hr ?_
      rw [hmapped, heq]
      show some q₃.pDmmBuf.pMapped = some m
      rw [hdmm₃]

/-- What `QueueBuffer` works on when nothing was mapped. -/
def Queueing.untouched (q : Queueing) (iBufferSize : Nat) (pAllocated : Ptr) : Queueing :=
  { q with
    commStruct := { q.commStruct with iBufferSize := iBufferSize }
    pDmmBuf := { q.pDmmBuf with pAllocated := pAllocated } }

/-- When the first mapping gets no reservation, nothing else is tried. -/
theorem State.FailsFirst.fill (hfails : s.FailsFirst args answers) (hwithin : s.Within args) :
    ∃ eError iBufferSize pAllocated, s.fill args answers =
      some (eError, (s.queueing args).untouched iBufferSize pAllocated) := by
  have hfirst := hfails.first
  unfold QueueAnswers.first at hfirst
  unfold State.fill State.mapBuffer
  by_cases hbuffer : args.hasBuffer
  · rw [if_pos hbuffer] at hfirst ⊢
    by_cases hreuse : s.reuses args
    · rw [if_pos (show (s.ReUseMap || mapReuse args.bufType) = true from hreuse)]
      obtain ⟨found, hsearch⟩ := ne_none_iff_exists'.mp (hwithin hbuffer hreuse)
      have hsearch' : searchMapped (s.queueing args).mapped_dmm_buffers
        (s.queueing args).mapped_buffer_count args.buffer = some found := hsearch
      obtain rfl := (s.found_of_search hbuffer hreuse hsearch).symm.trans hfails.found
      rw [hsearch', map_some, map_some]
      have hnew : ∃ iBufferSize pAllocated, (s.queueing args).mapNew args answers.buffer =
          (.OMX_ErrorHardware, (s.queueing args).untouched iBufferSize pAllocated) := by
        unfold Queueing.mapNew
        dsimp only
        split
        · obtain ⟨eError, pAllocated, herror, hmap⟩ := map_fails ((s.queueing args).sizeUsed args)
            .buffer args.bufferLen args.buffer hfirst
          rw [hmap]
          exact ⟨_, pAllocated, if_pos herror⟩
        · obtain ⟨eError, pAllocated, herror, hmap⟩ := map_fails (s.queueing args)
            .buffer args.bufferLen args.buffer hfirst
          rw [hmap]
          exact ⟨args.bufferLen, pAllocated, if_pos herror⟩
      obtain ⟨iBufferSize, pAllocated, hnew⟩ := hnew
      refine ⟨.OMX_ErrorHardware, iBufferSize, pAllocated, ?_⟩
      dsimp only
      have herror : OMX_ERRORTYPE.OMX_ErrorHardware ≠ .OMX_ErrorNone := by decide
      rw [hnew, andThen_error herror, andThen_error herror, andThen_error herror]
    · rw [if_neg (show ¬(s.ReUseMap || mapReuse args.bufType) = true from hreuse), map_some]
      have honce : ∃ eError iBufferSize pAllocated, eError ≠ .OMX_ErrorNone ∧
          (s.queueing args).mapOnce args answers.buffer =
            (eError, (s.queueing args).untouched iBufferSize pAllocated) := by
        unfold Queueing.mapOnce
        dsimp only
        split
        · obtain ⟨eError, pAllocated, herror, hmap⟩ := map_fails ((s.queueing args).sizeUsed args)
            .buffer args.used args.buffer hfirst
          rw [hmap, andThen_error herror]
          exact ⟨eError, args.used, pAllocated, herror, rfl⟩
        · obtain ⟨eError, pAllocated, herror, hmap⟩ := map_fails (s.queueing args)
            .buffer args.bufferLen args.buffer hfirst
          rw [hmap, andThen_error herror]
          exact ⟨eError, args.bufferLen, pAllocated, herror, rfl⟩
      obtain ⟨eError, iBufferSize, pAllocated, herror, honce⟩ := honce
      refine ⟨eError, iBufferSize, pAllocated, ?_⟩
      rw [honce, andThen_error herror, andThen_error herror, andThen_error herror]
  · rw [if_neg hbuffer] at hfirst ⊢
    rw [map_some, andThen_ok]
    unfold Queueing.mapParameter
    by_cases hparameter : args.hasParameter
    · rw [if_pos hparameter] at hfirst ⊢
      obtain ⟨eError, pAllocated, herror, hmap⟩ := map_fails (s.queueing args) .parameter
        (s.queueing args).commStruct.iParamSize (s.queueing args).commStruct.iParamPtr hfirst
      refine ⟨eError, args.bufferLen, pAllocated, ?_⟩
      rw [hmap, andThen_error herror, andThen_error herror, andThen_error herror]
      rfl
    · rw [if_neg hparameter] at hfirst ⊢
      obtain ⟨eError, pAllocated, herror, hmap⟩ := map_fails (s.queueing args) .commStruct
        sizeofStruct answers.memalign hfirst
      refine ⟨eError, args.bufferLen, pAllocated, ?_⟩
      rw [andThen_ok, hmap, andThen_error herror]
      rfl

/-- A call whose first mapping gets no reservation keeps the balance. -/
theorem State.MapsWell.queued_fails (hwell : s.MapsWell args answers)
    (hfails : s.FailsFirst args answers) (h : s.Balanced) :
    ∃ r, s.fill args answers = some r ∧ (s.queued args r).Balanced := by
  obtain ⟨eError, iBufferSize, pAllocated, hfill⟩ := hfails.fill hwell.within
  have hrecord := s.pDmmBuf_queueing hfails.found
  have hmapped : (s.queueing args).pDmmBuf.pMapped = 0 := hwell.pMapped h
  refine ⟨_, hfill, hwell.balanced h h.genuine (fun use => ?_) (h.reused_eq args)
    (fun _ _ _ _ => rfl) (fun _ _ => rfl) (fun _ _ hr => hr) (h.reuseTable args) (fun hne => ?_) ?_
    (fun sent hsent => .inl hsent) h.distinct⟩
  · rw [hwell.empty]
    cases use with
    | buffer =>
      refine (if_neg ?_).symm
      rintro ⟨hptr, hreuse, hreserved⟩
      have hzero := hfails.unmappedBuffer hptr hreuse
      rw [← hrecord] at hzero
      exact hreserved hzero
    | parameter =>
      refine (if_neg ?_).symm
      rintro ⟨hptr, hreserved⟩
      have hzero := hfails.unmappedParameter hptr
      rw [← hrecord] at hzero
      exact hreserved hzero
    | commStruct => exact (if_neg fun hall => hall.1 hmapped).symm
    | control => rfl
  · exact absurd hmapped hne
  · unfold State.slot
    cases args.direction <;> rfl

end Stages

theorem State.Balanced.queueBuffer (h : s.Balanced)
    (henabled : s.Enabled (.QueueBuffer args answers)) (hunlocked : s.locked = false)
    (hwell : answers.memalign ≠ 0 → s.MapsWell args answers) :
    ∃ t, QueueBuffer s args answers = some t ∧ t.Balanced := by
  unfold QueueBuffer
  rw [hunlocked, if_neg Bool.false_ne_true]
  by_cases hmemalign : answers.memalign = 0
  · rw [if_pos hmemalign]
    exact ⟨_, rfl, h.controlled rfl rfl rfl rfl h.genuine rfl h.marked⟩
  · rw [if_neg hmemalign]
    have hwell := hwell hmemalign
    rcases hwell.maps with hall | hfails
    · obtain ⟨r, hfill, hbalanced⟩ := hwell.queued_all hall h henabled hmemalign
      exact ⟨_, congrArg _ hfill, hbalanced⟩
    · obtain ⟨r, hfill, hbalanced⟩ := hwell.queued_fails hfails h
      exact ⟨_, congrArg _ hfill, hbalanced⟩

end OmapHal.Lcml
