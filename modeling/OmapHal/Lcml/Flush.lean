import OmapHal.Lcml.Ownership

/-!
# The flush of one stream

`USN_DSPACK_STRMCTRL` while a flush is pending. The even streams share the input array and the odd
ones the output array. The flushes of the streams 0 and 1 empty the whole array, those of 2 and 3
look at the stream and clear the mark of another one, and no other stream has a branch.
-/

namespace OmapHal.Lcml

open Function List Option

variable {s t u : State} {d : Direction} {i : Nat} {entry : TArmDspCommunicationStruct}

def USN_STRMCMD_FLUSH : Nat := 5

/-- `ackType`, the acknowledge id that `EMMCodecStrmCtrlAck` carries. -/
def State.ackType (s : State) (streamId : Nat) (ok : Bool) : Nat :=
  if s.flush_pending streamId ∧ streamId < 4 ∧ ok then USN_STRMCMD_FLUSH else 0

/-! ## What a flush should do -/

/-- What the component knows a buffer by. -/
def TArmDspCommunicationStruct.token (entry : TArmDspCommunicationStruct) : Ptr × Ptr × Ptr × Nat :=
  (entry.iArmbufferArg, entry.iArmParamArg, entry.iUsrArg, entry.call)

def Processed.token (p : Processed) : Ptr × Ptr × Ptr × Nat :=
  (p.buffer, p.auxInfo, p.usrArg, p.call)

/-- The structures in an array. -/
def Storage.entries (storage : Storage) : List TArmDspCommunicationStruct :=
  (List.range QUEUE_SIZE).filterMap storage.Armstorage

/-- The structures of a stream, in both arrays. -/
def State.queuedOn (s : State) (streamId : Nat) : List TArmDspCommunicationStruct :=
  ((s.storage .input).entries ++ (s.storage .output).entries).filter (·.iStreamID = streamId)

/-- A structure is in a slot of an array. -/
def State.InSlot (s : State) (d : Direction) (i : Nat) (entry : TArmDspCommunicationStruct) :
    Prop :=
  i < QUEUE_SIZE ∧ (s.storage d).Armstorage i = some entry

/-- The addresses by which the mappings of a structure are released. -/
def unmapPairs (entry : TArmDspCommunicationStruct) (pDmmBuf : DMM_BUFFER_OBJ) : List (Ptr × Ptr) :=
  [(entry.iBufferPtr, pDmmBuf.bufReserved), (entry.iParamPtr, pDmmBuf.paramReserved),
    (pDmmBuf.pMapped, pDmmBuf.pReserved)]

/-- A reservation is not of a structure that is returned. -/
def State.Apart (s : State) (r : Reservation) (d : Direction) (entry : TArmDspCommunicationStruct) :
    Prop :=
  ∀ pair ∈ unmapPairs entry ((s.storage d).DmmBuffer (entry.index d)), r.isAt pair.1 pair.2 = false

/-- A control block of a stream is mapped at the address in the acknowledgement. -/
def State.Acknowledged (s : State) (dwArg2 : Ptr) (k : Nat) (pDmmBuf : DMM_BUFFER_OBJ) : Prop :=
  (s.controls .Strmcntl).pDmmBuf k = some pDmmBuf ∧ pDmmBuf.pMapped = dwArg2

/-- What is neither queued nor mapped is as it was. -/
structure State.SameRest (s t : State) : Prop where
  iBufcount : ∀ d, (t.storage d).iBufcount = (s.storage d).iBufcount
  queued : t.dsp.queued = s.dsp.queued
  rest : t = { s with
    storage := t.storage
    flush_pending := t.flush_pending
    controls := t.controls
    dsp := t.dsp
    processed := t.processed }

/-- From one state to the next, the buffers of a stream were returned and nothing else was touched,
but the control block that was acknowledged. -/
structure State.FlushesOnly (s t : State) (streamId : Nat) (dwArg2 : Ptr) : Prop where
  returned : ∃ new, t.processed = s.processed ++ new ∧
    (new.map (·.token)).Perm ((s.queuedOn streamId).map (·.token))
  slots : ∀ d, ∀ i < QUEUE_SIZE, (t.storage d).Armstorage i =
    ((s.storage d).Armstorage i).filter (·.iStreamID ≠ streamId)
  records : ∀ d k, (∀ i entry, s.InSlot d i entry → entry.iStreamID = streamId →
    entry.index d ≠ k) → (t.storage d).DmmBuffer k = (s.storage d).DmmBuffer k
  pending : t.flush_pending = Function.update s.flush_pending streamId false
  mappings : ∀ r : Reservation,
    (∀ d i entry, s.InSlot d i entry → entry.iStreamID = streamId → s.Apart r d entry) →
    (∀ k pDmmBuf, s.Acknowledged dwArg2 k pDmmBuf →
      r.isAt pDmmBuf.pMapped pDmmBuf.pReserved = false) →
    t.dsp.ledger.count r = s.dsp.ledger.count r
  controls : ∀ kind k, (kind = .Strmcntl → ∀ pDmmBuf, ¬ s.Acknowledged dwArg2 k pDmmBuf) →
    (t.controls kind).pDmmBuf k = (s.controls kind).pDmmBuf k ∧
      (t.controls kind).mapped k = (s.controls kind).mapped k
  rest : s.SameRest t

/-- An acknowledgement is handled as it should be: with a flush pending it flushes its stream and is
reported so, and without one it returns no buffer. -/
def State.AckRight (s : State) (streamId : Nat) (ok : Bool) (dwArg2 : Ptr) : Prop :=
  (s.flush_pending streamId = true → ok = true →
    s.FlushesOnly (s.streamAck streamId ok dwArg2) streamId dwArg2 ∧
      s.ackType streamId ok = USN_STRMCMD_FLUSH) ∧
  (s.flush_pending streamId = false → (s.streamAck streamId ok dwArg2).processed = s.processed)

/-- The stream is 0 or 1, it has its array to itself, and it has nothing in the other one. -/
def State.Unshared (s : State) (streamId : Nat) : Prop :=
  streamId < 2 ∧ ∀ d i entry, s.InSlot d i entry →
    (entry.iStreamID = streamId ↔ d = directionOf streamId)

/-! ## Releases -/

theorem count_eraseP {α : Type} [DecidableEq α] {p : α → Bool} {a : α} (l : List α)
    (h : p a = false) : (l.eraseP p).count a = l.count a := by
  induction l with
  | nil => rfl
  | cons b l ih =>
    by_cases hb : p b
    · have hne : b ≠ a := by
        rintro rfl
        exact absurd (h.symm.trans hb) Bool.false_ne_true
      rw [eraseP_cons_of_pos hb, count_cons_of_ne hne]
    · rw [eraseP_cons_of_neg hb, count_cons, count_cons, ih]

theorem DmmUnMap_count {dsp : Bridge} {pMapPtr pResPtr : Ptr} {r : Reservation}
    (h : r.isAt pMapPtr pResPtr = false) :
    (DmmUnMap pMapPtr pResPtr dsp).ledger.count r = dsp.ledger.count r := by
  unfold DmmUnMap Bridge.release
  split
  · rfl
  · split
    · exact count_eraseP _ h
    · rfl

theorem DmmUnMap_queued (dsp : Bridge) (pMapPtr pResPtr : Ptr) :
    (DmmUnMap pMapPtr pResPtr dsp).queued = dsp.queued := by
  unfold DmmUnMap Bridge.release
  split
  · rfl
  · split <;> rfl

/-- What an entry releases, with its record as it was or without its mapping. -/
theorem unmapEntry_count {ReUseMap : Bool} {pDmmBuf pDmmBuf' : DMM_BUFFER_OBJ} {dsp : Bridge}
    {r : Reservation} (h : ∀ pair ∈ unmapPairs entry pDmmBuf, r.isAt pair.1 pair.2 = false)
    (hrecord : pDmmBuf' = pDmmBuf ∨ pDmmBuf' = { pDmmBuf with pMapped := 0 }) :
    (unmapEntry ReUseMap entry pDmmBuf' dsp).ledger.count r = dsp.ledger.count r := by
  have hbuffer : r.isAt entry.iBufferPtr pDmmBuf.bufReserved = false :=
    h _ mem_cons_self
  have hparameter : r.isAt entry.iParamPtr pDmmBuf.paramReserved = false :=
    h _ (mem_cons_of_mem _ mem_cons_self)
  have hstruct : r.isAt pDmmBuf.pMapped pDmmBuf.pReserved = false :=
    h _ (mem_cons_of_mem _ (mem_cons_of_mem _ mem_cons_self))
  have hsame : pDmmBuf'.bufReserved = pDmmBuf.bufReserved ∧
      pDmmBuf'.paramReserved = pDmmBuf.paramReserved := by
    rcases hrecord with rfl | rfl <;> exact ⟨rfl, rfl⟩
  have hlast (dsp : Bridge) : (DmmUnMap pDmmBuf'.pMapped pDmmBuf'.pReserved dsp).ledger.count r =
      dsp.ledger.count r := by
    rcases hrecord with rfl | rfl
    · exact DmmUnMap_count hstruct
    · rw [DmmUnMap, if_pos (Or.inl rfl)]
  simp only [unmapEntry]
  rw [hlast, hsame.1, hsame.2]
  split <;> split <;> simp only [DmmUnMap_count hbuffer, DmmUnMap_count hparameter]

theorem unmapEntry_queued (ReUseMap : Bool) (entry : TArmDspCommunicationStruct)
    (pDmmBuf : DMM_BUFFER_OBJ) (dsp : Bridge) :
    (unmapEntry ReUseMap entry pDmmBuf dsp).queued = dsp.queued := by
  simp only [unmapEntry]
  rw [DmmUnMap_queued]
  split <;> split <;> simp only [DmmUnMap_queued]

/-! ## The loop over the slots -/

/-- Some slots of an array were drained. -/
structure State.Drained (s t : State) (d : Direction) (done : List Nat) : Prop where
  slots : ∀ d' i, (t.storage d').Armstorage i =
    if d' = d ∧ i ∈ done then none else (s.storage d').Armstorage i
  records : ∀ d' k, (t.storage d').DmmBuffer k = (s.storage d').DmmBuffer k ∨
    ((t.storage d').DmmBuffer k = { (s.storage d').DmmBuffer k with pMapped := 0 } ∧ d' = d ∧
      ∃ i ∈ done, ∃ entry, (s.storage d).Armstorage i = some entry ∧ entry.index d = k)
  returned : ∃ new, t.processed = s.processed ++ new ∧
    new.map (·.token) = (done.filterMap (s.storage d).Armstorage).map (·.token)
  mappings : ∀ r : Reservation,
    (∀ i ∈ done, ∀ entry, (s.storage d).Armstorage i = some entry → s.Apart r d entry) →
    t.dsp.ledger.count r = s.dsp.ledger.count r
  pending : t.flush_pending = s.flush_pending
  controls : t.controls = s.controls
  rest : s.SameRest t

namespace State

theorem SameRest.refl (s : State) : s.SameRest s := ⟨fun _ => rfl, rfl, rfl⟩

theorem SameRest.trans (h : s.SameRest t) (h' : t.SameRest u) : s.SameRest u where
  iBufcount d := (h'.iBufcount d).trans (h.iBufcount d)
  queued := h'.queued.trans h.queued
  rest := by
    rw [h'.rest, h.rest]

theorem SameRest.finish (s : State) (d : Direction) (i : Nat) (entry : TArmDspCommunicationStruct)
    (bufType iBufSizeUsed nFlags : Nat) :
    s.SameRest (s.finish d i entry bufType iBufSizeUsed nFlags) where
  iBufcount d' := by
    show (update s.storage d ((s.storage d).take i (entry.index d)) d').iBufcount = _
    by_cases hd : d' = d
    · rw [hd, update_self]
      rfl
    · rw [update_of_ne hd]
  queued := unmapEntry_queued _ _ _ _
  rest := rfl

theorem Drained.nil (s : State) (d : Direction) : s.Drained s d [] where
  slots d' i := by rw [if_neg fun h => not_mem_nil h.2]
  records _ _ := .inl rfl
  returned := ⟨[], (append_nil _).symm, rfl⟩
  mappings _ _ := rfl
  pending := rfl
  controls := rfl
  rest := .refl s

/-- The next slot of the loop. -/
theorem Drained.drain {done : List Nat} (h : s.Drained t d done) (hi : i ∉ done) :
    s.Drained (t.drain none d i) d (done ++ [i]) := by
  have hslot : (t.storage d).Armstorage i = (s.storage d).Armstorage i := by
    rw [h.slots, if_neg fun h => hi h.2]
  obtain ⟨new, hprocessed, hnew⟩ := h.returned
  cases hin : (t.storage d).Armstorage i with
  | none =>
    rw [drain_same fun entry hentry => nomatch hin.symm.trans hentry]
    have hnone : (s.storage d).Armstorage i = none := hslot.symm.trans hin
    refine { h with slots := ?_, records := ?_, returned := ⟨new, hprocessed, ?_⟩, mappings := ?_ }
    · intro d' j
      rw [h.slots]
      by_cases hj : d' = d ∧ j = i
      · rw [hj.1, hj.2, hnone, ite_self, ite_self]
      · have hiff : (d' = d ∧ j ∈ done) ↔ (d' = d ∧ j ∈ done ++ [i]) := by
          rw [mem_append, mem_singleton]
          tauto
        rw [if_congr hiff rfl rfl]
    · intro d' k
      rcases h.records d' k with hsame | ⟨hzero, hd, j, hj, hrest⟩
      · exact .inl hsame
      · exact .inr ⟨hzero, hd, j, mem_append_left _ hj, hrest⟩
    · rw [hnew, filterMap_append, filterMap_cons_none hnone, filterMap_nil,
        append_nil]
    · intro r hr
      exact h.mappings r fun j hj => hr j (mem_append_left _ hj)
  | some entry =>
    have hall : (none : Option Nat).all (· = entry.iStreamID) := rfl
    obtain ⟨bufType, iBufSizeUsed, heq⟩ := drain_eq hin hall
    rw [heq]
    have hsome : (s.storage d).Armstorage i = some entry := hslot.symm.trans hin
    have hmem : i ∈ done ++ [i] := mem_append_right _ (mem_singleton_self i)
    refine { h with
      slots := ?_, records := ?_, returned := ?_, mappings := ?_
      rest := h.rest.trans (SameRest.finish t d i entry bufType iBufSizeUsed 0) }
    · intro d' j
      rw [finish_Armstorage, h.slots]
      by_cases hj : d' = d ∧ j = i
      · rw [if_pos hj, if_pos ⟨hj.1, hj.2 ▸ hmem⟩]
      · have hiff : (d' = d ∧ j ∈ done) ↔ (d' = d ∧ j ∈ done ++ [i]) := by
          rw [mem_append, mem_singleton]
          tauto
        rw [if_neg hj, if_congr hiff rfl rfl]
    · intro d' k
      rw [finish_DmmBuffer]
      split
      next hk =>
        obtain ⟨rfl, rfl⟩ := hk
        refine .inr ⟨?_, rfl, i, hmem, entry, hsome, rfl⟩
        rcases h.records d' (entry.index d') with hsame | ⟨hzero, -⟩
        · rw [hsame]
        · rw [hzero]
      next =>
        rcases h.records d' k with hsame | ⟨hzero, hd, j, hj, hrest⟩
        · exact .inl hsame
        · exact .inr ⟨hzero, hd, j, mem_append_left _ hj, hrest⟩
    · obtain ⟨p, hcall, hbuffer, hauxInfo, husrArg, hfinish⟩ :=
        finish_processed t d i entry bufType iBufSizeUsed 0
      refine ⟨new ++ [p], by rw [hfinish, hprocessed, append_assoc], ?_⟩
      have htoken : p.token = entry.token := by
        rw [Processed.token, hcall, hbuffer, hauxInfo, husrArg]
        rfl
      rw [map_append, hnew, filterMap_append, filterMap_cons_some hsome,
        filterMap_nil, map_append, map_singleton, map_singleton, htoken]
    · intro r hr
      have hrecord : (t.storage d).DmmBuffer (entry.index d) =
        (s.storage d).DmmBuffer (entry.index d) ∨
          (t.storage d).DmmBuffer (entry.index d) =
            { (s.storage d).DmmBuffer (entry.index d) with pMapped := 0 } :=
        (h.records d (entry.index d)).imp_right And.left
      calc (t.finish d i entry bufType iBufSizeUsed 0).dsp.ledger.count r
          = t.dsp.ledger.count r := unmapEntry_count (hr i hmem entry hsome) hrecord
        _ = s.dsp.ledger.count r := h.mappings r fun j hj => hr j (mem_append_left _ hj)

/-- The loop over slots that differ. -/
theorem Drained.foldl {done slots : List Nat} (h : s.Drained t d done)
    (hnodup : (done ++ slots).Nodup) :
    s.Drained (slots.foldl (fun t i => t.drain none d i) t) d (done ++ slots) := by
  induction slots generalizing t done with
  | nil => rwa [append_nil]
  | cons i slots ih =>
    rw [append_cons] at hnodup ⊢
    have hi : i ∉ done := by
      intro hmem
      have hfirst := (nodup_append.mp hnodup).1
      exact (nodup_append.mp hfirst).2.2 i hmem i (mem_singleton_self i) rfl
    exact ih (h.drain hi) hnodup

theorem nodup_slots (storage : Storage) : storage.slots.Nodup := by
  refine Nodup.map_on ?_ nodup_range
  intro j hj k hk heq
  have hj' := mem_range.mp hj
  have hk' := mem_range.mp hk
  unfold QUEUE_SIZE at hj' hk' heq
  omega

/-- A flush that does not look at the stream empties the array. -/
theorem flush_drained (s : State) (d : Direction) :
    s.Drained (s.flush d none) d (s.storage d).slots :=
  (Drained.nil s d).foldl (nodup_slots (s.storage d))

/-- What no drained slot changes. -/
theorem flush_kept {β : Type} (f : State → β)
    (hf : ∀ (t : State) d i entry bufType iBufSizeUsed,
      f (t.finish d i entry bufType iBufSizeUsed 0) = f t)
    (s : State) (d : Direction) (only : Option Nat) : f (s.flush d only) = f s := by
  rw [flush_eq, drainAll]
  refine Core.foldl_invariant (P := fun t : State => f t = f s) rfl ?_
  intro t slot ht
  rcases drain_cases t only slot.1 slot.2 with heq | ⟨entry, bufType, iBufSizeUsed, -, -, heq⟩
  · rw [heq, ht]
  · rw [heq, hf, ht]

theorem flush_pending_eq (s : State) (d : Direction) (only : Option Nat) :
    (s.flush d only).flush_pending = s.flush_pending :=
  flush_kept (·.flush_pending) (fun _ _ _ _ _ _ => rfl) s d only

end State

/-! ## The control block of an acknowledgement -/

/-- The block that is released, if there is one, is mapped at the address. -/
theorem Control.acknowledge_cases (control : Control) (dwArg2 : Ptr) (dsp : Bridge) :
    control.acknowledge dwArg2 dsp = (control, dsp) ∨
      ∃ k pDmmBuf, control.pDmmBuf k = some pDmmBuf ∧ pDmmBuf.pMapped = dwArg2 ∧
        control.acknowledge dwArg2 dsp =
          (⟨update control.pDmmBuf k none, update control.mapped k false⟩,
            DmmUnMap pDmmBuf.pMapped pDmmBuf.pReserved dsp) := by
  unfold Control.acknowledge
  split
  · exact .inl rfl
  next k hfind =>
    cases hk : control.pDmmBuf k with
    | none => exact .inl rfl
    | some pDmmBuf =>
      have hfound := find?_some hfind
      rw [hk] at hfound
      have hat : control.mapped k ∧ pDmmBuf.pMapped = dwArg2 := by simpa using hfound
      exact .inr ⟨k, pDmmBuf, hk, hat.2, rfl⟩

namespace State

theorem acknowledge_storage (s : State) (kind : ControlKind) (dwArg2 : Ptr) :
    (s.acknowledge kind dwArg2).storage = s.storage := rfl

theorem acknowledge_processed (s : State) (kind : ControlKind) (dwArg2 : Ptr) :
    (s.acknowledge kind dwArg2).processed = s.processed := rfl

theorem acknowledge_flush_pending (s : State) (kind : ControlKind) (dwArg2 : Ptr) :
    (s.acknowledge kind dwArg2).flush_pending = s.flush_pending := rfl

theorem acknowledge_rest (s : State) (kind : ControlKind) (dwArg2 : Ptr) :
    s.SameRest (s.acknowledge kind dwArg2) where
  iBufcount _ := rfl
  queued := by
    show ((s.controls kind).acknowledge dwArg2 s.dsp).2.queued = s.dsp.queued
    rcases (s.controls kind).acknowledge_cases dwArg2 s.dsp with heq | ⟨k, pDmmBuf, -, -, heq⟩
    · rw [heq]
    · rw [heq]
      exact DmmUnMap_queued _ _ _
  rest := rfl

/-- Other mappings than that of the acknowledged block stay. -/
theorem acknowledge_mappings {dwArg2 : Ptr} {r : Reservation}
    (h : ∀ k pDmmBuf, s.Acknowledged dwArg2 k pDmmBuf →
      r.isAt pDmmBuf.pMapped pDmmBuf.pReserved = false) :
    (s.acknowledge .Strmcntl dwArg2).dsp.ledger.count r = s.dsp.ledger.count r := by
  show ((s.controls .Strmcntl).acknowledge dwArg2 s.dsp).2.ledger.count r = _
  rcases (s.controls .Strmcntl).acknowledge_cases dwArg2 s.dsp with heq | ⟨k, pDmmBuf, hk, hat, heq⟩
  · rw [heq]
  · rw [heq]
    exact DmmUnMap_count (h k pDmmBuf ⟨hk, hat⟩)

/-- Other control blocks than the acknowledged one stay. -/
theorem acknowledge_controls {dwArg2 : Ptr} {kind : ControlKind} {k : Nat}
    (h : kind = .Strmcntl → ∀ pDmmBuf, ¬ s.Acknowledged dwArg2 k pDmmBuf) :
    ((s.acknowledge .Strmcntl dwArg2).controls kind).pDmmBuf k = (s.controls kind).pDmmBuf k ∧
      ((s.acknowledge .Strmcntl dwArg2).controls kind).mapped k = (s.controls kind).mapped k := by
  show ((update s.controls .Strmcntl ((s.controls .Strmcntl).acknowledge dwArg2 s.dsp).1)
      kind).pDmmBuf k = _ ∧ ((update s.controls .Strmcntl
        ((s.controls .Strmcntl).acknowledge dwArg2 s.dsp).1) kind).mapped k = _
  by_cases hkind : kind = .Strmcntl
  · subst hkind
    rw [update_self]
    rcases (s.controls .Strmcntl).acknowledge_cases dwArg2 s.dsp with
      heq | ⟨k', pDmmBuf, hk, hat, heq⟩
    · rw [heq]
      exact ⟨rfl, rfl⟩
    · have hne : k ≠ k' := by
        rintro rfl
        exact h rfl pDmmBuf ⟨hk, hat⟩
      rw [heq]
      exact ⟨update_of_ne hne _ _, update_of_ne hne _ _⟩
  · rw [update_of_ne hkind]
    exact ⟨rfl, rfl⟩

/-! ## When one stream is flushed -/

theorem mem_entries {s : State} {d : Direction} {entry : TArmDspCommunicationStruct} :
    entry ∈ (s.storage d).entries ↔ ∃ i, s.InSlot d i entry := by
  simp only [Storage.entries, mem_filterMap, mem_range, InSlot]

/-- The structures of a stream that has its array to itself. -/
theorem Unshared.queuedOn_eq {streamId : Nat} (h : s.Unshared streamId) :
    s.queuedOn streamId = (s.storage (directionOf streamId)).entries := by
  have hown : (s.storage (directionOf streamId)).entries.filter (·.iStreamID = streamId) =
      (s.storage (directionOf streamId)).entries := by
    refine filter_eq_self.mpr fun entry hentry => ?_
    obtain ⟨i, hin⟩ := mem_entries.mp hentry
    exact decide_eq_true ((h.2 _ i entry hin).mpr rfl)
  have hother (d : Direction) (hd : d ≠ directionOf streamId) :
      (s.storage d).entries.filter (·.iStreamID = streamId) = [] := by
    refine filter_eq_nil_iff.mpr fun entry hentry hid => ?_
    obtain ⟨i, hin⟩ := mem_entries.mp hentry
    exact hd ((h.2 d i entry hin).mp (of_decide_eq_true hid))
  rw [queuedOn, filter_append]
  cases hdir : directionOf streamId with
  | input =>
    rw [hdir] at hown hother
    rw [hown, hother .output (by decide), append_nil]
  | output =>
    rw [hdir] at hown hother
    rw [hown, hother .input (by decide), nil_append]

/-- The flush of an array that belongs to its stream alone. -/
theorem Unshared.flushesOnly {streamId : Nat} (h : s.Unshared streamId) (dwArg2 : Ptr) :
    s.FlushesOnly (((s.clearPending streamId).flush (directionOf streamId) none).acknowledge
      .Strmcntl dwArg2) streamId dwArg2 := by
  have hdrained := flush_drained (s.clearPending streamId) (directionOf streamId)
  obtain ⟨new, hprocessed, hnew⟩ := hdrained.returned
  have hslots (i : Nat) : i ∈ (s.storage (directionOf streamId)).slots ↔ i < QUEUE_SIZE :=
    mem_slots _
  constructor
  · refine ⟨new, hprocessed, ?_⟩
    rw [hnew, h.queuedOn_eq]
    have hperm : (s.storage (directionOf streamId)).slots.Perm (range QUEUE_SIZE) :=
      (perm_ext_iff_of_nodup (nodup_slots _) nodup_range).mpr fun i => by
        rw [hslots, mem_range]
    exact (hperm.filterMap _).map _
  · intro d i hi
    rw [acknowledge_storage, hdrained.slots]
    show (if d = directionOf streamId ∧ i ∈ (s.storage (directionOf streamId)).slots then none
      else (s.storage d).Armstorage i) = _
    cases hin : (s.storage d).Armstorage i with
    | none => rw [ite_self, filter_none]
    | some entry =>
      have hiff := h.2 d i entry ⟨hi, hin⟩
      by_cases hd : d = directionOf streamId
      · have hid : entry.iStreamID = streamId := hiff.mpr hd
        rw [if_pos ⟨hd, (hslots i).mpr hi⟩, filter_some, if_neg (by simp [hid])]
      · have hid : entry.iStreamID ≠ streamId := fun hid => hd (hiff.mp hid)
        rw [if_neg fun hboth => hd hboth.1, filter_some, if_pos (by simp [hid])]
  · intro d k hk
    rw [acknowledge_storage]
    rcases hdrained.records d k with hsame | ⟨-, rfl, i, hi, entry, hin, hindex⟩
    · exact hsame
    · have hslot : s.InSlot (directionOf streamId) i entry := ⟨(hslots i).mp hi, hin⟩
      exact absurd hindex (hk i entry hslot ((h.2 _ i entry hslot).mpr rfl))
  · rw [acknowledge_flush_pending, flush_pending_eq]
    rfl
  · intro r hentries hcontrol
    rw [acknowledge_mappings]
    · refine hdrained.mappings r fun i hi entry hin => ?_
      have hslot : s.InSlot (directionOf streamId) i entry := ⟨(hslots i).mp hi, hin⟩
      exact hentries _ i entry hslot ((h.2 _ i entry hslot).mpr rfl)
    · intro k pDmmBuf hat
      rw [Acknowledged, hdrained.controls] at hat
      exact hcontrol k pDmmBuf hat
  · intro kind k hk
    have hcontrols : ((s.clearPending streamId).flush (directionOf streamId) none).controls =
        s.controls := hdrained.controls
    rw [← hcontrols]
    refine acknowledge_controls fun hkind pDmmBuf hat => ?_
    rw [Acknowledged, hcontrols] at hat
    exact hk hkind pDmmBuf hat
  · have hcleared : s.SameRest (s.clearPending streamId) := ⟨fun _ => rfl, rfl, rfl⟩
    exact (hcleared.trans hdrained.rest).trans (acknowledge_rest _ _ _)

/-- The slots and the marks that an acknowledgement leaves, where it finds a flush of a stream. -/
theorem streamAck_of_lt {streamId : Nat} (hlt : streamId < 2)
    (hpending : s.flush_pending streamId) (dwArg2 : Ptr) :
    s.streamAck streamId true dwArg2 =
      ((s.clearPending streamId).flush
        (directionOf streamId) none).acknowledge .Strmcntl dwArg2 := by
  unfold streamAck
  rw [if_pos ⟨hpending, by omega, rfl⟩]
  match streamId, hlt with
  | 0, _ => rfl
  | 1, _ => rfl

/-- The mark of another stream than 0 and 1 stays. -/
theorem streamAck_pending_of_le {streamId : Nat} (hle : 2 ≤ streamId) (ok : Bool) (dwArg2 : Ptr) :
    (s.streamAck streamId ok dwArg2).flush_pending streamId = s.flush_pending streamId := by
  unfold streamAck
  split
  next hflush =>
    match streamId, hle, hflush.2.1 with
    | 2, _, _ => exact congrFun (flush_pending_eq (s.clearPending 0) .input (some 2)) 2
    | 3, _, _ => exact congrFun (flush_pending_eq (s.clearPending 1) .output (some 3)) 3
  next => rfl

/-- An array that a flush empties has to belong to the stream. -/
theorem FlushesOnly.unshared {streamId : Nat} {dwArg2 : Ptr}
    (hpending : s.flush_pending streamId)
    (h : s.FlushesOnly (s.streamAck streamId true dwArg2) streamId dwArg2) :
    s.Unshared streamId := by
  have hlt : streamId < 2 := by
    by_contra hge
    have hcleared := congrFun h.pending streamId
    rw [streamAck_pending_of_le (Nat.le_of_not_lt hge), hpending, update_self] at hcleared
    cases hcleared
  refine ⟨hlt, fun d i entry hin => ?_⟩
  have hdrained := flush_drained (s.clearPending streamId) (directionOf streamId)
  have hslot := h.slots d i hin.1
  rw [streamAck_of_lt hlt hpending, acknowledge_storage, hdrained.slots, hin.2, filter_some]
    at hslot
  have hmem : i ∈ ((s.clearPending streamId).storage (directionOf streamId)).slots :=
    (mem_slots _).mpr hin.1
  have hstored : ((s.clearPending streamId).storage d).Armstorage i = some entry := hin.2
  by_cases hd : d = directionOf streamId
  · rw [if_pos ⟨hd, hmem⟩] at hslot
    refine iff_of_true ?_ hd
    by_contra hid
    rw [if_pos (by simp [hid])] at hslot
    cases hslot
  · rw [if_neg fun hboth => hd hboth.1, hstored] at hslot
    refine iff_of_false ?_ hd
    intro hid
    rw [if_neg (by simp [hid])] at hslot
    cases hslot

end State

/-- An acknowledgement is handled as it should be exactly if it is not a flush, or the flush of the
stream 0 or 1 where no other stream has a buffer in its array. -/
theorem ackRight_iff (s : State) (streamId : Nat) (ok : Bool) (dwArg2 : Ptr) :
    s.AckRight streamId ok dwArg2 ↔
      (s.flush_pending streamId = true → ok = true → s.Unshared streamId) := by
  constructor
  · rintro ⟨hflushes, -⟩ hpending rfl
    exact (hflushes hpending rfl).1.unshared hpending
  · intro hunshared
    refine ⟨fun hpending hok => ?_, fun hpending => ?_⟩
    · subst hok
      have h := hunshared hpending rfl
      have hlt : streamId < 4 := Nat.lt_of_lt_of_le h.1 (by decide)
      rw [State.streamAck_of_lt h.1 hpending]
      exact ⟨h.flushesOnly dwArg2, if_pos ⟨hpending, hlt, rfl⟩⟩
    · unfold State.streamAck
      rw [if_neg fun hflush => Bool.false_ne_true (hpending.symm.trans hflush.1)]
      exact State.acknowledge_processed s .Strmcntl dwArg2

/-- A buffer of the stream 2 is queued, and the stream 0 is flushed. -/
def otherQueued : List Event :=
  [.QueueBuffer { queueArgs 100 with bufType := 2002 } (mapsAt 200), .controlFlush 0]

theorem other_stream_returned : ¬ ∀ (events : List Event) (s : State) (streamId : Nat) (ok : Bool)
    (dwArg2 : Ptr), events.foldlM State.step (.start 0 0 true true) = some s →
      s.AckRight streamId ok dwArg2 := by
  intro h
  have hrun : (otherQueued.foldlM State.step (.start 0 0 true true)).map (fun s =>
      (s.flush_pending 0, s.processed.length, (s.streamAck 0 true 0).processed.length,
        (s.queuedOn 0).length)) = some (true, 0, 1, 0) := by decide
  obtain ⟨s, hs, hcounts⟩ := map_eq_some_iff.mp hrun
  simp only [Prod.mk.injEq] at hcounts
  obtain ⟨hpending, hbefore, hafter, hqueued⟩ := hcounts
  obtain ⟨new, hnew, hperm⟩ := ((h otherQueued s 0 true 0 hs).1 hpending rfl).1.returned
  have hlen := hperm.length_eq
  rw [hnew, length_append, hbefore] at hafter
  simp only [length_map] at hlen
  omega

end OmapHal.Lcml
