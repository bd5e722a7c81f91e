import OmapHal.Core.Run
import OmapHal.Lcml.Model

/-!
# Each buffer is returned once

A call of `QueueBuffer` that returns no error leaves a structure in a storage array, which one
callback later takes out. This fails in two ways. The slot that is next in the ring may still be
taken, and its structure is then lost. A call that fails has already taken its slot, and its
structure is answered by the next stop or flush.
-/

namespace OmapHal.Lcml

open Function List Option Nat

open OmapHal.Core (AlongSome)

variable {only : Option Nat} {slots : List (Direction × Nat)} {event : Event}

variable {s t : State} {args : QueueArgs} {answers : QueueAnswers} {d : Direction} {i k : Nat}
  {entry : TArmDspCommunicationStruct}

/-- The callbacks about a call of `QueueBuffer`. -/
def State.answered (s : State) (k : Nat) : List Processed := s.processed.filter (·.call = k)

/-- A structure of the call is in a storage array. -/
def State.Stored (s : State) (k : Nat) : Prop :=
  ∃ d i entry, (s.storage d).Armstorage i = some entry ∧ entry.call = k

def Processed.Carries (p : Processed) (call : Call) : Prop :=
  p.buffer = call.buffer ∧ p.auxInfo = call.auxInfo ∧ p.usrArg = call.usrArg

def State.Accounted (s : State) (k : Nat) (call : Call) : Prop :=
  if call.eError = .OMX_ErrorNone then
    (s.Stored k ∧ s.answered k = []) ∨ (¬s.Stored k ∧ ∃ p, s.answered k = [p] ∧ p.Carries call)
  else s.answered k = []

/-- Each buffer is stored or was returned, once, and none that was refused is returned. -/
def State.Returns (s : State) : Prop := ∀ k call, s.calls[k]? = some call → s.Accounted k call

def State.Keeps (s : State) (event : Event) : Prop := ∃ t, s.step event = some t ∧ t.Returns

def State.Alive (s : State) (_ : Event) : Prop := s.alive = true

/-- The structure was stored by a call that failed later. -/
def State.failed (s : State) (entry : TArmDspCommunicationStruct) : Bool :=
  (s.calls[entry.call]?).any (·.eError ≠ .OMX_ErrorNone)

/-- No structure of a failed call is in the slots of a direction; for the streams 2 and 3 only
those of the stream matter. -/
def State.Clean (s : State) (d : Direction) (only : Option Nat) : Prop :=
  ∀ i < QUEUE_SIZE, ∀ entry, (s.storage d).Armstorage i = some entry →
    only.all (· = entry.iStreamID) → s.failed entry = false

/-- The buffer is in the reuse table, or the table has room. -/
def State.Within (s : State) (args : QueueArgs) : Prop :=
  args.hasBuffer → (s.ReUseMap || mapReuse args.bufType) →
    searchMapped s.mapped_dmm_buffers s.mapped_buffer_count args.buffer ≠ none

/-- The streams that a flush of a stream drains. -/
def drained (streamId : Nat) : Option Nat := if streamId < 2 then none else some streamId

/-- The condition on each step. -/
def State.Careful (s : State) : Event → Prop
  | .QueueBuffer args answers =>
    s.locked = false ∧ (answers.memalign ≠ 0 → s.Within args ∧
      ∀ entry, (s.storage (directionOf (streamOf args.bufType))).Armstorage
        (s.storage (directionOf (streamOf args.bufType))).slot = some entry → s.failed entry)
  | .BUFF_FREE streamId dwArg1 _ =>
    s.locked = false ∧ ∀ i entry, (s.storage (directionOf streamId)).find dwArg1 = some i →
      (s.storage (directionOf streamId)).Armstorage i = some entry → s.failed entry = false
  | .STOP => s.locked = false ∧ (s.TypeofDevice = 0 → ∀ d, s.Clean d none)
  | .STRMCTRL streamId ok _ _ =>
    s.locked = false ∧ (s.flush_pending streamId → streamId < 4 → ok →
      s.Clean (directionOf streamId) (drained streamId))
  | .ALGCTRL _ | .controlAlgCtrl _ _ _ => s.locked = false
  | .controlStrmCtrl _ _ _ => s.locked = false ∧ (s.controls .Strmcntl).free ≠ none
  | .controlFlush streamId => s.locked = false ∧ streamId < 4
  | .controlUsnEos | .other => True
  | .destroy => s.locked = false ∧ (s.ReUseMap → s.mapped_buffer_count < MAX_DMM_BUFFERS)

/-- What careful steps keep. -/
structure State.Orderly (s : State) : Prop where
  returns : s.Returns
  entry : ∀ d i entry, (s.storage d).Armstorage i = some entry →
    ∃ call, s.calls[entry.call]? = some call ∧ entry.iArmbufferArg = call.buffer ∧
      entry.iArmParamArg = call.auxInfo ∧ entry.iUsrArg = call.usrArg
  slot : ∀ d i entry, (s.storage d).Armstorage i = some entry → i < QUEUE_SIZE
  distinct : ∀ d i entry d' i' entry', (s.storage d).Armstorage i = some entry →
    (s.storage d').Armstorage i' = some entry' → entry.call = entry'.call → d = d' ∧ i = i'
  known : ∀ p ∈ s.processed, p.call < s.calls.length

/-- Two states with the same buffers. -/
structure State.SameBuffers (s t : State) : Prop where
  storage : ∀ d, (t.storage d).Armstorage = (s.storage d).Armstorage
  calls : t.calls = s.calls
  processed : t.processed = s.processed

theorem State.SameBuffers.returns (h : s.SameBuffers t) (hs : s.Returns) : t.Returns := by
  intro k call hk
  have hacc := hs k call (h.calls ▸ hk)
  unfold State.Accounted State.Stored State.answered at hacc ⊢
  simp only [h.storage, h.processed]
  exact hacc

theorem State.SameBuffers.orderly (h : s.SameBuffers t) (hs : s.Orderly) : t.Orderly := by
  refine ⟨h.returns hs.returns, ?_, ?_, ?_, ?_⟩
  · simp only [h.storage, h.calls]
    exact hs.entry
  · simp only [h.storage]
    exact hs.slot
  · simp only [h.storage]
    exact hs.distinct
  · rw [h.processed, h.calls]
    exact hs.known

theorem State.Orderly.same (hs : s.Orderly)
    (hstorage : ∀ d, (t.storage d).Armstorage = (s.storage d).Armstorage)
    (hcalls : t.calls = s.calls) (hprocessed : t.processed = s.processed) : t.Orderly :=
  State.SameBuffers.orderly ⟨hstorage, hcalls, hprocessed⟩ hs

theorem failed_eq_false_iff (s : State) (entry : TArmDspCommunicationStruct) {call : Call}
    (h : s.calls[entry.call]? = some call) : s.failed entry = false ↔
    call.eError = .OMX_ErrorNone := by
  unfold State.failed
  rw [h]
  simp

/-! ## Answers -/

section Finish

variable {bufType iBufSizeUsed nFlags : Nat}

theorem finish_Armstorage (s : State) (d : Direction) (i : Nat)
    (entry : TArmDspCommunicationStruct) (bufType iBufSizeUsed nFlags : Nat) (d' : Direction)
    (i' : Nat) :
    ((s.finish d i entry bufType iBufSizeUsed nFlags).storage d').Armstorage i' =
      if d' = d ∧ i' = i then none else (s.storage d').Armstorage i' := by
  show ((update s.storage d ((s.storage d).take i (entry.index d))) d').Armstorage i' = _
  by_cases hd : d' = d
  · subst hd
    rw [update_self]
    show update (s.storage d').Armstorage i none i' = _
    by_cases hi : i' = i
    · rw [hi, update_self, if_pos ⟨rfl, rfl⟩]
    · rw [update_of_ne hi, if_neg fun h => hi h.2]
  · rw [update_of_ne hd, if_neg fun h => hd h.1]

/-- A structure that is stored after another was answered. -/
theorem finish_stored_of
    (h : ((s.finish d i entry bufType iBufSizeUsed nFlags).storage d').Armstorage i' =
    some entry') : (s.storage d').Armstorage i' = some entry' ∧ ¬(d' = d ∧ i' = i) := by
  rw [finish_Armstorage] at h
  split at h
  · cases h
  · rename_i hne
    exact ⟨h, hne⟩

theorem State.Orderly.finish_stored (h : s.Orderly) (hin : (s.storage d).Armstorage i = some entry)
    (k : Nat) :
    (s.finish d i entry bufType iBufSizeUsed nFlags).Stored k ↔ s.Stored k ∧ k ≠ entry.call := by
  constructor
  · rintro ⟨d', i', entry', hin', rfl⟩
    obtain ⟨hold, hne⟩ := finish_stored_of hin'
    exact ⟨⟨d', i', entry', hold, rfl⟩, fun heq =>
      hne (h.distinct d' i' entry' d i entry hold hin heq)⟩
  · rintro ⟨⟨d', i', entry', hin', rfl⟩, hne⟩
    refine ⟨d', i', entry', ?_, rfl⟩
    rw [finish_Armstorage, if_neg]
    · exact hin'
    · rintro ⟨rfl, rfl⟩
      exact hne (congrArg _ (some.inj (hin'.symm.trans hin)))

theorem finish_processed (s : State) (d : Direction) (i : Nat) (entry : TArmDspCommunicationStruct)
    (bufType iBufSizeUsed nFlags : Nat) :
    ∃ p : Processed, p.call = entry.call ∧ p.buffer = entry.iArmbufferArg ∧
      p.auxInfo = entry.iArmParamArg ∧ p.usrArg = entry.iUsrArg ∧
      (s.finish d i entry bufType iBufSizeUsed nFlags).processed = s.processed ++ [p] :=
  ⟨_, rfl, rfl, rfl, rfl, rfl⟩

/-- The answer to a call that returned no error. -/
theorem State.Orderly.finish (h : s.Orderly) (hin : (s.storage d).Armstorage i = some entry)
    (hok : s.failed entry = false) :
    (s.finish d i entry bufType iBufSizeUsed nFlags).Orderly := by
  obtain ⟨call, hcall, hbuffer, hauxInfo, husrArg⟩ := h.entry d i entry hin
  obtain ⟨p, hp, hpbuffer, hpauxInfo, hpusrArg, hprocessed⟩ :=
    finish_processed s d i entry bufType iBufSizeUsed nFlags
  refine ⟨fun k call' hk => ?_, fun d' i' entry' hin' => ?_, fun d' i' entry' hin' => ?_,
    fun d₁ i₁ entry₁ d₂ i₂ entry₂ h₁ h₂ => ?_, ?_⟩
  · have hacc := h.returns k call' hk
    unfold State.Accounted at hacc ⊢
    rw [h.finish_stored hin]
    unfold State.answered at hacc ⊢
    rw [hprocessed, filter_append]
    by_cases hke : k = entry.call
    · subst hke
      obtain rfl : call = call' := some.inj (hcall.symm.trans hk)
      have hnone : call.eError = .OMX_ErrorNone := (failed_eq_false_iff s entry hcall).mp hok
      rw [if_pos hnone] at hacc ⊢
      have hempty : s.processed.filter (·.call = entry.call) = [] :=
        hacc.elim And.right fun hgone => absurd ⟨d, i, entry, hin, rfl⟩ hgone.1
      refine .inr ⟨fun hstored => hstored.2 rfl, p, ?_, hpbuffer.trans hbuffer,
        hpauxInfo.trans hauxInfo, hpusrArg.trans husrArg⟩
      rw [hempty, nil_append]
      exact filter_cons_of_pos (decide_eq_true hp)
    · have hother : [p].filter (·.call = k) = [] := by
        simpa [hp] using Ne.symm hke
      rw [hother, append_nil]
      simpa only [ne_eq, hke, not_false_eq_true, and_true] using hacc
  · exact h.entry d' i' entry' (finish_stored_of hin').1
  · exact h.slot d' i' entry' (finish_stored_of hin').1
  · exact h.distinct d₁ i₁ entry₁ d₂ i₂ entry₂ (finish_stored_of h₁).1 (finish_stored_of h₂).1
  · intro q hq
    rw [hprocessed] at hq
    rcases mem_append.mp hq with hq | hq
    · exact h.known q hq
    · rw [mem_singleton.mp hq, hp]
      exact (List.getElem?_eq_some_iff.mp hcall).1

/-- A call that returned an error was answered. -/
def State.Wrong (s : State) : Prop :=
  ∃ p ∈ s.processed, ∃ call, s.calls[p.call]? = some call ∧ call.eError ≠ .OMX_ErrorNone

theorem State.Wrong.not_returns (h : s.Wrong) : ¬s.Returns := by
  obtain ⟨p, hp, call, hcall, herror⟩ := h
  intro hreturns
  have hacc := hreturns p.call call hcall
  unfold State.Accounted at hacc
  rw [if_neg herror] at hacc
  have hmem : p ∈ s.answered p.call := mem_filter.mpr ⟨hp, decide_eq_true rfl⟩
  rw [hacc] at hmem
  exact not_mem_nil hmem

theorem State.Wrong.mono (h : s.Wrong) (hcalls : t.calls = s.calls)
    (hprocessed : s.processed ⊆ t.processed) : t.Wrong := by
  obtain ⟨p, hp, call, hcall, herror⟩ := h
  exact ⟨p, hprocessed hp, call, hcalls ▸ hcall, herror⟩

/-- The answer to a call that returned an error. -/
theorem State.Orderly.finish_wrong (h : s.Orderly) (hin : (s.storage d).Armstorage i = some entry)
    (hfailed : s.failed entry) : (s.finish d i entry bufType iBufSizeUsed nFlags).Wrong := by
  obtain ⟨call, hcall, -⟩ := h.entry d i entry hin
  obtain ⟨p, hp, -, -, -, hprocessed⟩ := finish_processed s d i entry bufType iBufSizeUsed nFlags
  refine ⟨p, ?_, call, hp ▸ hcall, fun hnone => ?_⟩
  · rw [hprocessed]
    exact mem_append_right _ (mem_singleton_self p)
  · rw [(failed_eq_false_iff s entry hcall).mpr hnone] at hfailed
    cases hfailed

end Finish

/-! ## Stops and flushes -/

/-- A slot that is drained, when it holds a structure of the stream. -/
theorem drain_eq (hin : (s.storage d).Armstorage i = some entry)
    (honly : only.all (· = entry.iStreamID)) :
    ∃ bufType iBufSizeUsed, s.drain only d i = s.finish d i entry bufType iBufSizeUsed 0 := by
  unfold State.drain
  rw [hin]
  dsimp only
  rw [if_pos honly]
  cases d with
  | input => exact ⟨_, _, rfl⟩
  | output => exact ⟨_, _, rfl⟩

/-- The other slots stay. -/
theorem drain_same (h : ∀ entry, (s.storage d).Armstorage i = some entry →
    only.all (· = entry.iStreamID) = false) : s.drain only d i = s := by
  unfold State.drain
  cases hin : (s.storage d).Armstorage i with
  | none => rfl
  | some entry =>
    dsimp only
    rw [if_neg]
    rw [h entry hin]
    exact Bool.false_ne_true

theorem drain_cases (s : State) (only : Option Nat) (d : Direction) (i : Nat) :
    s.drain only d i = s ∨ ∃ entry bufType iBufSizeUsed, (s.storage d).Armstorage i = some entry ∧
      only.all (· = entry.iStreamID) ∧
      s.drain only d i = s.finish d i entry bufType iBufSizeUsed 0 := by
  cases hin : (s.storage d).Armstorage i with
  | none => exact .inl (drain_same fun entry hentry => nomatch hin.symm.trans hentry)
  | some entry =>
    by_cases honly : only.all (· = entry.iStreamID)
    · obtain ⟨bufType, iBufSizeUsed, heq⟩ := drain_eq hin honly
      exact .inr ⟨entry, bufType, iBufSizeUsed, rfl, honly, heq⟩
    · refine .inl (drain_same fun entry' hentry' => ?_)
      obtain rfl := some.inj (hin.symm.trans hentry')
      exact eq_false_of_ne_true honly

/-- The slots in a list, each with its direction, are drained. -/
def State.drainAll (s : State) (only : Option Nat) (slots : List (Direction × Nat)) : State :=
  slots.foldl (fun t slot => t.drain only slot.1 slot.2) s

/-- A drained slot holds nothing of a failed call. -/
def State.CleanAt (s : State) (only : Option Nat) (slot : Direction × Nat) : Prop :=
  ∀ entry, (s.storage slot.1).Armstorage slot.2 = some entry →
    only.all (· = entry.iStreamID) → s.failed entry = false

theorem CleanAt.drain {slot : Direction × Nat} (h : s.CleanAt only slot)
    (d : Direction) (i : Nat) : (s.drain only d i).CleanAt only slot := by
  rcases drain_cases s only d i with heq | ⟨entry, bufType, iBufSizeUsed, -, -, heq⟩
  · rw [heq]
    exact h
  · rw [heq]
    exact fun entry' hin' honly => h entry' (finish_stored_of hin').1 honly

theorem State.Orderly.drain (h : s.Orderly) (hclean : s.CleanAt only (d, i)) :
    (s.drain only d i).Orderly := by
  rcases drain_cases s only d i with heq | ⟨entry, bufType, iBufSizeUsed, hin, honly, heq⟩
  · rw [heq]
    exact h
  · rw [heq]
    exact h.finish hin (hclean entry hin honly)

theorem State.Orderly.drainAll (h : s.Orderly) (hclean : ∀ slot ∈ slots, s.CleanAt only slot) :
    (s.drainAll only slots).Orderly := by
  induction slots generalizing s with
  | nil => exact h
  | cons slot slots ih =>
    refine ih (h.drain (hclean slot mem_cons_self)) fun other hother => ?_
    exact CleanAt.drain (hclean other (mem_cons_of_mem slot hother)) slot.1 slot.2

theorem Wrong.drainAll (h : s.Wrong) :
    (s.drainAll only slots).Wrong := by
  induction slots generalizing s with
  | nil => exact h
  | cons slot slots ih =>
    refine ih ?_
    show (s.drain only slot.1 slot.2).Wrong
    rcases drain_cases s only slot.1 slot.2 with heq | ⟨entry, bufType, iBufSizeUsed, -, -, heq⟩
    · rw [heq]
      exact h
    · rw [heq]
      exact h.mono rfl (subset_append_left ..)

/-- Whatever comes before it, a structure of a failed call is answered when its slot is drained. -/
theorem State.Orderly.drainAll_wrong
    (h : s.Orderly) (hslot : (d, i) ∈ slots) (hin : (s.storage d).Armstorage i = some entry)
    (honly : only.all (· = entry.iStreamID)) (hfailed : s.failed entry) :
    (s.drainAll only slots).Wrong := by
  induction slots generalizing s with
  | nil => cases hslot
  | cons slot slots ih =>
    show ((s.drain only slot.1 slot.2).drainAll only slots).Wrong
    by_cases hfirst : slot = (d, i)
    · subst hfirst
      obtain ⟨bufType, iBufSizeUsed, heq⟩ := drain_eq hin honly
      rw [heq]
      exact Wrong.drainAll (h.finish_wrong hin hfailed)
    · have hrest := (mem_cons.mp hslot).resolve_left (Ne.symm hfirst)
      rcases drain_cases s only slot.1 slot.2 with heq |
        ⟨entry', bufType, iBufSizeUsed, hin', -, heq⟩
      · rw [heq]
        exact ih h hrest hin hfailed
      · rw [heq]
        by_cases hok : s.failed entry' = false
        · refine ih (h.finish hin' hok) hrest ?_ hfailed
          rw [finish_Armstorage, if_neg]
          · exact hin
          · rintro ⟨rfl, rfl⟩
            exact hfirst rfl
        · exact Wrong.drainAll (h.finish_wrong hin' (eq_true_of_ne_false hok))

/-- The loop of a stop goes through all slots of both directions. -/
theorem stop_eq (s : State) (hdevice : s.TypeofDevice = 0) :
    s.stop = s.drainAll none ((List.range QUEUE_SIZE).flatMap fun j =>
      [(.input, ((s.storage .input).iBufcount + j) % QUEUE_SIZE),
        (.output, ((s.storage .output).iBufcount + j) % QUEUE_SIZE)]) := by
  unfold State.stop State.drainAll
  rw [if_pos hdevice, foldl_flatMap]
  rfl

theorem flush_eq (s : State) (d : Direction) (only : Option Nat) :
    s.flush d only = s.drainAll only ((s.storage d).slots.map fun i => (d, i)) := by
  unfold State.flush State.drainAll
  rw [foldl_map]

/-- The loops go through every slot. -/
theorem exists_turn (start : Nat) (hi : i < QUEUE_SIZE) :
    ∃ j < QUEUE_SIZE, (start + j) % QUEUE_SIZE = i := by
  unfold QUEUE_SIZE at hi ⊢
  refine ⟨(i + 20 - start % 20) % 20, mod_lt _ (by decide), ?_⟩
  omega

theorem mem_slots (storage : Storage) : i ∈ storage.slots ↔ i < QUEUE_SIZE := by
  unfold Storage.slots
  rw [List.mem_map]
  constructor
  · rintro ⟨j, -, rfl⟩
    exact mod_lt _ (by decide)
  · intro hi
    obtain ⟨j, hj, heq⟩ := exists_turn storage.iBufcount hi
    exact ⟨j, mem_range.mpr hj, heq⟩

/-- The buffers are in order after the step if `ok`, and otherwise one is not accounted for. -/
def Settles (ok : Prop) (t : State) : Prop := (ok ∧ t.Orderly) ∨ (¬ok ∧ ¬t.Returns)

theorem State.Orderly.drainAll_settles (h : s.Orderly) {ok : Prop}
    (hok : ok ↔ ∀ slot ∈ slots, s.CleanAt only slot) :
    Settles ok (s.drainAll only slots) := by
  by_cases hclean : ∀ slot ∈ slots, s.CleanAt only slot
  · exact .inl ⟨hok.mpr hclean, h.drainAll hclean⟩
  · refine .inr ⟨fun hyes => hclean (hok.mp hyes), ?_⟩
    push Not at hclean
    obtain ⟨⟨d, i⟩, hslot, hdirty⟩ := hclean
    unfold State.CleanAt at hdirty
    push Not at hdirty
    obtain ⟨entry, hin, honly, hfailed⟩ := hdirty
    exact (h.drainAll_wrong hslot hin honly (eq_true_of_ne_false hfailed)).not_returns

theorem State.Orderly.flush (h : s.Orderly) (d : Direction) (only : Option Nat) :
    Settles (s.Clean d only) (s.flush d only) := by
  rw [flush_eq]
  refine h.drainAll_settles ?_
  simp only [List.forall_mem_map, mem_slots]
  exact Iff.rfl

theorem State.Orderly.stop (h : s.Orderly) :
    Settles (s.TypeofDevice = 0 → ∀ d, s.Clean d none) s.stop := by
  by_cases hdevice : s.TypeofDevice = 0
  · rw [stop_eq s hdevice]
    refine h.drainAll_settles ?_
    constructor
    · rintro hclean ⟨d, i⟩ hslot entry hin
      exact hclean hdevice d i (h.slot d i entry hin) entry hin
    · intro hclean _ d i hi entry hin
      obtain ⟨j, hj, rfl⟩ := exists_turn (s.storage d).iBufcount hi
      refine hclean (d, _) (mem_flatMap.mpr ⟨j, mem_range.mpr hj, ?_⟩) entry hin
      cases d with
      | input => exact mem_cons_self
      | output => exact mem_cons_of_mem _ mem_cons_self
  · unfold State.stop
    rw [if_neg hdevice]
    exact .inl ⟨fun h0 => absurd h0 hdevice, h⟩

/-! ## Queueing -/

section Queue

variable {q : Queueing} {r : OMX_ERRORTYPE × Queueing}

/-- The structure carries the arguments of the call. -/
def TArmDspCommunicationStruct.ArmSide (entry : TArmDspCommunicationStruct) (args : QueueArgs)
    (k : Nat) : Prop :=
  entry.iArmbufferArg = args.buffer ∧ entry.iArmParamArg = args.auxInfo ∧
    entry.iUsrArg = args.usrArg ∧ entry.call = k

theorem andThen_armSide {next : Queueing → OMX_ERRORTYPE × Queueing}
    (h : r.2.commStruct.ArmSide args k)
    (hnext : ∀ q : Queueing, q.commStruct.ArmSide args k → (next q).2.commStruct.ArmSide args k) :
    (andThen r next).2.commStruct.ArmSide args k := by
  unfold andThen
  split
  · exact hnext r.2 h
  · exact h

theorem map_armSide (h : q.commStruct.ArmSide args k) (use : Use) (size : Nat) (pArmPtr : Ptr)
    (answer : MapAnswer) : (q.map use size pArmPtr answer).2.commStruct.ArmSide args k := h

theorem mapNew_armSide (h : q.commStruct.ArmSide args k) (answer : MapAnswer) :
    (q.mapNew args answer).2.commStruct.ArmSide args k := by
  unfold Queueing.mapNew
  dsimp only
  split
  all_goals split
  all_goals first
    | exact h
    | split <;> exact h

theorem mapOnce_armSide (h : q.commStruct.ArmSide args k) (answer : MapAnswer) :
    (q.mapOnce args answer).2.commStruct.ArmSide args k := by
  unfold Queueing.mapOnce
  refine andThen_armSide (map_armSide ?_ ..) fun q hq => hq
  split <;> exact h

theorem mapAgain_armSide (h : q.commStruct.ArmSide args k) (i : Nat) (fails : Bool) :
    (q.mapAgain i fails).2.commStruct.ArmSide args k := by
  unfold Queueing.mapAgain
  split <;> exact h

theorem mapBuffer_armSide (h : q.commStruct.ArmSide args k)
    (hr : s.mapBuffer args answers q = some r) : r.2.commStruct.ArmSide args k := by
  unfold State.mapBuffer at hr
  split at hr
  · split at hr
    · obtain ⟨found, -, rfl⟩ := map_eq_some_iff.mp hr
      cases found with
      | none => exact mapNew_armSide h answers.buffer
      | some i => exact mapAgain_armSide h i _
    · cases hr
      exact mapOnce_armSide h answers.buffer
  · cases hr
    exact h

theorem mapParameter_armSide (h : q.commStruct.ArmSide args k) (answer : MapAnswer) :
    (q.mapParameter args answer).2.commStruct.ArmSide args k := by
  unfold Queueing.mapParameter
  split
  · exact andThen_armSide (map_armSide h ..) fun q hq => hq
  · exact h

/-- Whatever fails, the structure in the slot carries the arguments of the call. -/
theorem fill_armSide (hr : s.fill args answers = some r) :
    r.2.commStruct.ArmSide args s.calls.length := by
  obtain ⟨r₀, hr₀, rfl⟩ := map_eq_some_iff.mp hr
  have hnew : (s.queueing args).commStruct.ArmSide args s.calls.length := ⟨rfl, rfl, rfl, rfl⟩
  refine andThen_armSide (andThen_armSide (andThen_armSide (mapBuffer_armSide hnew hr₀) ?_) ?_) ?_
  · exact fun q hq => mapParameter_armSide hq answers.parameter
  · exact fun q hq => map_armSide hq ..
  · intro q hq
    unfold Queueing.send
    split <;> exact hq

theorem fill_eq_none_iff (s : State) (args : QueueArgs) (answers : QueueAnswers) :
    s.fill args answers = none ↔ ¬s.Within args := by
  unfold State.fill State.mapBuffer State.Within
  rw [map_eq_none_iff]
  by_cases hbuffer : args.hasBuffer
  · rw [if_pos hbuffer]
    by_cases hreuse : s.ReUseMap || mapReuse args.bufType
    · rw [if_pos hreuse, map_eq_none_iff]
      simp [hbuffer, hreuse, State.queueing]
    · rw [if_neg hreuse]
      simp [hbuffer, hreuse]
  · rw [if_neg hbuffer]
    simp [hbuffer]

/-- The slot that a call takes. -/
theorem queued_Armstorage (s : State) (args : QueueArgs) (r : OMX_ERRORTYPE × Queueing)
    (d : Direction) (i : Nat) :
    ((s.queued args r).storage d).Armstorage i =
      if d = directionOf (streamOf args.bufType) ∧ i = (s.storage d).slot then some r.2.commStruct
      else (s.storage d).Armstorage i := by
  unfold State.queued
  dsimp only
  by_cases hd : d = directionOf (streamOf args.bufType)
  · subst hd
    rw [update_self]
    show update _ _ _ i = _
    rw [update_apply]
    simp only [true_and]
  · rw [update_of_ne hd, if_neg fun h => hd h.1]

theorem queued_calls (s : State) (args : QueueArgs) (r : OMX_ERRORTYPE × Queueing) :
    (s.queued args r).calls = s.calls ++ [⟨args.buffer, args.auxInfo, args.usrArg, r.1⟩] := rfl

theorem queued_answered (s : State) (args : QueueArgs) (r : OMX_ERRORTYPE × Queueing) (k : Nat) :
    (s.queued args r).answered k = s.answered k := rfl

/-- A structure that is stored after a call is new, or was stored before in another slot. -/
theorem queued_stored_of {args : QueueArgs} {r : OMX_ERRORTYPE × Queueing}
    (h : ((s.queued args r).storage d).Armstorage i = some entry) :
    (entry = r.2.commStruct ∧ d = directionOf (streamOf args.bufType) ∧ i = (s.storage d).slot) ∨
      ((s.storage d).Armstorage i = some entry ∧
        ¬(d = directionOf (streamOf args.bufType) ∧ i = (s.storage d).slot)) := by
  rw [queued_Armstorage] at h
  split at h
  · rename_i hslot
    exact .inl ⟨(some.inj h).symm, hslot⟩
  · rename_i hslot
    exact .inr ⟨h, hslot⟩

theorem State.Orderly.call_lt (h : s.Orderly) (hin : (s.storage d).Armstorage i = some entry) :
    entry.call < s.calls.length := by
  obtain ⟨call, hcall, -⟩ := h.entry d i entry hin
  exact (List.getElem?_eq_some_iff.mp hcall).1

theorem State.Orderly.answered_new (h : s.Orderly) : s.answered s.calls.length = [] := by
  refine filter_eq_nil_iff.mpr fun p hp heq => ?_
  have hlt := h.known p hp
  rw [of_decide_eq_true heq] at hlt
  exact Nat.lt_irrefl _ hlt

/-- A call that takes a slot with nothing to lose. -/
theorem State.Orderly.queued (h : s.Orderly) (hentry : r.2.commStruct.ArmSide args s.calls.length)
    (hslot : ∀ entry, (s.storage (directionOf (streamOf args.bufType))).Armstorage
      (s.storage (directionOf (streamOf args.bufType))).slot = some entry → s.failed entry) :
    (s.queued args r).Orderly := by
  obtain ⟨hbuffer, hauxInfo, husrArg, hcall⟩ := hentry
  have hcalls : ∀ {k : Nat}, k < s.calls.length → (s.queued args r).calls[k]? = s.calls[k]? :=
    fun hk => by rw [queued_calls, getElem?_append_left hk]
  have hnew : (s.queued args r).calls[s.calls.length]? =
      some ⟨args.buffer, args.auxInfo, args.usrArg, r.1⟩ := by
    rw [queued_calls, getElem?_append_right (Nat.le_refl _), Nat.sub_self]
    rfl
  refine ⟨fun k call hk => ?_, fun d i entry hin => ?_, fun d i entry hin => ?_,
    fun d₁ i₁ entry₁ d₂ i₂ entry₂ h₁ h₂ heq => ?_, fun p hp => ?_⟩
  · rcases Nat.lt_trichotomy k s.calls.length with hlt | rfl | hgt
    · rw [hcalls hlt] at hk
      have hacc := h.returns k call hk
      unfold State.Accounted at hacc ⊢
      rw [queued_answered]
      by_cases hok : call.eError = .OMX_ErrorNone
      · rw [if_pos hok] at hacc ⊢
        have hstored : (s.queued args r).Stored k ↔ s.Stored k := by
          constructor
          · rintro ⟨d, i, entry, hin, rfl⟩
            rcases queued_stored_of hin with ⟨rfl, -⟩ | ⟨hold, -⟩
            · exact absurd hcall (Nat.ne_of_lt hlt)
            · exact ⟨d, i, entry, hold, rfl⟩
          · rintro ⟨d, i, entry, hin, rfl⟩
            refine ⟨d, i, entry, ?_, rfl⟩
            rw [queued_Armstorage, if_neg]
            · exact hin
            · rintro ⟨rfl, rfl⟩
              have hfailed := hslot entry hin
              rw [(failed_eq_false_iff s entry hk).mpr hok] at hfailed
              cases hfailed
        rw [hstored]
        exact hacc
      · rw [if_neg hok] at hacc ⊢
        exact hacc
    · obtain rfl := some.inj (hnew.symm.trans hk)
      unfold State.Accounted
      rw [queued_answered, h.answered_new]
      split
      · refine .inl ⟨⟨directionOf (streamOf args.bufType),
          (s.storage (directionOf (streamOf args.bufType))).slot, r.2.commStruct, ?_, hcall⟩, rfl⟩
        exact (queued_Armstorage s args r _ _).trans (if_pos ⟨rfl, rfl⟩)
      · rfl
    · rw [getElem?_eq_none] at hk
      · cases hk
      · rw [queued_calls, length_append, length_singleton]
        exact hgt
  · rcases queued_stored_of hin with ⟨rfl, -, -⟩ | ⟨hold, -⟩
    · exact ⟨_, hcall ▸ hnew, hbuffer, hauxInfo, husrArg⟩
    · rw [hcalls (h.call_lt hold)]
      exact h.entry d i entry hold
  · rcases queued_stored_of hin with ⟨-, -, rfl⟩ | ⟨hold, -⟩
    · exact mod_lt _ (by decide)
    · exact h.slot d i entry hold
  · rcases queued_stored_of h₁ with ⟨rfl, hd₁, hi₁⟩ | ⟨hold₁, -⟩ <;>
      rcases queued_stored_of h₂ with ⟨rfl, hd₂, hi₂⟩ | ⟨hold₂, -⟩
    · refine ⟨hd₁.trans hd₂.symm, ?_⟩
      rw [hi₁, hi₂, hd₁, hd₂]
    · exact absurd (heq.symm.trans hcall) (Nat.ne_of_lt (h.call_lt hold₂))
    · exact absurd (heq.trans hcall) (Nat.ne_of_lt (h.call_lt hold₁))
    · exact h.distinct d₁ i₁ entry₁ d₂ i₂ entry₂ hold₁ hold₂ heq
  · rw [queued_calls, length_append, length_singleton]
    exact lt_succ_of_lt (h.known p hp)

/-- A call that takes the slot of a structure that is still to be answered. -/
theorem State.Orderly.queued_lost (h : s.Orderly)
    (hentry : r.2.commStruct.ArmSide args s.calls.length)
    (hin : (s.storage (directionOf (streamOf args.bufType))).Armstorage
      (s.storage (directionOf (streamOf args.bufType))).slot = some entry)
    (hok : s.failed entry = false) : ¬(s.queued args r).Returns := by
  intro hreturns
  obtain ⟨call, hcall, -⟩ := h.entry _ _ entry hin
  have hnone := (failed_eq_false_iff s entry hcall).mp hok
  have hlt := h.call_lt hin
  have hbefore := h.returns entry.call call hcall
  have hafter := hreturns entry.call call (by
    rw [queued_calls, getElem?_append_left hlt]
    exact hcall)
  unfold State.Accounted at hbefore hafter
  rw [if_pos hnone] at hbefore hafter
  have hempty : s.answered entry.call = [] :=
    hbefore.elim And.right fun hgone => absurd ⟨_, _, entry, hin, rfl⟩ hgone.1
  rcases hafter with ⟨⟨d, i, entry', hin', hsame⟩, -⟩ | ⟨-, p, hp, -⟩
  · rcases queued_stored_of hin' with ⟨rfl, -⟩ | ⟨hold, hne⟩
    · exact Nat.ne_of_lt hlt (hsame.symm.trans hentry.2.2.2)
    · obtain ⟨rfl, rfl⟩ := h.distinct d i entry' _ _ entry hold hin hsame
      exact hne ⟨rfl, rfl⟩
  · rw [queued_answered, hempty] at hp
    cases hp

end Queue

/-! ## Steps -/

theorem Settles.of_iff {ok ok' : Prop} (h : Settles ok t) (hiff : ok' ↔ ok) : Settles ok' t :=
  h.imp (fun hyes => ⟨hiff.mpr hyes.1, hyes.2⟩) fun hno => ⟨fun hok => hno.1 (hiff.mp hok), hno.2⟩

theorem Settles.same {ok : Prop} {u : State} (h : Settles ok t) (hsame : t.SameBuffers u) :
    Settles ok u := by
  refine h.imp (fun hyes => ⟨hyes.1, hsame.orderly hyes.2⟩) fun hno => ⟨hno.1, fun hu => hno.2 ?_⟩
  exact State.SameBuffers.returns
    ⟨fun d => (hsame.storage d).symm, hsame.calls.symm, hsame.processed.symm⟩ hu

theorem State.Orderly.bufferFree (h : s.Orderly) (streamId : Nat) (dwArg1 : Ptr)
    (iBufSizeUsed : Nat) :
    Settles (∀ i entry, (s.storage (directionOf streamId)).find dwArg1 = some i →
        (s.storage (directionOf streamId)).Armstorage i = some entry → s.failed entry = false)
      (s.bufferFree streamId dwArg1 iBufSizeUsed) := by
  unfold State.bufferFree
  dsimp only
  split
  · rename_i hnone
    exact .inl ⟨fun i entry hi => absurd (hnone.symm.trans hi) nofun, h⟩
  · rename_i i hfind
    split
    · rename_i hnone
      refine .inl ⟨fun i' entry hi' hin => ?_, h⟩
      obtain rfl := some.inj (hfind.symm.trans hi')
      cases hnone.symm.trans hin
    · rename_i entry hin
      by_cases hok : s.failed entry = false
      · refine .inl ⟨fun i' entry' hi' hin' => ?_, h.finish hin hok⟩
        obtain rfl := some.inj (hfind.symm.trans hi')
        obtain rfl := some.inj (hin.symm.trans hin')
        exact hok
      · exact .inr ⟨fun hall => hok (hall i entry hfind hin),
          (h.finish_wrong hin (eq_true_of_ne_false hok)).not_returns⟩

theorem State.Orderly.streamAck (h : s.Orderly) (streamId : Nat) (ok : Bool) (dwArg2 : Ptr) :
    Settles (s.flush_pending streamId → streamId < 4 → ok →
        s.Clean (directionOf streamId) (drained streamId)) (s.streamAck streamId ok dwArg2) := by
  have hacknowledged : ∀ t : State, t.SameBuffers (t.acknowledge .Strmcntl dwArg2) :=
    fun t => ⟨fun _ => rfl, rfl, rfl⟩
  unfold State.streamAck
  by_cases hflush : s.flush_pending streamId ∧ streamId < 4 ∧ ok
  · rw [if_pos hflush]
    have hiff : (s.flush_pending streamId → streamId < 4 → ok →
        s.Clean (directionOf streamId) (drained streamId)) ↔
        s.Clean (directionOf streamId) (drained streamId) :=
      ⟨fun hall => hall hflush.1 hflush.2.1 hflush.2.2, fun hclean _ _ _ => hclean⟩
    have hcleared : ∀ j, (s.clearPending j).Orderly := fun j =>
      h.same (fun _ => rfl) rfl rfl
    match streamId, hflush.2.1, hiff with
    | 0, _, hiff =>
      exact (((hcleared 0).flush .input none).of_iff hiff).same (hacknowledged _)
    | 1, _, hiff =>
      exact (((hcleared 1).flush .output none).of_iff hiff).same (hacknowledged _)
    | 2, _, hiff => exact ((hcleared 0).flush .input (some 2)).of_iff hiff
    | 3, _, hiff => exact ((hcleared 1).flush .output (some 3)).of_iff hiff
  · rw [if_neg hflush]
    exact .inl ⟨fun h₁ h₂ h₃ => absurd ⟨h₁, h₂, h₃⟩ hflush, (hacknowledged s).orderly h⟩

/-- A call of `QueueBuffer` that is refused before it takes a slot. -/
theorem State.Orderly.refused (h : s.Orderly) {call : Call}
    (herror : call.eError ≠ .OMX_ErrorNone) :
    { s with calls := s.calls ++ [call] }.Orderly := by
  have hcalls : ∀ {k : Nat}, k < s.calls.length → (s.calls ++ [call])[k]? = s.calls[k]? :=
    fun hk => getElem?_append_left hk
  refine ⟨fun k call' hk => ?_, fun d i entry hin => ?_, h.slot, h.distinct, fun p hp => ?_⟩
  · have hk : (s.calls ++ [call])[k]? = some call' := hk
    rcases Nat.lt_trichotomy k s.calls.length with hlt | rfl | hgt
    · rw [hcalls hlt] at hk
      exact h.returns k call' hk
    · rw [getElem?_append_right (Nat.le_refl _), Nat.sub_self] at hk
      obtain rfl := some.inj hk
      unfold State.Accounted
      rw [if_neg herror]
      exact h.answered_new
    · rw [getElem?_eq_none] at hk
      · cases hk
      · rw [length_append, length_singleton]
        exact hgt
  · show ∃ call', (s.calls ++ [call])[entry.call]? = some call' ∧ _
    rw [hcalls (h.call_lt hin)]
    exact h.entry d i entry hin
  · show p.call < (s.calls ++ [call]).length
    rw [length_append, length_singleton]
    exact lt_succ_of_lt (h.known p hp)

theorem State.Orderly.queueBuffer (h : s.Orderly) (args : QueueArgs) (answers : QueueAnswers) :
    (s.Careful (.QueueBuffer args answers) ∧ ∃ t, QueueBuffer s args answers = some t ∧ t.Orderly) ∨
      (¬s.Careful (.QueueBuffer args answers) ∧
        ∀ t, QueueBuffer s args answers = some t → ¬t.Returns) := by
  unfold QueueBuffer State.Careful
  by_cases hlocked : s.locked
  · rw [if_pos hlocked]
    exact .inr ⟨fun hsafe => Bool.noConfusion (hlocked.symm.trans hsafe.1), nofun⟩
  rw [if_neg hlocked]
  have hunlocked : s.locked = false := eq_false_of_ne_true hlocked
  by_cases hmemalign : answers.memalign = 0
  · rw [if_pos hmemalign]
    exact .inl ⟨⟨hunlocked, fun hne => absurd hmemalign hne⟩, _, rfl, h.refused fun heq =>
      nomatch heq⟩
  rw [if_neg hmemalign]
  cases hfill : s.fill args answers with
  | none =>
    refine .inr ⟨fun hsafe => ?_, nofun⟩
    exact (fill_eq_none_iff s args answers).mp hfill (hsafe.2 hmemalign).1
  | some r =>
    have hwithin : s.Within args := by
      by_contra hnot
      cases hfill.symm.trans ((fill_eq_none_iff s args answers).mpr hnot)
    have hentry := fill_armSide hfill
    by_cases hslot : ∀ entry, (s.storage (directionOf (streamOf args.bufType))).Armstorage
        (s.storage (directionOf (streamOf args.bufType))).slot = some entry → s.failed entry
    · exact .inl ⟨⟨hunlocked, fun _ => ⟨hwithin, hslot⟩⟩, _, rfl, h.queued hentry hslot⟩
    · refine .inr ⟨fun hsafe => hslot (hsafe.2 hmemalign).2, fun t ht => ?_⟩
      cases ht
      push Not at hslot
      obtain ⟨entry, hin, hok⟩ := hslot
      exact h.queued_lost hentry hin (eq_false_of_ne_true hok)

/-- A step that takes the mutex. -/
theorem guarded_settles {next : Option State} {ok : Prop}
    (hstep : s.step event = s.guarded next) (hcareful : s.Careful event ↔ s.locked = false ∧ ok)
    (hnext : (ok ∧ ∃ t, next = some t ∧ t.Orderly) ∨ (¬ok ∧ ∀ t, next = some t → ¬t.Returns)) :
    (s.Careful event ∧ ∃ t, s.step event = some t ∧ t.Orderly) ∨
      (¬s.Careful event ∧ ∀ t, s.step event = some t → ¬t.Returns) := by
  rw [hcareful, hstep]
  unfold State.guarded
  cases s.locked with
  | true => exact .inr ⟨fun hsafe => Bool.noConfusion hsafe.1, nofun⟩
  | false =>
    exact hnext.imp (fun hyes => ⟨⟨rfl, hyes.1⟩, hyes.2⟩) fun hno =>
      ⟨fun hsafe => hno.1 hsafe.2, hno.2⟩

theorem Settles.some {ok : Prop} (h : Settles ok t) :
    (ok ∧ ∃ u, some t = some u ∧ u.Orderly) ∨ (¬ok ∧ ∀ u, some t = some u → ¬u.Returns) := by
  refine h.imp (fun hyes => ⟨hyes.1, t, rfl, hyes.2⟩) fun hno => ⟨hno.1, fun u hu => ?_⟩
  cases hu
  exact hno.2

/-- A step in an orderly state: with care it is orderly again, otherwise it has no result or a
buffer is not accounted for. -/
theorem State.Orderly.step (h : s.Orderly) (event : Event) :
    (s.Careful event ∧ ∃ t, s.step event = some t ∧ t.Orderly) ∨
      (¬s.Careful event ∧ ∀ t, s.step event = some t → ¬t.Returns) := by
  have hgiven : (s.givesBack event).Orderly := h.same (fun _ => rfl) rfl rfl
  cases event with
  | QueueBuffer args answers => exact h.queueBuffer args answers
  | BUFF_FREE streamId dwArg1 iBufSizeUsed =>
    exact guarded_settles rfl Iff.rfl (hgiven.bufferFree streamId dwArg1 iBufSizeUsed).some
  | STOP => exact guarded_settles rfl Iff.rfl hgiven.stop.some
  | STRMCTRL streamId ok dwArg2 flushed =>
    exact guarded_settles rfl Iff.rfl (hgiven.streamAck streamId ok dwArg2).some
  | ALGCTRL dwArg2 =>
    refine guarded_settles rfl (iff_of_eq (and_true _)).symm (.inl ⟨trivial, _, rfl, ?_⟩)
    exact h.same (fun _ => rfl) rfl rfl
  | controlAlgCtrl pArmPtr size answers =>
    refine guarded_settles rfl (iff_of_eq (and_true _)).symm (.inl ⟨trivial, _, rfl, ?_⟩)
    unfold State.algCtrl
    split
    · exact h.same (fun _ => rfl) rfl rfl
    · exact h.same (fun _ => rfl) rfl rfl
  | controlStrmCtrl pArmPtr size answers =>
    refine guarded_settles rfl Iff.rfl ?_
    unfold State.strmCtrl
    cases (s.controls .Strmcntl).free with
    | none => exact .inr ⟨fun hne => hne rfl, nofun⟩
    | some i =>
      exact .inl ⟨some_ne_none i, _, rfl, h.same (fun _ => rfl) rfl rfl⟩
  | controlFlush streamId =>
    refine guarded_settles rfl Iff.rfl ?_
    by_cases hlt : streamId < 4
    · rw [if_pos hlt]
      exact .inl ⟨hlt, _, rfl, h.same (fun _ => rfl) rfl rfl⟩
    · rw [if_neg hlt]
      exact .inr ⟨hlt, nofun⟩
  | controlUsnEos =>
    exact .inl ⟨trivial, _, rfl, h.same (fun _ => rfl) rfl rfl⟩
  | other => exact .inl ⟨trivial, s, rfl, h⟩
  | destroy =>
    refine guarded_settles rfl Iff.rfl ?_
    unfold State.destroy
    by_cases hreuse : s.ReUseMap
    · rw [if_pos hreuse]
      by_cases hfull : MAX_DMM_BUFFERS ≤ s.mapped_buffer_count
      · rw [if_pos hfull]
        exact .inr ⟨fun hroom => absurd hfull (Nat.not_le.mpr (hroom hreuse)), nofun⟩
      · rw [if_neg hfull]
        exact .inl ⟨fun _ => Nat.not_le.mp hfull, _, rfl,
          h.same (fun _ => rfl) rfl rfl⟩
    · rw [if_neg hreuse]
      exact .inl ⟨fun hyes => absurd hyes hreuse, _, rfl,
        h.same (fun _ => rfl) rfl rfl⟩

theorem State.Orderly.careful_iff_keeps (h : s.Orderly) (event : Event) :
    s.Careful event ↔ s.Keeps event := by
  rcases h.step event with ⟨hsafe, t, hstep, ht⟩ | ⟨hcareless, hno⟩
  · exact iff_of_true hsafe ⟨t, hstep, ht.returns⟩
  · refine iff_of_false hcareless ?_
    rintro ⟨t, hstep, hreturns⟩
    exact hno t hstep hreturns

theorem State.Orderly.next (h : s.Orderly) (hkeeps : s.Keeps event)
    (hstep : s.step event = some t) : t.Orderly := by
  rcases h.step event with ⟨-, u, hu, horderly⟩ | ⟨hcareless, -⟩
  · exact some.inj (hstep.symm.trans hu) ▸ horderly
  · exact absurd ((h.careful_iff_keeps event).mpr hkeeps) hcareless

theorem State.Orderly.start (TypeofDevice TypeofRender : Int)
    (buf_invalidate_flag buf_flush_flag : Bool) :
    (State.start TypeofDevice TypeofRender buf_invalidate_flag buf_flush_flag).Orderly :=
  ⟨nofun, nofun, nofun, nofun, nofun⟩

/-- In every run of an instance each buffer is returned once, and none that was refused, if and
only if each step is made with care. -/
theorem buffers_return_iff (TypeofDevice TypeofRender : Int)
    (buf_invalidate_flag buf_flush_flag : Bool) (events : List Event)
    (halive : AlongSome State.step State.Alive
      (.start TypeofDevice TypeofRender buf_invalidate_flag buf_flush_flag) events) :
    AlongSome State.step State.Careful
        (.start TypeofDevice TypeofRender buf_invalidate_flag buf_flush_flag) events ↔
      AlongSome State.step State.Keeps
        (.start TypeofDevice TypeofRender buf_invalidate_flag buf_flush_flag) events :=
  AlongSome.congr_invariant halive
    (State.Orderly.start TypeofDevice TypeofRender buf_invalidate_flag buf_flush_flag)
    (fun _ event horderly _ => horderly.careful_iff_keeps event)
    fun _ _ _ horderly _ hkeeps hstep => horderly.next hkeeps hstep

theorem not_failed_of_calls (h : ∀ call ∈ s.calls, call.eError = .OMX_ErrorNone)
    (entry : TArmDspCommunicationStruct) : s.failed entry = false := by
  unfold State.failed
  rw [Option.any_eq_false]
  intro call hcall
  simpa using h call (mem_of_getElem? hcall)

/-- A buffer of eight bytes, with a parameter block of four. -/
def queueArgs (buffer : Ptr) : QueueArgs := ⟨EMMCodecInputBuffer, buffer, 8, 8, 5000, 4, buffer, 0⟩

/-- The bridge maps everything behind `base`. -/
def mapsAt (base : Ptr) : QueueAnswers :=
  ⟨9000, ⟨some base, some (base + 1)⟩, ⟨some (base + 2), some (base + 3)⟩,
    ⟨some (base + 4), some (base + 5)⟩, true, true⟩

/-- An input buffer is queued and comes back, and another is taken back at a stop. -/
theorem two_buffers_return : AlongSome State.step State.Keeps (.start 0 0 true true)
    [.QueueBuffer (queueArgs 100) (mapsAt 200), .BUFF_FREE 0 205 8,
      .QueueBuffer (queueArgs 100) (mapsAt 200), .STOP] := by
  refine (buffers_return_iff 0 0 true true _ ?_).mp ?_
  · refine .cons rfl rfl ?_
    refine .cons rfl rfl ?_
    refine .cons rfl rfl ?_
    exact ⟨rfl, fun _ _ => trivial⟩
  · refine .cons ⟨rfl, fun _ => ⟨nofun, nofun⟩⟩ rfl ?_
    refine .cons ⟨rfl, fun _ entry _ _ => not_failed_of_calls (by decide) entry⟩ rfl ?_
    refine .cons ⟨rfl, fun _ => ⟨nofun, nofun⟩⟩ rfl ?_
    refine ⟨⟨rfl, fun _ _ _ _ entry _ _ => not_failed_of_calls (by decide) entry⟩, fun _ _ =>
      trivial⟩

/-- The parameter block of a call cannot be mapped, and a stop returns the buffer. -/
theorem refused_buffer_returned :
    ¬∀ TypeofDevice TypeofRender buf_invalidate_flag buf_flush_flag events,
      AlongSome State.step State.Alive
          (.start TypeofDevice TypeofRender buf_invalidate_flag buf_flush_flag) events →
        AlongSome State.step State.Keeps
          (.start TypeofDevice TypeofRender buf_invalidate_flag buf_flush_flag) events := by
  intro hall
  have hkeeps := hall 0 0 true true
    [.QueueBuffer (queueArgs 100) { mapsAt 200 with parameter := ⟨none, none⟩ }, .STOP] ?_
  · obtain ⟨t, ht, hreturns⟩ := (hkeeps.2 _ rfl).1
    cases ht
    have hacc := hreturns 0 _ rfl
    unfold State.Accounted at hacc
    rw [if_neg (by decide)] at hacc
    exact absurd hacc (by decide)
  · refine .cons rfl rfl ?_
    exact ⟨rfl, fun _ _ => trivial⟩

end OmapHal.Lcml
