import OmapHal.Lcml.Queueing

/-!
# The mappings of the DSP balance

From `InitMMCodec` to `EMMCodecControlDestroy` each reservation is released once, by the pair of
addresses that it was made with, and nothing is released that the DSP still reaches. This needs
that `QueueBuffer` finds an empty slot and does not fail half way, that a flush gives back
everything that is drained, and that nothing is left when the instance is destroyed.
-/

namespace OmapHal.Lcml

open Function Option List

open OmapHal.Core (AlongSome Owns)

variable {s t : State} {event : Event} {dsp : Bridge} {holds : Owner → Option Reservation}

/-- The mappings are as they should be: nothing was released in another way than it was reserved,
what the DSP reaches is mapped, in reuse mode no buffer is mapped twice, and nothing is left in the
end. -/
structure State.Sound (s : State) : Prop where
  stray : s.dsp.stray = []
  reached : ∀ sent ∈ s.dsp.queued, ∀ r ∈ sent.uses, r ∈ s.dsp.ledger
  once : s.ReUseMap → ((s.dsp.ledger.filter (·.use = .buffer)).map (·.pArmPtr)).Nodup
  released : s.alive = false → s.dsp.ledger = []

def State.KeepsMappings (s : State) (event : Event) : Prop := ∃ t, s.step event = some t ∧ t.Sound

/-! ## The condition -/

/-- A control block is not left reserved and unmapped. -/
def ControlAnswers.Whole (answers : ControlAnswers) (pArmPtr : Ptr) : Prop :=
  answers.malloc → pArmPtr ≠ 0 → answers.map.reserve ≠ none → answers.map.map ≠ none

/-- The condition on each step. -/
def State.Thrifty (s : State) : Event → Prop
  | .QueueBuffer args answers =>
    s.locked = false ∧ (answers.memalign ≠ 0 → s.MapsWell args answers)
  | .BUFF_FREE _ _ _ | .STOP | .ALGCTRL _ => s.locked = false
  | .STRMCTRL streamId ok dwArg2 flushed =>
    s.locked = false ∧ (s.flush_pending streamId → streamId < 4 → ok →
      (s.givesBack (.STRMCTRL streamId ok dwArg2 flushed)).Released (drained streamId)
        (directionOf streamId))
  | .controlAlgCtrl pArmPtr _ answers =>
    s.locked = false ∧ ((s.controls .Algcntl).free ≠ none → answers.Whole pArmPtr)
  | .controlStrmCtrl pArmPtr _ answers =>
    s.locked = false ∧ (s.controls .Strmcntl).free ≠ none ∧ answers.Whole pArmPtr
  | .controlFlush streamId => s.locked = false ∧ streamId < 4
  | .controlUsnEos | .other => True
  | .destroy =>
    s.locked = false ∧ (s.ReUseMap → s.mapped_buffer_count < MAX_DMM_BUFFERS) ∧
      (∀ d i use, s.holds (.slot d i use) = none) ∧ ∀ kind i, s.holds (.control kind i) = none

/-! ## Control blocks and flushes -/

theorem Control.free_none {control : Control} {i : Nat} (hfree : control.free = some i) :
    control.pDmmBuf i = none := by
  unfold Control.free at hfree
  have hnone := find?_some hfree
  exact isNone_iff_eq_none.mp hnone

/-- A control block is sent from a free place. -/
theorem State.Balanced.send (h : s.Balanced) {kind : ControlKind} {i : Nat}
    (hfree : (s.controls kind).free = some i) {pArmPtr : Ptr} (size : Nat)
    {answers : ControlAnswers} (hwhole : answers.Whole pArmPtr) (hfresh : answers.map.Fresh s.dsp) :
    (s.setControl kind ((s.controls kind).send i pArmPtr size answers s.dsp).2).Balanced := by
  have hempty := Control.free_none hfree
  have hunmarked : (s.controls kind).mapped i = false := h.marked kind i hempty
  have hnone : s.holds (.control kind i) = none := Control.holds_none hempty
  -- a block that is not mapped only takes the place
  have hplace : ∀ place, (s.setControl kind (⟨update (s.controls kind).pDmmBuf i place,
      update (s.controls kind).mapped i false⟩, s.dsp)).Balanced := by
    intro place
    refine h.setPlace kind i place (fun _ => rfl) ?_ rfl
    have hheld : (place.bind fun pDmmBuf : DMM_BUFFER_OBJ => if false = true then
        some (⟨.control, pDmmBuf.pAllocated, some pDmmBuf.pMapped, pDmmBuf.pReserved⟩ : Reservation)
        else none) = none := by
      cases place <;> rfl
    rw [hheld, ← hnone, update_eq_self]
    exact h.genuine
  unfold Control.send
  cases hmalloc : answers.malloc with
  | false =>
    have hsame := hplace none
    rw [← hempty, ← hunmarked, update_eq_self, update_eq_self] at hsame
    exact hsame
  | true =>
    unfold DmmMap
    rw [Bool.not_true, if_neg Bool.false_ne_true]
    by_cases hnull : pArmPtr = 0
    · rw [if_pos hnull]
      dsimp only
      rw [if_neg (by decide), hunmarked]
      exact hplace _
    · rw [if_neg hnull]
      cases hreserve : answers.map.reserve with
      | none =>
        dsimp only
        rw [if_neg (by decide), hunmarked]
        exact hplace _
      | some p =>
        obtain ⟨m, hmap⟩ := ne_none_iff_exists'.mp
          (hwhole hmalloc hnull (by rw [hreserve]; exact some_ne_none p))
        have hanswer : answers.map = ⟨some p, some m⟩ := by
          rw [← hreserve, ← hmap]
        rw [hmap]
        rw [hanswer] at hfresh
        exact h.setPlace kind i _ nofun (h.genuine.add hnone hfresh) rfl

theorem State.Balanced.clearPending (h : s.Balanced) (streamId : Nat) :
    (s.clearPending streamId).Balanced :=
  h.controlled rfl rfl rfl rfl h.genuine rfl h.marked

/-- A flush of buffers that the DSP has given back. -/
theorem State.Balanced.streamAck (h : s.Balanced) {streamId : Nat} {ok : Bool}
    (hreleased : s.flush_pending streamId → streamId < 4 → ok →
      s.Released (drained streamId) (directionOf streamId)) (dwArg2 : Ptr) :
    (s.streamAck streamId ok dwArg2).Balanced := by
  unfold State.streamAck
  split
  · rename_i hflush
    have hreleased := hreleased hflush.1 hflush.2.1 hflush.2.2
    split
    · exact ((h.clearPending 0).flush hreleased).acknowledge _ _
    · exact ((h.clearPending 1).flush hreleased).acknowledge _ _
    · exact (h.clearPending 0).flush hreleased
    · rename_i hzero hone htwo
      obtain rfl : streamId = 3 := by
        have hlt := hflush.2.1
        have : streamId ≠ 0 := fun heq => hzero heq
        have : streamId ≠ 1 := fun heq => hone heq
        have : streamId ≠ 2 := fun heq => htwo heq
        omega
      exact (h.clearPending 1).flush hreleased
  · exact h.acknowledge _ _

/-! ## The end of an instance -/

/-- The reuse table is released from its start. -/
theorem State.Balanced.unmapReused_upto (h : s.Balanced) {n : Nat} (hn : n ≤ s.mapped_buffer_count)
    (hreuse : s.ReUseMap) :
    ∃ dsp holds', (List.range n).foldl (fun dsp i =>
        DmmUnMap (s.mapped_dmm_buffers i).pMapped (s.mapped_dmm_buffers i).bufReserved dsp) s.dsp =
          dsp ∧ dsp.queued = s.dsp.queued ∧ Genuine dsp holds' ∧
      (∀ k, holds' (.reused k) = if k < n then none else s.holds (.reused k)) ∧
      ∀ o, (∀ k, o ≠ .reused k) → holds' o = s.holds o := by
  induction n with
  | zero => exact ⟨s.dsp, s.holds, rfl, rfl, h.genuine, fun _ => rfl, fun _ _ => rfl⟩
  | succ n ih =>
    obtain ⟨dsp, holds', hdsp, hqueued, hgenuine, hreused, hothers⟩ := ih (Nat.le_of_succ_le hn)
    obtain ⟨-, hreserved, hmapped⟩ := h.table.reused n hn
    have hheld : holds' (.reused n) = if (s.mapped_dmm_buffers n).pMapped ≠ 0 ∧
        (s.mapped_dmm_buffers n).bufReserved ≠ 0 then some ⟨.buffer,
          (s.mapped_dmm_buffers n).pAllocated, some (s.mapped_dmm_buffers n).pMapped,
          (s.mapped_dmm_buffers n).bufReserved⟩ else none := by
      rw [hreused, if_neg (Nat.lt_irrefl n), if_pos ⟨hmapped, hreserved⟩]
      exact if_pos ⟨hreuse, hn⟩
    obtain ⟨hunmapped, hsame⟩ := hgenuine.unmap hheld
    rw [range_succ, foldl_append, foldl_cons, foldl_nil, hdsp]
    refine ⟨_, _, rfl, hsame.trans hqueued, hunmapped, fun k => ?_, fun o ho => ?_⟩
    · by_cases hk : k = n
      · rw [hk, update_self, if_pos (Nat.lt_succ_self n)]
      · rw [update_of_ne (by simp [hk]), hreused]
        have hiff : k < n ↔ k < n + 1 := by omega
        simp only [hiff]
    · rw [update_of_ne (ho n)]
      exact hothers o ho

/-- Where slots and control blocks hold nothing, nothing is left in the end. -/
theorem State.Balanced.destroy (h : s.Balanced)
    (hroom : s.ReUseMap → s.mapped_buffer_count < MAX_DMM_BUFFERS)
    (hslots : ∀ d i use, s.holds (.slot d i use) = none)
    (hcontrols : ∀ kind i, s.holds (.control kind i) = none) :
    ∃ t, s.destroy = some t ∧ t.Sound ∧ t.alive = false := by
  have hqueued : s.dsp.queued = [] := by
    refine eq_nil_iff_forall_not_mem.mpr fun sent hsent => ?_
    obtain ⟨d, i, r, -, hheld, -⟩ := h.sent_mapped hsent
    rw [hslots] at hheld
    cases hheld
  have hsound : ∀ {t : State}, t.dsp.ledger = [] → t.dsp.stray = [] → t.dsp.queued = [] →
    t.Sound := by
    intro t hledger hstray hqueued
    refine ⟨hstray, fun sent hsent => ?_, fun _ => ?_, fun _ => hledger⟩
    · rw [hqueued] at hsent
      cases hsent
    · rw [hledger]
      exact nodup_nil
  unfold State.destroy
  cases hreuse : s.ReUseMap with
  | false =>
    have hnone : ∀ o, s.holds o = none := by
      intro o
      cases o with
      | slot d i use => exact hslots d i use
      | reused k => exact if_neg fun hheld => Bool.false_ne_true (hreuse.symm.trans hheld.1)
      | control kind i => exact hcontrols kind i
    exact ⟨_, rfl, hsound (h.genuine.reserved.eq_nil hnone) h.genuine.stray hqueued, rfl⟩
  | true =>
    rw [if_pos rfl, if_neg (Nat.not_le.mpr (hroom hreuse))]
    obtain ⟨dsp, holds', hdsp, hsame, hgenuine, hreused, hothers⟩ :=
      h.unmapReused_upto (Nat.le_refl _) hreuse
    have hnone : ∀ o, holds' o = none := by
      intro o
      cases o with
      | slot d i use => exact (hothers _ (by simp)).trans (hslots d i use)
      | reused k =>
        rw [hreused]
        split
        · rfl
        · rename_i hrest
          exact if_neg fun hheld => hrest hheld.2
      | control kind i => exact (hothers _ (by simp)).trans (hcontrols kind i)
    have hunmapped : s.unmapReused = dsp := hdsp
    rw [hunmapped]
    exact ⟨_, rfl, hsound (hgenuine.reserved.eq_nil hnone) hgenuine.stray (hsame.trans hqueued),
      rfl⟩

theorem drainAll_alive (s : State) (only : Option Nat) (slots : List (Direction × Nat)) :
    (s.drainAll only slots).alive = s.alive := by
  induction slots generalizing s with
  | nil => rfl
  | cons slot slots ih =>
    refine (ih (s.drain only slot.1 slot.2)).trans ?_
    rcases drain_cases s only slot.1 slot.2 with heq | ⟨entry, bufType, iBufSizeUsed, -, -, heq⟩
    · rw [heq]
    · rw [heq]
      rfl

theorem flush_alive (s : State) (d : Direction) (only : Option Nat) :
    (s.flush d only).alive = s.alive := by
  rw [flush_eq, drainAll_alive]

theorem stop_alive (s : State) : s.stop.alive = s.alive := by
  by_cases hdevice : s.TypeofDevice = 0
  · rw [stop_eq s hdevice, drainAll_alive]
  · unfold State.stop
    rw [if_neg hdevice]

theorem bufferFree_alive (s : State) (streamId : Nat) (dwArg1 : Ptr) (iBufSizeUsed : Nat) :
    (s.bufferFree streamId dwArg1 iBufSizeUsed).alive = s.alive := by
  unfold State.bufferFree
  dsimp only
  split
  · rfl
  · split <;> rfl

theorem streamAck_alive (s : State) (streamId : Nat) (ok : Bool) (dwArg2 : Ptr) :
    (s.streamAck streamId ok dwArg2).alive = s.alive := by
  unfold State.streamAck
  split
  · split
    · exact flush_alive _ _ _
    · exact flush_alive _ _ _
    · exact flush_alive _ _ _
    · exact flush_alive _ _ _
  · rfl

theorem queueBuffer_alive {args : QueueArgs} {answers : QueueAnswers}
    (h : QueueBuffer s args answers = some t) : t.alive = s.alive := by
  unfold QueueBuffer at h
  split at h
  · cases h
  · split at h
    · cases h
      rfl
    · obtain ⟨r, -, rfl⟩ := map_eq_some_iff.mp h
      rfl

/-! ## The balance along a run -/

theorem heldFor_use {ReUseMap : Bool} {entry : TArmDspCommunicationStruct}
    {pDmmBuf : DMM_BUFFER_OBJ}
    {use : Use} {r : Reservation} (h : heldFor ReUseMap entry pDmmBuf use = some r) :
    r.use = use := by
  have hcase : ∀ {p : Prop} [Decidable p] {r' : Reservation}, r'.use = use →
      (if p then some r' else none) = some r → r.use = use := by
    intro p _ r' huse hr
    split at hr
    · exact some.inj hr ▸ huse
    · cases hr
  cases use with
  | buffer => exact hcase rfl h
  | parameter => exact hcase rfl h
  | commStruct => exact hcase rfl h
  | control => cases h

theorem State.Balanced.sound (h : s.Balanced) (halive : s.alive) : s.Sound where
  stray := h.genuine.stray
  reached sent hsent r hr := by
    obtain ⟨-, d, i, -, -, -, -, huses⟩ := h.sent sent hsent
    rcases huses r hr with ⟨use, hheld⟩ | ⟨k, hheld⟩
    · exact h.genuine.reserved.kept _ r hheld
    · exact h.genuine.reserved.kept _ r hheld
  once hreuse := by
    -- in reuse mode the buffers are held by the table, where each is once
    have hheld : ∀ r ∈ s.dsp.ledger, r.use = .buffer → ∃ k < s.mapped_buffer_count,
        s.holds (.reused k) = some r ∧ r.pArmPtr = (s.mapped_dmm_buffers k).pAllocated := by
      intro r hr hbuffer
      obtain ⟨o, ho⟩ := h.genuine.reserved.owned r hr
      cases o with
      | reused k =>
        have hown : heldReused s.ReUseMap s.mapped_dmm_buffers s.mapped_buffer_count k = some r :=
          ho
        unfold heldReused at hown
        split at hown
        · rename_i hk
          exact ⟨k, hk.2, ho, by rw [← some.inj hown]⟩
        · cases hown
      | control kind i =>
        unfold State.holds Control.holds at ho
        dsimp only at ho
        split at ho
        · split at ho
          · rw [← some.inj ho] at hbuffer
            cases hbuffer
          · cases ho
        · cases ho
      | slot d i use =>
        obtain ⟨entry, -, hentry⟩ := bind_eq_some_iff.mp ho
        cases use with
        | buffer =>
          rw [heldFor, if_neg fun hall => hall.2.1 hreuse] at hentry
          cases hentry
        | parameter => cases (heldFor_use hentry).symm.trans hbuffer
        | commStruct => cases (heldFor_use hentry).symm.trans hbuffer
        | control => cases hentry
    refine Nodup.map_on ?_ ((Nodup.of_map _ h.genuine.reserved.nodup).filter _)
    intro r hr r' hr' hsame
    obtain ⟨hr, hbuffer⟩ := mem_filter.mp hr
    obtain ⟨hr', hbuffer'⟩ := mem_filter.mp hr'
    obtain ⟨k, hk, hown, hptr⟩ := hheld r hr (of_decide_eq_true hbuffer)
    obtain ⟨k', hk', hown', hptr'⟩ := hheld r' hr' (of_decide_eq_true hbuffer')
    obtain rfl := h.table.once k hk k' hk' (by rw [← hptr, ← hptr', hsame])
    exact some.inj (hown.symm.trans hown')
  released hdead := by
    rw [halive] at hdead
    cases hdead

theorem guarded_eq (hunlocked : s.locked = false) (next : Option State) :
    s.guarded next = next := by
  unfold State.guarded
  rw [hunlocked, if_neg Bool.false_ne_true]

/-- One step that meets the condition. -/
theorem State.Balanced.step (h : s.Balanced) (henabled : s.Enabled event)
    (hthrifty : s.Thrifty event) (halive : s.alive) :
    ∃ t, s.step event = some t ∧ t.Sound ∧ (t.alive → t.Balanced) := by
  have hkept : ∀ {t : State}, s.step event = some t → t.Balanced → t.alive = s.alive →
      ∃ t, s.step event = some t ∧ t.Sound ∧ (t.alive → t.Balanced) :=
    fun hstep ht hsame => ⟨_, hstep, ht.sound (hsame.trans halive), fun _ => ht⟩
  cases event with
  | QueueBuffer args answers =>
    obtain ⟨t, hstep, ht⟩ := h.queueBuffer henabled hthrifty.1 hthrifty.2
    exact hkept hstep ht (queueBuffer_alive hstep)
  | BUFF_FREE streamId dwArg1 iBufSizeUsed =>
    obtain ⟨-, sent, hsent, rfl, rfl⟩ := henabled
    exact hkept (guarded_eq hthrifty _) (h.bufferFree hsent iBufSizeUsed) (bufferFree_alive ..)
  | STOP =>
    exact hkept (guarded_eq hthrifty _) ((h.givesBack .STOP).stop rfl) (stop_alive _)
  | STRMCTRL streamId ok dwArg2 flushed =>
    exact hkept (guarded_eq hthrifty.1 _) ((h.givesBack _).streamAck hthrifty.2 dwArg2)
      (streamAck_alive ..)
  | ALGCTRL dwArg2 => exact hkept (guarded_eq hthrifty _) (h.acknowledge .Algcntl dwArg2) rfl
  | controlAlgCtrl pArmPtr size answers =>
    refine hkept (guarded_eq hthrifty.1 _) ?_ ?_
    · unfold State.algCtrl
      split
      · exact h.controlled rfl rfl rfl rfl h.genuine rfl h.marked
      · rename_i i hfree
        exact h.send hfree size (hthrifty.2 (by rw [hfree]; exact some_ne_none i)) henabled.2
    · unfold State.algCtrl
      split <;> rfl
  | controlStrmCtrl pArmPtr size answers =>
    obtain ⟨hunlocked, hplace, hwhole⟩ := hthrifty
    obtain ⟨i, hfree⟩ := ne_none_iff_exists'.mp hplace
    have hsent := h.send hfree size hwhole henabled.2
    obtain ⟨locked, hstep⟩ : ∃ locked, s.strmCtrl pArmPtr size answers = some
        { s.setControl .Strmcntl
            ((s.controls .Strmcntl).send i pArmPtr size answers s.dsp).2 with locked :=
            locked } := by
      unfold State.strmCtrl
      rw [hfree]
      exact ⟨_, rfl⟩
    exact hkept ((guarded_eq hunlocked _).trans hstep)
      (hsent.controlled rfl rfl rfl rfl hsent.genuine rfl hsent.marked) rfl
  | controlFlush streamId =>
    exact hkept ((guarded_eq hthrifty.1 _).trans (if_pos hthrifty.2))
      (h.controlled rfl rfl rfl rfl h.genuine rfl h.marked) rfl
  | controlUsnEos => exact hkept rfl (h.controlled rfl rfl rfl rfl h.genuine rfl h.marked) rfl
  | other => exact hkept rfl h rfl
  | destroy =>
    obtain ⟨hunlocked, hroom, hslots, hcontrols⟩ := hthrifty
    obtain ⟨t, hstep, hsound, hdead⟩ := h.destroy hroom hslots hcontrols
    refine ⟨t, (guarded_eq hunlocked _).trans hstep, hsound, fun hlives => ?_⟩
    rw [hdead] at hlives
    cases hlives

theorem State.Balanced.start (TypeofDevice TypeofRender : Int)
    (buf_invalidate_flag buf_flush_flag : Bool) :
    (State.start TypeofDevice TypeofRender buf_invalidate_flag buf_flush_flag).Balanced where
  genuine := by
    have hnone : ∀ o, (State.start TypeofDevice TypeofRender buf_invalidate_flag
        buf_flush_flag).holds o = none := by
      intro o
      cases o with
      | slot d i use => rfl
      | reused k => rfl
      | control kind i => rfl
    exact ⟨Owns.nil hnone, Owns.nil hnone, nofun, rfl⟩
  empty _ _ _ _ := rfl
  struct _ _ _ hmapped := absurd rfl hmapped
  slot := nofun
  index := nofun
  table := ⟨fun _ => rfl, fun _ _ => rfl, nofun, nofun⟩
  marked _ _ _ := rfl
  sent := nofun
  distinct := nodup_nil

theorem State.Enabled.alive (h : s.Enabled event) : s.alive = true := by
  cases event with
  | QueueBuffer args answers => exact h.1
  | BUFF_FREE streamId dwArg1 iBufSizeUsed => exact h.1
  | controlAlgCtrl pArmPtr size answers => exact h.1
  | controlStrmCtrl pArmPtr size answers => exact h.1
  | _ => exact h

/-- In every run whose steps meet the condition the mappings are as they should be. -/
theorem mappings_balance (TypeofDevice TypeofRender : Int)
    (buf_invalidate_flag buf_flush_flag : Bool) (events : List Event)
    (henabled : AlongSome State.step State.Enabled
      (.start TypeofDevice TypeofRender buf_invalidate_flag buf_flush_flag) events)
    (hthrifty : AlongSome State.step State.Thrifty
      (.start TypeofDevice TypeofRender buf_invalidate_flag buf_flush_flag) events) :
    AlongSome State.step State.KeepsMappings
      (.start TypeofDevice TypeofRender buf_invalidate_flag buf_flush_flag) events := by
  refine henabled.mono_invariant (I := fun s => s.alive → s.Balanced) hthrifty
    (fun _ => State.Balanced.start ..) (fun s event h henabled hthrifty => ?_)
    fun s event t h henabled hthrifty hstep => ?_
  · obtain ⟨t, hstep, hsound, -⟩ :=
      (h henabled.alive).step henabled hthrifty henabled.alive
    exact ⟨t, hstep, hsound⟩
  · obtain ⟨u, hu, -, hbalanced⟩ := (h henabled.alive).step henabled hthrifty henabled.alive
    exact some.inj (hu.symm.trans hstep) ▸ hbalanced

theorem Fresh.of {p m : Ptr} (hp : p ≠ 0) (hm : m ≠ 0) (hfree : ∀ r ∈ dsp.ledger, r.pReserved ≠ p)
    (hfree' : ∀ r ∈ dsp.ledger, r.pMapped ≠ some m) : MapAnswer.Fresh ⟨some p, some m⟩ dsp where
  reserve _ heq := some.inj heq ▸ ⟨hp, hfree⟩
  map _ heq := some.inj heq ▸ ⟨hm, hfree'⟩

theorem Apart.of {p m p' m' : Ptr} (hp : p ≠ p') (hm : m ≠ m') :
    MapAnswer.Apart ⟨some p, some m⟩ ⟨some p', some m'⟩ where
  left _ heq heq' := hp ((some.inj heq).trans (some.inj heq').symm)
  right _ heq heq' := hm ((some.inj heq).trans (some.inj heq').symm)

/-- The arguments for a buffer that is mapped once for all calls. -/
def reuseArgs (buffer : Ptr) : QueueArgs :=
  { queueArgs buffer with bufType := EMMCodecInputBufferMapReuse }

/-- A call with an empty slot in which every call of the bridge succeeds. -/
theorem mapsAt_mapsWell {base : Ptr} (hnone : ∀ d i use, s.holds (.slot d i use) = none)
    (hwithin : s.Within (reuseArgs 100)) : s.MapsWell (reuseArgs 100) (mapsAt base) where
  empty use := hnone _ _ use
  switched _ _ d i := hnone d i _
  within := hwithin
  maps := Or.inl ⟨fun _ _ => rfl, fun _ _ => rfl, fun _ => rfl, rfl, fun _ hno => absurd rfl hno,
    fun _ hno => absurd rfl hno⟩

/-- The same buffer is queued twice in reuse mode, taken back at a stop and released in the end. -/
theorem reused_buffer_balances : AlongSome State.step State.KeepsMappings (.start 0 0 true true)
    [.QueueBuffer (reuseArgs 100) (mapsAt 200), .BUFF_FREE 0 205 8,
      .QueueBuffer (reuseArgs 100) (mapsAt 300), .STOP, .destroy] := by
  -- a slot that was filled and emptied holds nothing
  have hslot : ∀ {f : Nat → Option TArmDspCommunicationStruct} {i : Nat} {entry},
    (∀ j, f j = none) →
      ∀ j, update (update f i (some entry)) i none j = none := by
    intro f i entry hf j
    rw [update_idem, ← hf i, update_eq_self]
    exact (hf j).trans (hf i).symm
  have hempty : ∀ {s : State}, (∀ j, (s.storage .input).Armstorage j = none) →
      (∀ j, (s.storage .output).Armstorage j = none) → ∀ d j use, s.holds
      (.slot d j use) = none := by
    intro s hin hout d j use
    refine State.holds_empty ?_ use
    cases d with
    | input => exact hin j
    | output => exact hout j
  refine mappings_balance 0 0 true true _ ?_ ?_
  · refine ⟨⟨rfl, Fresh.of (by decide) (by decide) nofun nofun, Fresh.of (by decide) (by decide)
      nofun nofun, Fresh.of (by decide) (by decide) nofun nofun, Apart.of (by decide) (by decide),
      Apart.of (by decide) (by decide), Apart.of (by decide) (by decide)⟩, fun t ht => ?_⟩
    cases ht
    refine .cons ⟨rfl, _, mem_cons_self, rfl, rfl⟩ rfl ?_
    refine ⟨⟨rfl, Fresh.of (by decide) (by decide) (by decide) (by decide),
      Fresh.of (by decide) (by decide) (by decide) (by decide),
      Fresh.of (by decide) (by decide) (by decide) (by decide), Apart.of (by decide) (by decide),
      Apart.of (by decide) (by decide), Apart.of (by decide) (by decide)⟩, fun t ht => ?_⟩
    cases ht
    refine .cons rfl rfl ?_
    exact ⟨rfl, fun _ _ => trivial⟩
  · refine .cons ⟨rfl, fun _ => mapsAt_mapsWell (fun _ _ _ => rfl) fun _ _ => by decide⟩ rfl ?_
    refine .cons rfl rfl ?_
    refine ⟨⟨rfl, fun _ => mapsAt_mapsWell (hempty (hslot fun _ => rfl) fun _ => rfl)
      fun _ _ => by decide⟩, fun t ht => ?_⟩
    cases ht
    refine .cons rfl rfl ?_
    exact ⟨⟨rfl, fun _ => by decide, hempty (hslot (hslot fun _ => rfl)) fun _ => rfl,
      fun _ _ => rfl⟩,
      fun _ _ => trivial⟩

/-- The parameter block of a call cannot be mapped, and a stop releases the buffer twice. -/
theorem buffer_released_twice :
    ¬∀ TypeofDevice TypeofRender buf_invalidate_flag buf_flush_flag events,
      AlongSome State.step State.Enabled
          (.start TypeofDevice TypeofRender buf_invalidate_flag buf_flush_flag) events →
        AlongSome State.step State.KeepsMappings
          (.start TypeofDevice TypeofRender buf_invalidate_flag buf_flush_flag) events := by
  intro hall
  have hkeeps := hall 0 0 true true
    [.QueueBuffer (queueArgs 100) { mapsAt 200 with parameter := ⟨none, none⟩ }, .STOP] ?_
  · obtain ⟨t, ht, hsound⟩ := (hkeeps.2 _ rfl).1
    cases ht
    exact absurd hsound.stray (by decide)
  · refine ⟨⟨rfl, Fresh.of (by decide) (by decide) nofun nofun, ⟨nofun, nofun⟩,
      Fresh.of (by decide) (by decide) nofun nofun, ⟨fun _ _ => nofun, fun _ _ => nofun⟩,
      Apart.of (by decide) (by decide), ⟨nofun, nofun⟩⟩, fun t ht => ?_⟩
    cases ht
    exact ⟨rfl, fun _ _ => trivial⟩

end OmapHal.Lcml
