import OmapHal.Lcml.ControlCodec
import OmapHal.Lcml.Mappings

/-!
# The slots of the control blocks

When each slot is in use exactly while a command with its mapping is unacknowledged, over every
session of commands and acknowledgements.
-/

namespace OmapHal.Lcml

open Function List Option

open OmapHal.Core (AlongSome)

variable {place : Option DMM_BUFFER_OBJ} {mapped : Bool} {c : Command} {e : ControlEvent}

variable {σ τ : Session} {kind : ControlKind} {i : Nat} {pDmmBuf : DMM_BUFFER_OBJ}

/-! ## One array -/

namespace Control

variable {control : Control}

theorem free_lt (hfree : control.free = some i) : i < QUEUE_SIZE :=
  mem_range.mp (mem_of_find?_eq_some hfree)

theorem free_eq_none : control.free = none ↔ ∀ i < QUEUE_SIZE, control.pDmmBuf i ≠ none := by
  simp only [free, find?_eq_none, mem_range, isNone_iff_eq_none]

/-- What `send` makes of a slot: nothing without memory, a block that is not mapped, or one that
is. -/
theorem send_cases (control : Control) (i : Nat) (args1 : Ptr) (args2 : Nat)
    (answers : ControlAnswers) (dsp : Bridge) :
    (answers.malloc = false ∧
      control.send i args1 args2 answers dsp = (.OMX_ErrorInsufficientResources, control, dsp)) ∨
    (answers.malloc ∧ ¬ (args1 ≠ 0 ∧ answers.map.reserve ≠ none ∧ answers.map.map ≠ none) ∧
      ∃ eError pDmmBuf dsp', eError ≠ .OMX_ErrorNone ∧ control.send i args1 args2 answers dsp =
          (eError, ⟨update control.pDmmBuf i (some pDmmBuf), control.mapped⟩, dsp')) ∨
    (answers.malloc ∧ args1 ≠ 0 ∧ answers.map.reserve ≠ none ∧
      ∃ pDmmBuf dsp', answers.map.map = some pDmmBuf.pMapped ∧
        control.send i args1 args2 answers dsp = (.OMX_ErrorNone,
          ⟨update control.pDmmBuf i (some pDmmBuf), update control.mapped i true⟩, dsp')) := by
  have hfails {eError : OMX_ERRORTYPE} {r : DMM_BUFFER_OBJ × Bridge}
      (herror : eError ≠ .OMX_ErrorNone)
      (hmap : DmmMap .control args2 args1 {} answers.map dsp = (eError, r))
      (hmalloc : answers.malloc) :
      control.send i args1 args2 answers dsp =
        (eError, ⟨update control.pDmmBuf i (some r.1), control.mapped⟩, r.2) := by
    unfold send
    rw [hmalloc, hmap]
    simp only [Bool.not_true, Bool.false_eq_true, if_false, if_neg herror, update_eq_self]
  cases hmalloc : answers.malloc with
  | false =>
    refine .inl ⟨rfl, ?_⟩
    unfold send
    rw [hmalloc]
    rfl
  | true =>
    refine .inr ?_
    by_cases harm : args1 = 0
    · refine .inl ⟨rfl, fun h => h.1 harm, _, _, _, ?_, hfails ?_ (if_pos harm) hmalloc⟩ <;> nofun
    cases hreserve : answers.map.reserve with
    | none =>
      have hmap : DmmMap .control args2 args1 {} answers.map dsp =
          (.OMX_ErrorInsufficientResources, { pAllocated := args1 }, dsp) := by
        unfold DmmMap
        rw [if_neg harm, hreserve]
      exact .inl ⟨rfl, fun h => h.2.1 rfl, _, _, _, by decide, hfails (by decide) hmap hmalloc⟩
    | some pReserved =>
      cases hmapped : answers.map.map with
      | none =>
        have hmap : DmmMap .control args2 args1 {} answers.map dsp =
            (.OMX_ErrorInsufficientResources,
              { pAllocated := args1, pReserved := pReserved, nSize := args2 },
              dsp.reserve ⟨.control, args1, none, pReserved⟩) := by
          unfold DmmMap
          rw [if_neg harm, hreserve, hmapped]
        exact .inl ⟨rfl, fun h => h.2.2 rfl, _, _, _, by decide, hfails (by decide) hmap hmalloc⟩
      | some pMapped =>
        refine .inr ⟨rfl, harm, some_ne_none _,
          { pAllocated := args1, pReserved := pReserved, pMapped := pMapped, nSize := args2 },
          dsp.reserve ⟨.control, args1, some pMapped, pReserved⟩, rfl, ?_⟩
        unfold send DmmMap
        rw [hmalloc, if_neg harm, hreserve, hmapped]
        rfl

/-- An acknowledgement at an address where no block is mapped. -/
theorem acknowledge_same {dwArg2 : Ptr} (dsp : Bridge)
    (hnone : ∀ k pDmmBuf, control.pDmmBuf k = some pDmmBuf → pDmmBuf.pMapped ≠ dwArg2) :
    control.acknowledge dwArg2 dsp = (control, dsp) := by
  rcases control.acknowledge_cases dwArg2 dsp with heq | ⟨k, pDmmBuf, hk, hat, -⟩
  · exact heq
  · exact absurd hat (hnone k pDmmBuf hk)

/-- An acknowledgement at the address of one block frees its slot. -/
theorem acknowledge_at (dsp : Bridge) (hi : i < QUEUE_SIZE)
    (hblock : control.pDmmBuf i = some pDmmBuf) (hmapped : control.mapped i)
    (honly : ∀ k pDmmBuf', control.pDmmBuf k = some pDmmBuf' →
      pDmmBuf'.pMapped = pDmmBuf.pMapped → k = i) :
    (control.acknowledge pDmmBuf.pMapped dsp).1 =
      ⟨update control.pDmmBuf i none, update control.mapped i false⟩ := by
  unfold acknowledge
  split
  next hnone =>
    have hmiss := find?_eq_none.mp hnone i (mem_range.mpr hi)
    rw [hblock] at hmiss
    simp [hmapped] at hmiss
  next k hfind =>
    have hfound := find?_some hfind
    cases hk : control.pDmmBuf k with
    | none =>
      rw [hk] at hfound
      cases hfound
    | some pDmmBuf' =>
      rw [hk] at hfound
      have hat : control.mapped k ∧ pDmmBuf'.pMapped = pDmmBuf.pMapped := by
        simpa using hfound
      obtain rfl := honly k pDmmBuf' hk hat.2
      rfl

end Control

/-! ## The invariant -/

namespace Session

/-- What the condition keeps: each block is mapped, at an address of its own. -/
structure Regular (σ : Session) : Prop where
  unlocked : σ.lcml.locked = false
  matched : σ.Matches
  within : ∀ kind i pDmmBuf, σ.block kind i = some pDmmBuf → i < QUEUE_SIZE
  mapped : ∀ kind i pDmmBuf, σ.block kind i = some pDmmBuf →
    (σ.lcml.controls kind).mapped i = true ∧ pDmmBuf.pMapped ≠ 0
  distinct : ∀ kind i j pDmmBuf pDmmBuf', σ.block kind i = some pDmmBuf →
    σ.block kind j = some pDmmBuf' → pDmmBuf.pMapped = pDmmBuf'.pMapped → i = j
  nodup : σ.outstanding.Nodup

/-- One slot has changed. -/
structure Changes (σ τ : Session) (kind : ControlKind) (i : Nat) (place : Option DMM_BUFFER_OBJ)
    (mapped : Bool) : Prop where
  block : ∀ kind' j, τ.block kind' j = if kind' = kind ∧ j = i then place else σ.block kind' j
  mapped : ∀ kind' j, (τ.lcml.controls kind').mapped j =
    if kind' = kind ∧ j = i then mapped else (σ.lcml.controls kind').mapped j
  locked : τ.lcml.locked = σ.lcml.locked

theorem Changes.of_controls (hcontrols : τ.lcml.controls = update σ.lcml.controls kind
      ⟨update (σ.lcml.controls kind).pDmmBuf i place,
        update (σ.lcml.controls kind).mapped i mapped⟩)
    (hlocked : τ.lcml.locked = σ.lcml.locked) : σ.Changes τ kind i place mapped where
  block kind' j := by
    unfold Session.block
    rw [hcontrols]
    by_cases hkind : kind' = kind
    · subst hkind
      rw [update_self]
      show update (σ.lcml.controls kind').pDmmBuf i place j = _
      rw [update_apply, if_congr (and_iff_right rfl) rfl rfl]
    · rw [update_of_ne hkind, if_neg fun h => hkind h.1]
  mapped kind' j := by
    rw [hcontrols]
    by_cases hkind : kind' = kind
    · subst hkind
      rw [update_self]
      show update (σ.lcml.controls kind').mapped i mapped j = _
      rw [update_apply, if_congr (and_iff_right rfl) rfl rfl]
    · rw [update_of_ne hkind, if_neg fun h => hkind h.1]
  locked := hlocked

/-- The changed slot, or another one. -/
theorem Changes.block_cases {kind' : ControlKind}
    {j : Nat} {pDmmBuf' : DMM_BUFFER_OBJ} (h : σ.Changes τ kind i place mapped)
    (hj : τ.block kind' j = some pDmmBuf') :
    (kind' = kind ∧ j = i ∧ place = some pDmmBuf') ∨
      (¬ (kind' = kind ∧ j = i) ∧ σ.block kind' j = some pDmmBuf') := by
  rw [h.block] at hj
  split at hj
  next hsame => exact .inl ⟨hsame.1, hsame.2, hj⟩
  next hother => exact .inr ⟨hother, hj⟩

/-- A command is sent with a new block in a free slot. -/
theorem Regular.filled (h : σ.Regular) (hchanges : σ.Changes τ kind i (some pDmmBuf) true)
    (hi : i < QUEUE_SIZE) (hfree : σ.block kind i = none) (hzero : pDmmBuf.pMapped ≠ 0)
    (hfresh : ∀ kind' j pDmmBuf', σ.block kind' j = some pDmmBuf' →
      pDmmBuf'.pMapped ≠ pDmmBuf.pMapped)
    (houtstanding : τ.outstanding = σ.outstanding ++ [⟨kind, i, pDmmBuf.pMapped⟩]) : τ.Regular where
  unlocked := hchanges.locked.trans h.unlocked
  matched := by
    constructor
    · intro kind' j hj pDmmBuf' hblock
      rw [houtstanding]
      rcases hchanges.block_cases hblock with ⟨rfl, rfl, hplace⟩ | ⟨-, hbefore⟩
      · rw [← some.inj hplace]
        exact mem_append_right _ (mem_singleton_self _)
      · exact mem_append_left _ (h.matched.used kind' j hj pDmmBuf' hbefore)
    · intro c hc
      rw [houtstanding] at hc
      rcases mem_append.mp hc with hbefore | hnew
      · obtain ⟨pDmmBuf', hblock, haddress⟩ := h.matched.unacknowledged c hbefore
        refine ⟨pDmmBuf', ?_, haddress⟩
        rw [hchanges.block, if_neg, hblock]
        rintro ⟨hkind, hslot⟩
        rw [hkind, hslot, hfree] at hblock
        cases hblock
      · rw [mem_singleton.mp hnew]
        exact ⟨pDmmBuf, by rw [hchanges.block, if_pos ⟨rfl, rfl⟩], rfl⟩
  within kind' j pDmmBuf' hblock := by
    rcases hchanges.block_cases hblock with ⟨-, rfl, -⟩ | ⟨-, hbefore⟩
    · exact hi
    · exact h.within kind' j pDmmBuf' hbefore
  mapped kind' j pDmmBuf' hblock := by
    rw [hchanges.mapped]
    rcases hchanges.block_cases hblock with ⟨rfl, rfl, hplace⟩ | ⟨hother, hbefore⟩
    · rw [if_pos ⟨rfl, rfl⟩, ← some.inj hplace]
      exact ⟨rfl, hzero⟩
    · rw [if_neg hother]
      exact h.mapped kind' j pDmmBuf' hbefore
  distinct kind' j k pDmmBuf₁ pDmmBuf₂ hj hk hsame := by
    rcases hchanges.block_cases hj with ⟨rfl, rfl, hplace⟩ | ⟨-, hbefore⟩
    · rcases hchanges.block_cases hk with ⟨-, rfl, -⟩ | ⟨-, hbefore'⟩
      · rfl
      · rw [← some.inj hplace] at hsame
        exact absurd hsame.symm (hfresh _ k pDmmBuf₂ hbefore')
    · rcases hchanges.block_cases hk with ⟨-, -, hplace'⟩ | ⟨-, hbefore'⟩
      · rw [← some.inj hplace'] at hsame
        exact absurd hsame (hfresh _ j pDmmBuf₁ hbefore)
      · exact h.distinct kind' j k pDmmBuf₁ pDmmBuf₂ hbefore hbefore' hsame
  nodup := by
    rw [houtstanding]
    refine h.nodup.append (nodup_singleton _) (disjoint_singleton.mpr fun hmem => ?_)
    obtain ⟨pDmmBuf', hblock, -⟩ := h.matched.unacknowledged _ hmem
    cases hfree.symm.trans hblock

/-- The slot of an acknowledged command is freed. -/
theorem Regular.emptied (h : σ.Regular) (hc : c ∈ σ.outstanding)
    (hchanges : σ.Changes τ c.kind c.slot none false)
    (houtstanding : τ.outstanding = σ.outstanding.erase c) : τ.Regular where
  unlocked := hchanges.locked.trans h.unlocked
  matched := by
    constructor
    · intro kind' j hj pDmmBuf' hblock
      rcases hchanges.block_cases hblock with ⟨-, -, hplace⟩ | ⟨hother, hbefore⟩
      · cases hplace
      · rw [houtstanding]
        refine (mem_erase_of_ne ?_).mpr (h.matched.used kind' j hj pDmmBuf' hbefore)
        rintro rfl
        exact hother ⟨rfl, rfl⟩
    · intro c' hc'
      rw [houtstanding, h.nodup.mem_erase_iff] at hc'
      obtain ⟨pDmmBuf', hblock, haddress⟩ := h.matched.unacknowledged c' hc'.2
      refine ⟨pDmmBuf', ?_, haddress⟩
      rw [hchanges.block, if_neg, hblock]
      rintro ⟨hkind, hslot⟩
      -- two commands with one slot have the address of its block
      obtain ⟨pDmmBuf, hown, hat⟩ := h.matched.unacknowledged c hc
      rw [hkind, hslot, hown] at hblock
      refine hc'.1 ?_
      cases c'
      cases c
      simp only at hkind hslot haddress hat
      rw [hkind, hslot, ← haddress, ← hat, some.inj hblock]
  within kind' j pDmmBuf' hblock := by
    rcases hchanges.block_cases hblock with ⟨-, -, hplace⟩ | ⟨-, hbefore⟩
    · cases hplace
    · exact h.within kind' j pDmmBuf' hbefore
  mapped kind' j pDmmBuf' hblock := by
    rcases hchanges.block_cases hblock with ⟨-, -, hplace⟩ | ⟨hother, hbefore⟩
    · cases hplace
    · rw [hchanges.mapped, if_neg hother]
      exact h.mapped kind' j pDmmBuf' hbefore
  distinct kind' j k pDmmBuf₁ pDmmBuf₂ hj hk hsame := by
    rcases hchanges.block_cases hj with ⟨-, -, hplace⟩ | ⟨-, hbefore⟩
    · cases hplace
    rcases hchanges.block_cases hk with ⟨-, -, hplace⟩ | ⟨-, hbefore'⟩
    · cases hplace
    exact h.distinct kind' j k pDmmBuf₁ pDmmBuf₂ hbefore hbefore' hsame
  nodup := by
    rw [houtstanding]
    exact h.nodup.erase c

theorem Regular.start (TypeofDevice TypeofRender : Int)
    (buf_invalidate_flag buf_flush_flag : Bool) :
    (Session.start TypeofDevice TypeofRender buf_invalidate_flag buf_flush_flag).Regular where
  unlocked := rfl
  matched := ⟨nofun, nofun⟩
  within := nofun
  mapped := nofun
  distinct := nofun
  nodup := nodup_nil

/-- A slot that is filled for a command that was not sent. -/
theorem Matches.not_of_filled (h : σ.Matches) (hi : i < QUEUE_SIZE) (hfree : σ.block kind i = none)
    (hblock : τ.block kind i = some pDmmBuf) (houtstanding : τ.outstanding = σ.outstanding) :
    ¬ τ.Matches := by
  intro hmatches
  have hmem := hmatches.used kind i hi pDmmBuf hblock
  rw [houtstanding] at hmem
  obtain ⟨pDmmBuf', hbefore, -⟩ := h.unacknowledged _ hmem
  cases hfree.symm.trans hbefore

end Session

/-! ## Acknowledgements -/

theorem State.streamAck_locked (s : State) (streamId : Nat) (ok : Bool) (dwArg2 : Ptr) :
    (s.streamAck streamId ok dwArg2).locked = s.locked := by
  have hflush (s : State) (d : Direction) (only : Option Nat) :
      (s.flush d only).locked = s.locked :=
    State.flush_kept (·.locked) (fun _ _ _ _ _ _ => rfl) s d only
  unfold State.streamAck
  split
  · split
    · exact hflush _ _ _
    · exact hflush _ _ _
    · exact hflush _ _ _
    · exact hflush _ _ _
  · rfl

/-- The acknowledgement of a stream goes on to look for the block, but for the flushes of 2 and
3. -/
theorem State.streamAck_controls (s : State) (streamId : Nat) (ok : Bool) (dwArg2 : Ptr) :
    (2 ≤ streamId ∧ (s.streamAck streamId ok dwArg2).controls = s.controls) ∨
      ∃ dsp, (s.streamAck streamId ok dwArg2).controls =
        update s.controls .Strmcntl ((s.controls .Strmcntl).acknowledge dwArg2 dsp).1 := by
  have hflush (s : State) (d : Direction) (only : Option Nat) :
      (s.flush d only).controls = s.controls :=
    flush_kept (·.controls) (fun _ _ _ _ _ _ => rfl) s d only
  have hacknowledge {t : State} (hsame : t.controls = s.controls) :
      (t.acknowledge .Strmcntl dwArg2).controls = update s.controls .Strmcntl
        ((s.controls .Strmcntl).acknowledge dwArg2 t.dsp).1 := by
    rw [← hsame]
    rfl
  unfold State.streamAck
  split
  next hpending =>
    match streamId, hpending.2.1 with
    | 0, _ => exact .inr ⟨_, hacknowledge (hflush _ .input none)⟩
    | 1, _ => exact .inr ⟨_, hacknowledge (hflush _ .output none)⟩
    | 2, _ => exact .inl ⟨by decide, hflush _ _ _⟩
    | 3, _ => exact .inl ⟨by decide, hflush _ _ _⟩
  next => exact .inr ⟨_, rfl⟩

namespace Session

/-- The command of an acknowledgement is found in its slot, at its address. -/
theorem Regular.found (h : σ.Regular) (hc : c ∈ σ.outstanding) (dsp : Bridge) :
    ((σ.lcml.controls c.kind).acknowledge c.address dsp).1 =
      ⟨update (σ.lcml.controls c.kind).pDmmBuf c.slot none,
        update (σ.lcml.controls c.kind).mapped c.slot false⟩ := by
  obtain ⟨pDmmBuf, hblock, haddress⟩ := h.matched.unacknowledged c hc
  rw [← haddress]
  exact Control.acknowledge_at dsp (h.within c.kind c.slot pDmmBuf hblock) hblock
    (h.mapped c.kind c.slot pDmmBuf hblock).1
    fun k pDmmBuf' hk hsame => h.distinct c.kind k c.slot pDmmBuf' pDmmBuf hk hblock hsame

theorem Regular.answered (h : σ.Regular) (hc : c ∈ σ.outstanding) (ok : Bool) :
    σ.Changes ⟨σ.lcml.answer c ok, σ.outstanding.erase c⟩ c.kind c.slot none false := by
  have hfound := h.found hc
  cases hkind : c.kind with
  | Algcntl =>
    rw [hkind] at hfound
    have heq : σ.lcml.answer c ok = σ.lcml.acknowledge .Algcntl c.address := by
      unfold State.answer
      rw [hkind]
    rw [heq]
    refine Changes.of_controls ?_ rfl
    rw [← hfound σ.lcml.dsp]
    rfl
  | Strmcntl =>
    rw [hkind] at hfound
    have heq : σ.lcml.answer c ok = σ.lcml.streamAck σ.lcml.controlStream ok c.address := by
      unfold State.answer
      rw [hkind]
    rw [heq]
    refine Changes.of_controls ?_ (State.streamAck_locked _ _ _ _)
    rcases σ.lcml.streamAck_controls σ.lcml.controlStream ok c.address with
      ⟨hstream, -⟩ | ⟨dsp, hcontrols⟩
    · unfold State.controlStream at hstream
      split at hstream <;> omega
    · rw [hcontrols, hfound dsp]

/-- The acknowledgement of a flush finds no block at the address zero. -/
theorem Regular.flushAcked (h : σ.Regular) (streamId : Nat) (ok : Bool) :
    (σ.lcml.streamAck streamId ok 0).controls = σ.lcml.controls := by
  rcases σ.lcml.streamAck_controls streamId ok 0 with ⟨-, hsame⟩ | ⟨dsp, hcontrols⟩
  · exact hsame
  · rw [hcontrols, Control.acknowledge_same dsp, update_eq_self]
    intro k pDmmBuf hk
    exact (h.mapped .Strmcntl k pDmmBuf hk).2

/-- A session with the same slots, commands and mutex. -/
theorem Regular.congr (h : σ.Regular) (hcontrols : τ.lcml.controls = σ.lcml.controls)
    (hlocked : τ.lcml.locked = σ.lcml.locked) (houtstanding : τ.outstanding = σ.outstanding) :
    τ.Regular := by
  have hblock : τ.block = σ.block := by
    unfold Session.block
    rw [hcontrols]
  constructor
  · rw [hlocked, h.unlocked]
  · exact ⟨by rw [hblock, houtstanding]; exact h.matched.used,
      by rw [hblock, houtstanding]; exact h.matched.unacknowledged⟩
  · rw [hblock]
    exact h.within
  · rw [hblock, hcontrols]
    exact h.mapped
  · rw [hblock]
    exact h.distinct
  · rw [houtstanding]
    exact h.nodup

/-! ## Commands -/

theorem full_iff : σ.Full kind ↔ (σ.lcml.controls kind).free = none :=
  Control.free_eq_none.symm

/-- A command whose block is mapped and whose message is taken. -/
theorem Regular.delivered (h : σ.Regular) (hfree : (σ.lcml.controls kind).free = some i)
    (hzero : pDmmBuf.pMapped ≠ 0) (hfresh : ∀ kind' j pDmmBuf', σ.block kind' j = some pDmmBuf' →
      pDmmBuf'.pMapped ≠ pDmmBuf.pMapped) (dsp : Bridge) :
    Session.Regular ⟨σ.lcml.setControl kind
      (⟨update (σ.lcml.controls kind).pDmmBuf i (some pDmmBuf),
        update (σ.lcml.controls kind).mapped i true⟩, dsp),
      σ.outstanding ++ [⟨kind, i, pDmmBuf.pMapped⟩]⟩ :=
  h.filled (Changes.of_controls rfl rfl) (Control.free_lt hfree)
    (Control.free_none hfree) hzero hfresh
    rfl

theorem block_setControl (s : State) (kind : ControlKind) (i : Nat)
    (place : Option DMM_BUFFER_OBJ) {pDmmBuf : Nat → Option DMM_BUFFER_OBJ} (mapped : Nat → Bool)
    (dsp : Bridge) (outstanding : List Command) :
    Session.block ⟨s.setControl kind (⟨update pDmmBuf i place, mapped⟩, dsp), outstanding⟩
      kind i = place := by
  show (update s.controls kind ⟨update pDmmBuf i place, mapped⟩ kind).pDmmBuf i = _
  rw [update_self]
  exact update_self _ _ _

/-- A command in a free slot keeps the slots right exactly if its block, once allocated, is mapped
and its message is taken. -/
theorem Regular.sendFrom (h : σ.Regular) (hfree : (σ.lcml.controls kind).free = some i)
    (dwCmd : Nat) (checked : Bool) (args0 : Nat) (args1 : Ptr) (args2 : Nat)
    {answers : ControlAnswers} (put : Bool)
    (hpossible : ∀ m, answers.map.map = some m → m ≠ 0 ∧ ∀ kind i pDmmBuf,
      σ.block kind i = some pDmmBuf → pDmmBuf.pMapped ≠ m) :
    let r := σ.lcml.sendFrom kind i dwCmd checked args0 args1 args2 answers put
    let careful := Delivered args1 answers put ∧ (answers.malloc → checked)
    (careful → (σ.sent r).1.Regular) ∧
      ((σ.sent r).1.Matches → (σ.sent r).1.lcml.locked = false → careful) := by
  intro r careful
  have hempty : σ.block kind i = none := Control.free_none hfree
  have hlt : i < QUEUE_SIZE := Control.free_lt hfree
  rcases (σ.lcml.controls kind).send_cases i args1 args2 answers σ.lcml.dsp with
    ⟨hmalloc, hsend⟩ | ⟨hmalloc, hfails, eError, pDmmBuf, dsp, herror, hsend⟩ |
    ⟨hmalloc, harm, hreserve, pDmmBuf, dsp, hmap, hsend⟩
  · -- no block, and no change
    have hcareful : careful := by
      constructor <;> (intro htrue; rw [hmalloc] at htrue; cases htrue)
    have hr : r = (σ.lcml.setControl kind (σ.lcml.controls kind, σ.lcml.dsp),
        ⟨.OMX_ErrorInsufficientResources, none, none⟩) := by
      show State.sendFrom _ _ _ _ _ _ _ _ _ _ = _
      unfold State.sendFrom
      rw [hsend]
      rfl
    refine ⟨fun _ => ?_, fun _ _ => hcareful⟩
    rw [hr]
    exact h.congr (update_eq_self _ _) rfl (append_nil _)
  · -- a block that is not mapped stays in the slot
    have hr : r = (σ.lcml.setControl kind
        (⟨update (σ.lcml.controls kind).pDmmBuf i (some pDmmBuf),
          (σ.lcml.controls kind).mapped⟩, dsp), ⟨eError, none, none⟩) := by
      show State.sendFrom _ _ _ _ _ _ _ _ _ _ = _
      unfold State.sendFrom
      rw [hsend]
      exact if_pos herror
    refine ⟨fun hcareful => ?_, fun hmatches _ => ?_⟩
    · obtain ⟨harm, hreserve, hmap, -⟩ := hcareful.1 hmalloc
      exact absurd ⟨harm, hreserve, hmap⟩ hfails
    · rw [hr] at hmatches
      exact absurd hmatches (h.matched.not_of_filled hlt hempty
        (block_setControl _ kind i (some pDmmBuf) _ dsp _) (append_nil _))
  · have haddress : Control.address ⟨update (σ.lcml.controls kind).pDmmBuf i (some pDmmBuf),
        update (σ.lcml.controls kind).mapped i true⟩ i = pDmmBuf.pMapped := by
      show ((update (σ.lcml.controls kind).pDmmBuf i (some pDmmBuf) i).map
        (·.pMapped)).getD 0 = _
      rw [update_self]
      rfl
    have hr : r = if checked then
        (σ.lcml.setControl kind (⟨update (σ.lcml.controls kind).pDmmBuf i (some pDmmBuf),
          update (σ.lcml.controls kind).mapped i true⟩, dsp),
          post (some ⟨dwCmd, args0, pDmmBuf.pMapped⟩) (some ⟨kind, i, pDmmBuf.pMapped⟩) put)
        else ({ σ.lcml.setControl kind
          (⟨update (σ.lcml.controls kind).pDmmBuf i (some pDmmBuf),
            update (σ.lcml.controls kind).mapped i true⟩, dsp) with locked := true },
          ⟨.OMX_ErrorUndefined, none, none⟩) := by
      show State.sendFrom _ _ _ _ _ _ _ _ _ _ = _
      unfold State.sendFrom
      rw [hsend]
      dsimp only
      rw [haddress, if_neg (not_not.mpr rfl)]
    cases checked with
    | false =>
      refine ⟨fun hcareful => absurd (hcareful.2 hmalloc) Bool.false_ne_true, fun _ hlocked => ?_⟩
      rw [hr] at hlocked
      cases hlocked
    | true =>
      cases put with
      | false =>
        refine ⟨fun hcareful => absurd (hcareful.1 hmalloc).2.2.2 Bool.false_ne_true,
          fun hmatches _ => ?_⟩
        rw [hr] at hmatches
        exact absurd hmatches (h.matched.not_of_filled hlt hempty
          (block_setControl _ kind i (some pDmmBuf) _ dsp _) (append_nil _))
      | true =>
        refine ⟨fun _ => ?_, fun _ _ => ⟨fun _ => ⟨harm, hreserve, ?_, rfl⟩, fun _ => rfl⟩⟩
        · rw [hr]
          exact h.delivered hfree (hpossible _ hmap).1 (hpossible _ hmap).2 dsp
        · rw [hmap]
          exact some_ne_none _

/-! ## Steps -/

section Steps

variable {args0 : Nat} {args1 : Ptr} {args2 : Nat} {answers : ControlAnswers} {put : Bool}

/-- A step that goes on with the slots right. -/
def Continues (σ : Session) (e : ControlEvent) : Prop :=
  ∃ τ reply, σ.step e = some (τ, reply) ∧ τ.Regular ∧ σ.Responds τ reply e

theorem Continues.keeps (h : σ.Continues e) : σ.Keeps e := by
  obtain ⟨τ, reply, hstep, hregular, hresponds⟩ := h
  exact ⟨τ, reply, hstep, hregular.matched, hregular.unlocked, hresponds⟩

theorem Regular.step_eq (h : σ.Regular) {r : Option (Session × Reply)}
    (heq : σ.step e = if σ.lcml.locked then none else r) : σ.step e = r := by
  rw [heq, h.unlocked]
  rfl

theorem Regular.algCtrl (h : σ.Regular)
    (hpossible : σ.Possible (.AlgCtrl args0 args1 args2 answers put)) :
    (σ.Careful (.AlgCtrl args0 args1 args2 answers put) →
      σ.Continues (.AlgCtrl args0 args1 args2 answers put)) ∧
    (σ.Keeps (.AlgCtrl args0 args1 args2 answers put) →
      σ.Careful (.AlgCtrl args0 args1 args2 answers put)) := by
  have hstep : σ.step (.AlgCtrl args0 args1 args2 answers put) =
      some (σ.sent (σ.lcml.sendAlg args0 args1 args2 answers put)) := h.step_eq rfl
  cases hfree : (σ.lcml.controls .Algcntl).free with
  | none =>
    have hfull : σ.Full .Algcntl := full_iff.mpr hfree
    refine ⟨fun hcareful => absurd hfull hcareful.1, ?_⟩
    rintro ⟨τ, reply, hnext, -, hlocked, -⟩
    have hsend : σ.lcml.sendAlg args0 args1 args2 answers put =
        ({ σ.lcml with locked := true }, ⟨.OMX_ErrorNone, none, none⟩) := by
      unfold State.sendAlg
      rw [hfree]
    rw [hstep, hsend] at hnext
    cases hnext
    cases hlocked
  | some i =>
    have hroom : ¬ σ.Full .Algcntl := fun hfull => by
      cases hfree.symm.trans (full_iff.mp hfull)
    have hsend : σ.lcml.sendAlg args0 args1 args2 answers put =
        σ.lcml.sendFrom .Algcntl i USN_GPPMSG_ALGCTRL true args0 args1 args2 answers put := by
      unfold State.sendAlg
      rw [hfree]
    rw [hsend] at hstep
    have hslots := h.sendFrom hfree USN_GPPMSG_ALGCTRL true args0 args1 args2 put hpossible
    constructor
    · intro hcareful
      exact ⟨_, _, hstep, hslots.1 ⟨hcareful.2, fun _ => rfl⟩, fun hfull => absurd hfull hroom⟩
    · rintro ⟨τ, reply, hnext, hmatches, hlocked, -⟩
      rw [hstep] at hnext
      cases hnext
      exact ⟨hroom, (hslots.2 hmatches hlocked).1⟩

/-- A flush, which takes no slot. -/
theorem Regular.strmFlush (h : σ.Regular) (hflush : args0 = USN_STRMCMD_FLUSH) :
    (σ.Careful (.StrmCtrl args0 args1 args2 answers put) →
      σ.Continues (.StrmCtrl args0 args1 args2 answers put)) ∧
    (σ.Keeps (.StrmCtrl args0 args1 args2 answers put) →
      σ.Careful (.StrmCtrl args0 args1 args2 answers put)) := by
  have hcareful : σ.Careful (.StrmCtrl args0 args1 args2 answers put) = (args1 < 4) :=
    if_pos hflush
  have hstep : σ.step (.StrmCtrl args0 args1 args2 answers put) =
      (σ.lcml.sendStrm args0 args1 args2 answers put).map σ.sent := h.step_eq rfl
  unfold State.sendStrm at hstep
  rw [if_pos hflush] at hstep
  rw [hcareful]
  by_cases hlt : args1 < 4
  · rw [if_pos hlt] at hstep
    refine ⟨fun _ => ⟨_, _, hstep, h.congr rfl rfl ?_, fun hother => absurd hflush hother⟩,
      fun _ => hlt⟩
    cases put <;> exact append_nil _
  · rw [if_neg hlt] at hstep
    refine ⟨fun hin => absurd hin hlt, ?_⟩
    rintro ⟨τ, reply, hnext, -⟩
    rw [hstep] at hnext
    cases hnext

/-- Another stream-control command, which takes a slot. -/
theorem Regular.strmBlock (h : σ.Regular) (hother : args0 ≠ USN_STRMCMD_FLUSH)
    (hpossible : σ.Possible (.StrmCtrl args0 args1 args2 answers put)) :
    (σ.Careful (.StrmCtrl args0 args1 args2 answers put) →
      σ.Continues (.StrmCtrl args0 args1 args2 answers put)) ∧
    (σ.Keeps (.StrmCtrl args0 args1 args2 answers put) →
      σ.Careful (.StrmCtrl args0 args1 args2 answers put)) := by
  have hcareful : σ.Careful (.StrmCtrl args0 args1 args2 answers put) =
      ((σ.Full .Strmcntl → put = false) ∧ (¬ σ.Full .Strmcntl → Delivered args1 answers put ∧
          (answers.malloc → σ.lcml.TypeofRender = 1 ∨ σ.lcml.TypeofRender = 0))) :=
    if_neg hother
  have hstep : σ.step (.StrmCtrl args0 args1 args2 answers put) =
      (σ.lcml.sendStrm args0 args1 args2 answers put).map σ.sent := h.step_eq rfl
  unfold State.sendStrm State.sendStrmBlock at hstep
  rw [if_neg hother] at hstep
  rw [hcareful]
  cases hfree : (σ.lcml.controls .Strmcntl).free with
  | none =>
    have hfull : σ.Full .Strmcntl := full_iff.mpr hfree
    rw [hfree] at hstep
    cases put with
    | false =>
      have hrefused : Refused (post none none false) := ⟨nofun, rfl⟩
      exact ⟨fun _ => ⟨_, _, hstep, h.congr rfl rfl (append_nil _), fun _ _ => hrefused⟩,
        fun _ => ⟨fun _ => rfl, fun hroom => absurd hfull hroom⟩⟩
    | true =>
      refine ⟨fun hquiet => absurd (hquiet.1 hfull).symm Bool.false_ne_true, ?_⟩
      rintro ⟨τ, reply, hnext, -, -, hresponds⟩
      rw [hstep] at hnext
      cases hnext
      exact absurd rfl (hresponds hother hfull).1
  | some i =>
    have hroom : ¬ σ.Full .Strmcntl := fun hfull => by
      cases hfree.symm.trans (full_iff.mp hfull)
    rw [hfree] at hstep
    have hslots := h.sendFrom hfree
      (if σ.lcml.TypeofRender = 1 then USN_GPPMSG_STRMCTRL else USN_GPPMSG_STRMCTRL + 1)
      (σ.lcml.TypeofRender = 1 ∨ σ.lcml.TypeofRender = 0) args0 args1 args2 put hpossible
    simp only [decide_eq_true_eq] at hslots
    constructor
    · rintro ⟨-, hwhole⟩
      exact ⟨_, _, hstep, hslots.1 (hwhole hroom), fun _ hfull => absurd hfull hroom⟩
    · rintro ⟨τ, reply, hnext, hmatches, hlocked, -⟩
      rw [hstep] at hnext
      cases hnext
      exact ⟨fun hfull => absurd hfull hroom, fun _ => hslots.2 hmatches hlocked⟩

end Steps

/-- In a regular state, what a step has to meet and what it comes to. -/
theorem Regular.step (h : σ.Regular) (hpossible : σ.Possible e) :
    (σ.Careful e → σ.Continues e) ∧ (σ.Keeps e → σ.Careful e) := by
  cases e with
  | AlgCtrl args0 args1 args2 answers put => exact h.algCtrl hpossible
  | StrmCtrl args0 args1 args2 answers put =>
    by_cases hflush : args0 = USN_STRMCMD_FLUSH
    · exact h.strmFlush hflush
    · exact h.strmBlock hflush hpossible
  | ack c ok =>
    have hchanges := h.answered hpossible ok
    exact ⟨fun _ => ⟨_, _, h.step_eq rfl, h.emptied hpossible hchanges rfl, hchanges.block⟩,
      fun _ => trivial⟩
  | flushAck streamId ok =>
    exact ⟨fun _ => ⟨_, _, h.step_eq rfl, h.congr (h.flushAcked streamId ok)
      (State.streamAck_locked _ _ _ _) rfl, trivial⟩, fun _ => trivial⟩

end Session

/-- In every session the slots are right after each step exactly if each step meets the
condition. -/
theorem slots_match_iff (TypeofDevice TypeofRender : Int)
    (buf_invalidate_flag buf_flush_flag : Bool) (events : List ControlEvent)
    (hpossible : AlongSome Session.next Session.Possible
      (.start TypeofDevice TypeofRender buf_invalidate_flag buf_flush_flag) events) :
    AlongSome Session.next Session.Keeps
        (.start TypeofDevice TypeofRender buf_invalidate_flag buf_flush_flag) events ↔
      AlongSome Session.next Session.Careful
        (.start TypeofDevice TypeofRender buf_invalidate_flag buf_flush_flag) events := by
  refine hpossible.congr_invariant (Session.Regular.start ..) ?_ ?_
  · intro σ e hregular hpossible
    have hstep := hregular.step hpossible
    exact ⟨hstep.2, fun hcareful => (hstep.1 hcareful).keeps⟩
  · intro σ e τ hregular hpossible hcareful hnext
    obtain ⟨τ', reply, hstep, hτ, -⟩ := (hregular.step hpossible).1 hcareful
    unfold Session.next at hnext
    rw [hstep] at hnext
    cases hnext
    exact hτ

/-- A command whose block is mapped at 200, and its acknowledgement. -/
theorem sent_and_acknowledged : AlongSome Session.next Session.Keeps (.start 0 0 true true)
    [.AlgCtrl 1 100 4 ⟨true, ⟨some 300, some 200⟩⟩ true, .ack ⟨.Algcntl, 0, 200⟩ true] := by
  have hpossible : AlongSome Session.next Session.Possible (.start 0 0 true true)
      [.AlgCtrl 1 100 4 ⟨true, ⟨some 300, some 200⟩⟩ true, .ack ⟨.Algcntl, 0, 200⟩ true] := by
    refine ⟨fun m hm => ?_, fun σ hσ => ?_⟩
    · obtain rfl := some.inj hm
      exact ⟨by decide, nofun⟩
    · cases hσ
      exact ⟨mem_singleton_self _, fun _ _ => trivial⟩
  refine (slots_match_iff 0 0 true true _ hpossible).mpr ⟨⟨?_, ?_⟩, fun _ _ => ⟨trivial, ?_⟩⟩
  · intro hfull
    exact absurd rfl (hfull 0 (by decide))
  · exact fun _ => ⟨by decide, by decide, by decide, rfl⟩
  · exact fun _ _ => trivial

/-- The mapping of a block fails, and its slot stays in use with no command sent. -/
theorem unmapped_block_stays :
    ¬ ∀ TypeofDevice TypeofRender buf_invalidate_flag buf_flush_flag events,
      AlongSome Session.next Session.Possible
          (.start TypeofDevice TypeofRender buf_invalidate_flag buf_flush_flag) events →
        AlongSome Session.next Session.Keeps
          (.start TypeofDevice TypeofRender buf_invalidate_flag buf_flush_flag) events := by
  intro hall
  have hkeeps := hall 0 0 true true [.AlgCtrl 1 100 4 ⟨true, ⟨some 300, none⟩⟩ true]
    ⟨nofun, fun _ _ => trivial⟩
  obtain ⟨τ, reply, hstep, hmatches, -, -⟩ := hkeeps.1
  cases hstep
  exact absurd (hmatches.used .Algcntl 0 (by decide) _ rfl) not_mem_nil

end OmapHal.Lcml
