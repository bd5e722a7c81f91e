import OmapHal.Core.Run
import OmapHal.PolicyManager.Registry

/-!
# The two arrays against a ledger

A ledger kept beside the policy manager has, for each instance that was granted and not freed,
the component type and the priority it was granted with. The two arrays agree with it as long
as every free takes the same entries out of both.
-/

namespace OmapHal.PolicyManager

open Function Nat Option

variable {T : PolicyTable} {s : Pm} {cmd : PolicyCommand}

/-- The policy manager and the ledger beside it. -/
structure Books where
  pm : Pm
  ledger : Nat × Nat → Option ComponentPriority

def Books.start : Books := ⟨Pm.start, fun _ => none⟩

/-- A grant in the ledger; an instance that is granted again keeps its record. -/
def recordGrant (ledger : Nat × Nat → Option ComponentPriority) (who : Nat × Nat)
    (record : ComponentPriority) : Nat × Nat → Option ComponentPriority :=
  if (ledger who).isSome then ledger else Function.update ledger who (some record)

/-- A turn of the policy manager, with the ledger kept by its responses. -/
def Books.turn (T : PolicyTable) (b : Books) (cmd : PolicyCommand) : Option Books :=
  (handle T b.pm cmd).1.map fun pm =>
    { pm := pm
      ledger :=
        if b.pm.Exitflag = false ∧ cmd.PM_Cmd = .PM_FreePolicy then
          Function.update b.ledger cmd.subject none
        else if ⟨cmd.hComponent, cmd.nPid, .PM_GRANTPOLICY⟩ ∈ (handle T b.pm cmd).2 then
          recordGrant b.ledger cmd.subject (recordIn T cmd.param1 pm.activePolicyCombination)
        else b.ledger }

/-- The arrays are within their bounds, each entry is what the instance was granted with, and
each instance in the ledger occurs exactly once. -/
structure Books.Aligned (b : Books) : Prop where
  bound : b.pm.registeredComponents ≤ MAXCOMPONENTS
  recorded : ∀ i < b.pm.registeredComponents,
    b.ledger (b.pm.pComponentList i) = some (b.pm.activeComponentList i)
  once : ∀ who, (b.ledger who).isSome →
    ∃! i, i < b.pm.registeredComponents ∧ b.pm.pComponentList i = who

/-- What every turn keeps: the instances in the ledger are those of the first array. -/
structure Books.Kept (b : Books) : Prop where
  sound : b.pm.Sound
  known : ∀ who, (b.ledger who).isSome ↔ b.pm.Registered who

theorem Books.start_kept : Books.start.Kept where
  sound := Pm.start_sound
  known := fun _ => iff_of_false Bool.false_ne_true fun ⟨i, hi, _⟩ => not_lt_zero i hi

variable {b : Books}

/-- Where the instances agree, only the records can differ. -/
theorem Books.Kept.aligned_iff (h : b.Kept) :
    b.Aligned ↔ ∀ i < b.pm.registeredComponents,
      b.ledger (b.pm.pComponentList i) = some (b.pm.activeComponentList i) := by
  refine ⟨Books.Aligned.recorded, fun hrecorded => ⟨h.sound.bound, hrecorded, ?_⟩⟩
  intro who hwho
  obtain ⟨i, hi, hp⟩ := (h.known who).mp hwho
  refine ⟨i, ⟨hi, hp⟩, ?_⟩
  rintro j ⟨hj, hpj⟩
  exact h.sound.distinct j hj i hi (hpj.trans hp.symm)

theorem Books.start_aligned : Books.start.Aligned :=
  Books.start_kept.aligned_iff.mpr fun i hi => absurd hi (not_lt_zero i)

/-- A free takes entries with the same record, and all those between, out of both arrays. -/
def Pm.CompactsAlike (s : Pm) (cmd : PolicyCommand) : Prop :=
  ∀ j, min (s.typePlace cmd.param1) (s.instancePlace cmd.subject) ≤ j →
    j < max (s.typePlace cmd.param1) (s.instancePlace cmd.subject) →
      s.activeComponentList (j + 1) = s.activeComponentList j

/-- When a turn keeps the two arrays aligned. -/
def KeepsBooks (T : PolicyTable) (s : Pm) (cmd : PolicyCommand) : Prop :=
  s.Exitflag = false →
    match cmd.PM_Cmd with
    | .PM_RequestPolicy =>
      s.ListFits T cmd.param1 ∧ (s.Accepts T cmd.param1 → s.HasPlace cmd.subject)
    | .PM_WaitForPolicy => s.pendingComponents < MAXCOMPONENTS
    | .PM_FreePolicy => s.CompactsAlike cmd
    | .PM_FreeResources => s.HasLower T cmd → s.HasPlace cmd.subject
    | _ => True

/-- The active combination has no part in the books. -/
theorem Books.Kept.activate (h : b.Kept) (combination : Nat) :
    Books.Kept ⟨{ b.pm with activePolicyCombination := combination }, b.ledger⟩ :=
  ⟨⟨h.sound.bound, h.sound.distinct⟩, h.known⟩

theorem Books.Aligned.activate (h : b.Aligned) (combination : Nat) :
    Books.Aligned ⟨{ b.pm with activePolicyCombination := combination }, b.ledger⟩ :=
  ⟨h.bound, h.recorded, h.once⟩

section Addition

variable {who : Nat × Nat} {record : ComponentPriority}

/-- The books with a new instance. -/
def Books.add (b : Books) (who : Nat × Nat) (record : ComponentPriority) : Books :=
  ⟨b.pm.add who record, Function.update b.ledger who (some record)⟩

theorem Books.Kept.add (h : b.Kept) (record : ComponentPriority)
    (hplace : b.pm.registeredComponents < MAXCOMPONENTS) (hnew : ¬ b.pm.Registered who) :
    (b.add who record).Kept := by
  refine ⟨h.sound.add record hplace hnew, fun other => ?_⟩
  unfold Books.add
  dsimp only
  by_cases hwho : other = who
  · rw [hwho, update_self]
    exact iff_of_true rfl ⟨b.pm.registeredComponents, lt_succ_self _, update_self ..⟩
  · rw [update_of_ne hwho, h.known other]
    constructor
    · rintro ⟨i, hi, hp⟩
      exact ⟨i, Nat.lt_succ_of_lt hi, (update_of_ne (Nat.ne_of_lt hi) ..).trans hp⟩
    · rintro ⟨i, hi, hp⟩
      rcases Pm.add_entry who record hi with ⟨-, hpi, -⟩ | ⟨hin, hpi, -⟩
      · exact absurd (hp.symm.trans hpi) hwho
      · exact ⟨i, hin, hpi.symm.trans hp⟩

theorem Books.Aligned.add (h : b.Aligned) (hkept : (b.add who record).Kept)
    (hnew : ¬ b.pm.Registered who) : (b.add who record).Aligned := by
  refine hkept.aligned_iff.mpr fun i hi => ?_
  unfold Books.add
  dsimp only
  rcases Pm.add_entry who record hi with ⟨-, hpi, hai⟩ | ⟨hin, hpi, hai⟩
  · rw [hpi, hai, update_self]
  · have hold : b.pm.pComponentList i ≠ who := fun hp => hnew ⟨i, hin, hp⟩
    rw [hpi, hai, update_of_ne hold]
    exact h.recorded i hin

end Addition

/-- The books after a grant under a combination. -/
def Books.grant (T : PolicyTable) (b : Books) (cmd : PolicyCommand) (combination : Nat)
    (preempts : Bool) : Option Books :=
  (carryOut T b.pm cmd (.grant combination preempts)).1.map fun pm =>
    ⟨pm, recordGrant b.ledger cmd.subject (recordIn T cmd.param1 pm.activePolicyCombination)⟩

/-- A grant keeps the books, and the arrays aligned, if there is a place. -/
theorem Books.Kept.grant_cases {combination : Nat} (h : b.Kept) (preempts : Bool)
    (hhas : T.Has combination cmd.param1) :
    (b.pm.HasPlace cmd.subject ∧ ∃ t, b.grant T cmd combination preempts = some t ∧ t.Kept ∧
        (b.Aligned → t.Aligned)) ∨
      (¬ b.pm.HasPlace cmd.subject ∧ b.grant T cmd combination preempts = none) := by
  unfold Books.grant
  rcases carryOut_grant_cases (s := b.pm) preempts hhas with
    ⟨hreg, heq⟩ | ⟨hnew, hplace, heq⟩ | ⟨hnew, hplace, heq⟩
  · have hledger : ∀ record, recordGrant b.ledger cmd.subject record = b.ledger :=
      fun record => if_pos ((h.known _).mpr hreg)
    rw [heq, map_some, hledger]
    exact .inl ⟨.inl hreg, _, rfl, h.activate combination,
      fun haligned => haligned.activate combination⟩
  · have hledger : ∀ record, recordGrant b.ledger cmd.subject record =
        update b.ledger cmd.subject (some record) :=
      fun record => if_neg fun hsome => hnew ((h.known _).mp hsome)
    rw [heq, map_some, hledger]
    have hkept := h.add (recordIn T cmd.param1 combination) hplace hnew
    exact .inl ⟨.inr hplace, _, rfl, hkept.activate combination,
      fun haligned => (haligned.add hkept hnew).activate combination⟩
  · refine .inr ⟨?_, by rw [heq]; rfl⟩
    rintro (hreg | hlt)
    · exact hnew hreg
    · exact hplace hlt

/-- The books after a free. -/
def Books.free (b : Books) (cmd : PolicyCommand) : Books :=
  ⟨RemoveComponentFromList b.pm cmd.hComponent cmd.nPid cmd.param1,
    Function.update b.ledger cmd.subject none⟩

theorem Books.Kept.free (h : b.Kept) (cmd : PolicyCommand) : (b.free cmd).Kept := by
  refine ⟨h.sound.remove cmd, fun who => ?_⟩
  unfold Books.free Pm.Registered
  cases hk : b.pm.instanceIndex cmd.hComponent cmd.nPid with
  | some k =>
    obtain ⟨hn, -, hp⟩ := remove_of_registered hk
    obtain ⟨hlt, hsubject⟩ := subject_of_instanceIndex hk
    dsimp only
    rw [hn]
    by_cases hwho : who = cmd.subject
    · rw [hwho, update_self]
      refine iff_of_false Bool.false_ne_true ?_
      rintro ⟨i, hi, hpi⟩
      rw [hp i hi] at hpi
      exact pastPlace_ne k i
        (h.sound.distinct _ (pastPlace_lt hi) k hlt (hpi.trans hsubject.symm))
    · rw [update_of_ne hwho, h.known who]
      constructor
      · rintro ⟨j, hj, hpj⟩
        have hne : j ≠ k := by
          rintro rfl
          exact hwho (hpj.symm.trans hsubject)
        obtain ⟨i, hi, rfl⟩ := exists_pastPlace hj hne hlt
        exact ⟨i, hi, (hp i hi).trans hpj⟩
      · rintro ⟨i, hi, hpi⟩
        exact ⟨_, pastPlace_lt hi, (hp i hi).symm.trans hpi⟩
  | none =>
    obtain ⟨hn, -, hp⟩ := remove_of_unknown hk
    have hnew := (instanceIndex_eq_none cmd.subject).mp hk
    dsimp only
    rw [hn, hp]
    by_cases hwho : who = cmd.subject
    · rw [hwho, update_self]
      exact iff_of_false Bool.false_ne_true hnew
    · rw [update_of_ne hwho]
      exact h.known who

/-- Two places that entries are taken out of leave the same entries if those between agree. -/
theorem pastPlace_agree_iff {α : Type*} (f : Nat → α) {k m n : Nat} (hk : k ≤ n) (hm : m ≤ n) :
    (∀ i < n, f (pastPlace k i) = f (pastPlace m i)) ↔
      ∀ j, min m k ≤ j → j < max m k → f (j + 1) = f j := by
  unfold pastPlace
  constructor
  · intro h j hmin hmax
    have hj := h j (by omega)
    by_cases hkj : k ≤ j
    · rw [if_pos hkj, if_neg (by omega)] at hj
      exact hj
    · rw [if_neg hkj, if_pos (by omega)] at hj
      exact hj.symm
  · intro h i _
    by_cases hki : k ≤ i <;> by_cases hmi : m ≤ i
    · rw [if_pos hki, if_pos hmi]
    · rw [if_pos hki, if_neg hmi]
      exact h i (by omega) (by omega)
    · rw [if_neg hki, if_pos hmi]
      exact (h i (by omega) (by omega)).symm
    · rw [if_neg hki, if_neg hmi]

/-- A free keeps the arrays aligned exactly if it takes like entries out of both. -/
theorem Books.Kept.free_aligned_iff (h : b.Kept) (haligned : b.Aligned) (cmd : PolicyCommand) :
    (b.free cmd).Aligned ↔ b.pm.CompactsAlike cmd := by
  have hm := typePlace_le b.pm cmd.param1
  rw [(h.free cmd).aligned_iff]
  unfold Pm.CompactsAlike Books.free
  dsimp only
  cases hk : b.pm.instanceIndex cmd.hComponent cmd.nPid with
  | some k =>
    obtain ⟨hn, hplace, hp⟩ := remove_of_registered hk
    obtain ⟨hlt, hsubject⟩ := subject_of_instanceIndex hk
    rw [hn, hplace, ← pastPlace_agree_iff _ (le_sub_one_of_lt hlt) hm]
    refine forall₂_congr fun i hi => ?_
    have hne : b.pm.pComponentList (pastPlace k i) ≠ cmd.subject := fun heq =>
      pastPlace_ne k i (h.sound.distinct _ (pastPlace_lt hi) k hlt (heq.trans hsubject.symm))
    rw [hp i hi, update_of_ne hne, haligned.recorded _ (pastPlace_lt hi),
      remove_activeComponentList b.pm cmd hi, some_inj]
  | none =>
    obtain ⟨hn, hplace, hp⟩ := remove_of_unknown hk
    have hnew := (instanceIndex_eq_none cmd.subject).mp hk
    rw [hn, hp, hplace, ← pastPlace_agree_iff _ (le_refl _) hm]
    constructor
    · intro hrecorded i hi
      have hi' : i < b.pm.registeredComponents := by omega
      have hne : b.pm.pComponentList i ≠ cmd.subject := fun heq => hnew ⟨i, hi', heq⟩
      have hafter := hrecorded i hi'
      rw [update_of_ne hne, haligned.recorded i hi',
        remove_activeComponentList b.pm cmd hi, some_inj] at hafter
      rw [← hafter]
      unfold pastPlace
      rw [if_neg (not_le.mpr hi)]
    · intro hagree i hi
      have hne : b.pm.pComponentList i ≠ cmd.subject := fun heq => hnew ⟨i, hi, heq⟩
      rw [update_of_ne hne, haligned.recorded i hi, some_inj]
      by_cases hlast : i < b.pm.registeredComponents - 1
      · have hi' := hagree i hlast
        rw [remove_activeComponentList b.pm cmd hlast, ← hi']
        unfold pastPlace
        rw [if_neg (not_le.mpr hlast)]
      · rw [remove_activeComponentList_last b.pm cmd hlast]

/-- A turn that is no free, by its responses. -/
theorem Books.turn_of_handle {pm : Option Pm} {responses : List PolicyResponse}
    (hhandle : handle T b.pm cmd = (pm, responses))
    (hfree : ¬ (b.pm.Exitflag = false ∧ cmd.PM_Cmd = .PM_FreePolicy)) :
    b.turn T cmd = pm.map fun pm =>
      ⟨pm, if ⟨cmd.hComponent, cmd.nPid, .PM_GRANTPOLICY⟩ ∈ responses then
          recordGrant b.ledger cmd.subject (recordIn T cmd.param1 pm.activePolicyCombination)
        else b.ledger⟩ := by
  unfold Books.turn
  rw [hhandle]
  simp only [if_neg hfree]

/-- The books after a decision is carried out. -/
def Books.decided (T : PolicyTable) (b : Books) (cmd : PolicyCommand) : Decision → Option Books
  | .overrun => none
  | .deny => some b
  | .grant combination preempts => b.grant T cmd combination preempts

theorem Books.decided_of_responses {d : Decision} {responses : List PolicyResponse}
    (h : ⟨cmd.hComponent, cmd.nPid, .PM_GRANTPOLICY⟩ ∈ responses ↔
      ∃ combination preempts, d = .grant combination preempts) :
    ((carryOut T b.pm cmd d).1.map fun pm =>
      (⟨pm, if ⟨cmd.hComponent, cmd.nPid, .PM_GRANTPOLICY⟩ ∈ responses then
          recordGrant b.ledger cmd.subject (recordIn T cmd.param1 pm.activePolicyCombination)
        else b.ledger⟩ : Books)) = b.decided T cmd d := by
  cases d with
  | overrun => rfl
  | deny =>
    have hnot : ⟨cmd.hComponent, cmd.nPid, .PM_GRANTPOLICY⟩ ∉ responses := by
      rw [h]
      rintro ⟨_, _, heq⟩
      cases heq
    simp only [if_neg hnot]
    rfl
  | grant combination preempts =>
    simp only [if_pos (h.mpr ⟨combination, preempts, rfl⟩)]
    rfl

theorem Books.turn_request (hrun : b.pm.Exitflag = false) (hcmd : cmd.PM_Cmd = .PM_RequestPolicy) :
    b.turn T cmd = b.decided T cmd (decision T b.pm cmd.param1) := by
  rw [Books.turn_of_handle (handle_request hrun hcmd) (by simp [hcmd])]
  exact Books.decided_of_responses (responses_of_carryOut T b.pm cmd _).1

/-- Another's resources are asked for: a grant under the active combination, or a denial. -/
theorem Books.turn_freeResources (hrun : b.pm.Exitflag = false)
    (hcmd : cmd.PM_Cmd = .PM_FreeResources) :
    b.turn T cmd = b.decided T cmd
      (if (lowestPriorityIndex T b.pm cmd).isSome then
        .grant b.pm.activePolicyCombination false else .deny) := by
  have hhandle := handle_freeResources (T := T) hrun hcmd
  rw [HandleFreeResources_eq] at hhandle
  cases hlowest : lowestPriorityIndex T b.pm cmd with
  | none =>
    rw [hlowest] at hhandle
    rw [Books.turn_of_handle hhandle (by simp [hcmd])]
    exact Books.decided_of_responses (d := .deny) (responses_of_carryOut T b.pm cmd .deny).1
  | some i =>
    rw [hlowest] at hhandle
    rw [Books.turn_of_handle hhandle (by simp [hcmd])]
    refine Books.decided_of_responses (d := .grant b.pm.activePolicyCombination false)
      (iff_of_true ?_ ⟨_, _, rfl⟩)
    exact List.mem_cons_of_mem _ ((responses_of_carryOut T b.pm cmd _).1.mpr ⟨_, _, rfl⟩)

theorem Books.turn_free (hrun : b.pm.Exitflag = false) (hcmd : cmd.PM_Cmd = .PM_FreePolicy) :
    b.turn T cmd = some (b.free cmd) := by
  unfold Books.turn
  rw [handle_free hrun hcmd]
  simp only [if_pos (And.intro hrun hcmd)]
  rfl

/-- A turn without responses that is no free leaves the ledger as it is. -/
theorem Books.turn_silent {pm : Option Pm} (hhandle : handle T b.pm cmd = (pm, []))
    (hfree : ¬ (b.pm.Exitflag = false ∧ cmd.PM_Cmd = .PM_FreePolicy)) :
    b.turn T cmd = pm.map fun pm => ⟨pm, b.ledger⟩ := by
  rw [Books.turn_of_handle hhandle hfree]
  simp only [List.not_mem_nil, if_false]

theorem Books.Kept.same {t : Pm} (h : b.Kept) (hsame : b.pm.SameArrays t) :
    Books.Kept ⟨t, b.ledger⟩ :=
  ⟨hsame.sound h.sound, fun who => (h.known who).trans hsame.registered_iff.symm⟩

theorem Books.Aligned.same {t : Pm} (h : b.Aligned) (hsame : b.pm.SameArrays t) :
    Books.Aligned ⟨t, b.ledger⟩ := by
  constructor
  · exact hsame.registeredComponents ▸ h.bound
  · dsimp only
    rw [hsame.registeredComponents, hsame.pComponentList, hsame.activeComponentList]
    exact h.recorded
  · dsimp only
    rw [hsame.registeredComponents, hsame.pComponentList]
    exact h.once

/-- What a turn leads to, and when it keeps the arrays aligned. -/
structure TurnKeeps (T : PolicyTable) (b : Books) (cmd : PolicyCommand) : Prop where
  kept : ∀ t, b.turn T cmd = some t → t.Kept
  aligned_iff : b.Aligned → ((∃ t, b.turn T cmd = some t ∧ t.Aligned) ↔ KeepsBooks T b.pm cmd)

/-- A turn that fails, by its condition. -/
theorem TurnKeeps.fails (hturn : b.turn T cmd = none) (hnot : ¬ KeepsBooks T b.pm cmd) :
    TurnKeeps T b cmd where
  kept := fun t ht => by
    rw [hturn] at ht
    cases ht
  aligned_iff := fun _ => iff_of_false (fun ⟨t, ht, _⟩ => by rw [hturn] at ht; cases ht) hnot

/-- A turn that succeeds and keeps the arrays aligned, by its condition. -/
theorem TurnKeeps.keeps {t : Books} (hturn : b.turn T cmd = some t) (hkept : t.Kept)
    (haligned : b.Aligned → t.Aligned) (hok : KeepsBooks T b.pm cmd) : TurnKeeps T b cmd where
  kept := fun u hu => by
    rw [hturn] at hu
    exact some.inj hu ▸ hkept
  aligned_iff := fun h => iff_of_true ⟨t, hturn, haligned h⟩ hok

theorem Books.Kept.turnKeeps_grant {combination : Nat} {preempts : Bool} (h : b.Kept)
    (hhas : T.Has combination cmd.param1)
    (hturn : b.turn T cmd = b.grant T cmd combination preempts)
    (hok : KeepsBooks T b.pm cmd ↔ b.pm.HasPlace cmd.subject) : TurnKeeps T b cmd := by
  rcases h.grant_cases preempts hhas with ⟨hplace, t, heq, hkept, haligned⟩ | ⟨hplace, heq⟩
  · exact .keeps (hturn.trans heq) hkept haligned (hok.mpr hplace)
  · exact .fails (hturn.trans heq) fun hkeeps => hplace (hok.mp hkeeps)

/-- Every turn keeps the books, and the arrays aligned exactly under its condition. -/
theorem Books.Kept.turnKeeps (h : b.Kept) (cmd : PolicyCommand) : TurnKeeps T b cmd := by
  have hsame : ∀ {t : Pm}, handle T b.pm cmd = (some t, []) → b.pm.SameArrays t →
      ¬ (b.pm.Exitflag = false ∧ cmd.PM_Cmd = .PM_FreePolicy) → KeepsBooks T b.pm cmd →
        TurnKeeps T b cmd := fun hhandle hs hfree hok =>
    .keeps (Books.turn_silent hhandle hfree) (h.same hs) (fun ha => ha.same hs) hok
  cases hrun : b.pm.Exitflag with
  | true =>
    refine hsame (handle_exited T cmd hrun) ⟨rfl, rfl, rfl, rfl⟩ ?_ ?_
    · exact fun hf => Bool.false_ne_true (hf.1.symm.trans hrun)
    · exact fun hf => absurd (hf.symm.trans hrun) Bool.false_ne_true
  | false =>
    have hkeeps : KeepsBooks T b.pm cmd ↔
        match cmd.PM_Cmd with
        | .PM_RequestPolicy => b.pm.ListFits T cmd.param1 ∧
            (b.pm.Accepts T cmd.param1 → b.pm.HasPlace cmd.subject)
        | .PM_WaitForPolicy => b.pm.pendingComponents < MAXCOMPONENTS
        | .PM_FreePolicy => b.pm.CompactsAlike cmd
        | .PM_FreeResources => b.pm.HasLower T cmd → b.pm.HasPlace cmd.subject
        | _ => True := forall_prop_of_true hrun
    by_cases hrequest : cmd.PM_Cmd = .PM_RequestPolicy
    · have hturn := Books.turn_request (T := T) hrun hrequest
      simp only [hrequest] at hkeeps
      by_cases hfits : b.pm.ListFits T cmd.param1
      · have hgrants := decision_grants_iff hfits
        rw [and_iff_right hfits] at hkeeps
        cases hdecision : decision T b.pm cmd.param1 with
        | overrun => exact absurd hfits (decision_eq_overrun_iff.mp hdecision)
        | deny =>
          rw [hdecision] at hturn hgrants
          refine .keeps hturn h id (hkeeps.mpr fun haccepts => ?_)
          obtain ⟨_, _, heq⟩ := hgrants.mpr haccepts
          cases heq
        | grant combination preempts =>
          rw [hdecision] at hturn hgrants
          rw [forall_prop_of_true (hgrants.mp ⟨_, _, rfl⟩)] at hkeeps
          exact h.turnKeeps_grant (has_of_decision hdecision) hturn hkeeps
      · rw [decision_eq_overrun_iff.mpr hfits] at hturn
        exact .fails hturn fun hk => hfits (hkeeps.mp hk).1
    by_cases hwait : cmd.PM_Cmd = .PM_WaitForPolicy
    · simp only [hwait] at hkeeps
      have hfree : ¬ (b.pm.Exitflag = false ∧ cmd.PM_Cmd = .PM_FreePolicy) := by simp [hwait]
      rcases handle_wait (T := T) hrun hwait with ⟨hplace, t, hhandle, hs⟩ | ⟨hplace, hhandle⟩
      · exact hsame hhandle hs hfree (hkeeps.mpr hplace)
      · exact .fails (Books.turn_silent hhandle hfree) fun hk => hplace (hkeeps.mp hk)
    by_cases hfree : cmd.PM_Cmd = .PM_FreePolicy
    · simp only [hfree] at hkeeps
      have hturn := Books.turn_free (T := T) hrun hfree
      refine ⟨fun t ht => ?_, fun ha => ?_⟩
      · rw [hturn] at ht
        exact some.inj ht ▸ h.free cmd
      · rw [hkeeps, ← h.free_aligned_iff ha, hturn]
        exact ⟨fun ⟨t, ht, hta⟩ => some.inj ht ▸ hta, fun hta => ⟨_, rfl, hta⟩⟩
    by_cases hresources : cmd.PM_Cmd = .PM_FreeResources
    · simp only [hresources] at hkeeps
      have hturn := Books.turn_freeResources (T := T) hrun hresources
      by_cases hlower : b.pm.HasLower T cmd
      · rw [if_pos (lowestPriorityIndex_isSome_iff.mpr hlower)] at hturn
        rw [forall_prop_of_true hlower] at hkeeps
        exact h.turnKeeps_grant hlower.has hturn hkeeps
      · rw [if_neg fun hsome => hlower (lowestPriorityIndex_isSome_iff.mp hsome)] at hturn
        exact .keeps hturn h id (hkeeps.mpr fun hl => absurd hl hlower)
    · obtain ⟨t, hhandle, hs⟩ :=
        handle_other (T := T) hrun hrequest hwait hfree hresources
      refine hsame hhandle hs (fun hf => hfree hf.2) (hkeeps.mpr ?_)
      cases hcmd : cmd.PM_Cmd with
      | PM_RequestPolicy => exact absurd hcmd hrequest
      | PM_WaitForPolicy => exact absurd hcmd hwait
      | PM_FreePolicy => exact absurd hcmd hfree
      | PM_FreeResources => exact absurd hcmd hresources
      | PM_ExitTI | PM_CancelWaitForPolicy | PM_StateSet | PM_OpenPipe | PM_Exit | PM_Init
      | PM_unknown => trivial

/-- The arrays are aligned with the ledger after every part of a run exactly if every command of
the run keeps them so. -/
theorem books_aligned_iff (T : PolicyTable) (cmds : List PolicyCommand) :
    (∀ done, done <+: cmds → ∃ b, done.foldlM (Books.turn T) Books.start = some b ∧ b.Aligned) ↔
      Core.AlongSome (Books.turn T) (fun b cmd => KeepsBooks T b.pm cmd) Books.start cmds :=
  (Core.AlongSome.iff_invariant (I := Books.Kept) Books.start_kept Books.start_aligned
    (fun _ cmd t h ht => (h.turnKeeps cmd).kept t ht)
    (fun _ cmd h ha => (h.turnKeeps cmd).aligned_iff ha)).symm

/-- Two component types with different priorities. -/
def mixedTable : PolicyTable where
  rows := [[⟨0, 5⟩, ⟨1, 6⟩]]
  numCombinations_le := by decide
  length_le := by decide
  component_lt := by decide
  priority_lt := by decide

/-- Instances of types 0, 1 and 0 are granted and the last one is freed. -/
def secondOfTypeFreed : List PolicyCommand :=
  [⟨.PM_RequestPolicy, 0, 1, 1⟩, ⟨.PM_RequestPolicy, 1, 2, 1⟩, ⟨.PM_RequestPolicy, 0, 3, 1⟩,
    ⟨.PM_FreePolicy, 0, 3, 1⟩]

/-- The free of the second instance of a type leaves the first with the record of another. -/
theorem freed_type_misaligned :
    ¬ ∀ (T : PolicyTable) (cmds : List PolicyCommand),
      ∃ b, cmds.foldlM (Books.turn T) Books.start = some b ∧ b.Aligned := by
  intro h
  obtain ⟨b, hb, haligned⟩ := h mixedTable secondOfTypeFreed
  have hend : (secondOfTypeFreed.foldlM (Books.turn mixedTable) Books.start).map
      (fun b => (b.pm.registeredComponents, b.ledger (b.pm.pComponentList 0),
        b.pm.activeComponentList 0)) = some (2, some ⟨0, 5⟩, ⟨1, 6⟩) := by decide
  rw [hb, map_some, some.injEq, Prod.mk.injEq, Prod.mk.injEq] at hend
  have hfirst := haligned.recorded 0 (by rw [hend.1]; decide)
  rw [hend.2.1, hend.2.2] at hfirst
  cases hfirst

end OmapHal.PolicyManager
