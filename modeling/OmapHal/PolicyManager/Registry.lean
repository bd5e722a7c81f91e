import OmapHal.PolicyManager.Decision

/-!
# The registry of granted instances

What a grant and a free do to the two arrays. A grant puts an instance that is new at the end of
both. A free takes an entry out of each: out of the first where the instance stands, out of the
second where its component type stands first.
-/

namespace OmapHal.PolicyManager

open List Nat Function Option

variable {i k combination place n j : Nat} {who : Nat × Nat} {t : Pm}

variable {T : PolicyTable} {s : Pm} {cmd : PolicyCommand}

/-- The instance that a command is about. -/
def PolicyCommand.subject (cmd : PolicyCommand) : Nat × Nat := (cmd.hComponent, cmd.nPid)

/-- An instance stands in the first array. -/
def Pm.Registered (s : Pm) (who : Nat × Nat) : Prop :=
  ∃ i < s.registeredComponents, s.pComponentList i = who

/-- There is a place for an instance in the arrays. -/
def Pm.HasPlace (s : Pm) (who : Nat × Nat) : Prop :=
  s.Registered who ∨ s.registeredComponents < MAXCOMPONENTS

/-- The registry is within its arrays and has no instance twice. -/
structure Pm.Sound (s : Pm) : Prop where
  bound : s.registeredComponents ≤ MAXCOMPONENTS
  distinct : ∀ i < s.registeredComponents, ∀ j < s.registeredComponents,
    s.pComponentList i = s.pComponentList j → i = j

theorem Pm.start_sound : Pm.start.Sound where
  bound := zero_le _
  distinct := fun i hi => absurd hi (not_lt_zero i)

/-- An instance put at the end of the two arrays. -/
def Pm.add (s : Pm) (who : Nat × Nat) (record : ComponentPriority) : Pm :=
  { s with
    activeComponentList := Function.update s.activeComponentList s.registeredComponents record
    pComponentList := Function.update s.pComponentList s.registeredComponents who
    registeredComponents := s.registeredComponents + 1 }

section Addition

variable {who : Nat × Nat} {record : ComponentPriority}

@[simp] theorem Pm.add_registeredComponents :
    (s.add who record).registeredComponents = s.registeredComponents + 1 := rfl

/-- The entries after an addition: the new one at the end, the others as they were. -/
theorem Pm.add_entry (who : Nat × Nat) (record : ComponentPriority)
    (hi : i < s.registeredComponents + 1) :
    (i = s.registeredComponents ∧ (s.add who record).pComponentList i = who ∧
        (s.add who record).activeComponentList i = record) ∨
      (i < s.registeredComponents ∧ (s.add who record).pComponentList i = s.pComponentList i ∧
        (s.add who record).activeComponentList i = s.activeComponentList i) := by
  unfold Pm.add
  by_cases heq : i = s.registeredComponents
  · subst heq
    exact .inl ⟨rfl, update_self .., update_self ..⟩
  · exact .inr ⟨by omega, update_of_ne heq .., update_of_ne heq ..⟩

theorem Pm.Sound.add (h : s.Sound) (record : ComponentPriority)
    (hplace : s.registeredComponents < MAXCOMPONENTS) (hnew : ¬ s.Registered who) :
    (s.add who record).Sound where
  bound := hplace
  distinct := by
    intro i hi j hj heq
    rw [Pm.add_registeredComponents] at hi hj
    rcases Pm.add_entry who record hi with ⟨hin, hpi, -⟩ | ⟨hin, hpi, -⟩ <;>
      rcases Pm.add_entry who record hj with ⟨hjn, hpj, -⟩ | ⟨hjn, hpj, -⟩ <;>
        rw [hpi, hpj] at heq
    · exact hin.trans hjn.symm
    · exact absurd ⟨j, hjn, heq.symm⟩ hnew
    · exact absurd ⟨i, hin, heq⟩ hnew
    · exact h.distinct i hin j hjn heq

end Addition

theorem instanceIndex_eq_some (h : s.instanceIndex who.1 who.2 = some k) :
    k < s.registeredComponents ∧ s.pComponentList k = who := by
  have hmem := mem_of_find?_eq_some h
  have hp := find?_some h
  exact ⟨mem_range.mp hmem, eq_of_beq hp⟩

theorem subject_of_instanceIndex (h : s.instanceIndex cmd.hComponent cmd.nPid = some k) :
    k < s.registeredComponents ∧ s.pComponentList k = cmd.subject :=
  instanceIndex_eq_some h

theorem instanceIndex_eq_none (who : Nat × Nat) :
    s.instanceIndex who.1 who.2 = none ↔ ¬ s.Registered who := by
  unfold Pm.instanceIndex Pm.Registered
  simp only [find?_eq_none, mem_range, beq_iff_eq, not_exists, not_and]

/-- A grant leaves a registered instance as it is and adds any other, if there is a place. -/
theorem GrantPolicy_cases (s : Pm) (who : Nat × Nat) (aComponentIndex aPriority : Int) :
    (s.Registered who ∧ (GrantPolicy s who.1 aComponentIndex aPriority who.2).1 = some s) ∨
      (¬ s.Registered who ∧ s.registeredComponents < MAXCOMPONENTS ∧
        (GrantPolicy s who.1 aComponentIndex aPriority who.2).1 =
          some (s.add who ⟨toU8 aComponentIndex, toU8 aPriority⟩)) ∨
      (¬ s.Registered who ∧ ¬ s.registeredComponents < MAXCOMPONENTS ∧
        (GrantPolicy s who.1 aComponentIndex aPriority who.2).1 = none) := by
  unfold GrantPolicy
  cases hk : s.instanceIndex who.1 who.2 with
  | some k => exact .inl ⟨⟨k, instanceIndex_eq_some hk⟩, rfl⟩
  | none =>
    have hnew := (instanceIndex_eq_none who).mp hk
    dsimp only
    split
    · rename_i hplace
      exact .inr (.inl ⟨hnew, hplace, rfl⟩)
    · rename_i hplace
      exact .inr (.inr ⟨hnew, hplace, rfl⟩)

/-- The record of a component type under a combination. -/
def recordIn (T : PolicyTable) (component combination : Nat) : ComponentPriority :=
  ⟨component, (GetPriority T component combination).toNat⟩

/-- The values of the table fit the bytes they are stored in. -/
theorem toU8_record {component : Nat} (h : T.Has combination component) :
    (⟨toU8 component, toU8 (GetPriority T component combination)⟩ : ComponentPriority) =
      recordIn T component combination := by
  obtain ⟨e, he, hpriority⟩ := GetPriority_of_has h
  obtain ⟨row, hrow, -⟩ := PolicyTable.has_iff.mp h
  have hrowEq : T.row combination = row := by
    unfold PolicyTable.row
    rw [getD_eq_getElem?_getD, hrow]
    rfl
  have hmem : row ∈ T.rows := mem_of_getElem? hrow
  rw [hrowEq] at he
  have he' := mem_of_find?_eq_some he
  have hcomponent := T.component_lt row hmem e he'
  have hlt := T.priority_lt row hmem e he'
  have hsame : e.component = component := by
    have hfound := find?_some (p := fun e : ComponentPriority => e.component == component) he
    exact eq_of_beq hfound
  unfold recordIn toU8
  rw [hpriority]
  unfold PM_NUM_COMPONENTS at hcomponent
  congr 1 <;> omega

/-- A granted request leaves a registered instance as it is and adds any other, if there is a
place; the combination becomes the active one. -/
theorem carryOut_grant_cases (preempts : Bool) (h : T.Has combination cmd.param1) :
    (s.Registered cmd.subject ∧ (carryOut T s cmd (.grant combination preempts)).1 =
        some { s with activePolicyCombination := combination }) ∨
      (¬ s.Registered cmd.subject ∧ s.registeredComponents < MAXCOMPONENTS ∧
        (carryOut T s cmd (.grant combination preempts)).1 =
          some { s.add cmd.subject (recordIn T cmd.param1 combination) with
            activePolicyCombination := combination }) ∨
      (¬ s.Registered cmd.subject ∧ ¬ s.registeredComponents < MAXCOMPONENTS ∧
        (carryOut T s cmd (.grant combination preempts)).1 = none) := by
  have hcarry : (carryOut T s cmd (.grant combination preempts)).1 =
      (GrantPolicy s cmd.subject.1 cmd.param1 (GetPriority T cmd.param1 combination)
        cmd.subject.2).1.map fun s => { s with activePolicyCombination := combination } := rfl
  rw [hcarry, ← toU8_record h]
  rcases GrantPolicy_cases s cmd.subject cmd.param1 (GetPriority T cmd.param1 combination) with
    ⟨hreg, heq⟩ | ⟨hnew, hplace, heq⟩ | ⟨hnew, hplace, heq⟩
  · exact .inl ⟨hreg, by rw [heq]; rfl⟩
  · exact .inr (.inl ⟨hnew, hplace, by rw [heq]; rfl⟩)
  · exact .inr (.inr ⟨hnew, hplace, by rw [heq]; rfl⟩)

/-- The place that an entry comes from once the entry at a place is gone. -/
def pastPlace (place i : Nat) : Nat := if place ≤ i then i + 1 else i

theorem moveDown_of_lt {α : Type*} (f : Nat → α) (hi : i < n - 1) :
    moveDown place n f i = f (pastPlace place i) := by
  unfold moveDown pastPlace
  by_cases hle : place ≤ i
  · rw [if_pos ⟨hle, hi⟩, if_pos hle]
  · rw [if_neg fun h => hle h.1, if_neg hle]

/-- The place that a free takes out of the first array, the last if there is none. -/
def Pm.instancePlace (s : Pm) (who : Nat × Nat) : Nat :=
  (s.instanceIndex who.1 who.2).getD (s.registeredComponents - 1)

/-- The place that a free takes out of the second array, the last if there is none. -/
def Pm.typePlace (s : Pm) (component : Nat) : Nat :=
  (s.typeIndex component).getD (s.registeredComponents - 1)

theorem typePlace_le (s : Pm) (component : Nat) :
    s.typePlace component ≤ s.registeredComponents - 1 := by
  unfold Pm.typePlace
  cases h : s.typeIndex component with
  | none => exact le_refl _
  | some m =>
    have hm := mem_range.mp (mem_of_find?_eq_some h)
    exact le_sub_one_of_lt hm

theorem remove_activeComponentList_eq (s : Pm) (cmd : PolicyCommand) :
    (RemoveComponentFromList s cmd.hComponent cmd.nPid cmd.param1).activeComponentList =
      (s.typeIndex cmd.param1).elim s.activeComponentList fun m =>
        moveDown m s.registeredComponents s.activeComponentList := by
  unfold RemoveComponentFromList
  cases s.instanceIndex cmd.hComponent cmd.nPid <;> cases s.typeIndex cmd.param1 <;> rfl

theorem remove_activeComponentList (s : Pm) (cmd : PolicyCommand)
    (hi : i < s.registeredComponents - 1) :
    (RemoveComponentFromList s cmd.hComponent cmd.nPid cmd.param1).activeComponentList i =
      s.activeComponentList (pastPlace (s.typePlace cmd.param1) i) := by
  rw [remove_activeComponentList_eq, Pm.typePlace]
  cases s.typeIndex cmd.param1 with
  | some m => exact moveDown_of_lt _ hi
  | none =>
    dsimp only [getD_none, elim_none]
    unfold pastPlace
    rw [if_neg (not_le.mpr hi)]

/-- The last entry of the second array stays where it is. -/
theorem remove_activeComponentList_last (s : Pm) (cmd : PolicyCommand)
    (hi : ¬ i < s.registeredComponents - 1) :
    (RemoveComponentFromList s cmd.hComponent cmd.nPid cmd.param1).activeComponentList i =
      s.activeComponentList i := by
  rw [remove_activeComponentList_eq]
  cases s.typeIndex cmd.param1 with
  | some m => exact if_neg fun h => hi h.2
  | none => rfl

/-- The first array after the free of a registered instance. -/
theorem remove_of_registered (hk : s.instanceIndex cmd.hComponent cmd.nPid = some k) :
    (RemoveComponentFromList s cmd.hComponent cmd.nPid cmd.param1).registeredComponents =
        s.registeredComponents - 1 ∧
      s.instancePlace cmd.subject = k ∧
      ∀ i < s.registeredComponents - 1,
        (RemoveComponentFromList s cmd.hComponent cmd.nPid cmd.param1).pComponentList i =
          s.pComponentList (pastPlace k i) := by
  unfold RemoveComponentFromList
  rw [hk]
  refine ⟨rfl, ?_, fun i hi => moveDown_of_lt _ hi⟩
  unfold Pm.instancePlace PolicyCommand.subject
  rw [hk]
  rfl

/-- The first array after the free of an unknown instance. -/
theorem remove_of_unknown (hk : s.instanceIndex cmd.hComponent cmd.nPid = none) :
    (RemoveComponentFromList s cmd.hComponent cmd.nPid cmd.param1).registeredComponents =
        s.registeredComponents ∧
      s.instancePlace cmd.subject = s.registeredComponents - 1 ∧
      (RemoveComponentFromList s cmd.hComponent cmd.nPid cmd.param1).pComponentList =
        s.pComponentList := by
  unfold RemoveComponentFromList
  rw [hk]
  refine ⟨rfl, ?_, rfl⟩
  unfold Pm.instancePlace PolicyCommand.subject
  rw [hk]
  rfl

theorem remove_activePolicyCombination (s : Pm) (cmd : PolicyCommand) :
    (RemoveComponentFromList s cmd.hComponent cmd.nPid cmd.param1).activePolicyCombination =
      s.activePolicyCombination := by
  unfold RemoveComponentFromList
  cases s.instanceIndex cmd.hComponent cmd.nPid <;> rfl

theorem pastPlace_lt (hi : i < n - 1) : pastPlace place i < n := by
  unfold pastPlace
  split <;> omega

theorem pastPlace_injective (h : pastPlace place i = pastPlace place j) :
    i = j := by
  unfold pastPlace at h
  split at h <;> split at h <;> omega

theorem pastPlace_ne (place i : Nat) : pastPlace place i ≠ place := by
  unfold pastPlace
  split <;> omega

/-- Every other place is come from. -/
theorem exists_pastPlace (hj : j < n) (hne : j ≠ place) (hplace : place < n) :
    ∃ i < n - 1, pastPlace place i = j := by
  unfold pastPlace
  by_cases hlt : place < j
  · exact ⟨j - 1, by omega, by rw [if_pos (by omega)]; omega⟩
  · exact ⟨j, by omega, if_neg (by omega)⟩

theorem Pm.Sound.remove (h : s.Sound) (cmd : PolicyCommand) :
    (RemoveComponentFromList s cmd.hComponent cmd.nPid cmd.param1).Sound := by
  cases hk : s.instanceIndex cmd.hComponent cmd.nPid with
  | some k =>
    obtain ⟨hn, -, hp⟩ := remove_of_registered hk
    refine ⟨?_, fun i hi j hj heq => ?_⟩
    · rw [hn]
      exact le_trans (sub_le ..) h.bound
    · rw [hn] at hi hj
      rw [hp i hi, hp j hj] at heq
      exact pastPlace_injective
        (h.distinct _ (pastPlace_lt hi) _ (pastPlace_lt hj) heq)
  | none =>
    obtain ⟨hn, -, hp⟩ := remove_of_unknown hk
    refine ⟨hn ▸ h.bound, ?_⟩
    rw [hn, hp]
    exact h.distinct

/-- What is known in the search for the lowest priority: the entry found so far is that of
another component and its priority is at most the requester's; while none is found, none was
passed. -/
structure Searched (s : Pm) (hComponent : Nat) (requested : Int) (n : Nat)
    (found : Int × Option Nat) : Prop where
  le : found.1 ≤ requested
  some : ∀ i, found.2 = some i → i < n ∧ (s.pComponentList i).1 ≠ hComponent ∧
    ((s.activeComponentList i).priority : Int) ≤ requested
  none : found.2 = none → found.1 = requested ∧ ∀ i < n,
    (s.pComponentList i).1 = hComponent ∨
      requested < ((s.activeComponentList i).priority : Int)

theorem searched_foldl (s : Pm) (hComponent : Nat) (requested : Int) (n : Nat) :
    Searched s hComponent requested n
      ((List.range n).foldl (lowerPriority s hComponent) (requested, none)) := by
  induction n with
  | zero =>
    exact ⟨Int.le_refl _, fun i h => (by cases h), fun _ => ⟨rfl, fun i hi => absurd hi (by omega)⟩⟩
  | succ n ih =>
    rw [range_succ, foldl_append, foldl_cons, foldl_nil]
    generalize (range n).foldl (lowerPriority s hComponent) (requested, none) = found at ih ⊢
    unfold lowerPriority
    by_cases hlower : (s.pComponentList n).1 ≠ hComponent ∧
        ((s.activeComponentList n).priority : Int) ≤ found.1
    · rw [if_pos hlower]
      have hle := Int.le_trans hlower.2 ih.le
      refine ⟨hle, fun i hi => ?_, fun h => by cases h⟩
      cases hi
      exact ⟨lt_succ_self n, hlower.1, hle⟩
    · rw [if_neg hlower]
      refine ⟨ih.le, fun i hi => ?_, fun hnone => ?_⟩
      · obtain ⟨hlt, hrest⟩ := ih.some i hi
        exact ⟨lt_succ_of_lt hlt, hrest⟩
      · obtain ⟨hfound, hpassed⟩ := ih.none hnone
        refine ⟨hfound, fun i hi => ?_⟩
        rcases Nat.lt_succ_iff_lt_or_eq.mp hi with hlt | rfl
        · exact hpassed i hlt
        · rw [hfound] at hlower
          by_cases hsame : (s.pComponentList i).1 = hComponent
          · exact .inl hsame
          · exact .inr (Int.not_le.mp fun hle => hlower ⟨hsame, hle⟩)

/-- Another component is registered with a priority that is at most that of the requester. -/
def Pm.HasLower (T : PolicyTable) (s : Pm) (cmd : PolicyCommand) : Prop :=
  ∃ i < s.registeredComponents, (s.pComponentList i).1 ≠ cmd.hComponent ∧
    ((s.activeComponentList i).priority : Int) ≤
      GetPriority T cmd.param1 s.activePolicyCombination

theorem lowestPriorityIndex_some (h : lowestPriorityIndex T s cmd = some i) :
    i < s.registeredComponents ∧ (s.pComponentList i).1 ≠ cmd.hComponent ∧
      ((s.activeComponentList i).priority : Int) ≤
        GetPriority T cmd.param1 s.activePolicyCombination :=
  (searched_foldl s cmd.hComponent _ s.registeredComponents).some i h

theorem lowestPriorityIndex_isSome_iff :
    (lowestPriorityIndex T s cmd).isSome ↔ s.HasLower T cmd := by
  cases h : lowestPriorityIndex T s cmd with
  | some i => exact iff_of_true rfl ⟨i, lowestPriorityIndex_some h⟩
  | none =>
    refine iff_of_false Bool.false_ne_true ?_
    rintro ⟨i, hi, hother, hle⟩
    obtain ⟨-, hpassed⟩ :=
      (searched_foldl s cmd.hComponent _ s.registeredComponents).none h
    rcases hpassed i hi with hsame | hlt
    · exact hother hsame
    · exact absurd hle (Int.not_le.mpr hlt)

/-- Resources are freed only for a component of the active combination. -/
theorem Pm.HasLower.has (h : s.HasLower T cmd) : T.Has s.activePolicyCombination cmd.param1 := by
  obtain ⟨i, -, -, hle⟩ := h
  refine GetPriority_ne_neg_one_iff.mp fun hneg => ?_
  rw [hneg] at hle
  omega

/-- A free of resources grants under the active combination, after one is preempted. -/
theorem HandleFreeResources_eq (T : PolicyTable) (s : Pm) (cmd : PolicyCommand) :
    HandleFreeResources T s cmd =
      match lowestPriorityIndex T s cmd with
      | some i =>
        let granted := carryOut T s cmd (.grant s.activePolicyCombination false)
        (granted.1, PreemptComponent (s.pComponentList i).1 (s.pComponentList i).2 :: granted.2)
      | none => carryOut T s cmd .deny := by
  unfold HandleFreeResources
  cases lowestPriorityIndex T s cmd with
  | none => rfl
  | some i =>
    have hkeep := congrArg Prod.fst (GrantPolicy_active s cmd.hComponent cmd.param1
      (GetPriority T cmd.param1 s.activePolicyCombination) cmd.nPid s.activePolicyCombination)
    exact Prod.ext hkeep rfl

/-- The same instances, records and active combination. -/
structure Pm.SameArrays (s t : Pm) : Prop where
  pComponentList : t.pComponentList = s.pComponentList
  activeComponentList : t.activeComponentList = s.activeComponentList
  registeredComponents : t.registeredComponents = s.registeredComponents
  activePolicyCombination : t.activePolicyCombination = s.activePolicyCombination

theorem Pm.SameArrays.registered_iff (h : s.SameArrays t) :
    t.Registered who ↔ s.Registered who := by
  unfold Pm.Registered
  rw [h.pComponentList, h.registeredComponents]

theorem Pm.SameArrays.sound (h : s.SameArrays t) (hs : s.Sound) : t.Sound := by
  refine ⟨h.registeredComponents ▸ hs.bound, ?_⟩
  rw [h.pComponentList, h.registeredComponents]
  exact hs.distinct

/-- What a turn does, by the command; after the exit command nothing is read. -/
theorem handle_request (hrun : s.Exitflag = false) (hcmd : cmd.PM_Cmd = .PM_RequestPolicy) :
    handle T s cmd = carryOut T s cmd (decision T s cmd.param1) := by
  unfold handle
  rw [hrun, hcmd]
  exact HandleRequestPolicy_eq T s cmd

theorem handle_freeResources (hrun : s.Exitflag = false) (hcmd : cmd.PM_Cmd = .PM_FreeResources) :
    handle T s cmd = HandleFreeResources T s cmd := by
  unfold handle
  rw [hrun, hcmd]
  rfl

theorem handle_free (hrun : s.Exitflag = false) (hcmd : cmd.PM_Cmd = .PM_FreePolicy) :
    handle T s cmd =
      (some (RemoveComponentFromList s cmd.hComponent cmd.nPid cmd.param1), []) := by
  unfold handle
  rw [hrun, hcmd]
  rfl

theorem handle_wait (hrun : s.Exitflag = false) (hcmd : cmd.PM_Cmd = .PM_WaitForPolicy) :
    (s.pendingComponents < MAXCOMPONENTS ∧ ∃ t, handle T s cmd = (some t, []) ∧ s.SameArrays t) ∨
      (¬ s.pendingComponents < MAXCOMPONENTS ∧ handle T s cmd = (none, [])) := by
  unfold handle HandleWaitForPolicy
  rw [hrun, hcmd]
  by_cases hplace : s.pendingComponents < MAXCOMPONENTS
  · simp only [if_pos hplace]
    exact .inl ⟨hplace, _, rfl, rfl, rfl, rfl, rfl⟩
  · simp only [if_neg hplace]
    exact .inr ⟨hplace, rfl⟩

theorem handle_exited (T : PolicyTable) (cmd : PolicyCommand) (hrun : s.Exitflag) :
    handle T s cmd = (some s, []) := by
  unfold handle
  rw [if_pos hrun]

theorem handle_other (hrun : s.Exitflag = false) (hrequest : cmd.PM_Cmd ≠ .PM_RequestPolicy)
    (hwait : cmd.PM_Cmd ≠ .PM_WaitForPolicy) (hfree : cmd.PM_Cmd ≠ .PM_FreePolicy)
    (hresources : cmd.PM_Cmd ≠ .PM_FreeResources) :
    ∃ t, handle T s cmd = (some t, []) ∧ s.SameArrays t := by
  unfold handle
  rw [hrun]
  cases hcmd : cmd.PM_Cmd with
  | PM_RequestPolicy => exact absurd hcmd hrequest
  | PM_WaitForPolicy => exact absurd hcmd hwait
  | PM_FreePolicy => exact absurd hcmd hfree
  | PM_FreeResources => exact absurd hcmd hresources
  | PM_ExitTI | PM_CancelWaitForPolicy | PM_StateSet | PM_OpenPipe | PM_Exit | PM_Init
  | PM_unknown => exact ⟨_, rfl, rfl, rfl, rfl, rfl⟩

theorem carryOut_sound (h : s.Sound) (d : Decision) (ht : (carryOut T s cmd d).1 = some t) :
    t.Sound := by
  cases d with
  | overrun => cases ht
  | deny =>
    cases ht
    exact h
  | grant combination preempts =>
    have hcarry : (carryOut T s cmd (.grant combination preempts)).1 =
        (GrantPolicy s cmd.subject.1 cmd.param1 (GetPriority T cmd.param1 combination)
          cmd.subject.2).1.map fun s => { s with activePolicyCombination := combination } := rfl
    rw [hcarry] at ht
    obtain ⟨u, hu, rfl⟩ := map_eq_some_iff.mp ht
    have hsound : u.Sound := by
      rcases GrantPolicy_cases s cmd.subject cmd.param1 (GetPriority T cmd.param1 combination) with
        ⟨-, heq⟩ | ⟨hnew, hplace, heq⟩ | ⟨-, -, heq⟩
      · rw [heq] at hu
        exact some.inj hu ▸ h
      · rw [heq] at hu
        exact some.inj hu ▸ h.add _ hplace hnew
      · rw [heq] at hu
        cases hu
    exact ⟨hsound.bound, hsound.distinct⟩

/-- Every turn keeps the registry within its arrays and without repetition. -/
theorem handle_sound (h : s.Sound) (cmd : PolicyCommand)
    (ht : (handle T s cmd).1 = some t) : t.Sound := by
  cases hrun : s.Exitflag with
  | true =>
    rw [handle_exited T cmd hrun] at ht
    exact some.inj ht ▸ h
  | false =>
    by_cases hrequest : cmd.PM_Cmd = .PM_RequestPolicy
    · rw [handle_request hrun hrequest] at ht
      exact carryOut_sound h _ ht
    by_cases hwait : cmd.PM_Cmd = .PM_WaitForPolicy
    · rcases handle_wait (T := T) hrun hwait with ⟨-, u, hhandle, hs⟩ | ⟨-, hhandle⟩
      · rw [hhandle] at ht
        exact some.inj ht ▸ hs.sound h
      · rw [hhandle] at ht
        cases ht
    by_cases hfree : cmd.PM_Cmd = .PM_FreePolicy
    · rw [handle_free hrun hfree] at ht
      exact some.inj ht ▸ h.remove cmd
    by_cases hresources : cmd.PM_Cmd = .PM_FreeResources
    · rw [handle_freeResources hrun hresources, HandleFreeResources_eq] at ht
      cases hlowest : lowestPriorityIndex T s cmd with
      | none =>
        rw [hlowest] at ht
        exact carryOut_sound h .deny ht
      | some i =>
        rw [hlowest] at ht
        exact carryOut_sound h (.grant s.activePolicyCombination false) ht
    · obtain ⟨u, hhandle, hs⟩ := handle_other (T := T) hrun hrequest hwait hfree hresources
      rw [hhandle] at ht
      exact some.inj ht ▸ hs.sound h

end OmapHal.PolicyManager
