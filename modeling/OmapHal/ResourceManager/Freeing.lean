import OmapHal.Core.Removal
import OmapHal.ResourceManager.Model

/-!
# Freeing a component

The free handler tells the waiting components, all but the last entry of the table, by
writing each one's handle into the global command record. The removal after it reads that
record, so that it looks for the last component told, in the process of the one to free.
-/

namespace OmapHal.ResourceManager

open List Bool

variable {table : List RegisteredComponent} {s : Rm} {cmd : CommandData}

theorem RM_RemoveComponentFromList_eq (table : List RegisteredComponent) (hComponent aPid : Nat) :
    RM_RemoveComponentFromList table hComponent aPid =
      table.eraseP (·.is hComponent aPid) := by
  rw [eraseP_eq_eraseIdx]
  unfold RM_RemoveComponentFromList RM_GetListIndex
  cases table.findIdx? (·.is hComponent aPid) <;> rfl

/-- A component that waits for resources. -/
def RegisteredComponent.waits (c : RegisteredComponent) : Bool :=
  c.componentState == .WaitForResources

theorem RegisteredComponent.waits_iff {c : RegisteredComponent} :
    c.waits ↔ c.componentState = .WaitForResources :=
  beq_iff_eq

/-- The record that a waiting component is written. -/
def noticeData (cmd_data : CommandData) (c : RegisteredComponent) : CommandData :=
  { cmd_data with rm_status := .RM_RESOURCEACQUIRED, hComponent := c.componentHandle }

/-- The message to a waiting component. -/
def notice (table : List RegisteredComponent) (cmd_data : CommandData) (c : RegisteredComponent) :
    Write :=
  .toComponent c.componentHandle c.nPid (RM_GetPipe table c.componentHandle c.nPid)
    (noticeData cmd_data c)

/-- The global command record after some components have been told. -/
def lastTold (cmd_data : CommandData) (told : List RegisteredComponent) : CommandData :=
  (told.getLast?.map (noticeData cmd_data)).getD cmd_data

theorem noticeData_lastTold (cmd_data : CommandData) (told : List RegisteredComponent)
    (c : RegisteredComponent) : noticeData (lastTold cmd_data told) c = noticeData cmd_data c := by
  unfold lastTold
  cases told.getLast? <;> rfl

/-- The notification loop tells the waiting components in order. -/
theorem foldl_notifyWaiter (s : Rm) (out : List Write) (cs : List RegisteredComponent) :
    cs.foldl notifyWaiter (s, out) =
      ({ s with cmd_data := lastTold s.cmd_data (cs.filter (·.waits)) },
        out ++ (cs.filter (·.waits)).map (notice s.componentList s.cmd_data)) := by
  induction cs using reverseRecOn with
  | nil => simp [lastTold]
  | append_singleton cs c ih =>
    rw [foldl_append, ih, foldl_cons, foldl_nil, filter_append]
    unfold notifyWaiter
    by_cases hc : c.componentState = .WaitForResources
    · have hwaits : c.waits := RegisteredComponent.waits_iff.mpr hc
      rw [if_pos hc, filter_cons_of_pos hwaits, filter_nil, map_append]
      have hlast : lastTold s.cmd_data (cs.filter (·.waits) ++ [c]) = noticeData s.cmd_data c := by
        unfold lastTold
        rw [getLast?_concat]
        rfl
      have hdata := noticeData_lastTold s.cmd_data (cs.filter (·.waits)) c
      rw [hlast, ← append_assoc]
      unfold noticeData at hdata ⊢
      simp only [hdata, Rm.writeTo, notice, noticeData, map_cons, map_nil]
    · have hwaits : ¬c.waits := fun hw => hc (RegisteredComponent.waits_iff.mp hw)
      rw [if_neg hc, filter_cons_of_neg hwaits, filter_nil, append_nil]

/-- The components that the free handler tells: the waiting ones but for the last entry. -/
def told (table : List RegisteredComponent) : List RegisteredComponent :=
  (table.take (table.length - 1)).filter (·.waits)

/-- What the free handler writes to the policy manager. -/
def freedPolicy (s : Rm) (cmd : CommandData) : List Write :=
  if s.stub_mode then [] else
    [.toPolicy ⟨.PM_FreePolicy, cmd.param1, cmd.hComponent, cmd.nPid⟩]

theorem HandleFreeResource_eq (s : Rm) (cmd : CommandData) :
    HandleFreeResource s cmd =
      ({ s with cmd_data := lastTold s.cmd_data (told s.componentList) },
        freedPolicy s cmd ++ (told s.componentList).map (notice s.componentList s.cmd_data)) :=
  foldl_notifyWaiter s _ _

/-- The handle that the removal looks for. -/
def removedHandle (table : List RegisteredComponent) (cmd : CommandData) : Nat :=
  ((told table).getLast?.map (·.componentHandle)).getD cmd.hComponent

theorem lastTold_handle (cmd : CommandData) :
    (lastTold cmd (told table)).hComponent = removedHandle table cmd := by
  unfold lastTold removedHandle
  cases (told table).getLast? <;> rfl

theorem lastTold_nPid (cmd : CommandData) (cs : List RegisteredComponent) :
    (lastTold cmd cs).nPid = cmd.nPid := by
  unfold lastTold
  cases cs.getLast? <;> rfl

/-- The table after a free command. -/
theorem removeNamed_componentList (s : Rm) (cmd : CommandData) :
    (HandleFreeResource { s with cmd_data := cmd } cmd).1.removeNamed.componentList =
      s.componentList.eraseP (·.is (removedHandle s.componentList cmd) cmd.nPid) := by
  rw [HandleFreeResource_eq]
  unfold Rm.removeNamed
  simp only [RM_RemoveComponentFromList_eq, lastTold_handle, lastTold_nPid]

/-- The message goes to a component. -/
def Write.isMessage : Write → Bool
  | .toComponent .. => true
  | _ => false

/-- The components that wait for resources, but for one. -/
def otherWaiters (table : List RegisteredComponent) (cmd : CommandData) :
    List RegisteredComponent :=
  table.filter fun c => c.waits && !c.is cmd.hComponent cmd.nPid

/-- A free command takes the named component out of the table, leaves the other entries as
they are and in order, and tells exactly the other waiting components. -/
def FreesExactly (s : Rm) (cmd : CommandData) : Prop :=
  ∃ t out, command { s with cmd_data := { cmd with RM_Cmd := .RM_FreeResource } } none =
      some (t, out) ∧
    t.componentList = s.componentList.eraseP (·.is cmd.hComponent cmd.nPid) ∧
    out.filter (·.isMessage) = (otherWaiters s.componentList cmd).map
      (notice s.componentList { cmd with RM_Cmd := .RM_FreeResource })

/-- When a free command does what it should. -/
structure FreesRight (table : List RegisteredComponent) (cmd : CommandData) : Prop where
  /-- No component that is told is the one to free. -/
  notSelf : ∀ c ∈ told table, c.is cmd.hComponent cmd.nPid = false
  /-- The entry that is never told does not wait, or is the one to free. -/
  last : ∀ c ∈ table.getLast?, c.waits = true → c.is cmd.hComponent cmd.nPid = true
  /-- The handle put into the command record leads to the same removal. -/
  handle : ∀ c ∈ (told table).getLast?, c.componentHandle = cmd.hComponent ∨
    ∀ d ∈ table, d.is c.componentHandle cmd.nPid = false ∧
      d.is cmd.hComponent cmd.nPid = false

theorem notice_injective (table : List RegisteredComponent) (cmd : CommandData)
    {c d : RegisteredComponent} (h : notice table cmd c = notice table cmd d) : c.key = d.key := by
  unfold notice at h
  injection h with hhandle hpid
  exact Prod.ext hhandle hpid

/-- Who is told, against who should be. -/
theorem told_eq_otherWaiters_iff (table : List RegisteredComponent) (cmd : CommandData)
    {β : Type*} (f : RegisteredComponent → β)
    (hf : ∀ c d : RegisteredComponent, f c = f d → c.key = d.key) :
    (told table).map f = (otherWaiters table cmd).map f ↔
      (∀ c ∈ told table, c.is cmd.hComponent cmd.nPid = false) ∧
        ∀ c ∈ table.getLast?, c.waits → c.is cmd.hComponent cmd.nPid = true := by
  induction table using reverseRecOn with
  | nil => simp [told, otherWaiters]
  | append_singleton front l _ =>
    have htold : told (front ++ [l]) = front.filter (·.waits) := by
      simp [told]
    have hothers : otherWaiters (front ++ [l]) cmd =
        (front.filter (·.waits)).filter (fun c => !c.is cmd.hComponent cmd.nPid) ++
          [l].filter (fun c => c.waits && !c.is cmd.hComponent cmd.nPid) := by
      simp [otherWaiters, filter_append, Bool.and_comm]
    rw [htold, hothers, getLast?_concat]
    generalize front.filter (·.waits) = waiting
    constructor
    · intro h
      have hself : ∀ c ∈ waiting, c.is cmd.hComponent cmd.nPid = false := by
        intro c hc
        have hmem := mem_map_of_mem (f := f) hc
        rw [h] at hmem
        obtain ⟨d, hd, hfd⟩ := mem_map.mp hmem
        have hkey := hf d c hfd
        have hd' : d.is cmd.hComponent cmd.nPid = false := by
          rcases mem_append.mp hd with hd | hd
          · simpa using (mem_filter.mp hd).2
          · have := (mem_filter.mp hd).2
            simp only [and_eq_true, not_eq_true'] at this
            exact this.2
        rw [← not_eq_true, RegisteredComponent.is_iff] at hd' ⊢
        rwa [← hkey]
      refine ⟨hself, fun c hc hwaits => ?_⟩
      obtain rfl : l = c := by simpa using hc
      by_contra hnot
      have hfront : waiting.filter (fun c => !c.is cmd.hComponent cmd.nPid) = waiting :=
        filter_eq_self.mpr fun c hc => by rw [hself c hc]; rfl
      rw [not_eq_true] at hnot
      rw [hfront, filter_singleton, hwaits, hnot] at h
      have hlen := congrArg length h
      simp at hlen
    · rintro ⟨hself, hlast⟩
      have hfront : waiting.filter (fun c => !c.is cmd.hComponent cmd.nPid) = waiting :=
        filter_eq_self.mpr fun c hc => by rw [hself c hc]; rfl
      have hnone : [l].filter (fun c => c.waits && !c.is cmd.hComponent cmd.nPid) = [] := by
        rw [filter_singleton]
        by_cases hwaits : l.waits
        · rw [hwaits, hlast l (by simp) hwaits]
          rfl
        · rw [not_eq_true] at hwaits
          rw [hwaits]
          rfl
      rw [hfront, hnone, append_nil]

/-- Two removals by name agree where the names are one, or neither is in the table. -/
theorem eraseP_is_eq_iff (h' h p : Nat) :
    table.eraseP (·.is h' p) = table.eraseP (·.is h p) ↔
      h' = h ∨ ∀ d ∈ table, d.is h' p = false ∧ d.is h p = false := by
  by_cases hne : h' = h
  · subst hne
    exact iff_of_true rfl (Or.inl rfl)
  · rw [or_iff_right hne]
    refine Core.eraseP_eq_eraseP_iff fun d hd => eq_false_iff.mpr fun hd' => hne ?_
    rw [RegisteredComponent.is_iff] at hd hd'
    exact congrArg Prod.fst (hd.symm.trans hd')

/-- What a free command does, in one step. -/
theorem command_freeResource (s : Rm) (cmd : CommandData) (opened : OpenedPipe)
    (h : cmd.RM_Cmd = .RM_FreeResource) :
    command { s with cmd_data := cmd } opened =
      some ((HandleFreeResource { s with cmd_data := cmd } cmd).1.removeNamed,
        freedPolicy s cmd ++ (told s.componentList).map (notice s.componentList cmd)) := by
  unfold command
  simp only [h, HandleFreeResource_eq]
  rfl

theorem filter_isMessage_free (s : Rm) (cmd data : CommandData) (cs : List RegisteredComponent) :
    (freedPolicy s cmd ++ cs.map (notice s.componentList data)).filter (·.isMessage) =
      cs.map (notice s.componentList data) := by
  have hmessages : (cs.map (notice s.componentList data)).filter (·.isMessage) =
      cs.map (notice s.componentList data) := by
    refine filter_eq_self.mpr fun w hw => ?_
    obtain ⟨c, -, rfl⟩ := mem_map.mp hw
    rfl
  rw [filter_append, hmessages]
  unfold freedPolicy
  cases s.stub_mode <;> rfl

/-- A free command is exact where the component to free is not told itself, no waiting
component is last in the table, and the handle that the telling leaves in the command record
leads to the same removal. -/
theorem freesExactly_iff (s : Rm) (cmd : CommandData) :
    FreesExactly s cmd ↔ FreesRight s.componentList cmd := by
  unfold FreesExactly
  rw [command_freeResource s _ none rfl]
  have htold := told_eq_otherWaiters_iff s.componentList cmd
    (notice s.componentList { cmd with RM_Cmd := .RM_FreeResource })
    (fun c d => notice_injective s.componentList _)
  constructor
  · rintro ⟨t, out, heq, htable, hout⟩
    simp only [Option.some.injEq, Prod.mk.injEq] at heq
    obtain ⟨rfl, rfl⟩ := heq
    rw [filter_isMessage_free, htold] at hout
    rw [removeNamed_componentList, eraseP_is_eq_iff] at htable
    refine ⟨hout.1, hout.2, fun c hc => ?_⟩
    have hhandle : removedHandle s.componentList { cmd with RM_Cmd := .RM_FreeResource } =
        c.componentHandle := by
      unfold removedHandle
      rw [hc]
      rfl
    rwa [hhandle] at htable
  · rintro ⟨hself, hlast, hhandle⟩
    refine ⟨_, _, rfl, ?_, ?_⟩
    · rw [removeNamed_componentList, eraseP_is_eq_iff]
      unfold removedHandle
      cases hc : (told s.componentList).getLast? with
      | none => exact Or.inl rfl
      | some c => exact hhandle c hc
    · rw [filter_isMessage_free]
      exact htold.mpr ⟨hself, hlast⟩

/-- A component to free, one that waits in another process, and a third. -/
def waiterTable : List RegisteredComponent :=
  [⟨1, 10, .Idle, 0, 3, none, .RM_ReasonNone⟩,
  ⟨2, 20, .WaitForResources, 0, 4, none, .RM_ReasonNone⟩,
    ⟨3, 10, .Idle, 0, 3, none, .RM_ReasonNone⟩]

/-- With one waiting component in another process, the freed one stays registered. -/
theorem waiter_blocks_removal : ¬ ∀ s cmd, FreesExactly s cmd := by
  intro h
  obtain ⟨t, out, heq, htable, -⟩ := h { Rm.start false with componentList := waiterTable }
    { CommandData.zero with hComponent := 1, nPid := 10 }
  rw [command_freeResource _ _ none rfl, Option.some.injEq, Prod.mk.injEq] at heq
  rw [← heq.1] at htable
  revert htable
  decide

end OmapHal.ResourceManager
