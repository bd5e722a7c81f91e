import OmapHal.PolicyManager.Messages
import OmapHal.PolicyManager.Table

/-!
# The policy manager

It keeps the instances it has granted in one array and their component types and priorities
in another, by the same index. A command returns the globals, `none` after a write past the end
of an array, and the responses in order.
-/

namespace OmapHal.PolicyManager

def MAXCOMPONENTS : Nat := 100

/-- The globals of the policy manager. -/
structure Pm where
  pComponentList : Nat → Nat × Nat
  activeComponentList : Nat → ComponentPriority
  registeredComponents : Nat
  pPendingComponentList : Nat → Nat × Nat
  pendingComponents : Nat
  activePolicyCombination : Nat
  Exitflag : Bool

/-- The globals when the loop is entered. -/
def Pm.start : Pm where
  pComponentList := fun _ => (0, 0)
  activeComponentList := fun _ => ⟨0, 0⟩
  registeredComponents := 0
  pPendingComponentList := fun _ => (0, 0)
  pendingComponents := 0
  activePolicyCombination := 0
  Exitflag := false

/-- A value stored in an `OMX_U8`. -/
def toU8 (n : Int) : Nat := (n % 2 ^ 8).toNat

/-- The index of an instance in the first array. -/
def Pm.instanceIndex (s : Pm) (hComponent aPid : Nat) : Option Nat :=
  (List.range s.registeredComponents).find? fun i => s.pComponentList i == (hComponent, aPid)

/-- The first index of a component type in the second array. -/
def Pm.typeIndex (s : Pm) (cComponentIndex : Nat) : Option Nat :=
  (List.range s.registeredComponents).find? fun i =>
    (s.activeComponentList i).component == cComponentIndex

/-- The entries after an index, up to a length, moved down by one. -/
def moveDown {α : Type*} (m n : Nat) (f : Nat → α) (i : Nat) : α :=
  if m ≤ i ∧ i < n - 1 then f (i + 1) else f i

def PreemptComponent (hComponent aPid : Nat) : PolicyResponse := ⟨hComponent, aPid, .PM_PREEMPTED⟩

def DenyPolicy (hComponent aPid : Nat) : PolicyResponse := ⟨hComponent, aPid, .PM_DENYPOLICY⟩

/-- The response comes first; an instance is not added twice. -/
def GrantPolicy (s : Pm) (hComponent : Nat) (aComponentIndex aPriority : Int) (aPid : Nat) :
    Option Pm × List PolicyResponse :=
  (match s.instanceIndex hComponent aPid with
    | some _ => some s
    | none =>
      if s.registeredComponents < MAXCOMPONENTS then
        some { s with
          activeComponentList := Function.update s.activeComponentList s.registeredComponents
            ⟨toU8 aComponentIndex, toU8 aPriority⟩
          pComponentList := Function.update s.pComponentList s.registeredComponents
            (hComponent, aPid)
          registeredComponents := s.registeredComponents + 1 }
      else none,
    [⟨hComponent, aPid, .PM_GRANTPOLICY⟩])

/-- Each array is compacted by its own index. -/
def RemoveComponentFromList (s : Pm) (hComponent aPid cComponentIndex : Nat) : Pm :=
  let n := s.registeredComponents
  let activeComponentList := match s.typeIndex cComponentIndex with
    | some m => moveDown m n s.activeComponentList
    | none => s.activeComponentList
  match s.instanceIndex hComponent aPid with
  | some k =>
    { s with
      activeComponentList := activeComponentList
      pComponentList := moveDown k n s.pComponentList
      registeredComponents := n - 1 }
  | none => { s with activeComponentList := activeComponentList }

variable (T : PolicyTable)

/-- The first supporting combination that has every registered component; none are looked at
where nothing is registered. -/
def CanAllComponentsCoexist (s : Pm) (supporting : List Nat) : Option Nat :=
  supporting.find? fun combination =>
    s.registeredComponents != 0 && (List.range s.registeredComponents).all fun j =>
      IsComponentSupported T (s.activeComponentList j).component combination

/-- The last part of `HandleRequestPolicy`: any combination with the component, if its row
comes before the active one. -/
def requestByPreemption (s : Pm) (cmd : PolicyCommand) : Option Pm × List PolicyResponse :=
  match CheckAllCombinations T cmd.param1 with
  | some (combination, _) =>
    if combination < s.activePolicyCombination then
      let preempted := (List.range s.registeredComponents).map fun i =>
        PreemptComponent (s.pComponentList i).1 (s.pComponentList i).2
      let priority := GetPriority T cmd.param1 combination
      if priority ≠ -1 then
        let (granted, response) := GrantPolicy s cmd.hComponent cmd.param1 priority cmd.nPid
        (granted.map fun s => { s with activePolicyCombination := combination },
          preempted ++ response)
      else (some s, preempted ++ [DenyPolicy cmd.hComponent cmd.nPid])
    else (some s, [DenyPolicy cmd.hComponent cmd.nPid])
  | none => (some s, [DenyPolicy cmd.hComponent cmd.nPid])

/-- The middle part: a combination for the component and all that run. -/
def requestByCoexistence (s : Pm) (cmd : PolicyCommand) : Option Pm × List PolicyResponse :=
  match GetSupportingCombinations T cmd.param1 with
  | none => (none, [])
  | some supporting =>
    match CanAllComponentsCoexist T s supporting with
    | some combination =>
      let priority := GetPriority T cmd.param1 combination
      if priority ≠ -1 then
        let (granted, response) := GrantPolicy s cmd.hComponent cmd.param1 priority cmd.nPid
        (granted.map fun s => { s with activePolicyCombination := combination }, response)
      else requestByPreemption T s cmd
    | none => requestByPreemption T s cmd

/-- The part for a table of granted instances. -/
def requestAmongOthers (s : Pm) (cmd : PolicyCommand) : Option Pm × List PolicyResponse :=
  match CheckActiveCombination T s.activePolicyCombination cmd.param1 with
  | some priority => GrantPolicy s cmd.hComponent cmd.param1 priority cmd.nPid
  | none => requestByCoexistence T s cmd

def HandleRequestPolicy (s : Pm) (cmd : PolicyCommand) : Option Pm × List PolicyResponse :=
  if s.registeredComponents = 0 then
    match GetSupportingCombinations T cmd.param1 with
    | none => (none, [])
    | some [] => (some s, [DenyPolicy cmd.hComponent cmd.nPid])
    | some (first :: _) =>
      let s := { s with activePolicyCombination := first }
      let priority := GetPriority T cmd.param1 first
      if priority ≠ -1 then GrantPolicy s cmd.hComponent cmd.param1 priority cmd.nPid
      else requestAmongOthers T s cmd
  else requestAmongOthers T s cmd

def HandleWaitForPolicy (s : Pm) (cmd : PolicyCommand) : Option Pm :=
  if s.pendingComponents < MAXCOMPONENTS then
    some { s with
      pPendingComponentList := Function.update s.pPendingComponentList s.pendingComponents
        (cmd.hComponent, cmd.nPid)
      pendingComponents := s.pendingComponents + 1 }
  else none

/-- One turn of the search for the lowest priority: the priority so far and its index. -/
def lowerPriority (s : Pm) (hComponent : Nat) (found : Int × Option Nat) (i : Nat) :
    Int × Option Nat :=
  if (s.pComponentList i).1 ≠ hComponent ∧ ((s.activeComponentList i).priority : Int) ≤ found.1 then
    ((s.activeComponentList i).priority, some i)
  else found

/-- The instance to preempt for another's resources. -/
def lowestPriorityIndex (s : Pm) (cmd : PolicyCommand) : Option Nat :=
  ((List.range s.registeredComponents).foldl (lowerPriority s cmd.hComponent)
    (GetPriority T cmd.param1 s.activePolicyCombination, none)).2

def HandleFreeResources (s : Pm) (cmd : PolicyCommand) : Option Pm × List PolicyResponse :=
  match lowestPriorityIndex T s cmd with
  | some i =>
    let (granted, response) := GrantPolicy s cmd.hComponent cmd.param1
      (GetPriority T cmd.param1 s.activePolicyCombination) cmd.nPid
    (granted, PreemptComponent (s.pComponentList i).1 (s.pComponentList i).2 :: response)
  | none => (some s, [DenyPolicy cmd.hComponent cmd.nPid])

/-- One turn of the loop in `main`. -/
def handle (s : Pm) (cmd : PolicyCommand) : Option Pm × List PolicyResponse :=
  if s.Exitflag then (some s, [])
  else
    match cmd.PM_Cmd with
    | .PM_RequestPolicy => HandleRequestPolicy T s cmd
    | .PM_WaitForPolicy => (HandleWaitForPolicy s cmd, [])
    | .PM_FreePolicy => (some (RemoveComponentFromList s cmd.hComponent cmd.nPid cmd.param1), [])
    | .PM_FreeResources => HandleFreeResources T s cmd
    | .PM_ExitTI => (some { s with Exitflag := true }, [])
    | .PM_CancelWaitForPolicy | .PM_StateSet | .PM_OpenPipe | .PM_Exit | .PM_Init
    | .PM_unknown => (some s, [])

end OmapHal.PolicyManager
