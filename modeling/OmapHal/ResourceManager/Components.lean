import Mathlib.Data.List.Basic
import Mathlib.Tactic.Cases

/-!
# Registered components of the resource manager

`ResourceManager.c` serves the OMX components of every process over named pipes. It keeps
one table of registered components, looked up by handle and process, and the CPU load of
the executing ones by category.
-/

namespace OmapHal.ResourceManager

/-- The states of an OMX component; a state set may carry any other number. -/
inductive OMX_STATETYPE where
  | Invalid | Loaded | Idle | Executing | Pause | WaitForResources
  | other (n : Nat)
  deriving DecidableEq, Repr

/-- The state that a command parameter stands for. -/
def OMX_STATETYPE.ofU32 : Nat → OMX_STATETYPE
  | 0 => .Invalid
  | 1 => .Loaded
  | 2 => .Idle
  | 3 => .Executing
  | 4 => .Pause
  | 5 => .WaitForResources
  | n => .other n

/-- The commands of the resource manager; `RM_unknown` is any number outside the enumeration. -/
inductive RM_COMMANDTYPE where
  | RM_Init | RM_RequestResource | RM_WaitForResource | RM_FreeResource
  | RM_FreeAndCloseResource | RM_CancelWaitForResource | RM_StateSet | RM_OpenPipe
  | RM_ReusePipe | RM_Exit | RM_ExitTI | RM_unknown
  deriving DecidableEq, Repr

inductive RESOURCEMANAGER_ERRORTYPE where
  | RM_ErrorNone | RM_GRANT | RM_DENY | RM_PREEMPT | RM_RESOURCEACQUIRED
  | RM_RESOURCEFATALERROR
  deriving DecidableEq, Repr

inductive RM_COMPONENTSTATUS where
  | RM_ComponentActive | RM_WaitingForClient | RM_WaitingForResource | RM_WaitingForPolicy
  deriving DecidableEq, Repr

inductive RM_DENYREASON where
  | RM_ReasonNone | RM_ReasonResource | RM_ReasonPolicy
  deriving DecidableEq, Repr

/-- `RESOURCEMANAGER_COMMANDDATATYPE`: a command of a component, and a message to one. -/
structure CommandData where
  hComponent : Nat
  nPid : Nat
  RM_Cmd : RM_COMMANDTYPE
  param1 : Nat
  param2 : Nat
  param3 : Nat
  param4 : Nat
  rm_status : RESOURCEMANAGER_ERRORTYPE
  deriving DecidableEq, Repr

/-- `RM_RegisteredComponentData`. -/
structure RegisteredComponent where
  componentHandle : Nat
  nPid : Nat
  componentState : OMX_STATETYPE
  componentCPU : Nat
  componentPipe : Int
  /-- Not set by registration: `none` until the first `RM_SetStatus`. -/
  status : Option RM_COMPONENTSTATUS
  reason : RM_DENYREASON
  deriving DecidableEq, Repr

def RM_MAXCOMPONENTS : Nat := 100

/-- The entry is the one of a component. -/
def RegisteredComponent.is (c : RegisteredComponent) (hComponent aPid : Nat) : Bool :=
  hComponent == c.componentHandle && aPid == c.nPid

/-- The name of a component: its handle and its process. -/
def RegisteredComponent.key (c : RegisteredComponent) : Nat × Nat :=
  (c.componentHandle, c.nPid)

theorem RegisteredComponent.is_iff {c : RegisteredComponent} {hComponent aPid : Nat} :
    c.is hComponent aPid ↔ c.key = (hComponent, aPid) := by
  unfold RegisteredComponent.is RegisteredComponent.key
  rw [Bool.and_eq_true, beq_iff_eq, beq_iff_eq, Prod.mk.injEq]
  exact and_congr eq_comm eq_comm

/-- The first entry of a component in the table, as an index. -/
def RM_GetListIndex (table : List RegisteredComponent) (hComponent aPid : Nat) : Option Nat :=
  table.findIdx? (·.is hComponent aPid)

/-- The pipe of a component, `-1` for one that is not registered. -/
def RM_GetPipe (table : List RegisteredComponent) (hComponent aPid : Nat) : Int :=
  match table.find? (·.is hComponent aPid) with
  | some c => c.componentPipe
  | none => -1

/-- A change to the first entry of a component. -/
def setFirst (table : List RegisteredComponent) (hComponent aPid : Nat)
    (f : RegisteredComponent → RegisteredComponent) : List RegisteredComponent :=
  match RM_GetListIndex table hComponent aPid with
  | some index => table.modify index f
  | none => table

def RM_SetStatus (table : List RegisteredComponent) (hComponent aPid : Nat)
    (status : RM_COMPONENTSTATUS) : List RegisteredComponent :=
  setFirst table hComponent aPid fun c => { c with status := some status }

/-- Removal with the later entries moved up. -/
def RM_RemoveComponentFromList (table : List RegisteredComponent) (hComponent aPid : Nat) :
    List RegisteredComponent :=
  match RM_GetListIndex table hComponent aPid with
  | some index => table.eraseIdx index
  | none => table

/-- Registration, `none` for a write past the end of the array. -/
def RM_AddPipe (table : List RegisteredComponent) (cmd : CommandData) (aPipe : Int) :
    Option (List RegisteredComponent) :=
  if table.any (·.is cmd.hComponent cmd.nPid) then some table
  else if table.length < RM_MAXCOMPONENTS then
    some (table ++ [{
      componentHandle := cmd.hComponent
      nPid := cmd.nPid
      componentState := .Idle
      componentCPU := cmd.param2
      componentPipe := aPipe
      status := none
      reason := .RM_ReasonNone }])
  else none

theorem setFirst_cons {table : List RegisteredComponent} (d : RegisteredComponent)
    (hComponent aPid : Nat)
    (f : RegisteredComponent → RegisteredComponent) :
    setFirst (d :: table) hComponent aPid f =
      if d.is hComponent aPid then f d :: table else d :: setFirst table hComponent aPid f := by
  unfold setFirst RM_GetListIndex
  rw [List.findIdx?_cons]
  by_cases hd : d.is hComponent aPid
  · rw [if_pos hd, if_pos hd]
    rfl
  · rw [if_neg hd, if_neg hd]
    cases table.findIdx? (·.is hComponent aPid) <;> rfl

end OmapHal.ResourceManager
