import Mathlib.Logic.Function.Basic

/-!
# The handle tables of the OMX core

`TIOMX_GetHandle` and `TIOMX_FreeHandle` of `OMX_Core.c`. Pointers are numbers, zero is `NULL`.
What has no meaning in C, a store outside an array or the use of `NULL`, has no result. The core
keeps beside its tables the handles that its clients own.
-/

namespace OmapHal.OmxCore

abbrev Ptr := Nat

inductive OMX_ERRORTYPE where
  | OMX_ErrorNone | OMX_ErrorInsufficientResources | OMX_ErrorBadParameter
  | OMX_ErrorInvalidComponentName | OMX_ErrorInvalidComponent | OMX_ErrorComponentNotFound
  /-- any other error of a component -/
  | other
  deriving DecidableEq, Repr

def MAXCOMP : Nat := 50

def MAXNAMESIZE : Nat := 130

def MAX_TABLE_SIZE : Nat := 30

def MAX_CONCURRENT_INSTANCES : Nat := 4

/-- An entry of the component table; the roles are left out. The array `pHandle` has
`MAX_CONCURRENT_INSTANCES` places. -/
structure ComponentTable where
  name : List UInt8
  pHandle : List Ptr
  refCount : Nat
  maxinstances : Nat
  deriving DecidableEq, Repr

/-- The globals of the core: the entries of `componentTable` that have a name, and the two arrays
of `MAXCOMP` places. -/
structure State where
  pModules : Nat → Ptr
  pComponents : Nat → Ptr
  componentTable : List ComponentTable
  /-- the handles that were given out and not taken back -/
  live : List Ptr

/-- What the linker, the allocator and the component do in one attempt to make a handle. -/
structure Attempt where
  dlopen : Ptr
  dlsym : Bool
  malloc : Ptr
  OMX_ComponentInit : OMX_ERRORTYPE
  SetCallbacks : OMX_ERRORTYPE
  deriving DecidableEq, Repr

/-- The arguments of `TIOMX_GetHandle`. Of the pointer `pHandle` only the value behind it matters,
that of `pCallBacks` only whether it is `NULL`. -/
structure GetHandleArgs where
  cComponentName : Option (List UInt8)
  pHandle : Option Ptr
  pCallBacks : Bool
  deriving DecidableEq, Repr

def State.setModule (s : State) (i : Nat) (p : Ptr) : State :=
  { s with pModules := Function.update s.pModules i p }

def State.setComponent (s : State) (i : Nat) (p : Ptr) : State :=
  { s with pComponents := Function.update s.pComponents i p }

/-- `free`: of what is taken back, only handles concern the core. -/
def State.free (s : State) (p : Ptr) : State := { s with live := s.live.erase p }

/-- The label `CLEAN_UP`, with the value behind `pHandle`. -/
def State.cleanUp (s : State) (i : Nat) (pHandle : Ptr) : State :=
  ((if pHandle ≠ 0 then s.free pHandle else s).setComponent i 0).setModule i 0

/-- The first place of `pModules` that is `NULL`. -/
def State.freeSlot (s : State) : Option Nat := (List.range MAXCOMP).find? fun i => s.pModules i = 0

/-- A new instance of a component. -/
def ComponentTable.add (entry : ComponentTable) (pHandle : Ptr) : ComponentTable :=
  { entry with
    pHandle := entry.pHandle.set entry.refCount pHandle
    refCount := entry.refCount + 1 }

/-- What one attempt ends with: the function is done, or the search goes on. -/
inductive Progress where
  | done (err : OMX_ERRORTYPE) (s : State)
  | goOn (pHandle : Ptr) (s : State)

/-- The attempt to make an instance of the component in the place `refIndex`. -/
def State.instantiate (s : State) (i refIndex : Nat) (entry : ComponentTable) (attempt : Attempt)
    (pHandle : Ptr) : Progress :=
  if entry.maxinstances ≤ entry.refCount then .done .OMX_ErrorInsufficientResources s
  else if attempt.dlopen = 0 then .done .OMX_ErrorComponentNotFound (s.setModule i 0)
  else
    let s := s.setModule i attempt.dlopen
    if !attempt.dlsym then .done .OMX_ErrorInvalidComponent (s.cleanUp i pHandle)
    else if attempt.malloc = 0 then .done .OMX_ErrorInsufficientResources (s.cleanUp i 0)
    else
      let s := s.setComponent i attempt.malloc
      match attempt.OMX_ComponentInit with
      | .OMX_ErrorNone =>
        if attempt.SetCallbacks ≠ .OMX_ErrorNone then
          .done attempt.SetCallbacks (s.cleanUp i attempt.malloc)
        else
          .done .OMX_ErrorNone { s with
            componentTable := s.componentTable.modify refIndex (·.add attempt.malloc)
            live := attempt.malloc :: s.live }
      | .OMX_ErrorInsufficientResources =>
        .done .OMX_ErrorInsufficientResources (s.cleanUp i attempt.malloc)
      | _ => .goOn attempt.malloc s

/-- The search through the component table. A place without a name is compared with all the
same. -/
def State.search (cComponentName : List UInt8) (attempts : Nat → Attempt) (i : Nat) :
    Nat → List ComponentTable → Ptr → State → Option (OMX_ERRORTYPE × State)
  | refIndex, [], pHandle, s =>
    if refIndex < MAX_TABLE_SIZE then none
    else some (.OMX_ErrorComponentNotFound, s.cleanUp i pHandle)
  | refIndex, entry :: rest, pHandle, s =>
    if entry.name = cComponentName then
      match s.instantiate i refIndex entry (attempts refIndex) pHandle with
      | .done err s => some (err, s)
      | .goOn pHandle s => State.search cComponentName attempts i (refIndex + 1) rest pHandle s
    else State.search cComponentName attempts i (refIndex + 1) rest pHandle s

def TIOMX_GetHandle (s : State) (args : GetHandleArgs) (attempts : Nat → Attempt) :
    Option (OMX_ERRORTYPE × State) :=
  match args.cComponentName, args.pHandle, args.pCallBacks with
  | some cComponentName, some pHandle, true =>
    if MAXNAMESIZE ≤ cComponentName.length then some (.OMX_ErrorInvalidComponentName, s)
    else
      match s.freeSlot with
      | none => some (.OMX_ErrorInsufficientResources, s)
      | some i => s.search cComponentName attempts i 0 s.componentTable pHandle
  | _, _, _ => some (.OMX_ErrorBadParameter, s)

/-- The loop over `shiftIndex`: the number of turns left, and the index. -/
def shiftHandles : Nat → Nat → List Ptr → Option (List Ptr)
  | 0, _, pHandle => some pHandle
  | turns + 1, shiftIndex, pHandle =>
    if pHandle.getD shiftIndex 0 ≠ 0 then
      if shiftIndex + 1 < pHandle.length then
        shiftHandles turns (shiftIndex + 1)
          ((pHandle.set shiftIndex (pHandle.getD (shiftIndex + 1) 0)).set (shiftIndex + 1) 0)
      else none
    else shiftHandles turns (shiftIndex + 1) pHandle

/-- The instance in the place `handleIndex` is taken out. -/
def ComponentTable.remove (entry : ComponentTable) (handleIndex : Nat) : Option ComponentTable :=
  if 1 < entry.refCount ∧ handleIndex < entry.refCount - 1 then
    (shiftHandles (entry.refCount - handleIndex) handleIndex entry.pHandle).map fun pHandle =>
      { entry with pHandle := pHandle, refCount := entry.refCount - 1 }
  else
    some { entry with pHandle := entry.pHandle.set handleIndex 0, refCount := entry.refCount - 1 }

/-- The instances of an entry. -/
def ComponentTable.handles (entry : ComponentTable) : List Ptr := entry.pHandle.take entry.refCount

/-- What the search for a handle ends with: nothing, or the table without it, if that is
defined. -/
def removeHandle (hComponent : Ptr) : List ComponentTable → Option (Option (List ComponentTable))
  | [] => none
  | entry :: rest =>
    match entry.handles.findIdx? (· == hComponent) with
    | some handleIndex => some ((entry.remove handleIndex).map (· :: rest))
    | none => (removeHandle hComponent rest).map fun table => table.map (entry :: ·)

/-- The place of a handle in `pComponents`. -/
def State.slotOf (s : State) (hComponent : Ptr) : Option Nat :=
  (List.range MAXCOMP).find? fun i => s.pComponents i = hComponent

def TIOMX_FreeHandle (s : State) (hComponent : Ptr) (ComponentDeInit : OMX_ERRORTYPE) :
    Option (OMX_ERRORTYPE × State) :=
  match s.slotOf hComponent with
  | none => some (.OMX_ErrorBadParameter, s)
  | some i =>
    if hComponent = 0 then none
    else if ComponentDeInit ≠ .OMX_ErrorNone then some (ComponentDeInit, s)
    else
      match removeHandle hComponent s.componentTable with
      | none => some (.OMX_ErrorComponentNotFound, s)
      | some table =>
        table.map fun table =>
          (.OMX_ErrorNone,
          (({ s with componentTable := table }.setModule i 0).free hComponent).setComponent i 0)

/-- A call of one of the two functions. -/
inductive Call where
  | get (args : GetHandleArgs) (attempts : Nat → Attempt)
  | free (hComponent : Ptr) (ComponentDeInit : OMX_ERRORTYPE)

def State.call (s : State) : Call → Option (OMX_ERRORTYPE × State)
  | .get args attempts => TIOMX_GetHandle s args attempts
  | .free hComponent ComponentDeInit => TIOMX_FreeHandle s hComponent ComponentDeInit

/-- The core after a call. -/
def State.after (s : State) (call : Call) : Option State := (s.call call).map Prod.snd

end OmapHal.OmxCore
