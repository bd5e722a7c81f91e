import Mathlib
import OmapHal.PolicyManager.Messages
import OmapHal.ResourceManager.Components

/-!
# The loop of the resource manager

One turn of the loop in `main` reads either a command of a component or a response of the
policy manager. What it writes is returned in order: to the policy manager, or to a component
through the pipe that `RM_GetPipe` finds for it. The model is the build without
`__ENABLE_RMPM_STUB__`; `stub_mode` is the fallback at run time.
-/

namespace OmapHal.ResourceManager

open PolicyManager (PolicyCommand PolicyResponse)

/-- What the resource manager does to its descriptors. -/
inductive Write where
  | toPolicy (policy_data : PolicyCommand)
  /-- A message to the component that is looked up, through the pipe found for it. -/
  | toComponent (hComponent aPid : Nat) (pipe : Int) (data : CommandData)
  | close (pipe : Int)
  deriving DecidableEq, Repr

/-- The categories of components by which the load is kept. -/
inductive Category where
  | RM_IMAGE | RM_VIDEO | RM_AUDIO | RM_LCD | RM_CAMERA
  deriving DecidableEq, Repr

/-- The category of a component type, by its number in `OMX_COMPONENTINDEXTYPE`. The two
IMA-ADPCM types, 28 and 29, are in none. -/
def componentType (param1 : Nat) : Option Category :=
  if param1 ≤ 27 ∨ param1 = 30 then some Category.RM_AUDIO
  else if 31 ≤ param1 ∧ param1 ≤ 40 then some .RM_VIDEO
  else if 41 ≤ param1 ∧ param1 ≤ 43 then some .RM_IMAGE
  else if param1 = 44 then some .RM_CAMERA
  else if param1 = 45 then some .RM_LCD
  else none

/-- The load by category and its total, of the type `unsigned int`. -/
structure CpuTotals where
  imageTotalCpu : Nat
  videoTotalCpu : Nat
  audioTotalCpu : Nat
  lcdTotalCpu : Nat
  cameraTotalCpu : Nat
  totalCpu : Nat
  deriving DecidableEq, Repr

/-- A change to the load of a category. -/
def CpuTotals.change (t : CpuTotals) (f : Nat → Nat) : Option Category → CpuTotals
  | some Category.RM_AUDIO => { t with audioTotalCpu := f t.audioTotalCpu }
  | some .RM_VIDEO => { t with videoTotalCpu := f t.videoTotalCpu }
  | some .RM_IMAGE => { t with imageTotalCpu := f t.imageTotalCpu }
  | some .RM_CAMERA => { t with cameraTotalCpu := f t.cameraTotalCpu }
  | some .RM_LCD => { t with lcdTotalCpu := f t.lcdTotalCpu }
  | none => t

/-- The total over the categories. -/
def CpuTotals.sumUp (t : CpuTotals) : CpuTotals :=
  { t with totalCpu := (t.audioTotalCpu + t.videoTotalCpu + t.imageTotalCpu +
      t.cameraTotalCpu + t.lcdTotalCpu) % 2 ^ 32 }

/-- `x += cpu` in 32 bits. -/
def addCpu (cpu x : Nat) : Nat := (x + cpu) % 2 ^ 32

/-- `x -= cpu` in 32 bits. -/
def subCpu (cpu x : Nat) : Nat := (x + (2 ^ 32 - cpu % 2 ^ 32)) % 2 ^ 32

/-- The globals of the resource manager. -/
structure Rm where
  componentList : List RegisteredComponent
  cmd_data : CommandData
  globalrequest_cmd_data : CommandData
  totals : CpuTotals
  stub_mode : Bool
  Exitflag : Bool
  /-- The process to which the pipe behind a descriptor leads, `none` for a closed one. -/
  fds : Int → Option Nat

/-- A zeroed command record. -/
def CommandData.zero : CommandData where
  hComponent := 0
  nPid := 0
  RM_Cmd := .RM_unknown
  param1 := 0
  param2 := 0
  param3 := 0
  param4 := 0
  rm_status := .RM_ErrorNone

/-- The globals when the loop is entered. -/
def Rm.start (stub_mode : Bool) : Rm where
  componentList := []
  cmd_data := .zero
  globalrequest_cmd_data := .zero
  totals := ⟨0, 0, 0, 0, 0, 0⟩
  stub_mode := stub_mode
  Exitflag := false
  fds := fun _ => none

/-- `write(RM_GetPipe(hComponent, aPid), &data, sizeof(data))`. -/
def Rm.writeTo (s : Rm) (hComponent aPid : Nat) (data : CommandData) : Write :=
  .toComponent hComponent aPid (RM_GetPipe s.componentList hComponent aPid) data

def Rm.setStatus (s : Rm) (hComponent aPid : Nat) (status : RM_COMPONENTSTATUS) : Rm :=
  { s with componentList := RM_SetStatus s.componentList hComponent aPid status }

def HandleRequestResource (s : Rm) (cmd : CommandData) : Rm × List Write :=
  if s.stub_mode then (s, [])
  else
    ({ s with globalrequest_cmd_data :=
        { s.globalrequest_cmd_data with
          hComponent := cmd.hComponent
          nPid := cmd.nPid
          RM_Cmd := .RM_RequestResource
          param1 := cmd.param1 } },
      [.toPolicy ⟨.PM_RequestPolicy, cmd.param1, cmd.hComponent, cmd.nPid⟩])

def HandleWaitForResource (s : Rm) (cmd : CommandData) : Rm × List Write :=
  match s.componentList.find? (·.is cmd.hComponent cmd.nPid) with
  | none => (s, [])
  | some c =>
    let s := match c.reason with
      | .RM_ReasonPolicy => s.setStatus cmd.hComponent cmd.nPid .RM_WaitingForPolicy
      | .RM_ReasonResource => s.setStatus cmd.hComponent cmd.nPid .RM_WaitingForResource
      | .RM_ReasonNone => s
    (s, [s.writeTo s.cmd_data.hComponent s.cmd_data.nPid s.cmd_data])

/-- One turn of the notification loop: a waiting component is written the global command
record, with its handle put in. -/
def notifyWaiter (out : Rm × List Write) (c : RegisteredComponent) : Rm × List Write :=
  if c.componentState = .WaitForResources then
    let cmd_data := { out.1.cmd_data with
      rm_status := .RM_RESOURCEACQUIRED
      hComponent := c.componentHandle }
    ({ out.1 with cmd_data := cmd_data },
      out.2 ++ [out.1.writeTo c.componentHandle c.nPid cmd_data])
  else out

/-- The loop stops one entry before the end of the table. -/
def HandleFreeResource (s : Rm) (cmd : CommandData) : Rm × List Write :=
  let freed := if s.stub_mode then [] else
    [.toPolicy ⟨.PM_FreePolicy, cmd.param1, cmd.hComponent, cmd.nPid⟩]
  (s.componentList.take (s.componentList.length - 1)).foldl notifyWaiter (s, freed)

/-- The totals after a component goes from one state to another. -/
def CpuTotals.stateSet (t : CpuTotals) (category : Option Category) (componentCPU : Nat)
    (previousState newState : OMX_STATETYPE) : CpuTotals :=
  if (previousState = .Idle ∨ previousState = .Pause) ∧ newState = .Executing then
    (t.change (addCpu componentCPU) category).sumUp
  else if previousState = .Executing ∧ (newState = .Idle ∨ newState = .Pause) then
    (t.change (subCpu componentCPU) category).sumUp
  else t

def HandleStateSet (s : Rm) (cmd : CommandData) : Rm × List Write :=
  match s.componentList.find? (·.is cmd.hComponent cmd.nPid) with
  | none => (s, [])
  | some c =>
    let newState := OMX_STATETYPE.ofU32 cmd.param2
    let s := { s with
      componentList := setFirst s.componentList cmd.hComponent cmd.nPid fun c =>
        { c with componentState := newState }
      totals := s.totals.stateSet (componentType cmd.param1) c.componentCPU c.componentState
        newState }
    if newState = .WaitForResources then HandleWaitForResource s cmd else (s, [])

/-- The descriptor that opening the pipe of a process gives, `none` where it fails. -/
abbrev OpenedPipe := Option Nat

def Rm.addPipe (s : Rm) (cmd : CommandData) (aPipe : Int) : Option Rm :=
  (RM_AddPipe s.componentList cmd aPipe).map fun table => { s with componentList := table }

/-- Registration through a pipe that is opened for the process. -/
def RM_CreatePipe (s : Rm) (cmd : CommandData) (opened : OpenedPipe) : Option Rm :=
  match opened with
  | none => some s
  | some fdwrite =>
    { s with fds := Function.update s.fds fdwrite (some cmd.nPid) }.addPipe cmd fdwrite

def RM_ClosePipe (s : Rm) (cmd : CommandData) : Rm × List Write :=
  match s.componentList.find? (·.is cmd.hComponent cmd.nPid) with
  | none => (s, [])
  | some c =>
      ({ s with fds := Function.update s.fds c.componentPipe none }, [.close c.componentPipe])

/-- The removal of the component that the global command record names. -/
def Rm.removeNamed (s : Rm) : Rm :=
  { s with componentList :=
      RM_RemoveComponentFromList s.componentList s.cmd_data.hComponent s.cmd_data.nPid }

/-- The commands, once read into `cmd_data`. -/
def command (s : Rm) (opened : OpenedPipe) : Option (Rm × List Write) :=
  let cmd_data := s.cmd_data
  match cmd_data.RM_Cmd with
  | .RM_RequestResource => some (HandleRequestResource s cmd_data)
  | .RM_WaitForResource => some (HandleWaitForResource s cmd_data)
  | .RM_FreeResource =>
    -- the handler may have put another handle into the record that is read after it
    let (s, out) := HandleFreeResource s cmd_data
    some (s.removeNamed, out)
  | .RM_FreeAndCloseResource =>
    let (s, out) := HandleFreeResource s cmd_data
    let (s, closed) := RM_ClosePipe s s.cmd_data
    some (s.removeNamed, out ++ closed)
  | .RM_CancelWaitForResource => some (s, [])
  | .RM_StateSet => some (HandleStateSet s cmd_data)
  | .RM_OpenPipe => (RM_CreatePipe s cmd_data opened).map fun s => (s, [])
  | .RM_ReusePipe =>
    let reuse_pipe := RM_GetPipe s.componentList cmd_data.param4 cmd_data.nPid
    if reuse_pipe ≠ -1 then (s.addPipe cmd_data reuse_pipe).map fun s => (s, [])
    else (RM_CreatePipe s cmd_data opened).map fun s => (s, [])
  | .RM_ExitTI => some ({ s with Exitflag := true }, [])
  | .RM_Exit | .RM_Init | .RM_unknown => some (s, [])

/-- What the rest of the system tells while a response is handled. -/
structure Conditions where
  mmuRecoveryInProgress : Bool
  /-- Whether `RM_GetQos` answers `QOS_OK`. -/
  qosOk : Bool
  /-- Whether `RM_GetQos` falls back to stub mode. -/
  qosFails : Bool

/-- The answer to the saved request. -/
def Rm.answerSaved (s : Rm) (rm_status : RESOURCEMANAGER_ERRORTYPE)
    (status : RM_COMPONENTSTATUS) : Rm × List Write :=
  let request := { s.globalrequest_cmd_data with rm_status := rm_status }
  let s := { s with globalrequest_cmd_data := request }.setStatus request.hComponent
    request.nPid status
  (s, [s.writeTo request.hComponent request.nPid request])

/-- The responses of the policy manager. -/
def response (s : Rm) (r : PolicyResponse) (conditions : Conditions) : Rm × List Write :=
  match r.PM_Cmd with
  | .PM_PREEMPTED =>
    let cmd_data := { s.cmd_data with rm_status := .RM_PREEMPT, hComponent := r.hComponent }
    -- the process of the last command, not that of the response
    let s := { s with cmd_data := cmd_data }.setStatus cmd_data.hComponent cmd_data.nPid
      .RM_WaitingForClient
    (s, [s.writeTo r.hComponent r.nPid cmd_data])
  | .PM_DENYPOLICY => s.answerSaved .RM_DENY .RM_WaitingForClient
  | .PM_GRANTPOLICY =>
    if conditions.mmuRecoveryInProgress then
      s.answerSaved .RM_RESOURCEFATALERROR .RM_WaitingForClient
    else
      let s := { s with stub_mode := s.stub_mode || conditions.qosFails }
      if conditions.qosOk then s.answerSaved .RM_GRANT .RM_ComponentActive
      else
        (s, [.toPolicy ⟨.PM_FreeResources, s.globalrequest_cmd_data.param1,
          s.globalrequest_cmd_data.hComponent, s.globalrequest_cmd_data.nPid⟩])
  | .PM_unknown => (s, [])

/-- What a turn of the loop reads. -/
inductive Event where
  | command (cmd : CommandData) (opened : OpenedPipe)
  | response (r : PolicyResponse) (conditions : Conditions)

/-- One turn of the loop; `none` for a write past the end of the component table. After the
exit command nothing is read any more, and in stub mode no response is. -/
def turn (s : Rm) (event : Event) : Option (Rm × List Write) :=
  if s.Exitflag then some (s, [])
  else
    match event with
    | .command cmd opened => command { s with cmd_data := cmd } opened
    | .response r conditions =>
      if s.stub_mode then some (s, []) else some (response s r conditions)

/-- There is room in the table for the component of a command, or it is registered already. -/
def HasRoom (table : List RegisteredComponent) (cmd : CommandData) : Prop :=
  table.any (·.is cmd.hComponent cmd.nPid) = true ∨ table.length < RM_MAXCOMPONENTS

theorem addPipe_isSome (s : Rm) (cmd : CommandData) (aPipe : Int) :
    (∃ t, s.addPipe cmd aPipe = some t) ↔ HasRoom s.componentList cmd := by
  unfold Rm.addPipe RM_AddPipe HasRoom
  by_cases hreg : s.componentList.any (·.is cmd.hComponent cmd.nPid)
  · rw [if_pos hreg]
    exact iff_of_true ⟨_, rfl⟩ (Or.inl hreg)
  · rw [if_neg hreg, or_iff_right hreg]
    by_cases hroom : s.componentList.length < RM_MAXCOMPONENTS
    · rw [if_pos hroom]
      exact iff_of_true ⟨_, rfl⟩ hroom
    · rw [if_neg hroom]
      refine iff_of_false ?_ hroom
      rintro ⟨_, ht⟩
      cases ht

/-- A command registers a component through a pipe. -/
def Registers (table : List RegisteredComponent) (cmd : CommandData) (opened : OpenedPipe) : Prop :=
  match cmd.RM_Cmd with
  | .RM_OpenPipe => opened.isSome
  | .RM_ReusePipe => RM_GetPipe table cmd.param4 cmd.nPid ≠ -1 ∨ opened.isSome
  | _ => False

end OmapHal.ResourceManager
