import OmapHal.ResourceManager.Components
import OmapHal.ResourceManagerProxy.Lifetime

/-!
# The proxy thread

Components of a process send commands to the proxy thread through a pipe. A request waits for the
answer of the resource manager: the semaphore and the error cell of the request are globals, which
the thread sets when a message comes in. A read returns a whole record, and allocations of a few
bytes succeed.
-/

namespace OmapHal.ResourceManagerProxy

open ResourceManager (RESOURCEMANAGER_ERRORTYPE)

/-- The commands of the proxy; `RMProxy_unknown` is any number outside the enumeration. -/
inductive RMPROXY_COMMANDTYPE where
  | RMProxy_Init | RMProxy_RequestResource | RMProxy_WaitForResource | RMProxy_FreeResource
  | RMProxy_FreeAndCloseResource | RMProxy_CancelWaitForResource | RMProxy_StateSet
  | RMProxy_OpenPipe | RMProxy_ReusePipe | RMProxy_Exit | RMProxy_unknown
  deriving DecidableEq, Repr

/-- `RMPROXY_COMMANDDATATYPE`. The field `param4` is the callback of the component. -/
structure Command where
  hComponent : Nat
  RM_Cmd : RMPROXY_COMMANDTYPE
  param1 : Nat
  param2 : Nat
  param3 : Nat
  param4 : Nat
  deriving DecidableEq, Repr

/-- `RMProxy_RegisteredComponentData`. -/
structure RegisteredComponentData where
  componentHandle : Nat
  callback : Nat
  deriving DecidableEq, Repr

def RMPROXY_MAXCOMPONENTS : Nat := 100

/-- What a message of the resource manager says. -/
structure Message where
  hComponent : Nat
  rm_status : RESOURCEMANAGER_ERRORTYPE
  deriving DecidableEq, Repr

/-- What the thread and the requests do to the outside. -/
inductive Output where
  | toServer (RM_Cmd : RMPROXY_COMMANDTYPE) (hComponent param1 : Nat)
  /-- `RMPROXY_Callback`: the component that the data names, and the error. -/
  | callback (callback hComponent : Nat) (RM_Error : OMX_ERRORTYPE)
  /-- A request returns; `none` is a code that was never set. -/
  | returns (hComponent : Nat) (value : Option OMX_ERRORTYPE)
  deriving DecidableEq, Repr

/-- The globals of the proxy, the pipe to its thread and the thread's own state. -/
structure Proxy where
  responsePending : Bool
  /-- the posts that `sem` holds, if it is not `NULL` -/
  sem : Option Nat
  /-- the contents of `RM_Error`, if it is not `NULL`; `none` inside has never been set -/
  RM_Error : Option (Option OMX_ERRORTYPE)
  /-- the component whose request waits -/
  requester : Option Nat
  tothread : List Command
  /-- the component that `core->cmd_data` names -/
  cmd_hComponent : Nat
  componentList : List RegisteredComponentData
  numClients : Nat
  readPipeOpened : Bool
  fatalErrorHandled : Bool
  exited : Bool
  /-- stores outside `componentList` -/
  faults : Nat
  deriving DecidableEq, Repr

def Proxy.start : Proxy where
  responsePending := false
  sem := none
  RM_Error := none
  requester := none
  tothread := []
  cmd_hComponent := 0
  componentList := []
  numClients := 0
  readPipeOpened := false
  fatalErrorHandled := false
  exited := false
  faults := 0

/-- `*RM_Error = code`, unless it is `NULL`. -/
def Proxy.setError (s : Proxy) (code : OMX_ERRORTYPE) : Proxy :=
  { s with RM_Error := s.RM_Error.map fun _ => some code }

/-- `sem_post(sem)`, unless it is `NULL`. -/
def Proxy.post (s : Proxy) : Proxy := { s with sem := s.sem.map (· + 1) }

def Proxy.find (s : Proxy) (hComponent : Nat) : Option RegisteredComponentData :=
  s.componentList.find? fun c => c.componentHandle == hComponent

def RMProxy_CallbackClient (s : Proxy) (hComponent : Nat) (error : OMX_ERRORTYPE) : List Output :=
  match s.find hComponent with
  | some c => [.callback c.callback s.cmd_hComponent error]
  | none => []

/-- `RMProxy_NewSendCommand` up to the point where a request waits. In stub mode it does not. -/
def RMProxy_NewSendCommand (stubMode : Bool) (s : Proxy) (cmd : Command) : Proxy :=
  let s := { s with tothread := s.tothread ++ [cmd] }
  if cmd.RM_Cmd = .RMProxy_RequestResource then
    { s with
      sem := some 0
      RM_Error := some none
      responsePending := !stubMode
      requester := if stubMode then none else some cmd.hComponent }
  else s

/-- A request goes on after its wait. -/
def Proxy.wake (s : Proxy) (hComponent : Nat) : Proxy × List Output :=
  ({ s with sem := none, RM_Error := none, responsePending := false, requester := none },
    [.returns hComponent (s.RM_Error.getD (some .OMX_ErrorNone))])

/-- The name under which a free is passed on: the last client closes the pipe. -/
def freeCommand (numClients : Nat) : RMPROXY_COMMANDTYPE :=
  if 1 < numClients then .RMProxy_FreeResource else .RMProxy_FreeAndCloseResource

/-- One more in the list of components. -/
def Proxy.register (s : Proxy) (cmd : Command) : Proxy :=
  if s.componentList.length < RMPROXY_MAXCOMPONENTS then
    { s with componentList := s.componentList ++ [⟨cmd.hComponent, cmd.param4⟩] }
  else { s with faults := s.faults + 1 }

/-- The case of `RMProxy_RequestResource` in the thread. The pipe of the process is opened for its
first client. -/
def handleRequest (s : Proxy) (cmd : Command) : Proxy × List Output :=
  let s := s.register cmd
  let pipe : RMPROXY_COMMANDTYPE :=
    if s.numClients = 0 then .RMProxy_OpenPipe else .RMProxy_ReusePipe
  ({ s with
      readPipeOpened := s.numClients = 0 || s.readPipeOpened
      numClients := s.numClients + 1 },
    [.toServer pipe cmd.hComponent cmd.param1,
      .toServer .RMProxy_RequestResource cmd.hComponent cmd.param1])

/-- The case of `RMProxy_FreeResource` in the thread. -/
def handleFree (s : Proxy) (cmd : Command) : Proxy × List Output :=
  ({ s with
      componentList := s.componentList.eraseP fun c => c.componentHandle == cmd.hComponent
      numClients := s.numClients - 1 },
    [.toServer (freeCommand s.numClients) cmd.hComponent cmd.param1])

/-- A command that the thread has read. -/
def handleCommand (s : Proxy) (cmd : Command) : Proxy × List Output :=
  match cmd.RM_Cmd with
  | .RMProxy_StateSet => (s, [.toServer .RMProxy_StateSet cmd.hComponent cmd.param1])
  | .RMProxy_FreeResource => handleFree s cmd
  | .RMProxy_RequestResource => handleRequest s cmd
  | .RMProxy_WaitForResource => (s, [.toServer .RMProxy_WaitForResource cmd.hComponent cmd.param1])
  | .RMProxy_Exit => ({ s with exited := true, readPipeOpened := false }, [])
  | _ => (s, [])

/-- The callback of a component with an event. The cell that the event is passed in is freed, be it
that of a request. -/
def Proxy.callClient (s : Proxy) (hComponent : Nat) (event : OMX_ERRORTYPE) : Proxy × List Output :=
  ({ s with RM_Error := none }, RMProxy_CallbackClient s hComponent event)

/-- The case of a fatal error. -/
def handleFatalError (s : Proxy) (hComponent : Nat) : Proxy × List Output :=
  if s.fatalErrorHandled then (s, [])
  else if !s.responsePending then
    Proxy.callClient { s with cmd_hComponent := hComponent, fatalErrorHandled := true } hComponent
      .OMX_RmProxyCallback_FatalError
  else
    ({ (s.setError .OMX_RmProxyCallback_FatalError).post with fatalErrorHandled := true }, [])

/-- A message that the thread has read. Only a preemption and a fatal error name their component in
the data of the callback. -/
def handleMessage (stubMode : Bool) (s : Proxy) (rm_data : Message) : Proxy × List Output :=
  match rm_data.rm_status with
  | .RM_DENY => ((s.setError .OMX_ErrorInsufficientResources).post, [])
  | .RM_PREEMPT =>
    Proxy.callClient { s with cmd_hComponent := rm_data.hComponent } rm_data.hComponent
      OMX_RmProxyCallback_ResourcesPreempted
  | .RM_RESOURCEFATALERROR => handleFatalError s rm_data.hComponent
  | .RM_GRANT => if stubMode then (s, []) else ((s.setError .OMX_ErrorNone).post, [])
  | .RM_RESOURCEACQUIRED =>
    s.callClient rm_data.hComponent OMX_RmProxyCallback_ResourcesAcquired
  | .RM_ErrorNone => (s, [])

/-- What can happen next: a component sends a command, the thread reads a command or a message, a
request goes on. -/
inductive Event where
  | send (cmd : Command)
  | command
  | message (rm_data : Message)
  | wake
  deriving DecidableEq, Repr

def Proxy.step (stubMode : Bool) (s : Proxy) : Event → Proxy × List Output
  | .send cmd => (RMProxy_NewSendCommand stubMode s cmd, [])
  | .command =>
    match s.tothread with
    | [] => (s, [])
    | cmd :: rest =>
      handleCommand { s with tothread := rest, cmd_hComponent := cmd.hComponent } cmd
  | .message rm_data => handleMessage stubMode s rm_data
  | .wake =>
    match s.requester with
    | some hComponent => s.wake hComponent
    | none => (s, [])

def Proxy.next (stubMode : Bool) (s : Proxy) (event : Event) : Proxy := (s.step stubMode event).1

/-- Commands are sent while no request waits, the thread reads what is there until it exits, a
request goes on when its semaphore has been posted. -/
def Proxy.Enabled (s : Proxy) : Event → Prop
  | .send _ => s.responsePending = false
  | .command => s.tothread ≠ [] ∧ s.exited = false
  | .message _ => s.readPipeOpened = true ∧ s.exited = false
  | .wake => s.requester ≠ none ∧ ∃ posts, s.sem = some (posts + 1)

end OmapHal.ResourceManagerProxy
