/-!
# Messages between the resource manager and the policy manager

`PolicyManagerAPI.h`. A component instance is named by its handle and its process.
-/

namespace OmapHal.PolicyManager

/-- The commands of the policy manager; `PM_unknown` is any number outside the enumeration. -/
inductive PM_COMMANDTYPE where
  | PM_Init | PM_RequestPolicy | PM_WaitForPolicy | PM_FreePolicy | PM_CancelWaitForPolicy
  | PM_FreeResources | PM_StateSet | PM_OpenPipe | PM_Exit | PM_ExitTI | PM_unknown
  deriving DecidableEq, Repr

/-- The fields of `POLICYMANAGER_COMMANDDATATYPE` that are set and read. -/
structure PolicyCommand where
  PM_Cmd : PM_COMMANDTYPE
  param1 : Nat
  hComponent : Nat
  nPid : Nat
  deriving DecidableEq, Repr

/-- The responses of the policy manager; `PM_unknown` is any other number. -/
inductive POLICYMANAGER_TORESOURCEMANAGER where
  | PM_GRANTPOLICY | PM_DENYPOLICY | PM_PREEMPTED | PM_unknown
  deriving DecidableEq, Repr

/-- The fields of `POLICYMANAGER_RESPONSEDATATYPE` that are set and read. -/
structure PolicyResponse where
  hComponent : Nat
  nPid : Nat
  PM_Cmd : POLICYMANAGER_TORESOURCEMANAGER
  deriving DecidableEq, Repr

end OmapHal.PolicyManager
