import Mathlib

/-!
# The shared TEE context of the Cryptoki, SST and monotonic-counter stubs

`pkcs11_global.c`, `sst_stub.c` and `mtc.c` talk to the secure world through one
global context, opened by the first module that is initialised and closed by the
last one terminated. Every entry point runs under `g_sContextMutex` from its first
read to its last write, so that an interleaving of calls is a sequence of them.
What the driver, the C library and the secure world answer during a call is `Tee`,
a parameter of the call.
-/

namespace OmapHal.CryptoSst

/-- A result code of the TEE client library. -/
abbrev TEEC_Result := UInt32

def TEEC_SUCCESS : TEEC_Result := 0
def TEEC_ERROR_GENERIC : TEEC_Result := 0xFFFF0000
def TEEC_ERROR_ACCESS_DENIED : TEEC_Result := 0xFFFF0001
def TEEC_ERROR_ACCESS_CONFLICT : TEEC_Result := 0xFFFF0003
def TEEC_ERROR_BAD_FORMAT : TEEC_Result := 0xFFFF0005
def TEEC_ERROR_BAD_PARAMETERS : TEEC_Result := 0xFFFF0006
def TEEC_ERROR_ITEM_NOT_FOUND : TEEC_Result := 0xFFFF0008
def TEEC_ERROR_OUT_OF_MEMORY : TEEC_Result := 0xFFFF000C
def TEEC_ERROR_COMMUNICATION : TEEC_Result := 0xFFFF000E
def TEEC_ERROR_OS : TEEC_Result := 0xFFFF3002
def SST_ERROR_OVERFLOW : TEEC_Result := 0xFFFF300F
def SST_ERROR_NO_SPACE : TEEC_Result := 0xFFFF3041
def SST_ERROR_CORRUPTED : TEEC_Result := 0xFFFF3045

def CKR_OK : UInt32 := 0x0
def CKR_HOST_MEMORY : UInt32 := 0x2
def CKR_ARGUMENTS_BAD : UInt32 := 0x7
def CKR_DEVICE_ERROR : UInt32 := 0x30
def CKR_DEVICE_MEMORY : UInt32 := 0x31
def CKR_TOKEN_NOT_PRESENT : UInt32 := 0xE0
def CKR_CRYPTOKI_NOT_INITIALIZED : UInt32 := 0x190
def CKR_CRYPTOKI_ALREADY_INITIALIZED : UInt32 := 0x191

def TEEC_LOGIN_USER_APPLICATION : UInt32 := 0x5
def TEEC_LOGIN_AUTHENTICATION : UInt32 := 0x80000000

/-- The `errno` values that the driver code tells apart. -/
inductive Errno where
  | ENOMEM | EINTR | other
  deriving DecidableEq, Repr

/-- The device of the secure world: the answer of `open` and of the version request. -/
structure Driver where
  /-- The descriptor, or the error of a failed `open`. -/
  opened : Except Errno Int
  /-- Whether the version request answers `SM_DRIVER_VERSION`, and `errno` where it does not. -/
  version : Except Errno Unit

/-- The version check, on a descriptor that may be the `-1` of an interrupted `open`. -/
def Driver.checkVersion (driver : Driver) (hDriver : Int) : TEEC_Result × Option Int :=
  match driver.version with
  | .ok _ => (TEEC_SUCCESS, some hDriver)
  | .error .ENOMEM => (TEEC_ERROR_OUT_OF_MEMORY, none)
  | .error _ => (TEEC_ERROR_COMMUNICATION, none)

/-- The result and the connection stored in the context, `none` for no connection. -/
def TEEC_InitializeContext (driver : Driver) : TEEC_Result × Option Int :=
  match driver.opened with
  | .error .ENOMEM => (TEEC_ERROR_OUT_OF_MEMORY, none)
  | .error .EINTR => driver.checkVersion (-1)
  | .error .other => (TEEC_ERROR_COMMUNICATION, none)
  | .ok hDriver => driver.checkVersion hDriver

/-- The version check stores a connection exactly on success. -/
theorem Driver.checkVersion_isSome (driver : Driver) (hDriver : Int) :
    (driver.checkVersion hDriver).2.isSome ↔
      (driver.checkVersion hDriver).1 = TEEC_SUCCESS := by
  unfold Driver.checkVersion
  cases driver.version with
  | ok u => simp
  | error e => cases e <;> simp <;> decide

/-- A connection is stored exactly on success. -/
theorem TEEC_InitializeContext_isSome (driver : Driver) :
    (TEEC_InitializeContext driver).2.isSome ↔
      (TEEC_InitializeContext driver).1 = TEEC_SUCCESS := by
  unfold TEEC_InitializeContext
  cases driver.opened with
  | ok hDriver => exact driver.checkVersion_isSome hDriver
  | error e =>
    cases e with
    | ENOMEM => simp; decide
    | EINTR => exact driver.checkVersion_isSome (-1)
    | other => simp; decide

/-- The signature file beside the executable, as the C library shows it. -/
structure SignatureFile where
  realpath : Bool
  fopen : Bool
  fseek : Bool
  ftell : Int
  malloc : Bool
  content : List UInt8

/-- The size that is read, of the type `uint32_t`. -/
def SignatureFile.nSignatureSize (file : SignatureFile) : Nat :=
  (file.ftell % 2 ^ 32).toNat

/-- The result and the signature read. -/
def TEEC_ReadSignatureFile (file : SignatureFile) : TEEC_Result × List UInt8 :=
  if file.realpath = false then
    (TEEC_ERROR_OS, [])
  else if file.fopen = false then
    (TEEC_ERROR_ITEM_NOT_FOUND, [])
  else if file.fseek = false then
    (TEEC_ERROR_OS, [])
  else if file.ftell < 0 then
    (TEEC_ERROR_OS, [])
  else if file.nSignatureSize = 0 then
    (TEEC_SUCCESS, [])
  else if file.malloc = false then
    (TEEC_ERROR_OUT_OF_MEMORY, [])
  else if file.content.length < file.nSignatureSize then
    (TEEC_ERROR_OS, [])
  else
    (TEEC_SUCCESS, file.content.take file.nSignatureSize)

/-- The signature file is there and cannot be read, or the executable has no path. -/
def SignatureFile.Unreadable (file : SignatureFile) : Prop :=
  file.realpath = false ∨
    file.fopen = true ∧
      (file.fseek = false ∨ file.ftell < 0 ∨
        file.nSignatureSize ≠ 0 ∧
          (file.malloc = false ∨ file.content.length < file.nSignatureSize))

instance (file : SignatureFile) : Decidable file.Unreadable :=
  inferInstanceAs (Decidable (_ ∨ _))

/-- Reading fails otherwise than by a missing file exactly on an unreadable one. -/
theorem SignatureFile.unreadable_iff (file : SignatureFile) :
    file.Unreadable ↔ (TEEC_ReadSignatureFile file).1 ≠ TEEC_ERROR_ITEM_NOT_FOUND ∧
      (TEEC_ReadSignatureFile file).1 ≠ TEEC_SUCCESS := by
  have hos : TEEC_ERROR_OS ≠ TEEC_ERROR_ITEM_NOT_FOUND ∧ TEEC_ERROR_OS ≠ TEEC_SUCCESS := by decide
  have hmem : TEEC_ERROR_OUT_OF_MEMORY ≠ TEEC_ERROR_ITEM_NOT_FOUND ∧
      TEEC_ERROR_OUT_OF_MEMORY ≠ TEEC_SUCCESS := by decide
  unfold SignatureFile.Unreadable TEEC_ReadSignatureFile
  by_cases hpath : file.realpath = false
  · simp [hpath, hos]
  by_cases hopen : file.fopen = false
  · simp [hpath, hopen]
  by_cases hseek : file.fseek = false
  · simp [hpath, hopen, hseek, hos]
  by_cases htell : file.ftell < 0
  · simp [hpath, hopen, hseek, htell, hos]
  by_cases hsize : file.nSignatureSize = 0
  · simp [hpath, hopen, hseek, htell, hsize]
  by_cases hmalloc : file.malloc = false
  · simp [hpath, hopen, hseek, htell, hsize, hmalloc, hmem]
  by_cases hread : file.content.length < file.nSignatureSize
  · simp [hpath, hopen, hseek, htell, hsize, hmalloc, hread, hos]
  · simp [hpath, hopen, hseek, htell, hsize, hmalloc, hread]

/-- The answers that one call receives from outside the process. -/
structure Tee where
  driver : Driver
  signature : SignatureFile
  /-- `TEEC_OpenSession`, by login type and signature: its result and the session. -/
  openSession : UInt32 → Option (List UInt8) → TEEC_Result × Nat

/-- The globals of the three modules. -/
structure Stub where
  /-- The connection of the context, `none` once it is closed and cleared. -/
  g_sContext : Option Int
  g_nContextRefCounter : Nat
  g_bCryptokiInitialized : Bool
  g_bSSTInitialized : Bool
  g_SSTSession : Option Nat
  g_bMTCInitialized : Bool
  deriving DecidableEq, Repr

/-- The globals when the library is loaded. -/
def Stub.start : Stub where
  g_sContext := none
  g_nContextRefCounter := 0
  g_bCryptokiInitialized := false
  g_bSSTInitialized := false
  g_SSTSession := none
  g_bMTCInitialized := false

def stubInitializeContext (tee : Tee) (s : Stub) : Stub × TEEC_Result :=
  if s.g_nContextRefCounter ≠ 0 then
    ({ s with g_nContextRefCounter := (s.g_nContextRefCounter + 1) % 2 ^ 32 }, TEEC_SUCCESS)
  else
    let (nTeeError, hConnection) := TEEC_InitializeContext tee.driver
    if nTeeError = TEEC_SUCCESS then
      ({ s with g_sContext := hConnection, g_nContextRefCounter := 1 }, nTeeError)
    else
      ({ s with g_sContext := hConnection }, nTeeError)

def stubFinalizeContext (s : Stub) : Stub :=
  let s := if 0 < s.g_nContextRefCounter then
      { s with g_nContextRefCounter := s.g_nContextRefCounter - 1 }
    else s
  if s.g_nContextRefCounter = 0 then { s with g_sContext := none } else s

def ckInternalTeeErrorToCKError (nError : TEEC_Result) : UInt32 :=
  if nError = TEEC_SUCCESS then CKR_OK
  else if nError = TEEC_ERROR_BAD_PARAMETERS ∨ nError = TEEC_ERROR_BAD_FORMAT then
    CKR_ARGUMENTS_BAD
  else if nError = TEEC_ERROR_OUT_OF_MEMORY then CKR_HOST_MEMORY
  else if nError = TEEC_ERROR_ACCESS_DENIED then CKR_TOKEN_NOT_PRESENT
  else CKR_DEVICE_ERROR

def C_Initialize (pInitArgs : Nat) (tee : Tee) (s : Stub) : Stub × UInt32 :=
  if pInitArgs ≠ 0 then (s, CKR_ARGUMENTS_BAD)
  else if s.g_bCryptokiInitialized then (s, CKR_CRYPTOKI_ALREADY_INITIALIZED)
  else
    let (s, nTeeError) := stubInitializeContext tee s
    if nTeeError = TEEC_SUCCESS then
      ({ s with g_bCryptokiInitialized := true }, ckInternalTeeErrorToCKError nTeeError)
    else (s, ckInternalTeeErrorToCKError nTeeError)

def C_Finalize (pReserved : Nat) (s : Stub) : Stub × UInt32 :=
  if pReserved ≠ 0 then (s, CKR_ARGUMENTS_BAD)
  else if s.g_bCryptokiInitialized then
    ({ stubFinalizeContext s with g_bCryptokiInitialized := false }, CKR_OK)
  else (s, CKR_CRYPTOKI_NOT_INITIALIZED)

def static_SSTConvertErrorCode (nError : TEEC_Result) : UInt32 :=
  if nError = TEEC_SUCCESS then TEEC_SUCCESS
  else if nError ∈ [TEEC_ERROR_BAD_PARAMETERS, TEEC_ERROR_ACCESS_DENIED,
      TEEC_ERROR_ACCESS_CONFLICT, SST_ERROR_CORRUPTED, SST_ERROR_NO_SPACE,
      TEEC_ERROR_ITEM_NOT_FOUND, TEEC_ERROR_OUT_OF_MEMORY, SST_ERROR_OVERFLOW] then nError
  else TEEC_ERROR_GENERIC

/-- `SSTInit` from the opening of the session, with its `end_finalize_context` exit. -/
def sstOpenSession (tee : Tee) (nLoginType : UInt32) (param3 : Option (List UInt8)) (s : Stub) :
    Stub × UInt32 :=
  let (nTeeError, hSession) := tee.openSession nLoginType param3
  if nTeeError ≠ TEEC_SUCCESS then
    (stubFinalizeContext s, static_SSTConvertErrorCode nTeeError)
  else ({ s with g_SSTSession := some hSession, g_bSSTInitialized := true }, TEEC_SUCCESS)

def SSTInit (tee : Tee) (s : Stub) : Stub × UInt32 :=
  if s.g_bSSTInitialized then (s, static_SSTConvertErrorCode TEEC_SUCCESS)
  else
    let (s, nTeeError) := stubInitializeContext tee s
    if nTeeError ≠ TEEC_SUCCESS then (s, static_SSTConvertErrorCode nTeeError)
    else
      let (nTeeError, signature) := TEEC_ReadSignatureFile tee.signature
      if nTeeError = TEEC_ERROR_ITEM_NOT_FOUND then
        sstOpenSession tee TEEC_LOGIN_USER_APPLICATION none s
      else if nTeeError ≠ TEEC_SUCCESS then
        -- `goto end`: the reference taken above stays
        (s, static_SSTConvertErrorCode nTeeError)
      else sstOpenSession tee TEEC_LOGIN_AUTHENTICATION (some signature) s

def SSTTerminate (s : Stub) : Stub × UInt32 :=
  if s.g_bSSTInitialized then
    ({ stubFinalizeContext { s with g_SSTSession := none } with g_bSSTInitialized := false },
      TEEC_SUCCESS)
  else (s, TEEC_SUCCESS)

def SMonotonicCounterInit (tee : Tee) (s : Stub) : Stub × TEEC_Result :=
  if s.g_bMTCInitialized then (s, TEEC_SUCCESS)
  else
    let (s, nTeeError) := stubInitializeContext tee s
    if nTeeError = TEEC_SUCCESS then ({ s with g_bMTCInitialized := true }, nTeeError)
    else (s, nTeeError)

def SMonotonicCounterTerminate (s : Stub) : Stub :=
  if s.g_bMTCInitialized then { stubFinalizeContext s with g_bMTCInitialized := false } else s

/-- A call of one of the six entry points that hold the mutex. -/
inductive Call where
  | C_Initialize (pInitArgs : Nat) (tee : Tee)
  | C_Finalize (pReserved : Nat)
  | SSTInit (tee : Tee)
  | SSTTerminate
  | SMonotonicCounterInit (tee : Tee)
  | SMonotonicCounterTerminate

/-- The globals after a call. -/
def step (s : Stub) : Call → Stub
  | .C_Initialize pInitArgs tee => (C_Initialize pInitArgs tee s).1
  | .C_Finalize pReserved => (C_Finalize pReserved s).1
  | .SSTInit tee => (SSTInit tee s).1
  | .SSTTerminate => (SSTTerminate s).1
  | .SMonotonicCounterInit tee => (SMonotonicCounterInit tee s).1
  | .SMonotonicCounterTerminate => SMonotonicCounterTerminate s

end OmapHal.CryptoSst
