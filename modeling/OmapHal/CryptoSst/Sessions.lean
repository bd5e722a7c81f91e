import OmapHal.CryptoSst.Context
import OmapHal.CryptoSst.HandleTable

/-!
# Cryptoki sessions

`C_OpenSession` and `C_CloseSession`. A primary session has a session of the secure world and a
table of the secondary sessions opened below it. Contexts are objects in memory, the nodes of a
table are the secondary contexts, and a read of an object that is not there has no result. The
answers from outside the process belong to the call.
-/

namespace OmapHal.CryptoSst

def CKR_SESSION_HANDLE_INVALID : UInt32 := 0xB3
def CK_INVALID_HANDLE : UInt32 := 0
def CKVF_OPEN_SUB_SESSION : UInt32 := 0x8
def CKV_TOKEN_SYSTEM_SHARED : UInt32 := 0x0
def CKV_TOKEN_USER_SHARED : UInt32 := 0x4012
def TEEC_ERROR_NOT_SUPPORTED : TEEC_Result := 0xFFFF000A
def TEEC_ORIGIN_API : UInt32 := 1
def TEEC_ORIGIN_TRUSTED_APP : UInt32 := 4
def TEEC_LOGIN_PUBLIC : UInt32 := 0
def TEEC_LOGIN_GROUP : UInt32 := 2
def SERVICE_SYSTEM_PKCS11_C_OPEN_SESSION_COMMAND_ID : UInt32 := 0x42
def PKCS11_SESSION_MAGIC : UInt32 := 0x45EF683B
def PKCS11_PRIMARY_SESSION_TAG : UInt32 := 1
def PKCS11_SECONDARY_SESSION_TAG : UInt32 := 2

/-- The handle of a session in the secure world. -/
abbrev TEEC_Session := Nat

structure PKCS11_SESSION_CONTEXT_HEADER where
  nMagicWord : UInt32
  nSessionTag : UInt32
  deriving DecidableEq, Repr

structure PKCS11_PRIMARY_SESSION_CONTEXT where
  sHeader : PKCS11_SESSION_CONTEXT_HEADER
  sSession : TEEC_Session
  hCryptoSession : UInt32
  sSecondarySessionTable : LIB_OBJECT_TABLE_HANDLE16

/-- The node of the context is in the table of its primary session. -/
structure PKCS11_SECONDARY_SESSION_CONTEXT where
  sHeader : PKCS11_SESSION_CONTEXT_HEADER
  hSecondaryCryptoSession : UInt32
  pPrimarySession : Pointer

/-- What a handle may point to. -/
inductive Object where
  | primary (context : PKCS11_PRIMARY_SESSION_CONTEXT)
  | secondary (context : PKCS11_SECONDARY_SESSION_CONTEXT)
  /-- Memory of the caller's, of which the header of a session would be two words. -/
  | other (sHeader : PKCS11_SESSION_CONTEXT_HEADER)

def Object.sHeader : Object → PKCS11_SESSION_CONTEXT_HEADER
  | .primary context => context.sHeader
  | .secondary context => context.sHeader
  | .other sHeader => sHeader

/-- The globals, the memory and the sessions that are open in the secure world. -/
structure Cryptoki where
  stub : Stub
  memory : Pointer → Option Object
  sessions : List TEEC_Session

namespace Cryptoki

def store (s : Cryptoki) (p : Pointer) (object : Object) : Cryptoki :=
  { s with memory := Function.update s.memory p (some object) }

def free (s : Cryptoki) (p : Pointer) : Cryptoki :=
  { s with memory := Function.update s.memory p none }

/-- Whether the session is open, and whether it is a primary one. -/
def ckInternalSessionIsOpenedEx (s : Cryptoki) (hSession : Pointer) : Option (Bool × Bool) :=
  if hSession = 0 then some (false, false)
  else do
    let object ← s.memory hSession
    if object.sHeader.nMagicWord ≠ PKCS11_SESSION_MAGIC then some (false, false)
    else if object.sHeader.nSessionTag = PKCS11_PRIMARY_SESSION_TAG then
      match object with
      | .primary pSession => some (pSession.hCryptoSession != CK_INVALID_HANDLE, true)
      | _ => none
    else if object.sHeader.nSessionTag = PKCS11_SECONDARY_SESSION_TAG then
      match object with
      | .secondary pSecSession =>
        if pSecSession.pPrimarySession = 0 then some (false, false)
        else do
          let parent ← s.memory pSecSession.pPrimarySession
          if parent.sHeader.nMagicWord ≠ PKCS11_SESSION_MAGIC ∨
              parent.sHeader.nSessionTag ≠ PKCS11_PRIMARY_SESSION_TAG then some (false, false)
          else
            match parent with
            | .primary pSession =>
              if pSession.hCryptoSession = CK_INVALID_HANDLE then some (false, false)
              else some (pSecSession.hSecondaryCryptoSession != CK_INVALID_HANDLE, false)
            | _ => none
      | _ => none
    else some (false, false)

end Cryptoki

/-- The error code behind the label `error`. -/
def sessionErrorCode (nErrorOrigin : UInt32) (nTeeError : TEEC_Result) : UInt32 :=
  if nErrorOrigin = TEEC_ORIGIN_TRUSTED_APP then nTeeError
  else ckInternalTeeErrorToCKError nTeeError

/-- A call of `C_OpenSession`, with what is answered to it. -/
structure OpenCall where
  slotID : UInt32
  flags : UInt32
  /-- The value behind `phSession`, `none` for a null pointer. -/
  phSession : Option Pointer
  malloc : Option Pointer
  /-- What the new context holds in the field that is written last. -/
  stale : UInt32
  signature : SignatureFile
  /-- `TEEC_OpenSession`, by login type, login data and signature. -/
  openSession : UInt32 → Option UInt32 → Option (List UInt8) → TEEC_Result × TEEC_Session
  /-- `TEEC_InvokeCommand`, by session, command and first parameter: the result, its origin and the
  parameter's `value.a` afterwards. -/
  invokeCommand : TEEC_Session → UInt32 → UInt32 × UInt32 → TEEC_Result × UInt32 × UInt32

namespace OpenCall

/-- Group tokens are told by their range. -/
def isGroup (call : OpenCall) : Bool :=
  0x00010000 ≤ call.slotID ∧ call.slotID ≤ 0x0002FFFF

def nLoginType (call : OpenCall) : UInt32 :=
  if call.isGroup then TEEC_LOGIN_GROUP
  else if call.slotID = CKV_TOKEN_SYSTEM_SHARED ∨ call.slotID = CKV_TOKEN_USER_SHARED then
    TEEC_LOGIN_PUBLIC
  else TEEC_LOGIN_AUTHENTICATION

def pLoginData (call : OpenCall) : Option UInt32 :=
  if call.isGroup then some (call.slotID &&& 0x0000FFFF) else none

/-- The slot that the service is told. -/
def serviceSlot (call : OpenCall) : UInt32 :=
  if call.isGroup then if call.slotID ≤ 0x0001FFFF then 3 else 0x4014 else call.slotID

/-- `TEEC_OpenSession`, which stores a session on success only. -/
def teeOpenSession (call : OpenCall) (nLoginType : UInt32) (param3 : Option (List UInt8)) :
    TEEC_Result × Option TEEC_Session :=
  let (nTeeError, sSession) := call.openSession nLoginType call.pLoginData param3
  (nTeeError, if nTeeError = TEEC_SUCCESS then some sSession else none)

/-- The part of `C_OpenSession` from the label `retry` to the session of the secure world. -/
def openTeeSession (call : OpenCall) : TEEC_Result × Option TEEC_Session :=
  if call.nLoginType = TEEC_LOGIN_AUTHENTICATION then
    let (nTeeError, signature) := TEEC_ReadSignatureFile call.signature
    if nTeeError = TEEC_ERROR_ITEM_NOT_FOUND then
      call.teeOpenSession TEEC_LOGIN_USER_APPLICATION none
    else if nTeeError ≠ TEEC_SUCCESS then (nTeeError, none)
    else
      let (nTeeError, sSession) := call.teeOpenSession TEEC_LOGIN_AUTHENTICATION (some signature)
      if nTeeError = TEEC_ERROR_NOT_SUPPORTED then
        -- `goto retry`: the parameter is cleared, and its type stays that of a buffer
        call.teeOpenSession TEEC_LOGIN_USER_APPLICATION (some [])
      else (nTeeError, sSession)
  else call.teeOpenSession call.nLoginType none

/-- The command that opens a primary session of the service. -/
def invokePrimary (call : OpenCall) (sSession : TEEC_Session) : TEEC_Result × UInt32 × UInt32 :=
  call.invokeCommand sSession (SERVICE_SYSTEM_PKCS11_C_OPEN_SESSION_COMMAND_ID &&& 0x7FFF)
    (call.serviceSlot, call.flags)

/-- The command that opens a secondary session below a primary one. -/
def invokeSecondary (call : OpenCall) (pSession : PKCS11_PRIMARY_SESSION_CONTEXT) :
    TEEC_Result × UInt32 × UInt32 :=
  call.invokeCommand pSession.sSession
    ((pSession.hCryptoSession <<< 16) ||| ((1 : UInt32) <<< 15) |||
      (SERVICE_SYSTEM_PKCS11_C_OPEN_SESSION_COMMAND_ID &&& 0x7FFF)) (0, 0)

end OpenCall

/-- The error code, the value behind `phSession` and the state after a call. -/
structure Outcome where
  nErrorCode : UInt32
  phSession : Option Pointer
  state : Cryptoki

/-- The header of a context that is being made. -/
def sessionHeader (nSessionTag : UInt32) : PKCS11_SESSION_CONTEXT_HEADER :=
  ⟨PKCS11_SESSION_MAGIC, nSessionTag⟩

namespace Cryptoki

/-- The first branch of `C_OpenSession`. -/
def openPrimary (s : Cryptoki) (call : OpenCall) : Outcome :=
  match call.malloc with
  | none => ⟨CKR_DEVICE_MEMORY, some 0, s⟩
  | some p =>
    let pSession : PKCS11_PRIMARY_SESSION_CONTEXT :=
      ⟨sessionHeader PKCS11_PRIMARY_SESSION_TAG, 0, call.stale, ⟨none, id, id, fun _ => 0⟩⟩
    let s := s.store p (.primary pSession)
    match call.openTeeSession with
    | (nTeeError, none) => ⟨sessionErrorCode TEEC_ORIGIN_API nTeeError, some 0, s.free p⟩
    | (_, some sSession) =>
      let s := { s.store p (.primary { pSession with sSession }) with
        sessions := sSession :: s.sessions }
      let (nTeeError, nErrorOrigin, a) := call.invokePrimary sSession
      if nTeeError ≠ TEEC_SUCCESS then ⟨sessionErrorCode nErrorOrigin nTeeError, some 0, s.free p⟩
      else ⟨CKR_OK, some p, s.store p (.primary { pSession with sSession, hCryptoSession := a })⟩

/-- The second branch of `C_OpenSession`. -/
def openSecondary (s : Cryptoki) (call : OpenCall) (hSession : Pointer) : Option Outcome := do
  let (opened, bIsPrimarySession) ← s.ckInternalSessionIsOpenedEx hSession
  if !opened || !bIsPrimarySession then some ⟨CKR_SESSION_HANDLE_INVALID, some hSession, s⟩
  else match s.memory hSession with
    | some (.primary pSession) =>
      match call.malloc with
      | none => some ⟨CKR_DEVICE_MEMORY, some hSession, s⟩
      | some p => do
        let pSecondarySession : PKCS11_SECONDARY_SESSION_CONTEXT :=
          ⟨sessionHeader PKCS11_SECONDARY_SESSION_TAG, call.stale, hSession⟩
        let (bResult, table) ← pSession.sSecondarySessionTable.libObjectHandle16Add p
        let s := (s.store p (.secondary pSecondarySession)).store hSession
          (.primary { pSession with sSecondarySessionTable := table })
        if bResult = false then some ⟨CKR_DEVICE_MEMORY, some hSession, s.free p⟩
        else
          let (nTeeError, nErrorOrigin, a) := call.invokeSecondary pSession
          if nTeeError ≠ TEEC_SUCCESS then
            let s := s.store hSession
              (.primary { pSession with sSecondarySessionTable := table.libObjectHandle16Remove p })
            some ⟨sessionErrorCode nErrorOrigin nTeeError, some hSession, s.free p⟩
          else
            some ⟨CKR_OK, some p,
              s.store p (.secondary { pSecondarySession with hSecondaryCryptoSession := a })⟩
    | _ => none

def C_OpenSession (s : Cryptoki) (call : OpenCall) : Option Outcome :=
  match call.phSession with
  | none => some ⟨CKR_ARGUMENTS_BAD, none, s⟩
  | some hSession =>
    if s.stub.g_bCryptokiInitialized = false then
      some ⟨CKR_CRYPTOKI_NOT_INITIALIZED, some hSession, s⟩
    else if call.flags &&& CKVF_OPEN_SUB_SESSION = 0 then some (s.openPrimary call)
    else s.openSecondary call hSession

/-- The loop of `C_CloseSession` that takes the secondary contexts out of the table. -/
def closeSecondaries : Nat → LIB_OBJECT_TABLE_HANDLE16 → Cryptoki → Option Cryptoki
  | 0, _, _ => none
  | turns + 1, table, s =>
    match table.libObjectHandle16RemoveOne with
    | (none, _) => some s
    | (some pObject, table) => closeSecondaries turns table (s.free pObject)

/-- The branch of `C_CloseSession` for a primary session, by the answer to its command. -/
def closePrimary (s : Cryptoki) (hSession : Pointer) (pSession : PKCS11_PRIMARY_SESSION_CONTEXT)
    (nTeeError : TEEC_Result) : Option Cryptoki :=
  if nTeeError ≠ TEEC_SUCCESS then some s
  else do
    let s ← closeSecondaries (LIB_OBJECT_HANDLE16_MAX + 1) pSession.sSecondarySessionTable
      { s with sessions := s.sessions.erase pSession.sSession }
    some (s.free hSession)

/-- The branch for a secondary session. -/
def closeSecondary (s : Cryptoki) (hSession : Pointer)
    (pSecSession : PKCS11_SECONDARY_SESSION_CONTEXT) (nTeeError : TEEC_Result) :
    Option Cryptoki :=
  match s.memory pSecSession.pPrimarySession with
  | some (.primary pSession) =>
    if nTeeError ≠ TEEC_SUCCESS then some s
    else
      let table := pSession.sSecondarySessionTable.libObjectHandle16Remove hSession
      let s := s.store pSecSession.pPrimarySession
        (.primary { pSession with sSecondarySessionTable := table })
      some (s.free hSession)
  | _ => none

/-- The state after `C_CloseSession`. -/
def C_CloseSession (s : Cryptoki) (hSession : Pointer) (nTeeError : TEEC_Result) :
    Option Cryptoki :=
  if s.stub.g_bCryptokiInitialized = false then some s
  else do
    let (opened, _) ← s.ckInternalSessionIsOpenedEx hSession
    if !opened then some s
    else match s.memory hSession with
      | some (.primary pSession) => s.closePrimary hSession pSession nTeeError
      | some (.secondary pSecSession) => s.closeSecondary hSession pSecSession nTeeError
      | _ => none

end Cryptoki

end OmapHal.CryptoSst
