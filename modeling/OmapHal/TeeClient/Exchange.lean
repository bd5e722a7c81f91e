import OmapHal.CryptoSst.Context

/-!
# Message exchange of the TEE client

`scxExchangeMessage` fills the parameters of a command from an operation, hands the command to the
driver and updates the operation from the answer. What the driver answers, and what it leaves in
the answer where it fails, is a parameter.
-/

namespace OmapHal.TeeClient

open CryptoSst (TEEC_Result TEEC_SUCCESS TEEC_ERROR_OUT_OF_MEMORY TEEC_ERROR_ACCESS_DENIED
  TEEC_ERROR_COMMUNICATION)

/-- A 32-bit field, or an address in the client. -/
abbrev Word := BitVec 32

def SCX_OPEN_CLIENT_SESSION : BitVec 8 := 0xF0

def SCX_PARAM_TYPE_INPUT_FLAG : Word := 0x1
def SCX_PARAM_TYPE_OUTPUT_FLAG : Word := 0x2
def SCX_PARAM_TYPE_MEMREF_FLAG : Word := 0x4
def SCX_PARAM_TYPE_REGISTERED_MEMREF_FLAG : Word := 0x8

def TEEC_MEMREF_WHOLE : Word := 0xC

/-- A block of shared memory. -/
structure TEEC_SharedMemory where
  size : Word
  flags : Word
  hBlock : Word
  deriving DecidableEq, Repr

/-- A parameter of an operation: the union of a value `a, b`, a temporary reference
`buffer, size` and a registered one `parent, size, offset`. -/
@[ext] structure TEEC_Parameter where
  word0 : Word
  word1 : Word
  word2 : Word
  deriving DecidableEq, Repr

namespace TEEC_Parameter

abbrev value_a (p : TEEC_Parameter) : Word := p.word0
abbrev value_b (p : TEEC_Parameter) : Word := p.word1
abbrev tmpref_buffer (p : TEEC_Parameter) : Word := p.word0
abbrev tmpref_size (p : TEEC_Parameter) : Word := p.word1
abbrev memref_parent (p : TEEC_Parameter) : Word := p.word0
abbrev memref_size (p : TEEC_Parameter) : Word := p.word1
abbrev memref_offset (p : TEEC_Parameter) : Word := p.word2

end TEEC_Parameter

@[ext] structure TEEC_Operation where
  started : Word
  paramTypes : Word
  params : Fin 4 → TEEC_Parameter
  deriving DecidableEq

/-- A parameter of a command: the union of `a, b`, of `nDescriptor, nSize, nOffset` and of
`hBlock, nSize, nOffset`. -/
structure SCHANNEL6_COMMAND_PARAM where
  word0 : Word
  word1 : Word
  word2 : Word
  deriving DecidableEq, Repr

/-- A command: its header, and the parameters that its type gives it. -/
structure SCHANNEL6_COMMAND where
  nMessageType : BitVec 8
  /-- `nParamTypes` of an open and of an invoke message. -/
  nMessageInfo : BitVec 16
  nOperationID : Word
  sParams : Fin 4 → SCHANNEL6_COMMAND_PARAM
  deriving DecidableEq

/-- An answer parameter: the union of `a, b` and of an ignored word and `nSize`. -/
structure SCHANNEL6_ANSWER_PARAM where
  a : Word
  b : Word
  deriving DecidableEq, Repr

abbrev SCHANNEL6_ANSWER_PARAM.nSize (answer : SCHANNEL6_ANSWER_PARAM) : Word := answer.b

/-- An answer: its type, and the words behind the error code. -/
structure SCHANNEL6_ANSWER where
  nMessageType : BitVec 8
  body : Fin 9 → Word
  deriving DecidableEq

namespace SCHANNEL6_ANSWER

/-- The answer parameters of an open message stand behind `hClientSession`. -/
def sOpenClientSession_sAnswers (answer : SCHANNEL6_ANSWER) (i : Fin 4) : SCHANNEL6_ANSWER_PARAM :=
  ⟨answer.body ⟨2 * i + 1, by omega⟩, answer.body ⟨2 * i + 2, by omega⟩⟩

def sInvokeClientCommand_sAnswers (answer : SCHANNEL6_ANSWER) (i : Fin 4) :
    SCHANNEL6_ANSWER_PARAM :=
  ⟨answer.body ⟨2 * i, by omega⟩, answer.body ⟨2 * i + 1, by omega⟩⟩

/-- The slot of a parameter, at the place that the type of the answer gives it. -/
def pSCXAnswers (answer : SCHANNEL6_ANSWER) (i : Fin 4) : SCHANNEL6_ANSWER_PARAM :=
  if answer.nMessageType = SCX_OPEN_CLIENT_SESSION then answer.sOpenClientSession_sAnswers i
  else answer.sInvokeClientCommand_sAnswers i

end SCHANNEL6_ANSWER

inductive Errno where
  | ENOMEM | EACCES | other
  deriving DecidableEq, Repr

/-- What the driver returns, an `errno` where it fails, and the answer after the call. -/
structure IoctlReply where
  nResult : Option Errno
  sAnswer : SCHANNEL6_ANSWER

/-- The exchange request of the driver, given the command and what the answer holds before. -/
abbrev Driver := SCHANNEL6_COMMAND → SCHANNEL6_ANSWER → IoctlReply

def SCX_PARAM_TYPE_GET (nParamTypes : Word) (i : Nat) : Word := (nParamTypes >>> (4 * i)) &&& 0xF

/-- The blocks of shared memory, by address. -/
abbrev Memory := Word → TEEC_SharedMemory

/-! ### The message parameters -/

/-- One turn of the loop over the operation parameters. -/
def marshalParam (sharedMemory : Memory) (pOperation : TEEC_Operation)
    (pCommand : SCHANNEL6_COMMAND) (i : Fin 4) : SCHANNEL6_COMMAND :=
  let nTEECParamType := SCX_PARAM_TYPE_GET pOperation.paramTypes i
  let pTEECParam := pOperation.params i
  let pSCXParam := pCommand.sParams i
  if nTEECParamType &&& SCX_PARAM_TYPE_MEMREF_FLAG ≠ 0 then
    if nTEECParamType &&& SCX_PARAM_TYPE_REGISTERED_MEMREF_FLAG ≠ 0 then
      let parent := sharedMemory pTEECParam.memref_parent
      if nTEECParamType = TEEC_MEMREF_WHOLE then
        { pCommand with
          nMessageInfo := pCommand.nMessageInfo |||
            ((parent.flags &&& (SCX_PARAM_TYPE_INPUT_FLAG ||| SCX_PARAM_TYPE_OUTPUT_FLAG))
              <<< (4 * i.val)).setWidth 16
          sParams := Function.update pCommand.sParams i ⟨parent.hBlock, parent.size, 0⟩ }
      else
        { pCommand with
          sParams := Function.update pCommand.sParams i
            ⟨parent.hBlock, pTEECParam.memref_size, pTEECParam.memref_offset⟩ }
    else
      { pCommand with
        sParams := Function.update pCommand.sParams i
          ⟨pTEECParam.tmpref_buffer, pTEECParam.tmpref_size, pTEECParam.tmpref_buffer⟩ }
  else if nTEECParamType &&& SCX_PARAM_TYPE_INPUT_FLAG ≠ 0 then
    { pCommand with
      sParams := Function.update pCommand.sParams i
        { pSCXParam with word0 := pTEECParam.value_a, word1 := pTEECParam.value_b } }
  else pCommand

/-- The command after the operation parameters, as the driver receives it. -/
def marshal (sharedMemory : Memory) (pOperation : TEEC_Operation) (pCommand : SCHANNEL6_COMMAND) :
    SCHANNEL6_COMMAND :=
  (List.finRange 4).foldl (marshalParam sharedMemory pOperation)
    { pCommand with nMessageInfo := pOperation.paramTypes.setWidth 16 }

/-! ### The answer -/

/-- One turn of the loop over the answer parameters. -/
def updateParam (nMessageInfo : BitVec 16) (pSCXAnswers : Fin 4 → SCHANNEL6_ANSWER_PARAM)
    (params : Fin 4 → TEEC_Parameter) (i : Fin 4) : Fin 4 → TEEC_Parameter :=
  let nSCXParamType := SCX_PARAM_TYPE_GET (nMessageInfo.setWidth 32) i
  if nSCXParamType &&& SCX_PARAM_TYPE_OUTPUT_FLAG ≠ 0 then
    if nSCXParamType &&& SCX_PARAM_TYPE_MEMREF_FLAG ≠ 0 then
      Function.update params i { params i with word1 := (pSCXAnswers i).nSize }
    else
      Function.update params i
        { params i with word0 := (pSCXAnswers i).a, word1 := (pSCXAnswers i).b }
  else params

def errorOf : Errno → TEEC_Result
  | .ENOMEM => TEEC_ERROR_OUT_OF_MEMORY
  | .EACCES => TEEC_ERROR_ACCESS_DENIED
  | .other => TEEC_ERROR_COMMUNICATION

/-- The result, the answer and the operation after the call. -/
def scxExchangeMessage (sharedMemory : Memory) (ioctl : Driver) (pCommand : SCHANNEL6_COMMAND)
    (pAnswer : Word) (sAnswer : SCHANNEL6_ANSWER) (pOperation : Option TEEC_Operation) :
    TEEC_Result × SCHANNEL6_ANSWER × Option TEEC_Operation :=
  let pCommand := pOperation.elim pCommand fun op => marshal sharedMemory op pCommand
  let pCommand := { pCommand with nOperationID := pAnswer }
  let reply := ioctl pCommand sAnswer
  let nResult := reply.nResult.elim TEEC_SUCCESS errorOf
  -- a failed request goes on to the update as well
  (nResult, reply.sAnswer, pOperation.map fun op =>
    { op with
      params := (List.finRange 4).foldl
        (updateParam pCommand.nMessageInfo reply.sAnswer.pSCXAnswers) op.params })

end OmapHal.TeeClient
