import Mathlib.Logic.Function.Basic

/-!
# The LCML codec interface

`QueueBuffer`, `ControlCodec` and the messages that `MessagingThread` takes, of `LCML_DspCodec.c`.
Each runs under the mutex of the instance, so it is one step. Pointers are numbers, zero is
`NULL`. A step has no result when it waits for ever or goes outside an array. The answers of the
bridge are arguments; a call of the bridge that fails writes nothing.
-/

namespace OmapHal.Lcml

abbrev Ptr := Nat

def QUEUE_SIZE : Nat := 20

def MAX_DMM_BUFFERS : Nat := 20

inductive OMX_ERRORTYPE where
  | OMX_ErrorNone | OMX_ErrorInsufficientResources | OMX_ErrorBadParameter | OMX_ErrorHardware
  | OMX_ErrorUndefined
  deriving DecidableEq, Repr

structure DMM_BUFFER_OBJ where
  pAllocated : Ptr := 0
  pReserved : Ptr := 0
  pMapped : Ptr := 0
  bufReserved : Ptr := 0
  paramReserved : Ptr := 0
  nSize : Nat := 0
  deriving DecidableEq, Repr

structure TArmDspCommunicationStruct where
  iBufferPtr : Ptr
  iBufferSize : Nat
  iParamPtr : Ptr
  iParamSize : Nat
  iBufSizeUsed : Nat
  iEOSFlag : Nat
  iArmbufferArg : Ptr
  iArmParamArg : Ptr
  Bufoutindex : Nat
  BufInindex : Nat
  iUsrArg : Ptr
  iStreamID : Nat
  /-- the call of `QueueBuffer` that made it -/
  call : Nat
  deriving DecidableEq, Repr

/-- `sizeof (TArmDspCommunicationStruct)` -/
def sizeofStruct : Nat := 76

/-! ## The bridge -/

/-- What a piece of memory is mapped for. -/
inductive Use where
  | buffer | parameter | commStruct | control
  deriving DecidableEq, Repr

/-- A reservation of DSP memory. It is not mapped when `DSPProcessor_Map` failed. -/
structure Reservation where
  use : Use
  pArmPtr : Ptr
  pMapped : Option Ptr
  pReserved : Ptr
  deriving DecidableEq, Repr

/-- Whether a reservation was made with this pair of addresses. -/
def Reservation.isAt (r : Reservation) (pMapPtr pResPtr : Ptr) : Bool :=
  r.pMapped = some pMapPtr ∧ r.pReserved = pResPtr

/-- A structure that the DSP was sent, and the mappings that it reaches by it. -/
structure Sent where
  streamId : Nat
  dwArg1 : Ptr
  uses : List Reservation
  deriving DecidableEq, Repr

/-- The bridge: the reservations that were made and not released, the releases of what was not
reserved so, and the structures that the DSP holds. -/
structure Bridge where
  ledger : List Reservation
  stray : List (Ptr × Ptr)
  queued : List Sent
  deriving DecidableEq, Repr

/-- What `DSPProcessor_ReserveMemory` and `DSPProcessor_Map` answer. -/
structure MapAnswer where
  reserve : Option Ptr
  map : Option Ptr
  deriving DecidableEq, Repr

def Bridge.reserve (dsp : Bridge) (r : Reservation) : Bridge :=
  { dsp with ledger := r :: dsp.ledger }

/-- `DSPProcessor_UnMap` and `DSPProcessor_UnReserveMemory`. -/
def Bridge.release (dsp : Bridge) (pMapPtr pResPtr : Ptr) : Bridge :=
  if dsp.ledger.any (·.isAt pMapPtr pResPtr) then
    { dsp with ledger := dsp.ledger.eraseP (·.isAt pMapPtr pResPtr) }
  else { dsp with stray := (pMapPtr, pResPtr) :: dsp.stray }

def DmmMap (use : Use) (size : Nat) (pArmPtr : Ptr) (pDmmBuf : DMM_BUFFER_OBJ) (answer : MapAnswer)
    (dsp : Bridge) : OMX_ERRORTYPE × DMM_BUFFER_OBJ × Bridge :=
  if pArmPtr = 0 then (.OMX_ErrorBadParameter, pDmmBuf, dsp)
  else
    let pDmmBuf := { pDmmBuf with pAllocated := pArmPtr }
    match answer.reserve with
    | none => (.OMX_ErrorInsufficientResources, pDmmBuf, dsp)
    | some pReserved =>
      let pDmmBuf := { pDmmBuf with pReserved := pReserved, nSize := size }
      match answer.map with
      | none =>
        (.OMX_ErrorInsufficientResources, pDmmBuf, dsp.reserve ⟨use, pArmPtr, none, pReserved⟩)
      | some pMapped =>
        (.OMX_ErrorNone, { pDmmBuf with pMapped := pMapped },
          dsp.reserve ⟨use, pArmPtr, some pMapped, pReserved⟩)

def DmmUnMap (pMapPtr pResPtr : Ptr) (dsp : Bridge) : Bridge :=
  if pMapPtr = 0 ∨ pResPtr = 0 then dsp else dsp.release pMapPtr pResPtr

/-! ## The instance -/

inductive Direction where
  | input | output
  deriving DecidableEq, Repr

/-- `Arminputstorage`, `InDmmBuffer` and `iBufinputcount`, or the same for output. -/
structure Storage where
  Armstorage : Nat → Option TArmDspCommunicationStruct
  DmmBuffer : Nat → DMM_BUFFER_OBJ
  iBufcount : Nat

/-- A call of `QueueBuffer` that has returned. -/
structure Call where
  buffer : Ptr
  auxInfo : Ptr
  usrArg : Ptr
  eError : OMX_ERRORTYPE
  deriving DecidableEq, Repr

/-- The callback `EMMCodecBufferProcessed`, with what it sets in the flags of the buffer header. -/
structure Processed where
  bufType : Nat
  buffer : Ptr
  iBufferSize : Nat
  auxInfo : Ptr
  iParamSize : Nat
  pMapped : Ptr
  usrArg : Ptr
  iBufSizeUsed : Nat
  nFlags : Nat
  /-- the call of `QueueBuffer` that it is about -/
  call : Nat
  deriving DecidableEq, Repr

inductive ControlKind where
  | Algcntl | Strmcntl
  deriving DecidableEq, Repr

/-- The control blocks that are sent to the DSP: `pAlgcntlDmmBuf` and `algcntlmapped`, or
`pStrmcntlDmmBuf` and `strmcntlmapped`. -/
structure Control where
  pDmmBuf : Nat → Option DMM_BUFFER_OBJ
  mapped : Nat → Bool

structure State where
  storage : Direction → Storage
  flush_pending : Nat → Bool
  bUsnEos : Bool
  mapped_dmm_buffers : Nat → DMM_BUFFER_OBJ
  mapped_buffer_count : Nat
  ReUseMap : Bool
  buf_invalidate_flag : Bool
  buf_flush_flag : Bool
  controls : ControlKind → Control
  TypeofDevice : Int
  TypeofRender : Int
  /-- the mutex was left locked -/
  locked : Bool
  alive : Bool
  dsp : Bridge
  calls : List Call
  processed : List Processed

def EMMCodecInputBufferMapBufLen : Nat := 1000

def EMMCodecOutputBufferMapBufLen : Nat := 1001

def EMMCodecInputBufferMapReuse : Nat := 1002

def EMMCodecOutputBufferMapReuse : Nat := 1003

def EMMCodecInputBuffer : Nat := 2000

def EMMCodecStream0 : Nat := 2000

def EMMCodecOuputBuffer : Nat := 2001

/-! ## Queueing -/

/-- The arguments of `QueueBuffer`; `nFlags` are the flags behind `usrArg`. Lengths are only
compared with zero. -/
structure QueueArgs where
  bufType : Nat
  buffer : Ptr
  bufferLen : Nat
  bufferSizeUsed : Nat
  auxInfo : Ptr
  auxInfoLen : Nat
  usrArg : Ptr
  nFlags : Nat
  deriving DecidableEq, Repr

/-- What the allocator and the bridge answer in one call of `QueueBuffer`. -/
structure QueueAnswers where
  memalign : Ptr
  buffer : MapAnswer
  parameter : MapAnswer
  commStruct : MapAnswer
  /-- `DSPProcessor_FlushMemory` or `DSPProcessor_InvalidateMemory` -/
  cache : Bool
  DSPNode_PutMessage : Bool
  deriving DecidableEq, Repr

/-- What `QueueBuffer` works on. -/
structure Queueing where
  commStruct : TArmDspCommunicationStruct
  pDmmBuf : DMM_BUFFER_OBJ
  mapped_dmm_buffers : Nat → DMM_BUFFER_OBJ
  mapped_buffer_count : Nat
  dsp : Bridge

/-- The type of a buffer without the way it is mapped. -/
def plainType (bufType : Nat) : Nat :=
  if bufType = EMMCodecInputBufferMapBufLen ∨ bufType = EMMCodecInputBufferMapReuse then
    EMMCodecInputBuffer
  else if bufType = EMMCodecOutputBufferMapBufLen ∨ bufType = EMMCodecOutputBufferMapReuse then
    EMMCodecOuputBuffer
  else bufType

def mapBufLen (bufType : Nat) : Bool :=
  bufType = EMMCodecInputBufferMapBufLen ∨ bufType = EMMCodecOutputBufferMapBufLen

def mapReuse (bufType : Nat) : Bool :=
  bufType = EMMCodecInputBufferMapReuse ∨ bufType = EMMCodecOutputBufferMapReuse

def streamOf (bufType : Nat) : Nat :=
  if EMMCodecStream0 ≤ plainType bufType ∧ plainType bufType ≤ EMMCodecStream0 + 20 then
    plainType bufType - EMMCodecStream0
  else 0

def directionOf (streamId : Nat) : Direction := if streamId % 2 = 0 then .input else .output

/-- The search through the reuse table also looks at the place behind the last buffer. Outside
the table it has no result. -/
def searchMapped (mapped_dmm_buffers : Nat → DMM_BUFFER_OBJ) (mapped_buffer_count : Nat)
    (buffer : Ptr) : Option (Option Nat) :=
  match (List.range (min (mapped_buffer_count + 1) MAX_DMM_BUFFERS)).find? fun i =>
      (mapped_dmm_buffers i).pAllocated = buffer with
  | some i => some (some i)
  | none => if MAX_DMM_BUFFERS ≤ mapped_buffer_count then none else some none

/-- Whether the cache is flushed or invalidated for a buffer that is mapped already. -/
def State.cares (s : State) (args : QueueArgs) : Bool :=
  (plainType args.bufType = EMMCodecInputBuffer ∧ args.bufferSizeUsed ≠ 0 ∧ s.buf_flush_flag) ∨
    (plainType args.bufType = EMMCodecOuputBuffer ∧ s.buf_invalidate_flag)

/-- `DmmMap` on the record of the slot. -/
def Queueing.map (q : Queueing) (use : Use) (size : Nat) (pArmPtr : Ptr) (answer : MapAnswer) :
    OMX_ERRORTYPE × Queueing :=
  let (eError, pDmmBuf, dsp) := DmmMap use size pArmPtr q.pDmmBuf answer q.dsp
  (eError, { q with pDmmBuf := pDmmBuf, dsp := dsp })

def andThen (r : OMX_ERRORTYPE × Queueing) (next : Queueing → OMX_ERRORTYPE × Queueing) :
    OMX_ERRORTYPE × Queueing :=
  if r.1 = .OMX_ErrorNone then next r.2 else r

/-- The length that is mapped of an input buffer. -/
def QueueArgs.used (args : QueueArgs) : Nat :=
  if args.bufferSizeUsed ≠ 0 then args.bufferSizeUsed else args.bufferLen

/-- The address of the mapping, and its reserved address, are stored. -/
def Queueing.bufferMapped (q : Queueing) : Queueing :=
  { q with
    commStruct := { q.commStruct with iBufferPtr := q.pDmmBuf.pMapped }
    pDmmBuf := { q.pDmmBuf with bufReserved := q.pDmmBuf.pReserved } }

def Queueing.sizeUsed (q : Queueing) (args : QueueArgs) : Queueing :=
  { q with commStruct := { q.commStruct with iBufferSize := args.used } }

/-- A buffer that is not in the reuse table. -/
def Queueing.mapNew (q : Queueing) (args : QueueArgs) (answer : MapAnswer) :
    OMX_ERRORTYPE × Queueing :=
  let q := if directionOf (streamOf args.bufType) = .input then q.sizeUsed args else q
  let (eError, q) := q.map .buffer args.bufferLen args.buffer answer
  if eError ≠ .OMX_ErrorNone then (.OMX_ErrorHardware, q)
  else
    let q := q.bufferMapped
    if q.mapped_buffer_count < MAX_DMM_BUFFERS then
      (.OMX_ErrorNone, { q with
        mapped_dmm_buffers := Function.update q.mapped_dmm_buffers q.mapped_buffer_count q.pDmmBuf
        mapped_buffer_count := q.mapped_buffer_count + 1 })
    else (.OMX_ErrorNone, q)

/-- The buffer in the place `i` of the reuse table. -/
def Queueing.mapAgain (q : Queueing) (i : Nat) (fails : Bool) : OMX_ERRORTYPE × Queueing :=
  let q := { q with pDmmBuf := q.mapped_dmm_buffers i }
  if fails then (.OMX_ErrorHardware, q)
  else
    (.OMX_ErrorNone, { q with commStruct := { q.commStruct with iBufferPtr := q.pDmmBuf.pMapped } })

/-- A buffer that is mapped for this call only. -/
def Queueing.mapOnce (q : Queueing) (args : QueueArgs) (answer : MapAnswer) :
    OMX_ERRORTYPE × Queueing :=
  let input := directionOf (streamOf args.bufType) = .input ∧ ¬mapBufLen args.bufType
  let q := if input then q.sizeUsed args else q
  andThen (q.map .buffer (if input then args.used else args.bufferLen) args.buffer answer)
    fun q => (.OMX_ErrorNone, q.bufferMapped)

def QueueArgs.hasBuffer (args : QueueArgs) : Bool := args.buffer ≠ 0 ∧ args.bufferLen ≠ 0

def QueueArgs.hasParameter (args : QueueArgs) : Bool := args.auxInfoLen ≠ 0 ∧ args.auxInfo ≠ 0

def State.mapBuffer (s : State) (args : QueueArgs) (answers : QueueAnswers) (q : Queueing) :
    Option (OMX_ERRORTYPE × Queueing) :=
  if args.hasBuffer then
    if s.ReUseMap || mapReuse args.bufType then
      (searchMapped q.mapped_dmm_buffers q.mapped_buffer_count args.buffer).map fun found =>
        match found with
        | some i => q.mapAgain i (s.cares args && !answers.cache)
        | none => q.mapNew args answers.buffer
    else some (q.mapOnce args answers.buffer)
  else some (.OMX_ErrorNone, q)

def Queueing.mapParameter (q : Queueing) (args : QueueArgs) (answer : MapAnswer) :
    OMX_ERRORTYPE × Queueing :=
  if args.hasParameter then
    andThen (q.map .parameter q.commStruct.iParamSize q.commStruct.iParamPtr answer) fun q =>
      (.OMX_ErrorNone, { q with
        commStruct := { q.commStruct with iParamPtr := q.pDmmBuf.pMapped }
        pDmmBuf := { q.pDmmBuf with paramReserved := q.pDmmBuf.pReserved } })
  else (.OMX_ErrorNone, q)

/-- The mappings that the DSP reaches by the structure. -/
def Queueing.uses (q : Queueing) (args : QueueArgs) : List Reservation :=
  (if args.hasBuffer then
    [⟨.buffer, args.buffer, some q.commStruct.iBufferPtr, q.pDmmBuf.bufReserved⟩] else []) ++
  (if args.hasParameter then
    [⟨.parameter, args.auxInfo, some q.commStruct.iParamPtr, q.pDmmBuf.paramReserved⟩] else []) ++
  [⟨.commStruct, q.pDmmBuf.pAllocated, some q.pDmmBuf.pMapped, q.pDmmBuf.pReserved⟩]

/-- The message `USN_GPPMSG_SET_BUFF`. -/
def Queueing.send (q : Queueing) (args : QueueArgs) (sent : Bool) : OMX_ERRORTYPE × Queueing :=
  if sent then
    (.OMX_ErrorNone, { q with dsp := { q.dsp with
      queued := ⟨streamOf args.bufType, q.pDmmBuf.pMapped, q.uses args⟩ :: q.dsp.queued } })
  else (.OMX_ErrorHardware, q)

/-- The structure that the DSP is sent. -/
def State.newStruct (s : State) (args : QueueArgs) : TArmDspCommunicationStruct where
  iBufferPtr := args.buffer
  iBufferSize := args.bufferLen
  iParamPtr := args.auxInfo
  iParamSize := args.auxInfoLen
  iBufSizeUsed := args.bufferSizeUsed
  iEOSFlag := if s.bUsnEos then args.nFlags % 2 else 0
  iArmbufferArg := args.buffer
  iArmParamArg := args.auxInfo
  Bufoutindex := (s.storage .output).iBufcount % QUEUE_SIZE
  BufInindex := (s.storage .input).iBufcount % QUEUE_SIZE
  iUsrArg := args.usrArg
  iStreamID := streamOf args.bufType
  call := s.calls.length

/-- The slot that the next buffer takes. -/
def Storage.slot (storage : Storage) : Nat := storage.iBufcount % QUEUE_SIZE

def State.queueing (s : State) (args : QueueArgs) : Queueing where
  commStruct := s.newStruct args
  pDmmBuf :=
    let storage := s.storage (directionOf (streamOf args.bufType))
    storage.DmmBuffer storage.slot
  mapped_dmm_buffers := s.mapped_dmm_buffers
  mapped_buffer_count := s.mapped_buffer_count
  dsp := s.dsp

/-- The slot is taken before anything is mapped, and stays so whatever fails. -/
def Storage.put (storage : Storage) (commStruct : TArmDspCommunicationStruct)
    (pDmmBuf : DMM_BUFFER_OBJ) : Storage where
  Armstorage := Function.update storage.Armstorage storage.slot (some commStruct)
  DmmBuffer := Function.update storage.DmmBuffer storage.slot pDmmBuf
  iBufcount := (storage.slot + 1) % QUEUE_SIZE

def State.queued (s : State) (args : QueueArgs) (r : OMX_ERRORTYPE × Queueing) : State :=
  let direction := directionOf (streamOf args.bufType)
  { s with
    storage := Function.update s.storage direction
      ((s.storage direction).put r.2.commStruct r.2.pDmmBuf)
    mapped_dmm_buffers := r.2.mapped_dmm_buffers
    mapped_buffer_count := r.2.mapped_buffer_count
    ReUseMap := s.ReUseMap || mapReuse args.bufType
    dsp := r.2.dsp
    calls := s.calls ++ [⟨args.buffer, args.auxInfo, args.usrArg, r.1⟩] }

/-- The steps of `QueueBuffer` after the slot is taken. -/
def State.fill (s : State) (args : QueueArgs) (answers : QueueAnswers) :
    Option (OMX_ERRORTYPE × Queueing) :=
  (s.mapBuffer args answers (s.queueing args)).map fun r =>
    andThen (andThen (andThen r (·.mapParameter args answers.parameter))
      (·.map .commStruct sizeofStruct answers.memalign answers.commStruct))
      (·.send args answers.DSPNode_PutMessage)

def QueueBuffer (s : State) (args : QueueArgs) (answers : QueueAnswers) : Option State :=
  if s.locked then none
  else if answers.memalign = 0 then
    some { s with calls := s.calls ++
      [⟨args.buffer, args.auxInfo, args.usrArg, .OMX_ErrorInsufficientResources⟩] }
  else (s.fill args answers).map (s.queued args)

/-! ## The messages of the DSP -/

/-- The index of a structure in the storage of one direction. -/
def TArmDspCommunicationStruct.index (entry : TArmDspCommunicationStruct) : Direction → Nat
  | .input => entry.BufInindex
  | .output => entry.Bufoutindex

/-- What a structure has mapped is released. -/
def unmapEntry (ReUseMap : Bool) (entry : TArmDspCommunicationStruct) (pDmmBuf : DMM_BUFFER_OBJ)
    (dsp : Bridge) : Bridge :=
  let dsp := if entry.iBufferPtr ≠ 0 ∧ ¬ReUseMap then
    DmmUnMap entry.iBufferPtr pDmmBuf.bufReserved dsp else dsp
  let dsp := if entry.iParamPtr ≠ 0 then
    DmmUnMap entry.iParamPtr pDmmBuf.paramReserved dsp else dsp
  DmmUnMap pDmmBuf.pMapped pDmmBuf.pReserved dsp

def Storage.take (storage : Storage) (i k : Nat) : Storage :=
  { storage with
    Armstorage := Function.update storage.Armstorage i none
    DmmBuffer := Function.update storage.DmmBuffer k { storage.DmmBuffer k with pMapped := 0 } }

/-- The structure in a slot is answered, unmapped and freed. -/
def State.finish (s : State) (direction : Direction) (i : Nat) (entry : TArmDspCommunicationStruct)
    (bufType iBufSizeUsed nFlags : Nat) : State :=
  let storage := s.storage direction
  let pDmmBuf := storage.DmmBuffer (entry.index direction)
  { s with
    storage := Function.update s.storage direction (storage.take i (entry.index direction))
    dsp := unmapEntry s.ReUseMap entry pDmmBuf s.dsp
    processed := s.processed ++ [{
      bufType := bufType
      buffer := entry.iArmbufferArg
      iBufferSize := entry.iBufferSize
      auxInfo := entry.iArmParamArg
      iParamSize := entry.iParamSize
      pMapped := pDmmBuf.pMapped
      usrArg := entry.iUsrArg
      iBufSizeUsed := iBufSizeUsed
      nFlags := nFlags
      call := entry.call }] }

/-- The slots in the order in which the loops go through them. -/
def Storage.slots (storage : Storage) : List Nat :=
  (List.range QUEUE_SIZE).map fun j => (storage.iBufcount + j) % QUEUE_SIZE

/-- The slot whose structure was mapped at the address in the message. -/
def Storage.find (storage : Storage) (dwArg1 : Ptr) : Option Nat :=
  storage.slots.find? fun i =>
    (storage.Armstorage i).isSome ∧ (storage.DmmBuffer i).pMapped = dwArg1

/-- A slot is emptied at a stop or a flush; the flush of the streams 2 and 3 asks for the stream. -/
def State.drain (s : State) (only : Option Nat) (direction : Direction) (i : Nat) : State :=
  match (s.storage direction).Armstorage i with
  | none => s
  | some entry =>
    if only.all (· = entry.iStreamID) then
      match direction with
      | .input => s.finish .input i entry EMMCodecInputBuffer entry.iBufSizeUsed 0
      | .output => s.finish .output i entry EMMCodecOuputBuffer 0 0
    else s

/-- `USN_DSPMSG_BUFF_FREE`, where the DSP has left `iBufSizeUsed` in the structure. -/
def State.bufferFree (s : State) (streamId : Nat) (dwArg1 : Ptr) (iBufSizeUsed : Nat) : State :=
  let direction := directionOf streamId
  match (s.storage direction).find dwArg1 with
  | none => s
  | some i =>
    match (s.storage direction).Armstorage i with
    | none => s
    | some entry =>
      s.finish direction i entry (streamId + EMMCodecStream0) iBufSizeUsed
        (if s.bUsnEos then entry.iEOSFlag else 0)

/-- `USN_DSPACK_STOP`. One turn of the loop looks at a slot for input and one for output. -/
def State.stop (s : State) : State :=
  if s.TypeofDevice = 0 then
    (List.range QUEUE_SIZE).foldl (fun t j =>
      (t.drain none .input (((s.storage .input).iBufcount + j) % QUEUE_SIZE)).drain none .output
        (((s.storage .output).iBufcount + j) % QUEUE_SIZE)) s
  else s

/-- The loop of a flush over the slots. -/
def State.flush (s : State) (direction : Direction) (only : Option Nat) : State :=
  (s.storage direction).slots.foldl (fun t i => t.drain only direction i) s

/-- A control block is released when its address comes back. -/
def Control.acknowledge (control : Control) (dwArg2 : Ptr) (dsp : Bridge) : Control × Bridge :=
  match (List.range QUEUE_SIZE).find? fun i =>
      (control.pDmmBuf i).any fun pDmmBuf => control.mapped i && pDmmBuf.pMapped = dwArg2 with
  | none => (control, dsp)
  | some i =>
    match control.pDmmBuf i with
    | none => (control, dsp)
    | some pDmmBuf =>
      ({ pDmmBuf := Function.update control.pDmmBuf i none
         mapped := Function.update control.mapped i false },
        DmmUnMap pDmmBuf.pMapped pDmmBuf.pReserved dsp)

def State.setControl (s : State) (kind : ControlKind) (r : Control × Bridge) : State :=
  { s with controls := Function.update s.controls kind r.1, dsp := r.2 }

def State.acknowledge (s : State) (kind : ControlKind) (dwArg2 : Ptr) : State :=
  s.setControl kind ((s.controls kind).acknowledge dwArg2 s.dsp)

def State.clearPending (s : State) (streamId : Nat) : State :=
  { s with flush_pending := Function.update s.flush_pending streamId false }

/-- `USN_DSPACK_STRMCTRL`, where `ok` says that `dwArg1` is `USN_ERR_NONE`. The flushes of the
streams 2 and 3 clear the mark of another stream. -/
def State.streamAck (s : State) (streamId : Nat) (ok : Bool) (dwArg2 : Ptr) : State :=
  if s.flush_pending streamId ∧ streamId < 4 ∧ ok then
    match streamId with
    | 0 => ((s.clearPending 0).flush .input none).acknowledge .Strmcntl dwArg2
    | 1 => ((s.clearPending 1).flush .output none).acknowledge .Strmcntl dwArg2
    | 2 => (s.clearPending 0).flush .input (some 2)
    | _ => (s.clearPending 1).flush .output (some 3)
  else s.acknowledge .Strmcntl dwArg2

/-! ## Control -/

/-- The answers to a control block: `malloc`, the mapping and the message. -/
structure ControlAnswers where
  malloc : Bool
  map : MapAnswer
  deriving DecidableEq, Repr

/-- A control block is mapped in a free place. Whether the message is sent makes no difference. -/
def Control.send (control : Control) (i : Nat) (pArmPtr : Ptr) (size : Nat)
    (answers : ControlAnswers) (dsp : Bridge) : OMX_ERRORTYPE × Control × Bridge :=
  if !answers.malloc then (.OMX_ErrorInsufficientResources, control, dsp)
  else
    let (eError, pDmmBuf, dsp) := DmmMap .control size pArmPtr {} answers.map dsp
    (eError, { pDmmBuf := Function.update control.pDmmBuf i (some pDmmBuf)
               mapped := Function.update control.mapped i
                 (if eError = .OMX_ErrorNone then true else control.mapped i) }, dsp)

def Control.free (control : Control) : Option Nat :=
  (List.range QUEUE_SIZE).find? fun i => (control.pDmmBuf i).isNone

/-- `EMMCodecControlAlgCtrl`. With no place left the loop ends with the mutex locked. -/
def State.algCtrl (s : State) (pArmPtr : Ptr) (size : Nat) (answers : ControlAnswers) : State :=
  match (s.controls .Algcntl).free with
  | none => { s with locked := true }
  | some i => s.setControl .Algcntl ((s.controls .Algcntl).send i pArmPtr size answers s.dsp).2

/-- `EMMCodecControlStrmCtrl` without a flush. With no place left, a message that was never written
is sent. With another `TypeofRender` than those for playback and record the mutex stays locked. -/
def State.strmCtrl (s : State) (pArmPtr : Ptr) (size : Nat) (answers : ControlAnswers) :
    Option State :=
  match (s.controls .Strmcntl).free with
  | none => none
  | some i =>
    let (eError, r) := (s.controls .Strmcntl).send i pArmPtr size answers s.dsp
    some { s.setControl .Strmcntl r with
      locked := eError = .OMX_ErrorNone ∧ s.TypeofRender ≠ 0 ∧ s.TypeofRender ≠ 1 }

/-- The release of the reuse table in `EMMCodecControlDestroy`. -/
def State.unmapReused (s : State) : Bridge :=
  (List.range s.mapped_buffer_count).foldl (fun dsp i =>
    DmmUnMap (s.mapped_dmm_buffers i).pMapped (s.mapped_dmm_buffers i).bufReserved dsp) s.dsp

/-- `EMMCodecControlDestroy`. The loop that clears the reuse table goes one place further than the
table is filled. -/
def State.destroy (s : State) : Option State :=
  if s.ReUseMap then
    if MAX_DMM_BUFFERS ≤ s.mapped_buffer_count then none
    else some { s with
      mapped_dmm_buffers := fun i =>
        if i ≤ s.mapped_buffer_count then {} else s.mapped_dmm_buffers i
      mapped_buffer_count := 0
      dsp := s.unmapReused
      alive := false }
  else some { s with alive := false }

/-! ## Steps -/

inductive Event where
  | QueueBuffer (args : QueueArgs) (answers : QueueAnswers)
  | BUFF_FREE (streamId : Nat) (dwArg1 : Ptr) (iBufSizeUsed : Nat)
  | STOP
  /-- `flushed` says whether the DSP has given back the buffers of the stream -/
  | STRMCTRL (streamId : Nat) (ok : Bool) (dwArg2 : Ptr) (flushed : Bool)
  | ALGCTRL (dwArg2 : Ptr)
  | controlAlgCtrl (pArmPtr : Ptr) (size : Nat) (answers : ControlAnswers)
  | controlStrmCtrl (pArmPtr : Ptr) (size : Nat) (answers : ControlAnswers)
  | controlFlush (streamId : Nat)
  | controlUsnEos
  /-- a command that only sends a message, or a message that is only passed on -/
  | other
  | destroy

/-- What the DSP holds after a message of its own. -/
def Bridge.givesBack (dsp : Bridge) : Event → Bridge
  | .BUFF_FREE streamId dwArg1 _ =>
    { dsp with queued := dsp.queued.eraseP fun sent =>
        sent.streamId = streamId ∧ sent.dwArg1 = dwArg1 }
  | .STOP => { dsp with queued := [] }
  | .STRMCTRL streamId _ _ true =>
    { dsp with queued := dsp.queued.filter fun sent => sent.streamId ≠ streamId }
  | _ => dsp

def State.givesBack (s : State) (event : Event) : State := { s with dsp := s.dsp.givesBack event }

/-- A step that takes the mutex waits for ever when it was left locked. -/
def State.guarded (s : State) (next : Option State) : Option State :=
  if s.locked then none else next

def State.step (s : State) (event : Event) : Option State :=
  match event with
  | .QueueBuffer args answers => Lcml.QueueBuffer s args answers
  | .BUFF_FREE streamId dwArg1 iBufSizeUsed =>
    s.guarded (some ((s.givesBack event).bufferFree streamId dwArg1 iBufSizeUsed))
  | .STOP => s.guarded (some (s.givesBack event).stop)
  | .STRMCTRL streamId ok dwArg2 _ =>
    s.guarded (some ((s.givesBack event).streamAck streamId ok dwArg2))
  | .ALGCTRL dwArg2 => s.guarded (some (s.acknowledge .Algcntl dwArg2))
  | .controlAlgCtrl pArmPtr size answers => s.guarded (some (s.algCtrl pArmPtr size answers))
  | .controlStrmCtrl pArmPtr size answers => s.guarded (s.strmCtrl pArmPtr size answers)
  | .controlFlush streamId =>
    s.guarded (if streamId < 4 then
      some { s with flush_pending := Function.update s.flush_pending streamId true } else none)
  | .controlUsnEos => some { s with bUsnEos := true }
  | .other => some s
  | .destroy => s.guarded s.destroy

/-- An instance after `InitMMCodec`. -/
def State.start (TypeofDevice TypeofRender : Int) (buf_invalidate_flag buf_flush_flag : Bool) :
    State where
  storage _ := ⟨fun _ => none, fun _ => {}, 0⟩
  flush_pending _ := false
  bUsnEos := false
  mapped_dmm_buffers _ := {}
  mapped_buffer_count := 0
  ReUseMap := false
  buf_invalidate_flag := buf_invalidate_flag
  buf_flush_flag := buf_flush_flag
  controls _ := ⟨fun _ => none, fun _ => false⟩
  TypeofDevice := TypeofDevice
  TypeofRender := TypeofRender
  locked := false
  alive := true
  dsp := ⟨[], [], []⟩
  calls := []
  processed := []

end OmapHal.Lcml
