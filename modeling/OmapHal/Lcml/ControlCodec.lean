import OmapHal.Lcml.Flush

/-!
# Control commands and their blocks

`EMMCodecControlAlgCtrl` and `EMMCodecControlStrmCtrl` of `ControlCodec`, with what they return and
what they pass to `DSPNode_PutMessage`, and the acknowledgements of the DSP to the commands that it
was sent. An acknowledgement carries the stream and the address of its command.
-/

namespace OmapHal.Lcml

/-- The fields of `DSP_MSG`. -/
structure DspMessage where
  dwCmd : Nat
  dwArg1 : Nat
  dwArg2 : Ptr
  deriving DecidableEq, Repr

def USN_GPPMSG_ALGCTRL : Nat := 0x0400

def USN_GPPMSG_STRMCTRL : Nat := 0x0500

/-- A command that the DSP was sent, with the slot of its block and the address that it carries. -/
structure Command where
  kind : ControlKind
  slot : Nat
  address : Ptr
  deriving DecidableEq, Repr

/-- What a call of `ControlCodec` comes to. -/
structure Reply where
  eError : OMX_ERRORTYPE
  /-- What `DSPNode_PutMessage` took: no message, or one that may never have been written. -/
  posted : Option (Option DspMessage)
  /-- The command that has arrived. -/
  command : Option Command

/-- The address of the block in a slot. -/
def Control.address (control : Control) (i : Nat) : Ptr :=
  ((control.pDmmBuf i).map (·.pMapped)).getD 0

/-- `DSPNode_PutMessage` and `DSP_ERROR_EXIT` at the end of a command. -/
def post (msg : Option DspMessage) (command : Option Command) (put : Bool) : Reply :=
  if put then ⟨.OMX_ErrorNone, some msg, command⟩ else ⟨.OMX_ErrorHardware, none, none⟩

namespace State

variable (s : State)

/-- A command with a block, in the branch of a free slot. The error path of the test that may come
between the mapping and the message does not unlock the mutex. -/
def sendFrom (kind : ControlKind) (i dwCmd : Nat) (checked : Bool) (args0 : Nat) (args1 : Ptr)
    (args2 : Nat) (answers : ControlAnswers) (put : Bool) : State × Reply :=
  let (eError, control, dsp) := (s.controls kind).send i args1 args2 answers s.dsp
  let t := s.setControl kind (control, dsp)
  if eError ≠ .OMX_ErrorNone then (t, ⟨eError, none, none⟩)
  else if checked then
    (t, post (some ⟨dwCmd, args0, control.address i⟩) (some ⟨kind, i, control.address i⟩) put)
  else ({ t with locked := true }, ⟨.OMX_ErrorUndefined, none, none⟩)

/-- `EMMCodecControlAlgCtrl`. The test for a full table stands in the branch of a free slot, so a
full table ends the loop with the mutex locked. -/
def sendAlg (args0 : Nat) (args1 : Ptr) (args2 : Nat) (answers : ControlAnswers) (put : Bool) :
    State × Reply :=
  match (s.controls .Algcntl).free with
  | none => ({ s with locked := true }, ⟨.OMX_ErrorNone, none, none⟩)
  | some i => s.sendFrom .Algcntl i USN_GPPMSG_ALGCTRL true args0 args1 args2 answers put

/-- The branch of `EMMCodecControlStrmCtrl` for another command than a flush. With a full table the
loop leaves `msg` as it was declared. -/
def sendStrmBlock (args0 : Nat) (args1 : Ptr) (args2 : Nat) (answers : ControlAnswers)
    (put : Bool) : State × Reply :=
  match (s.controls .Strmcntl).free with
  | none => (s, post none none put)
  | some i =>
    s.sendFrom .Strmcntl i
      (if s.TypeofRender = 1 then USN_GPPMSG_STRMCTRL else USN_GPPMSG_STRMCTRL + 1)
      (s.TypeofRender = 1 ∨ s.TypeofRender = 0) args0 args1 args2 answers put

/-- `EMMCodecControlStrmCtrl`. A flush of the stream `args1` takes no slot. -/
def sendStrm (args0 : Nat) (args1 : Ptr) (args2 : Nat) (answers : ControlAnswers) (put : Bool) :
    Option (State × Reply) :=
  if args0 = USN_STRMCMD_FLUSH then
    if args1 < 4 then
      some ({ s with flush_pending := Function.update s.flush_pending args1 true },
        post (some ⟨USN_GPPMSG_STRMCTRL + args1, USN_STRMCMD_FLUSH, 0⟩) none put)
    else none
  else some (s.sendStrmBlock args0 args1 args2 answers put)

/-- The stream that a stream-control command goes to. -/
def controlStream : Nat := if s.TypeofRender = 1 then 0 else 1

/-- The acknowledgement of a command. -/
def answer (c : Command) (ok : Bool) : State :=
  match c.kind with
  | .Algcntl => s.acknowledge .Algcntl c.address
  | .Strmcntl => s.streamAck s.controlStream ok c.address

end State

/-! ## A session -/

/-- An instance, and the commands that the DSP has not acknowledged. -/
structure Session where
  lcml : State
  outstanding : List Command

inductive ControlEvent where
  | AlgCtrl (args0 : Nat) (args1 : Ptr) (args2 : Nat) (answers : ControlAnswers) (put : Bool)
  | StrmCtrl (args0 : Nat) (args1 : Ptr) (args2 : Nat) (answers : ControlAnswers) (put : Bool)
  /-- the acknowledgement of a command, where `ok` says that `dwArg1` is `USN_ERR_NONE` -/
  | ack (c : Command) (ok : Bool)
  /-- the acknowledgement of a flush, whose command has `dwArg2` zero -/
  | flushAck (streamId : Nat) (ok : Bool)

namespace Session

variable (σ : Session)

/-- The instance after a command, and the reply. -/
def sent (r : State × Reply) : Session × Reply :=
  (⟨r.1, σ.outstanding ++ r.2.command.toList⟩, r.2)

/-- A step waits for ever when the mutex was left locked. -/
def step (e : ControlEvent) : Option (Session × Reply) :=
  if σ.lcml.locked then none
  else
    match e with
    | .AlgCtrl args0 args1 args2 answers put =>
      some (σ.sent (σ.lcml.sendAlg args0 args1 args2 answers put))
    | .StrmCtrl args0 args1 args2 answers put =>
      (σ.lcml.sendStrm args0 args1 args2 answers put).map σ.sent
    | .ack c ok => some (⟨σ.lcml.answer c ok, σ.outstanding.erase c⟩, ⟨.OMX_ErrorNone, none, none⟩)
    | .flushAck streamId ok =>
      some (⟨σ.lcml.streamAck streamId ok 0, σ.outstanding⟩, ⟨.OMX_ErrorNone, none, none⟩)

def next (e : ControlEvent) : Option Session := (σ.step e).map Prod.fst

def start (TypeofDevice TypeofRender : Int) (buf_invalidate_flag buf_flush_flag : Bool) : Session :=
  ⟨.start TypeofDevice TypeofRender buf_invalidate_flag buf_flush_flag, []⟩

/-- The block in a slot. -/
def block (kind : ControlKind) (i : Nat) : Option DMM_BUFFER_OBJ := (σ.lcml.controls kind).pDmmBuf i

/-- Each slot is in use exactly while a command with its mapping is unacknowledged. -/
structure Matches : Prop where
  used : ∀ kind, ∀ i < QUEUE_SIZE, ∀ pDmmBuf, σ.block kind i = some pDmmBuf →
    ⟨kind, i, pDmmBuf.pMapped⟩ ∈ σ.outstanding
  unacknowledged : ∀ c ∈ σ.outstanding, ∃ pDmmBuf, σ.block c.kind c.slot = some pDmmBuf ∧
    pDmmBuf.pMapped = c.address

def Full (kind : ControlKind) : Prop := ∀ i < QUEUE_SIZE, σ.block kind i ≠ none

/-- A command is refused. -/
def Refused (reply : Reply) : Prop := reply.eError ≠ .OMX_ErrorNone ∧ reply.posted = none

/-- What a step has to do besides: a command that needs a slot is refused where there is none, and
an acknowledgement frees the slot of its command and no other. -/
def Responds (τ : Session) (reply : Reply) : ControlEvent → Prop
  | .AlgCtrl .. => σ.Full .Algcntl → Refused reply
  | .StrmCtrl args0 .. => args0 ≠ USN_STRMCMD_FLUSH → σ.Full .Strmcntl → Refused reply
  | .ack c _ => ∀ kind i,
    τ.block kind i = if kind = c.kind ∧ i = c.slot then none else σ.block kind i
  | .flushAck .. => True

/-- A step that ends with the mutex free and the slots right. -/
def Keeps (e : ControlEvent) : Prop :=
  ∃ τ reply, σ.step e = some (τ, reply) ∧ τ.Matches ∧ τ.lcml.locked = false ∧ σ.Responds τ reply e

/-- What the bridge and the DSP do: a mapping is at an address that is not in use, and only what was
sent is acknowledged. -/
def Possible : ControlEvent → Prop
  | .AlgCtrl _ _ _ answers _ | .StrmCtrl _ _ _ answers _ =>
    ∀ m, answers.map.map = some m → m ≠ 0 ∧ ∀ kind i pDmmBuf, σ.block kind i = some pDmmBuf →
      pDmmBuf.pMapped ≠ m
  | .ack c _ => c ∈ σ.outstanding
  | .flushAck .. => True

/-- A block that is allocated is mapped, and its command is sent. -/
def Delivered (args1 : Ptr) (answers : ControlAnswers) (put : Bool) : Prop :=
  answers.malloc = true →
    args1 ≠ 0 ∧ answers.map.reserve ≠ none ∧ answers.map.map ≠ none ∧ put = true

/-- The condition on each step. -/
def Careful : ControlEvent → Prop
  | .AlgCtrl _ args1 _ answers put => ¬ σ.Full .Algcntl ∧ Delivered args1 answers put
  | .StrmCtrl args0 args1 _ answers put =>
    if args0 = USN_STRMCMD_FLUSH then args1 < 4
    else
      (σ.Full .Strmcntl → put = false) ∧
        (¬ σ.Full .Strmcntl → Delivered args1 answers put ∧
          (answers.malloc = true → σ.lcml.TypeofRender = 1 ∨ σ.lcml.TypeofRender = 0))
  | .ack .. | .flushAck .. => True

end Session

end OmapHal.Lcml
