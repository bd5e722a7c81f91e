import OmapHal.Core.Loop
import OmapHal.Delegation.Partition

/-!
# The instruction loop of `runSession`

One answer of the service is an array of 32-bit words, of which the first
`nInstructionsBufferSize` bytes count. `round` is the body of the inner loop, with
the branches of the source in its order; `Session` is what the rounds share: the
administrative data, the workspace, the partitions and the variable `nError`.
-/

namespace OmapHal.Delegation

/-- The two instructions without a partition. -/
def DELEGATION_INSTRUCTION_SHUTDOWN : UInt32 := 0xF0
def DELEGATION_INSTRUCTION_NOTIFY : UInt32 := 0xE0

/-- What an instruction asks of its partition. -/
inductive PartitionOp where
  | create
  | open
  | read (nSectorID nWorkspaceOffset : Nat)
  | write (nSectorID nWorkspaceOffset : Nat)
  | setSize (nNewSize : Nat)
  | sync
  | close
  | destroy
  /-- A low nibble that the `switch` has no case for. -/
  | undefined
  deriving DecidableEq, Repr

/-- The parameter bytes that follow the instruction code. -/
def PartitionOp.paramBytes : PartitionOp → Nat
  | .read _ _ | .write _ _ => 8
  | .setSize _ => 4
  | _ => 0

/-- The state that the rounds of the loop share. -/
structure Session (σ : Type) where
  nError : TEECResult
  nSyncExecuted : Nat
  nPartitionErrorStates : Fin 16 → TEECResult
  nPartitionOpenSizes : Fin 16 → Nat
  partitions : Fin 16 → Partition σ
  sWorkspace : Nat → UInt8

/-- The reset that precedes every instruction buffer. -/
def Session.reset {σ : Type} (s : Session σ) : Session σ :=
  { s with
    nError := .success
    nSyncExecuted := 0
    nPartitionErrorStates := fun _ => .success
    nPartitionOpenSizes := fun _ => 0 }

/-- The head of a round. -/
structure Cursor (σ : Type) where
  nInstructionsIndex : Nat
  session : Session σ

/-- `sizeof(sInstructions)`. -/
def ECHANGE_BUFFER_BYTES : Nat := 4 * 1000

/-- The instructions of one answer, within the capacity of the exchange buffer. -/
structure InstructionBuffer where
  sInstructions : Nat → UInt32
  nInstructionsBufferSize : Nat
  /-- The service cannot make the session read past the array. -/
  le_capacity : nInstructionsBufferSize ≤ ECHANGE_BUFFER_BYTES

/-- The buffer that an answer leaves: an oversized one counts as empty. -/
def InstructionBuffer.ofAnswer (sInstructions : Nat → UInt32) (size : Nat) : InstructionBuffer :=
  if h : size ≤ ECHANGE_BUFFER_BYTES then ⟨sInstructions, size, h⟩
  else ⟨sInstructions, 0, Nat.zero_le _⟩

/-- The word `n` words after the one at a byte offset. -/
def InstructionBuffer.word (b : InstructionBuffer) (index n : Nat) : UInt32 :=
  b.sInstructions (index / 4 + n)

/-- The low nibble decides whether an instruction has a partition. -/
def isPartitionSpecific (nInstructionID : UInt32) : Bool := nInstructionID &&& 0x0F != 0

/-- The partition named by the second nibble. -/
def nPartitionID (nInstructionID : UInt32) : Fin 16 :=
  ⟨((nInstructionID &&& 0xF0) >>> 4).toNat, by
    have h : (nInstructionID &&& 0xF0).toNat ≤ 0xF0 := by
      simpa using Nat.and_le_right (n := nInstructionID.toNat) (m := 0xF0)
    have hs : ((nInstructionID &&& 0xF0) >>> 4).toNat = (nInstructionID &&& 0xF0).toNat >>> 4 := by
      simp
    rw [hs, Nat.shiftRight_eq_div_pow]
    omega⟩

/-- The operation named by the low nibble, with the words where its parameters stand. -/
def InstructionBuffer.op (b : InstructionBuffer) (index : Nat) : PartitionOp :=
  match (b.word index 0 &&& 0x0F).toNat with
  | 1 => .create
  | 2 => .open
  | 3 => .read (b.word index 1).toNat (b.word index 2).toNat
  | 4 => .write (b.word index 1).toNat (b.word index 2).toNat
  | 5 => .setSize (b.word index 1).toNat
  | 6 => .sync
  | 7 => .close
  | 8 => .destroy
  | _ => .undefined

/-- `nMessageSize` may not exceed 99 wide characters. -/
def MAX_MESSAGE_BYTES : Nat := 99 * 4

/-- The offset behind a NOTIFY whose code has been read, if all of it is there. -/
def notifyEnd (b : InstructionBuffer) (index : Nat) : Option Nat :=
  let nInstructionsIndex := index + 4
  if nInstructionsIndex + 8 ≤ b.nInstructionsBufferSize then
    let nMessageSize := (b.word index 2).toNat
    let nInstructionsIndex := nInstructionsIndex + 8
    if MAX_MESSAGE_BYTES < nMessageSize then none
    else if nInstructionsIndex + nMessageSize ≤ b.nInstructionsBufferSize then
      -- aligned on 4 bytes
      some ((nInstructionsIndex + nMessageSize + 3) / 4 * 4)
    else none
  else none

variable {σ : Type}

/-- The workspace after bytes are stored from an offset on. -/
def storeBytes (w : Nat → UInt8) (offset : Nat) (bytes : List UInt8) : Nat → UInt8 :=
  fun a => if offset ≤ a then (bytes[a - offset]?).getD (w a) else w a

/-- The `n` workspace bytes from an offset on. -/
def loadBytes (w : Nat → UInt8) (offset n : Nat) : List UInt8 :=
  (List.range n).map fun i => w (offset + i)

/-- Record a partition's new state together with its result, which also stays in
`nError`. -/
def Session.finish (s : Session σ) (p : Fin 16) (r : TEECResult × Partition σ) : Session σ :=
  { s with
    nError := r.1
    nPartitionErrorStates := Function.update s.nPartitionErrorStates p r.1
    partitions := Function.update s.partitions p r.2 }

/-- The `switch` over a partition instruction, its partition being free of errors.
The result written to the error state is whatever `nError` holds at its end. -/
def Session.dispatch (os : Stdio σ) (nSectorSize : Nat) (s : Session σ) (p : Fin 16) :
    PartitionOp → Session σ
  | .create => s.finish p (partitionCreate os (s.partitions p))
  | .open =>
    let (nError, nPartitionSize, pt) := partitionOpen os nSectorSize (s.partitions p)
    let s' := s.finish p (nError, pt)
    if nError = .success then
      { s' with nPartitionOpenSizes := Function.update s.nPartitionOpenSizes p nPartitionSize }
    else s'
  | .read nSectorID nWorkspaceOffset =>
    let (nError, bytes, pt) := partitionRead os nSectorSize nSectorID (s.partitions p)
    { s.finish p (nError, pt) with
      sWorkspace := storeBytes s.sWorkspace nWorkspaceOffset bytes }
  | .write nSectorID nWorkspaceOffset =>
    let data := loadBytes s.sWorkspace nWorkspaceOffset nSectorSize
    s.finish p (partitionWrite os nSectorSize nSectorID data (s.partitions p))
  | .sync =>
    let r := partitionSync os (s.partitions p)
    let s' := s.finish p r
    if r.1 = .success then { s' with nSyncExecuted := s.nSyncExecuted + 1 } else s'
  | .setSize nNewSize => s.finish p (partitionSetSize os nSectorSize nNewSize (s.partitions p))
  | .close => s.finish p (partitionClose os (s.partitions p))
  | .destroy => s.finish p (partitionDestroy os (s.partitions p))
  | .undefined => s.finish p (s.nError, s.partitions p)

/-- How a round ends. -/
inductive Outcome (σ : Type) where
  | next (c : Cursor σ)
  | parseEnd (s : Session σ)
  | shutdown

/-- The round that follows, if there is one. -/
def Outcome.next? : Outcome σ → Option (Cursor σ)
  | .next c => some c
  | .parseEnd _ => none
  | .shutdown => none

/-- The body of the instruction loop. -/
def round (os : Stdio σ) (nSectorSize : Nat) (b : InstructionBuffer) (c : Cursor σ) : Outcome σ :=
  let index := c.nInstructionsIndex
  if index + 4 ≤ b.nInstructionsBufferSize then
    let nInstructionID := b.word index 0
    if !isPartitionSpecific nInstructionID then
      if nInstructionID = DELEGATION_INSTRUCTION_SHUTDOWN then .shutdown
      else if nInstructionID = DELEGATION_INSTRUCTION_NOTIFY then
        match notifyEnd b index with
        | some next => .next ⟨next, c.session⟩
        | none => .parseEnd c.session
      else .next ⟨index + 4, { c.session with nError := .badParameters }⟩
    else
      let p := nPartitionID nInstructionID
      if c.session.nPartitionErrorStates p = .success then
        let op := b.op index
        -- the parameters are parsed only on this path
        if op.paramBytes = 0 ∨ index + 4 + op.paramBytes ≤ b.nInstructionsBufferSize then
          .next ⟨index + 4 + op.paramBytes, c.session.dispatch os nSectorSize p op⟩
        else .parseEnd c.session
      else .next ⟨index + 4, c.session⟩
  else .parseEnd c.session

/-- The loop body as a step between rounds. -/
def step (os : Stdio σ) (nSectorSize : Nat) (b : InstructionBuffer) (c : Cursor σ) :
    Option (Cursor σ) :=
  (round os nSectorSize b c).next?

/-- The first round of an instruction buffer. -/
def start (s : Session σ) : Cursor σ := ⟨0, s.reset⟩

/-- Whether the round fetches an instruction code at all. -/
def Cursor.fetches (b : InstructionBuffer) (c : Cursor σ) : Prop :=
  c.nInstructionsIndex + 4 ≤ b.nInstructionsBufferSize

instance (b : InstructionBuffer) (c : Cursor σ) : Decidable (c.fetches b) :=
  inferInstanceAs (Decidable (_ ≤ _))

section Step

variable {os : Stdio σ} {nSectorSize : Nat} {b : InstructionBuffer} {c c' : Cursor σ}

/-- A round that goes on has fetched a code. -/
theorem fetches_of_step (h : step os nSectorSize b c = some c') : c.fetches b := by
  by_contra hf
  simp only [Cursor.fetches] at hf
  simp only [step, round, hf, if_false, Outcome.next?, reduceCtorEq] at h

/-- Everything a round that goes on can do. -/
theorem step_cases (h : step os nSectorSize b c = some c') :
    (isPartitionSpecific (b.word c.nInstructionsIndex 0) = false ∧ c'.session = c.session) ∨
    (isPartitionSpecific (b.word c.nInstructionsIndex 0) = false ∧
      c'.session = { c.session with nError := .badParameters }) ∨
    (isPartitionSpecific (b.word c.nInstructionsIndex 0) = true ∧
      c.session.nPartitionErrorStates (nPartitionID (b.word c.nInstructionsIndex 0)) ≠ .success ∧
      c'.session = c.session) ∨
    (isPartitionSpecific (b.word c.nInstructionsIndex 0) = true ∧
      c.session.nPartitionErrorStates (nPartitionID (b.word c.nInstructionsIndex 0)) = .success ∧
      c'.session = c.session.dispatch os nSectorSize
        (nPartitionID (b.word c.nInstructionsIndex 0)) (b.op c.nInstructionsIndex)) := by
  have hf := fetches_of_step h
  simp only [Cursor.fetches] at hf
  simp only [step, round, hf, if_true] at h
  cases hs : isPartitionSpecific (b.word c.nInstructionsIndex 0) with
  | false =>
    simp only [hs, Bool.not_false, if_true] at h
    split at h
    · cases h
    · split at h
      · split at h
        · simp only [Outcome.next?, Option.some.injEq] at h
          exact .inl ⟨rfl, h ▸ rfl⟩
        · cases h
      · simp only [Outcome.next?, Option.some.injEq] at h
        exact .inr (.inl ⟨rfl, h ▸ rfl⟩)
  | true =>
    simp only [hs, Bool.not_true, Bool.false_eq_true, if_false] at h
    split at h
    · rename_i he
      split at h
      · simp only [Outcome.next?, Option.some.injEq] at h
        exact .inr (.inr (.inr ⟨rfl, he, h ▸ rfl⟩))
      · cases h
    · rename_i he
      simp only [Outcome.next?, Option.some.injEq] at h
      exact .inr (.inr (.inl ⟨rfl, he, h ▸ rfl⟩))

end Step

end OmapHal.Delegation
