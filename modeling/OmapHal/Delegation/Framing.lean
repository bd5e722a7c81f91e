import OmapHal.Delegation.Session

/-!
# Instruction boundaries

The protocol fixes the length of every instruction by its code (and, for NOTIFY,
by its own size word), so a buffer alone determines where instructions begin:
that is `frame`. The session decodes at the offsets `boundary`. They agree exactly
in the runs in which no READ, WRITE or SET_SIZE meets a partition in error, because
the session then steps over the code word only.
-/

namespace OmapHal.Delegation

open OmapHal.Core Option

/-- The offset behind the instruction at an offset, by the protocol alone. -/
def frameStep (b : InstructionBuffer) (index : Nat) : Option Nat :=
  if index + 4 ≤ b.nInstructionsBufferSize then
    let nInstructionID := b.word index 0
    if !isPartitionSpecific nInstructionID then
      if nInstructionID = DELEGATION_INSTRUCTION_SHUTDOWN then none
      else if nInstructionID = DELEGATION_INSTRUCTION_NOTIFY then notifyEnd b index
      else some (index + 4)
    else
      let params := (b.op index).paramBytes
      if params = 0 ∨ index + 4 + params ≤ b.nInstructionsBufferSize then
        some (index + 4 + params)
      else none
  else none

/-- Where the `k`-th instruction of the buffer begins, by the protocol alone. -/
def frame (b : InstructionBuffer) (k : Nat) : Option Nat :=
  (iter (frameStep b) 0 k).filter fun index => index + 4 ≤ b.nInstructionsBufferSize

variable {σ : Type}

/-- Where the session fetches its `k`-th instruction code. -/
def boundary (os : Stdio σ) (nSectorSize : Nat) (b : InstructionBuffer) (s : Session σ)
    (k : Nat) : Option Nat :=
  ((iter (step os nSectorSize b) (start s) k).filter fun c => c.fetches b).map
    (·.nInstructionsIndex)

/-- A parameterised instruction at the head of the round is for a partition in
error, and the word after its code is still inside the buffer. -/
def Cursor.slips (b : InstructionBuffer) (c : Cursor σ) : Prop :=
  isPartitionSpecific (b.word c.nInstructionsIndex 0) = true ∧
  c.session.nPartitionErrorStates (nPartitionID (b.word c.nInstructionsIndex 0)) ≠ .success ∧
  (b.op c.nInstructionsIndex).paramBytes ≠ 0 ∧
  c.nInstructionsIndex + 8 ≤ b.nInstructionsBufferSize

/-- Parameters come in whole words. -/
theorem PartitionOp.four_le_paramBytes (op : PartitionOp) (h : op.paramBytes ≠ 0) :
    4 ≤ op.paramBytes := by
  cases op <;> simp only [PartitionOp.paramBytes] at h ⊢ <;> omega

section

variable {os : Stdio σ} {nSectorSize : Nat} {b : InstructionBuffer} {c : Cursor σ}

/-- Without a code to fetch, the round ends the loop. -/
theorem step_eq_none (h : ¬ c.fetches b) : step os nSectorSize b c = none := by
  simp only [Cursor.fetches] at h
  simp only [step, round, h, if_false, Outcome.next?]

/-- Without a code to fetch, the frame ends. -/
theorem frameStep_eq_none {index : Nat} (h : ¬ index + 4 ≤ b.nInstructionsBufferSize) :
    frameStep b index = none := by
  simp only [frameStep, h, if_false]

/-- A parameterised instruction is skipped because its partition is in error. -/
def Cursor.skipsParams (b : InstructionBuffer) (c : Cursor σ) : Prop :=
  isPartitionSpecific (b.word c.nInstructionsIndex 0) = true ∧
  c.session.nPartitionErrorStates (nPartitionID (b.word c.nInstructionsIndex 0)) ≠ .success ∧
  (b.op c.nInstructionsIndex).paramBytes ≠ 0

/-- Every other round goes where the protocol says. -/
theorem step_map_index (h : ¬ c.skipsParams b) :
    (step os nSectorSize b c).map (·.nInstructionsIndex) = frameStep b c.nInstructionsIndex := by
  by_cases hf : c.nInstructionsIndex + 4 ≤ b.nInstructionsBufferSize
  swap
  · rw [step_eq_none hf, frameStep_eq_none hf, map_none]
  simp only [step, round, frameStep, hf, if_true]
  cases hs : isPartitionSpecific (b.word c.nInstructionsIndex 0) with
  | false =>
    simp only [Bool.not_false, if_true]
    split
    · rfl
    · split
      · cases notifyEnd b c.nInstructionsIndex <;> rfl
      · rfl
  | true =>
    simp only [Bool.not_true, Bool.false_eq_true, if_false]
    split
    · split <;> rfl
    · rename_i he
      have h0 : (b.op c.nInstructionsIndex).paramBytes = 0 := by
        by_contra h0
        exact h ⟨hs, he, h0⟩
      simp only [h0, true_or, if_true, Nat.add_zero]
      rfl

/-- A skip moves past the code word only. -/
theorem step_of_skipsParams (hf : c.fetches b) (h : c.skipsParams b) :
    step os nSectorSize b c = some ⟨c.nInstructionsIndex + 4, c.session⟩ := by
  simp only [Cursor.fetches] at hf
  obtain ⟨hs, he, _⟩ := h
  simp only [step, round, hf, hs, he, if_true, Bool.not_true, Bool.false_eq_true, if_false,
    Outcome.next?]

/-- There the protocol asks for the parameters as well. -/
theorem frameStep_of_skipsParams (hf : c.fetches b) (h : c.skipsParams b) :
    frameStep b c.nInstructionsIndex =
      let next := c.nInstructionsIndex + 4 + (b.op c.nInstructionsIndex).paramBytes
      if next ≤ b.nInstructionsBufferSize then some next else none := by
  simp only [Cursor.fetches] at hf
  obtain ⟨hs, _, h0⟩ := h
  simp only [frameStep, hf, hs, h0, if_true, Bool.not_true, Bool.false_eq_true, if_false, false_or]

/-- One round goes where the protocol says unless it slips. -/
theorem step_map_eq_frameStep_iff (os : Stdio σ) (nSectorSize : Nat) (b : InstructionBuffer)
    (c : Cursor σ) :
    ((step os nSectorSize b c).filter fun c => c.fetches b).map (·.nInstructionsIndex) =
      (frameStep b c.nInstructionsIndex).filter (fun index =>
        index + 4 ≤ b.nInstructionsBufferSize) ↔ ¬ c.slips b := by
  have hfilter : ((step os nSectorSize b c).filter fun c => c.fetches b).map
      (·.nInstructionsIndex) = ((step os nSectorSize b c).map (·.nInstructionsIndex)).filter
        (fun index => index + 4 ≤ b.nInstructionsBufferSize) := by
    rw [filter_map]
    rfl
  rw [hfilter]
  by_cases h : c.skipsParams b
  swap
  · rw [step_map_index h]
    simp only [true_iff]
    exact fun hslip => h ⟨hslip.1, hslip.2.1, hslip.2.2.1⟩
  by_cases hf : c.fetches b
  swap
  · rw [step_eq_none hf, frameStep_eq_none hf]
    simp only [Cursor.fetches] at hf
    simp only [map_none, true_iff]
    rintro ⟨_, _, _, h8⟩
    omega
  have hp := PartitionOp.four_le_paramBytes _ h.2.2
  rw [step_of_skipsParams hf h, frameStep_of_skipsParams hf h, map_some, filter_some]
  by_cases h8 : c.nInstructionsIndex + 8 ≤ b.nInstructionsBufferSize
  · have hslip : c.slips b := ⟨h.1, h.2.1, h.2.2, h8⟩
    have h8' : c.nInstructionsIndex + 4 + 4 ≤ b.nInstructionsBufferSize := by omega
    simp only [hslip, not_true_eq_false, iff_false, h8', decide_true, if_true]
    intro he
    split at he
    · have hnext := (filter_eq_some_iff.mp he.symm).1
      rw [some.injEq] at hnext
      omega
    · cases he
  · have hslip : ¬ c.slips b := fun hslip => h8 hslip.2.2.2
    have h8' : ¬ c.nInstructionsIndex + 4 + 4 ≤ b.nInstructionsBufferSize := by omega
    have hend : ¬ c.nInstructionsIndex + 4 + (b.op c.nInstructionsIndex).paramBytes ≤
        b.nInstructionsBufferSize := by omega
    simp only [hslip, not_false_eq_true, h8', hend, decide_false, Bool.false_eq_true,
      if_false, filter_none]

end

/-- A C library on which every call succeeds. -/
def quietStdio : Stdio Unit where
  unlink _ := (none, ())
  fopen _ _ := (none, ())
  fclose _ := ()
  fseek _ _ := (none, ())
  ftell _ := 0
  fread n _ := (List.replicate n 0, .full, ())
  fwrite _ _ := (none, ())
  fputc _ _ := (none, ())
  ftruncate _ _ := (none, ())
  fflush _ := (none, ())
  fdatasync _ := (none, ())

/-- A session with every partition closed. -/
def closedSession : Session Unit where
  nError := .success
  nSyncExecuted := 0
  nPartitionErrorStates _ := .success
  nPartitionOpenSizes _ := 0
  partitions _ := ⟨false, ()⟩
  sWorkspace _ := 0

/-- Two READ of partition 1, the second with the words `0x21` and `0` as parameters. -/
def doubleRead : InstructionBuffer :=
  .ofAnswer (fun i => [0x13, 0, 0, 0x13, 0x21, 0].getD i 0) 24

end OmapHal.Delegation
