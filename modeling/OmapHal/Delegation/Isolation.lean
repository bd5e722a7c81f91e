import OmapHal.Delegation.Framing

/-!
# Isolation of partitions

What the daemon reports and leaves for one partition should follow from that
partition's own beginning and its own instructions, a WRITE being given the
workspace bytes it names. `PartitionView.run` computes it so, without `nError` and
without any other partition. The session agrees with it in exactly the runs where
no code without a `switch` case picks up an old `nError`.
-/

namespace OmapHal.Delegation

open OmapHal.Core Function Option List

variable {σ : Type}

/-- What is reported and left for one partition. -/
structure PartitionView (σ : Type) where
  errorState : TEECResult
  openSize : Nat
  partition : Partition σ
  deriving DecidableEq

/-- One partition's part of the session. -/
def Session.view (s : Session σ) (p : Fin 16) : PartitionView σ :=
  ⟨s.nPartitionErrorStates p, s.nPartitionOpenSizes p, s.partitions p⟩

/-- An instruction with the sector that a WRITE takes from the workspace. -/
structure PartitionInstruction where
  op : PartitionOp
  data : List UInt8
  deriving DecidableEq, Repr

/-- The workspace bytes that an operation takes. -/
def PartitionOp.load (nSectorSize : Nat) (w : Nat → UInt8) : PartitionOp → List UInt8
  | .write _ nWorkspaceOffset => loadBytes w nWorkspaceOffset nSectorSize
  | _ => []

/-- The instruction at the head of a round, where it is addressed to `p`. -/
def Cursor.instructionFor (nSectorSize : Nat) (b : InstructionBuffer) (p : Fin 16)
    (c : Cursor σ) : Option PartitionInstruction :=
  let nInstructionID := b.word c.nInstructionsIndex 0
  if isPartitionSpecific nInstructionID ∧ nPartitionID nInstructionID = p then
    let op := b.op c.nInstructionsIndex
    some ⟨op, op.load nSectorSize c.session.sWorkspace⟩
  else none

/-- The instructions addressed to `p` in a list of rounds. -/
def instructionsFor (nSectorSize : Nat) (b : InstructionBuffer) (p : Fin 16)
    (rounds : List (Cursor σ)) : List PartitionInstruction :=
  rounds.filterMap (Cursor.instructionFor nSectorSize b p)

/-- Record a result in the view. -/
def PartitionView.finish (v : PartitionView σ) (r : TEECResult × Partition σ) :
    PartitionView σ :=
  { v with errorState := r.1, partition := r.2 }

/-- One instruction on its partition alone; a code without a case does nothing. -/
def PartitionView.run (os : Stdio σ) (nSectorSize : Nat) (v : PartitionView σ)
    (i : PartitionInstruction) : PartitionView σ :=
  if v.errorState = .success then
    match i.op with
    | .create => v.finish (partitionCreate os v.partition)
    | .open =>
      let (nError, nPartitionSize, pt) := partitionOpen os nSectorSize v.partition
      { v.finish (nError, pt) with
        openSize := if nError = .success then nPartitionSize else v.openSize }
    | .read nSectorID _ =>
      let (nError, _, pt) := partitionRead os nSectorSize nSectorID v.partition
      v.finish (nError, pt)
    | .write nSectorID _ => v.finish (partitionWrite os nSectorSize nSectorID i.data v.partition)
    | .setSize nNewSize => v.finish (partitionSetSize os nSectorSize nNewSize v.partition)
    | .sync => v.finish (partitionSync os v.partition)
    | .close => v.finish (partitionClose os v.partition)
    | .destroy => v.finish (partitionDestroy os v.partition)
    | .undefined => v
  else v

/-- A sequence of instructions on its partition alone. -/
def PartitionView.runAll (os : Stdio σ) (nSectorSize : Nat) (v : PartitionView σ)
    (is : List PartitionInstruction) : PartitionView σ :=
  is.foldl (PartitionView.run os nSectorSize) v

/-- At the head of every round, every partition stands where its own instructions
so far take it from its own beginning. -/
def PartitionsIsolated (os : Stdio σ) (nSectorSize : Nat) (b : InstructionBuffer)
    (s : Session σ) : Prop :=
  ∀ k c, iter (step os nSectorSize b) (start s) k = some c → ∀ p,
    c.session.view p = ((start s).session.view p).runAll os nSectorSize
      (instructionsFor nSectorSize b p (past (step os nSectorSize b) (start s) k))

/-- A code without a `switch` case is at the head of the round, for a partition free
of errors, while `nError` still holds the failure of some earlier instruction. -/
def Cursor.leaksError (b : InstructionBuffer) (c : Cursor σ) : Prop :=
  c.fetches b ∧ isPartitionSpecific (b.word c.nInstructionsIndex 0) = true ∧
  c.session.nPartitionErrorStates (nPartitionID (b.word c.nInstructionsIndex 0)) = .success ∧
  b.op c.nInstructionsIndex = .undefined ∧ c.session.nError ≠ .success

section Dispatch

variable {os : Stdio σ} {nSectorSize : Nat} {s : Session σ} {p q : Fin 16} {op : PartitionOp}

@[simp] theorem view_finish_self (r : TEECResult × Partition σ) :
    (s.finish p r).view p = (s.view p).finish r := by
  simp only [Session.finish, Session.view, PartitionView.finish, update_self]

@[simp] theorem view_finish_of_ne (h : q ≠ p) (r : TEECResult × Partition σ) :
    (s.finish p r).view q = s.view q := by
  simp only [Session.finish, Session.view, update_of_ne h]

/-- An instruction leaves every other partition's part of the session alone. -/
theorem view_dispatch_of_ne (h : q ≠ p) :
    (s.dispatch os nSectorSize p op).view q = s.view q := by
  cases op with
  | «open» =>
    simp only [Session.dispatch]
    split
    · simp only [Session.view, Session.finish, update_of_ne h]
    · exact view_finish_of_ne h _
  | sync =>
    simp only [Session.dispatch]
    split <;> exact view_finish_of_ne h _
  | read nSectorID nWorkspaceOffset => exact view_finish_of_ne h _
  | create | write | setSize | close | destroy | undefined => exact view_finish_of_ne h _

/-- On its own partition an instruction with a case does what it does alone. -/
theorem view_dispatch_self (hs : s.nPartitionErrorStates p = .success) (hop : op ≠ .undefined) :
    (s.dispatch os nSectorSize p op).view p =
      (s.view p).run os nSectorSize ⟨op, op.load nSectorSize s.sWorkspace⟩ := by
  have hv : (s.view p).errorState = .success := hs
  simp only [PartitionView.run, hv, if_true]
  cases op with
  | undefined => exact absurd rfl hop
  | «open» =>
    simp only [Session.dispatch]
    split
    · rename_i he
      simp only [Session.view, Session.finish, PartitionView.finish, update_self, he,
        if_true]
    · rename_i he
      rw [view_finish_self]
      simp only [Session.view, PartitionView.finish, he, if_false]
  | sync =>
    simp only [Session.dispatch]
    split <;> exact view_finish_self _
  | read nSectorID nWorkspaceOffset => exact view_finish_self _
  | create | write | setSize | close | destroy => exact view_finish_self _

/-- A code without a case writes `nError` into the partition's error state. -/
theorem view_dispatch_undefined :
    (s.dispatch os nSectorSize p .undefined).view p =
      { s.view p with errorState := s.nError } :=
  view_finish_self _

end Dispatch

section Step

variable {os : Stdio σ} {nSectorSize : Nat} {b : InstructionBuffer} {c c' : Cursor σ}
  {p : Fin 16}

/-- A partition in error takes no further instruction. -/
theorem PartitionView.run_of_error {v : PartitionView σ} (h : v.errorState ≠ .success)
    (i : PartitionInstruction) : v.run os nSectorSize i = v := by
  simp only [PartitionView.run, h, if_false]

/-- A code without a case does nothing to its partition alone. -/
theorem PartitionView.run_undefined (v : PartitionView σ) (data : List UInt8) :
    v.run os nSectorSize ⟨.undefined, data⟩ = v := by
  simp only [PartitionView.run, ite_self]

/-- A round that does not leak an error runs its instruction on the addressed
partition alone, and nothing on the others. -/
theorem view_step (h : step os nSectorSize b c = some c') (hl : ¬ c.leaksError b) (p : Fin 16) :
    c'.session.view p = (c.session.view p).runAll os nSectorSize
      (c.instructionFor nSectorSize b p).toList := by
  rcases step_cases h with ⟨hs, he⟩ | ⟨hs, he⟩ | ⟨hs, herr, he⟩ | ⟨hs, herr, he⟩
  · rw [he]
    simp only [Cursor.instructionFor, hs, Bool.false_eq_true, false_and, if_false,
      toList_none, PartitionView.runAll, foldl_nil]
  · rw [he]
    simp only [Cursor.instructionFor, hs, Bool.false_eq_true, false_and, if_false,
      toList_none, PartitionView.runAll, foldl_nil]
    rfl
  · rw [he]
    simp only [Cursor.instructionFor, hs, true_and]
    split
    · rename_i hp
      subst hp
      simp only [toList_some, PartitionView.runAll, foldl_cons, foldl_nil]
      rw [PartitionView.run_of_error herr]
    · rfl
  · rw [he]
    simp only [Cursor.instructionFor, hs, true_and]
    split
    · rename_i hp
      subst hp
      simp only [toList_some, PartitionView.runAll, foldl_cons, foldl_nil]
      by_cases hop : b.op c.nInstructionsIndex = .undefined
      · have hn : c.session.nError = .success := by
          by_contra hn
          exact hl ⟨fetches_of_step h, hs, herr, hop, hn⟩
        rw [hop, view_dispatch_undefined, PartitionView.run_undefined, hn, ← herr]
        rfl
      · exact view_dispatch_self herr hop
    · rename_i hp
      exact view_dispatch_of_ne (Ne.symm hp)

/-- A leaking round goes on, and the addressed partition is in error after it. -/
theorem step_of_leaksError (os : Stdio σ) (nSectorSize : Nat) (hl : c.leaksError b) :
    ∃ c', step os nSectorSize b c = some c' ∧
      (c'.session.view (nPartitionID (b.word c.nInstructionsIndex 0))).errorState =
        c.session.nError := by
  obtain ⟨hf, hs, herr, hop, _⟩ := hl
  simp only [Cursor.fetches] at hf
  refine ⟨⟨c.nInstructionsIndex + 4, c.session.dispatch os nSectorSize
    (nPartitionID (b.word c.nInstructionsIndex 0)) .undefined⟩, ?_, ?_⟩
  · simp only [step, round, hf, hs, herr, hop, PartitionOp.paramBytes, if_true, Bool.not_true,
      Bool.false_eq_true, if_false, true_or, Outcome.next?, Nat.add_zero]
  · rw [view_dispatch_undefined]

/-- One more instruction on the partition alone. -/
theorem PartitionView.runAll_append (v : PartitionView σ) (is js : List PartitionInstruction) :
    v.runAll os nSectorSize (is ++ js) = (v.runAll os nSectorSize is).runAll os nSectorSize js := by
  simp only [PartitionView.runAll, foldl_append]

/-- The instructions of one more round. -/
theorem instructionsFor_past_succ {a : Cursor σ} {k : Nat}
    (h : iter (step os nSectorSize b) a k = some c) :
    instructionsFor nSectorSize b p (past (step os nSectorSize b) a (k + 1)) =
      instructionsFor nSectorSize b p (past (step os nSectorSize b) a k) ++
        (c.instructionFor nSectorSize b p).toList := by
  rw [past_succ_of h, instructionsFor, filterMap_append, instructionsFor]
  cases hc : c.instructionFor nSectorSize b p with
  | none => rw [filterMap_cons_none hc]; rfl
  | some i => rw [filterMap_cons_some hc]; rfl

/-- A round leaves a partition that is in error as it is. -/
theorem view_step_of_error (h : step os nSectorSize b c = some c')
    (herror : (c.session.view p).errorState ≠ .success) :
    c'.session.view p = c.session.view p := by
  rcases step_cases h with ⟨-, he⟩ | ⟨-, he⟩ | ⟨-, -, he⟩ | ⟨-, hok, he⟩
  · rw [he]
  · rw [he]
    rfl
  · rw [he]
  · rw [he]
    exact view_dispatch_of_ne fun heq => herror (heq ▸ hok)

end Step

/-- A code without a case for partition 1. -/
def strayCode : InstructionBuffer := .ofAnswer (fun i => [0x19].getD i 0) 4

/-- The same, behind an unknown partition-independent instruction. -/
def unknownThenStrayCode : InstructionBuffer := .ofAnswer (fun i => [0x10, 0x19].getD i 0) 8

end OmapHal.Delegation
