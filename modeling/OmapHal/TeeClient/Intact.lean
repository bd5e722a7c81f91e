import OmapHal.TeeClient.Exchange

/-!
# What an exchange does to the operation

The parameter types of the message are those of the operation, with the flags of whole blocks.
The update after the exchange follows them whether or not the driver served the command.
-/

namespace OmapHal.TeeClient

open BitVec List

open CryptoSst (TEEC_Result TEEC_SUCCESS)

/-! ### Bits of the parameter types -/

private theorem and_twoPow_ne_zero_iff (x : Word) {k : Nat} (hk : k < 32) :
    x &&& BitVec.twoPow 32 k ≠ 0 ↔ x.getLsbD k = true := by
  rw [and_twoPow]
  cases hx : x.getLsbD k
  · simp
  · have hne : twoPow 32 k ≠ 0#32 := by
      intro h
      have hbit := congrArg (getLsbD · k) h
      simp [hk] at hbit
    simp [hne]

theorem output_iff (x : Word) : x &&& SCX_PARAM_TYPE_OUTPUT_FLAG ≠ 0 ↔ x.getLsbD 1 = true :=
  and_twoPow_ne_zero_iff x (k := 1) (by omega)

theorem memref_iff (x : Word) : x &&& SCX_PARAM_TYPE_MEMREF_FLAG ≠ 0 ↔ x.getLsbD 2 = true :=
  and_twoPow_ne_zero_iff x (k := 2) (by omega)

theorem getLsbD_paramType (nParamTypes : Word) (i : Nat) {k : Nat} (hk : k < 4) :
    (SCX_PARAM_TYPE_GET nParamTypes i).getLsbD k = nParamTypes.getLsbD (4 * i + k) := by
  have hmask : ∀ k < 4, (0xF : Word).getLsbD k := by decide
  rw [SCX_PARAM_TYPE_GET, getLsbD_and, getLsbD_ushiftRight, hmask k hk, Bool.and_true]

namespace TEEC_Operation

variable (sharedMemory : Memory) (op : TEEC_Operation) (i : Fin 4)

def paramType (op : TEEC_Operation) (i : Fin 4) : Word := SCX_PARAM_TYPE_GET op.paramTypes i

/-- The word that tells the direction of a parameter: the flags of the block that it refers to as
a whole, or its type. -/
def directionWord : Word :=
  if op.paramType i = TEEC_MEMREF_WHOLE then (sharedMemory (op.params i).memref_parent).flags
  else op.paramType i

/-- An output or inout parameter. -/
def Outputs : Prop := op.directionWord sharedMemory i &&& SCX_PARAM_TYPE_OUTPUT_FLAG ≠ 0

instance : Decidable (op.Outputs sharedMemory i) := inferInstanceAs (Decidable (_ ≠ _))

def IsMemref : Prop := op.paramType i &&& SCX_PARAM_TYPE_MEMREF_FLAG ≠ 0

instance : Decidable (op.IsMemref i) := inferInstanceAs (Decidable (_ ≠ _))

/-- What the flags of a whole block add to the parameter types of the message. -/
def direction : BitVec 16 :=
  if op.paramType i = TEEC_MEMREF_WHOLE then
    (((sharedMemory (op.params i).memref_parent).flags &&&
      (SCX_PARAM_TYPE_INPUT_FLAG ||| SCX_PARAM_TYPE_OUTPUT_FLAG)) <<< (4 * i.val)).setWidth 16
  else 0

theorem marshalParam_nMessageInfo (cmd : SCHANNEL6_COMMAND) :
    (marshalParam sharedMemory op cmd i).nMessageInfo =
      cmd.nMessageInfo ||| op.direction sharedMemory i := by
  by_cases hwhole : op.paramType i = TEEC_MEMREF_WHOLE
  · have hmemref : TEEC_MEMREF_WHOLE &&& SCX_PARAM_TYPE_MEMREF_FLAG ≠ 0 := by decide
    have hregistered : TEEC_MEMREF_WHOLE &&& SCX_PARAM_TYPE_REGISTERED_MEMREF_FLAG ≠ 0 := by decide
    rw [direction, if_pos hwhole]
    rw [paramType] at hwhole
    simp only [marshalParam, hwhole, if_pos hmemref, if_pos hregistered, if_true]
  · rw [direction, if_neg hwhole]
    rw [paramType] at hwhole
    simp only [marshalParam, if_neg hwhole]
    split_ifs <;> simp

/-- The flags of a whole block stand in the place of its own parameter. -/
theorem getLsbD_direction (j : Fin 4) {k : Nat} (hk : k < 4) :
    (op.direction sharedMemory j).getLsbD (4 * i.val + k) =
      (decide (j = i ∧ op.paramType i = TEEC_MEMREF_WHOLE ∧ k < 2) &&
        (sharedMemory (op.params i).memref_parent).flags.getLsbD k) := by
  by_cases hwhole : op.paramType j = TEEC_MEMREF_WHOLE
  · have hmask : ∀ b < 32, (SCX_PARAM_TYPE_INPUT_FLAG ||| SCX_PARAM_TYPE_OUTPUT_FLAG).getLsbD b =
        decide (b < 2) := by decide
    rw [direction, if_pos hwhole, getLsbD_setWidth, getLsbD_shiftLeft,
      getLsbD_and, hmask _ (by omega)]
    by_cases hj : j = i
    · subst hj
      have hbit : 4 * j.val + k - 4 * j.val = k := by omega
      have hlow : ¬ 4 * j.val + k < 4 * j.val := by omega
      have hwidth : 4 * j.val + k < 16 ∧ 4 * j.val + k < 32 := by omega
      simp [hwhole, hbit, hlow, hwidth, Bool.and_comm]
    · have hne : j.val ≠ i.val := fun h => hj (Fin.ext h)
      have hout : 4 * i.val + k < 4 * j.val ∨ ¬ 4 * i.val + k - 4 * j.val < 2 := by omega
      rcases hout with hout | hout <;> simp [hj, hout]
  · rw [direction, if_neg hwhole]
    by_cases hj : j = i
    · subst hj
      simp [hwhole]
    · simp [hj]

/-- The directions of all parameters in one word. -/
theorem getLsbD_foldl_marshalParam (l : List (Fin 4)) (cmd : SCHANNEL6_COMMAND) (n : Nat) :
    (l.foldl (marshalParam sharedMemory op) cmd).nMessageInfo.getLsbD n =
      (cmd.nMessageInfo.getLsbD n || l.any fun j => (op.direction sharedMemory j).getLsbD n) := by
  induction l generalizing cmd with
  | nil => simp
  | cons j l ih =>
    rw [foldl_cons, ih, marshalParam_nMessageInfo, getLsbD_or, any_cons,
      Bool.or_assoc]

/-- The parameter types of the message: those of the operation, and the flags of whole blocks. -/
theorem getLsbD_marshal (cmd : SCHANNEL6_COMMAND) {k : Nat} (hk : k < 4) :
    (SCX_PARAM_TYPE_GET ((marshal sharedMemory op cmd).nMessageInfo.setWidth 32) i).getLsbD k =
      ((op.paramType i).getLsbD k || decide (op.paramType i = TEEC_MEMREF_WHOLE ∧ k < 2) &&
          (sharedMemory (op.params i).memref_parent).flags.getLsbD k) := by
  have hwidth : 4 * i.val + k < 16 ∧ 4 * i.val + k < 32 := by omega
  have hany : ((finRange 4).any fun j =>
      (op.direction sharedMemory j).getLsbD (4 * i.val + k)) =
        (op.direction sharedMemory i).getLsbD (4 * i.val + k) := by
    rw [Bool.eq_iff_iff, any_eq_true]
    constructor
    · rintro ⟨j, -, hj⟩
      have hji : j = i := by
        rw [getLsbD_direction _ _ _ _ hk, Bool.and_eq_true, decide_eq_true_eq] at hj
        exact hj.1.1
      exact hji ▸ hj
    · intro h
      exact ⟨i, mem_finRange i, h⟩
  rw [getLsbD_paramType _ _ hk, getLsbD_setWidth, marshal, getLsbD_foldl_marshalParam, hany,
    getLsbD_direction _ _ _ _ hk, getLsbD_setWidth, paramType, getLsbD_paramType _ _ hk]
  simp [hwidth]

theorem outputs_iff (cmd : SCHANNEL6_COMMAND) :
    SCX_PARAM_TYPE_GET ((marshal sharedMemory op cmd).nMessageInfo.setWidth 32) i &&&
      SCX_PARAM_TYPE_OUTPUT_FLAG ≠ 0 ↔ op.Outputs sharedMemory i := by
  have hbit : TEEC_MEMREF_WHOLE[1] = false := by decide
  rw [Outputs, output_iff, output_iff, getLsbD_marshal _ _ _ _ (by omega), directionWord]
  by_cases hwhole : op.paramType i = TEEC_MEMREF_WHOLE
  · simp [hwhole, hbit]
  · simp [hwhole]

theorem isMemref_iff (cmd : SCHANNEL6_COMMAND) :
    SCX_PARAM_TYPE_GET ((marshal sharedMemory op cmd).nMessageInfo.setWidth 32) i &&&
      SCX_PARAM_TYPE_MEMREF_FLAG ≠ 0 ↔ op.IsMemref i := by
  rw [IsMemref, memref_iff, memref_iff, getLsbD_marshal _ _ _ _ (by omega)]
  simp

/-! ### The parameters after the answer -/

/-- A parameter after its slot of the answer: a reference takes the size, a value both words. -/
def answered (slot : SCHANNEL6_ANSWER_PARAM) : TEEC_Parameter :=
  if op.IsMemref i then { op.params i with word1 := slot.nSize }
  else { op.params i with word0 := slot.a, word1 := slot.b }

/-- The operation with its output and inout parameters, and no others, taken from their slots of
the answer. -/
def answeredFrom (answer : SCHANNEL6_ANSWER) : TEEC_Operation :=
  { op with
    params := fun i =>
      if op.Outputs sharedMemory i then op.answered i (answer.pSCXAnswers i) else op.params i }

/-- The slot of the answer holds what the parameter holds already. -/
def Holds (slot : SCHANNEL6_ANSWER_PARAM) : Prop :=
  if op.IsMemref i then slot.nSize = (op.params i).memref_size
  else slot.a = (op.params i).value_a ∧ slot.b = (op.params i).value_b

theorem answered_eq_iff (slot : SCHANNEL6_ANSWER_PARAM) :
    op.answered i slot = op.params i ↔ op.Holds i slot := by
  rw [answered, Holds]
  by_cases hmemref : op.IsMemref i
  · simp [hmemref, TEEC_Parameter.ext_iff]
  · simp [hmemref, TEEC_Parameter.ext_iff]

/-- An answer that the outputs hold changes nothing. -/
theorem answeredFrom_eq_iff (answer : SCHANNEL6_ANSWER) :
    op.answeredFrom sharedMemory answer = op ↔
      ∀ i, op.Outputs sharedMemory i → op.Holds i (answer.pSCXAnswers i) := by
  have hparams : op.answeredFrom sharedMemory answer = op ↔
      ∀ i, (if op.Outputs sharedMemory i then op.answered i (answer.pSCXAnswers i)
        else op.params i) = op.params i := by
    rw [answeredFrom, TEEC_Operation.ext_iff, funext_iff]
    simp
  rw [hparams]
  refine forall_congr' fun i => ?_
  rw [← answered_eq_iff]
  by_cases hout : op.Outputs sharedMemory i <;> simp [hout]

/-- The update of one parameter. -/
theorem updateParam_marshal (cmd : SCHANNEL6_COMMAND) (answer : SCHANNEL6_ANSWER)
    (params : Fin 4 → TEEC_Parameter) (hi : params i = op.params i) :
    updateParam (marshal sharedMemory op cmd).nMessageInfo answer.pSCXAnswers params i =
      Function.update params i ((op.answeredFrom sharedMemory answer).params i) := by
  simp only [updateParam, outputs_iff, isMemref_iff, answeredFrom, answered, hi]
  split_ifs
  · rfl
  · rfl
  · rw [← hi, Function.update_eq_self]

/-- The turns of the loop write one parameter each. -/
theorem foldl_updateParam (cmd : SCHANNEL6_COMMAND) (answer : SCHANNEL6_ANSWER) {l : List (Fin 4)}
    (hl : l.Nodup) (params : Fin 4 → TEEC_Parameter) (hparams : ∀ i ∈ l, params i = op.params i) :
    l.foldl (updateParam (marshal sharedMemory op cmd).nMessageInfo answer.pSCXAnswers) params =
      fun i => if i ∈ l then (op.answeredFrom sharedMemory answer).params i else params i := by
  induction l generalizing params with
  | nil => simp
  | cons j l ih =>
    obtain ⟨hj, hl⟩ := nodup_cons.mp hl
    have hne : ∀ i ∈ l, i ≠ j := fun i hi heq => hj (heq ▸ hi)
    rw [foldl_cons, updateParam_marshal _ _ _ _ _ _ (hparams j mem_cons_self),
      ih hl _ fun i hi => ?_]
    · funext i
      by_cases hij : i = j
      · subst hij
        simp [hj]
      · simp [hij]
    · rw [Function.update_of_ne (hne i hi)]
      exact hparams i (mem_cons_of_mem j hi)

end TEEC_Operation

/-! ### The exchange -/

variable (sharedMemory : Memory) (ioctl : Driver) (pCommand : SCHANNEL6_COMMAND) (pAnswer : Word)
  (sAnswer : SCHANNEL6_ANSWER) (pOperation : Option TEEC_Operation)

/-- The reply to the command with the parameters of the operation. -/
def replyTo : IoctlReply :=
  ioctl { pOperation.elim pCommand fun op => marshal sharedMemory op pCommand with
    nOperationID := pAnswer } sAnswer

/-- The exchange updates the operation from the answer, whatever the driver returns. -/
theorem scxExchangeMessage_eq :
    let reply := replyTo sharedMemory ioctl pCommand pAnswer sAnswer pOperation
    scxExchangeMessage sharedMemory ioctl pCommand pAnswer sAnswer pOperation =
      (reply.nResult.elim TEEC_SUCCESS errorOf, reply.sAnswer,
        pOperation.map (TEEC_Operation.answeredFrom sharedMemory · reply.sAnswer)) := by
  cases pOperation with
  | none => rfl
  | some op =>
    have hparams := op.foldl_updateParam sharedMemory pCommand
      (replyTo sharedMemory ioctl pCommand pAnswer sAnswer (some op)).sAnswer
      (nodup_finRange 4) op.params fun _ _ => rfl
    simp only [mem_finRange, if_true] at hparams
    refine Prod.ext rfl (Prod.ext rfl ?_)
    exact congrArg (fun params => some { op with params }) hparams

private theorem errorOf_ne_success (e : Errno) : errorOf e ≠ TEEC_SUCCESS := by
  cases e <;> decide

/-- A failed exchange leaves the operation as it was, and a successful one updates the output and
inout parameters from their slots. -/
def LeavesIntact (before : Option TEEC_Operation)
    (after : TEEC_Result × SCHANNEL6_ANSWER × Option TEEC_Operation) : Prop :=
  (after.1 ≠ TEEC_SUCCESS → after.2.2 = before) ∧
    (after.1 = TEEC_SUCCESS →
      after.2.2 = before.map (TEEC_Operation.answeredFrom sharedMemory · after.2.1))

/-- Each slot of the answer for an output or inout parameter holds what the parameter holds. -/
def AnswersHeld (answer : SCHANNEL6_ANSWER) (pOperation : Option TEEC_Operation) : Prop :=
  ∀ op ∈ pOperation, ∀ i, op.Outputs sharedMemory i → op.Holds i (answer.pSCXAnswers i)

/-- The exchange leaves the operation intact exactly if the driver serves the command, or its
answer shows nothing new. -/
theorem scxExchangeMessage_intact_iff :
    LeavesIntact sharedMemory pOperation
        (scxExchangeMessage sharedMemory ioctl pCommand pAnswer sAnswer pOperation) ↔
      (replyTo sharedMemory ioctl pCommand pAnswer sAnswer pOperation).nResult = none ∨
        AnswersHeld sharedMemory
          (replyTo sharedMemory ioctl pCommand pAnswer sAnswer pOperation).sAnswer pOperation := by
  rw [scxExchangeMessage_eq]
  generalize replyTo sharedMemory ioctl pCommand pAnswer sAnswer pOperation = reply
  cases hresult : reply.nResult with
  | none => simp [LeavesIntact]
  | some e =>
    have hfailed := errorOf_ne_success e
    have hintact : LeavesIntact sharedMemory pOperation (errorOf e, reply.sAnswer,
        pOperation.map (TEEC_Operation.answeredFrom sharedMemory · reply.sAnswer)) ↔
          pOperation.map (TEEC_Operation.answeredFrom sharedMemory · reply.sAnswer) =
            pOperation := by
      simp [LeavesIntact, hfailed]
    rw [Option.elim_some, hintact, or_iff_right (Option.some_ne_none e)]
    cases pOperation with
    | none => simp [AnswersHeld]
    | some op =>
      rw [Option.map_some, Option.some.injEq, op.answeredFrom_eq_iff]
      simp [AnswersHeld]

/-- An operation with one output value. -/
def valueOutput : TEEC_Operation where
  started := 1
  paramTypes := 0x2
  params := fun _ => ⟨1, 2, 0⟩

/-- A driver out of reach leaves the answer as it is, here all zeros. -/
theorem unreachable_not_intact :
    ¬ ∀ (sharedMemory : Memory) (ioctl : Driver) (pCommand : SCHANNEL6_COMMAND) (pAnswer : Word)
      (sAnswer : SCHANNEL6_ANSWER) (pOperation : Option TEEC_Operation),
      LeavesIntact sharedMemory pOperation
        (scxExchangeMessage sharedMemory ioctl pCommand pAnswer sAnswer pOperation) := by
  intro h
  have hfail := (h (fun _ => ⟨0, 0, 0⟩) (fun _ answer => ⟨some .other, answer⟩)
    ⟨0xF5, 0, 0, fun _ => ⟨0, 0, 0⟩⟩ 0 ⟨0, fun _ => 0⟩ (some valueOutput)).1 (by decide)
  have hvalue := congrArg (fun after => after.map fun op => (op.params 0).value_a) hfail
  revert hvalue
  decide

end OmapHal.TeeClient
