import OmapHal.Dynload.PacketFrame

/-!
# The expression stack

Relocation records that compute: values are pushed, operators take their operands from the stack,
and a store puts the result into the image. The index of the stack stays in the loader's state from
one record to the next.
-/

namespace OmapHal.Dynload

open OmapHal.Core Function Option BitVec

variable {reloc_action reloc_info : Nat} {act : Dload_Actions}

def RSTK_POP : Nat := 1

def RSTK_PSH : Nat := 3

/-- What an operator does with the stack. -/
inductive StackRole where
  | none
  | push
  | duplicate
  | unary
  | binary
  | store
  deriving DecidableEq, Repr

/-- How many values the operator works on. -/
def StackRole.operands : StackRole → Int
  | none | push => 0
  | duplicate | unary | store => 1
  | binary => 2

def roleOf (reloc_action reloc_info : Nat) : StackRole :=
  if RFV_STK reloc_info = 0 then .none
  else if RFV_STK reloc_info = RSTK_POP then
    if reloc_info &&& ROP_W = 0 then .binary else .store
  else if RFV_STK reloc_info = RSTK_UOP then .unary
  else if actionOf reloc_action = .RACT_VAL ∧ reloc_info &&& ROP_R = 0 then .duplicate
  else .push

/-- The operators that divide. -/
def Divides (act : Dload_Actions) : Prop := act = .RACT_DIV ∨ act = .RACT_MOD

instance (act : Dload_Actions) : Decidable (Divides act) := inferInstanceAs (Decidable (_ ∨ _))

def binaryActions : List Dload_Actions :=
  [.RACT_PLUS, .RACT_SUB, .RACT_MPY, .RACT_DIV, .RACT_MOD, .RACT_SR, .RACT_ASR, .RACT_SL,
   .RACT_AND, .RACT_OR, .RACT_XOR]

/-- What the entries of an operator are like, by its role. -/
structure RoleFits (reloc_action reloc_info : Nat) : Prop where
  divides : Divides (actionOf reloc_action) → reloc_info &&& ROP_R = 0
  none : roleOf reloc_action reloc_info = .none → ¬ Divides (actionOf reloc_action)
  push : roleOf reloc_action reloc_info = .push →
    RFV_STK reloc_info = RSTK_PSH ∧ reloc_info &&& ROP_W = 0 ∧ RFV_SCALE reloc_info = 0 ∧
      actionOf reloc_action ∈ [.RACT_VAL, .RACT_ASGN, .RACT_ASGPC]
  duplicate : roleOf reloc_action reloc_info = .duplicate →
    RFV_STK reloc_info = RSTK_PSH ∧ actionOf reloc_action = .RACT_VAL
  unary : roleOf reloc_action reloc_info = .unary →
    RFV_STK reloc_info = RSTK_UOP ∧ reloc_info &&& ROP_R = 0 ∧ reloc_info &&& ROP_W = 0 ∧
      actionOf reloc_action ∈ [.RACT_NEG, .RACT_NOT]
  binary : roleOf reloc_action reloc_info = .binary →
    RFV_STK reloc_info = RSTK_POP ∧ reloc_info &&& ROP_R = 0 ∧ reloc_info &&& ROP_W = 0 ∧
      actionOf reloc_action ∈ binaryActions
  store : roleOf reloc_action reloc_info = .store →
    RFV_STK reloc_info = RSTK_POP ∧ reloc_info &&& ROP_R = 0 ∧ reloc_info &&& ROP_W ≠ 0 ∧
      RFV_SCALE reloc_info = 0 ∧ actionOf reloc_action = .RACT_VAL

theorem operatorOf_role {r_type : UInt16}
    (h : operatorOf r_type = some (reloc_action, reloc_info)) :
    RoleFits reloc_action reloc_info := by
  obtain ⟨rx, hrx, rfl, rfl⟩ := operatorOf_eq_some h
  clear h
  constructor
  · revert rx
    decide
  · revert rx
    decide
  · revert rx
    decide
  · revert rx
    decide
  · revert rx
    decide
  · revert rx
    decide
  · revert rx
    decide

/-- The stack's index is one of the stack's. -/
def InStack (dlthis : RelocState) : Prop :=
  0 ≤ dlthis.relstkidx ∧ dlthis.relstkidx < STATIC_EXPR_STK_SIZE

instance (dlthis : RelocState) : Decidable (InStack dlthis) := inferInstanceAs (Decidable (_ ∧ _))

/-- A record that cannot be worked on: too few values on the stack, no room, or a divisor zero. -/
def IllFormed (dlthis : RelocState) (rp : reloc_record_t) : Prop :=
  ∃ reloc_action reloc_info, operatorOf rp.r_type = some (reloc_action, reloc_info) ∧
    (dlthis.relstkidx < (roleOf reloc_action reloc_info).operands ∨
      RFV_STK reloc_info ≠ 0 ∧ STATIC_EXPR_STK_SIZE ≤ newTop dlthis reloc_info ∨
      Divides (actionOf reloc_action) ∧ dlthis.relstk dlthis.relstkidx = 0)

/-- A record that is reported for a full stack, or finds its operands, no zero to divide by, and a
field within reach of the access functions; and no filler of the operator table. -/
def Careful (dlthis : RelocState) (rp : reloc_record_t) : Prop :=
  rp.r_type ≠ 65535 ∧
  ∀ reloc_action reloc_info, operatorOf rp.r_type = some (reloc_action, reloc_info) →
    RFV_STK reloc_info ≠ 0 ∧ STATIC_EXPR_STK_SIZE ≤ newTop dlthis reloc_info ∨
      (roleOf reloc_action reloc_info).operands ≤ dlthis.relstkidx ∧
      (Divides (actionOf reloc_action) → dlthis.relstk dlthis.relstkidx ≠ 0) ∧
      (reloc_info &&& ROP_RW ≠ 0 → Accessible rp reloc_action)

/-- A record after which the stack's index is in range, no division by zero has been added, and
which has been reported, and nothing else, if it cannot be worked on. -/
structure Sound (dlthis after : RelocState) (rp : reloc_record_t) : Prop where
  index : InStack after
  divisions : after.zero_divisions = dlthis.zero_divisions
  reported : IllFormed dlthis rp → ∃ e, after = dlthis.error e

section

variable {src : RelocSource} {dlthis after : RelocState} {data dp : Nat} {rp : reloc_record_t}
  {reloc_action reloc_info : Nat} {act : Dload_Actions} {val reloc_amt : RVALUE}
  {svp : Option Local_Symbol} {top : Int} {field : RelocField}

theorem relocAction_index :
    (relocAction src dlthis rp act val reloc_amt svp top field).1.relstkidx =
      dlthis.relstkidx := by
  have hbase : (c6base src dlthis rp).relstkidx = dlthis.relstkidx := by
    unfold c6base
    split
    · split <;> rfl
    · rfl
  have hdspl : ∀ dl amt, (c6dspl src dl rp val amt field).1.relstkidx = dl.relstkidx := by
    intro dl amt
    unfold c6dspl
    dsimp only
    split <;> rfl
  cases act with
  | RACT_C6SECT => exact (hdspl _ _).trans hbase
  | RACT_C6BASE => exact (hdspl _ _).trans hbase
  | RACT_C6DSPL => exact hdspl _ _
  | _ => rfl

/-- A division by zero is counted, nothing else is. -/
theorem relocAction_divisions (h : Divides act → val ≠ 0) :
    (relocAction src dlthis rp act val reloc_amt svp top field).1.zero_divisions =
      dlthis.zero_divisions := by
  have hbase : (c6base src dlthis rp).zero_divisions = dlthis.zero_divisions := by
    unfold c6base
    split
    · split <;> rfl
    · rfl
  have hdspl : ∀ dl amt, (c6dspl src dl rp val amt field).1.zero_divisions = dl.zero_divisions := by
    intro dl amt
    unfold c6dspl
    dsimp only
    split <;> rfl
  cases act with
  | RACT_C6SECT => exact (hdspl _ _).trans hbase
  | RACT_C6BASE => exact (hdspl _ _).trans hbase
  | RACT_C6DSPL => exact hdspl _ _
  | RACT_DIV => exact if_neg (h (.inl rfl))
  | RACT_MOD => exact if_neg (h (.inr rfl))
  | _ => rfl

theorem writeValue_keeps (h : writeValue src dlthis rp dp reloc_info val top field = some after) :
    after.relstkidx = dlthis.relstkidx ∧ after.zero_divisions = dlthis.zero_divisions := by
  unfold writeValue at h
  split at h
  · cases hpack : dload_repack (val.sshiftRight field.scale) dlthis.image dp field.fieldsz
        field.offset (RFV_SIGN reloc_info) with
    | none => simp [hpack] at h
    | some packed =>
      simp only [hpack, bind_eq_bind, bind_some, pure_def, some.injEq] at h
      rw [← h]
      split <;> exact ⟨rfl, rfl⟩
  · split at h
    · cases h
      exact ⟨rfl, rfl⟩
    · split at h
      · cases h
        exact ⟨rfl, rfl⟩
      · cases h

/-- What a relocation leaves of the stack's index and of the count of bad divisions. -/
theorem relocValue_keeps
    (h : relocValue src dlthis data rp reloc_action reloc_info val top = some after)
    (hdiv : Divides (actionOf reloc_action) → reloc_info &&& ROP_R = 0 ∧ val ≠ 0) :
    after.relstkidx = dlthis.relstkidx ∧ after.zero_divisions = dlthis.zero_divisions := by
  cases hread : readValue dlthis (addressOf data rp) reloc_info val
      (fieldOf rp reloc_action reloc_info) with
  | none => simp [relocValue, hread] at h
  | some v =>
    simp only [relocValue, hread, bind_eq_bind, bind_some] at h
    obtain ⟨hindex, hdivisions⟩ := writeValue_keeps h
    have hv : Divides (actionOf reloc_action) → v ≠ 0 := by
      intro hd
      obtain ⟨hr, hval⟩ := hdiv hd
      rw [readValue, if_neg (not_not.2 hr)] at hread
      rwa [← some.inj hread]
    rw [hindex, hdivisions, relocAction_index]
    exact ⟨rfl, relocAction_divisions hv⟩

theorem newTop_of_stk {n : Nat} (h : RFV_STK reloc_info = n) :
    newTop dlthis reloc_info = n + dlthis.relstkidx - 2 := by
  rw [newTop, h]
  rfl

/-- The stack's index after an operator that finds its operands. -/
theorem newTop_nonneg (hrole : RoleFits reloc_action reloc_info) (hin : InStack dlthis)
    (hoperands : (roleOf reloc_action reloc_info).operands ≤ dlthis.relstkidx)
    (hstk : RFV_STK reloc_info ≠ 0) : 0 ≤ newTop dlthis reloc_info := by
  have hlow := hin.1
  cases hr : roleOf reloc_action reloc_info with
  | none =>
    unfold roleOf at hr
    rw [if_neg hstk] at hr
    split at hr
    · split at hr <;> cases hr
    · split at hr
      · cases hr
      · split at hr <;> cases hr
  | push =>
    rw [newTop_of_stk (hrole.push hr).1, RSTK_PSH]
    omega
  | duplicate =>
    rw [newTop_of_stk (hrole.duplicate hr).1, RSTK_PSH]
    omega
  | unary =>
    rw [newTop_of_stk (hrole.unary hr).1, RSTK_UOP]
    omega
  | binary =>
    rw [hr, StackRole.operands] at hoperands
    rw [newTop_of_stk (hrole.binary hr).1, RSTK_POP]
    omega
  | store =>
    rw [hr, StackRole.operands] at hoperands
    rw [newTop_of_stk (hrole.store hr).1, RSTK_POP]
    omega

/-- A careful record is sound. -/
theorem careful_sound (hin : InStack dlthis) (hcareful : Careful dlthis rp)
    (h : dload_relocate src dlthis data rp = some after) : Sound dlthis after rp := by
  cases hop : operatorOf rp.r_type with
  | none =>
    have hill : ¬ IllFormed dlthis rp := by
      rintro ⟨a, i, hentry, -⟩
      rw [hop] at hentry
      cases hentry
    rw [dload_relocate_unknown hop] at h
    split at h
    · cases h
    · split at h
      · cases h
        exact ⟨hin, rfl, fun hbad => absurd hbad hill⟩
      · cases h
        exact ⟨hin, rfl, fun hbad => absurd hbad hill⟩
  | some entry =>
    obtain ⟨reloc_action, reloc_info⟩ := entry
    have hrole := operatorOf_role hop
    rw [dload_relocate_known hop] at h
    by_cases hfull : RFV_STK reloc_info ≠ 0 ∧ STATIC_EXPR_STK_SIZE ≤ newTop dlthis reloc_info
    · rw [relocate, if_neg hfull.1, if_pos hfull.2] at h
      cases h
      exact ⟨hin, rfl, fun _ => ⟨_, rfl⟩⟩
    obtain ⟨hoperands, hdivisor, -⟩ := (hcareful.2 _ _ hop).resolve_left hfull
    have hill : ¬ IllFormed dlthis rp := by
      rintro ⟨a, i, hentry, hbad⟩
      rw [hop] at hentry
      cases hentry
      rcases hbad with hfew | hroom | ⟨hd, hzero⟩
      · omega
      · exact hfull hroom
      · exact hdivisor hd hzero
    by_cases hstk : RFV_STK reloc_info = 0
    · have hnone : roleOf reloc_action reloc_info = .none := by rw [roleOf, if_pos hstk]
      rw [relocate, if_pos hstk] at h
      obtain ⟨hindex, hdivisions⟩ := relocValue_keeps h fun hd => absurd hd (hrole.none hnone)
      refine ⟨?_, hdivisions, fun hbad => absurd hbad hill⟩
      rwa [InStack, hindex]
    · have hroom : ¬ STATIC_EXPR_STK_SIZE ≤ newTop dlthis reloc_info := fun hr => hfull ⟨hstk, hr⟩
      rw [relocate, if_neg hstk, if_neg hroom] at h
      obtain ⟨hindex, hdivisions⟩ :=
        relocValue_keeps h fun hd => ⟨hrole.divides hd, hdivisor hd⟩
      refine ⟨?_, hdivisions, fun hbad => absurd hbad hill⟩
      rw [InStack, hindex]
      exact ⟨newTop_nonneg hrole hin hoperands hstk, Int.not_le.1 hroom⟩

/-- A careful record has a result. -/
theorem careful_isSome (hin : InStack dlthis) (hcareful : Careful dlthis rp) :
    ∃ after, dload_relocate src dlthis data rp = some after := by
  cases hop : operatorOf rp.r_type with
  | none =>
    rw [dload_relocate_unknown hop, if_neg fun h => hcareful.1 ((ropIndex_of_unknown hop).1 h)]
    split
    · exact ⟨_, rfl⟩
    · exact ⟨_, rfl⟩
  | some entry =>
    obtain ⟨reloc_action, reloc_info⟩ := entry
    have hfits := operatorOf_fits hop
    rw [dload_relocate_known hop]
    by_cases hfull : RFV_STK reloc_info ≠ 0 ∧ STATIC_EXPR_STK_SIZE ≤ newTop dlthis reloc_info
    · rw [relocate, if_neg hfull.1, if_pos hfull.2]
      exact ⟨_, rfl⟩
    obtain ⟨hoperands, -, hacc⟩ := (hcareful.2 _ _ hop).resolve_left hfull
    obtain ⟨val, top, dl, hrelocate, -, -, htop⟩ :=
      @relocate_room src dlthis data rp reloc_action reloc_info hfull
    rw [hrelocate]
    by_cases hw : reloc_info &&& ROP_W = 0
    · have hnonneg := htop.2 fun hstk => newTop_nonneg (operatorOf_role hop) hin hoperands hstk
      obtain ⟨after, hafter, -⟩ := @relocValue_keep src dl data rp reloc_action reloc_info val top
        hfits hw hacc hnonneg
      exact ⟨after, hafter⟩
    · obtain ⟨after, hafter, -⟩ := @relocValue_write src dl data rp reloc_action reloc_info val top
        hfits hw (hacc (hfits.write_access hw))
      exact ⟨after, hafter⟩

end

/-- The records one after the other. -/
def dload_relocations (src : RelocSource) (data : Nat) :
    RelocState → List reloc_record_t → Option RelocState
  | dlthis, [] => some dlthis
  | dlthis, rp :: rest => do
    let dlthis ← dload_relocate src dlthis data rp
    dload_relocations src data dlthis rest

/-- Each record of the run is careful in the state that it meets. -/
def CarefulRun (src : RelocSource) (data : Nat) : RelocState → List reloc_record_t → Prop
  | _, [] => True
  | dlthis, rp :: rest => Careful dlthis rp ∧
    ∀ after, dload_relocate src dlthis data rp = some after → CarefulRun src data after rest

/-- Each record of the run has a result and is worked on soundly. -/
def SoundRun (src : RelocSource) (data : Nat) : RelocState → List reloc_record_t → Prop
  | _, [] => True
  | dlthis, rp :: rest =>
    ∃ after, dload_relocate src dlthis data rp = some after ∧ Sound dlthis after rp ∧
      SoundRun src data after rest

theorem careful_run {src : RelocSource} {data : Nat} (records : List reloc_record_t)
    {dlthis : RelocState} (hin : InStack dlthis) (h : CarefulRun src data dlthis records) :
    SoundRun src data dlthis records := by
  induction records generalizing dlthis with
  | nil => exact trivial
  | cons rp rest ih =>
    obtain ⟨after, hafter⟩ := @careful_isSome src dlthis data rp hin h.1
    have hsound := careful_sound hin h.1 hafter
    exact ⟨after, hafter, hsound, ih hsound.index (h.2 after hafter)⟩

/-! Expressions. -/

/-- An expression in the order of its records: a value that is pushed, or an operator behind its
operands. -/
inductive Expression where
  | push (rp : reloc_record_t)
  | unary (rp : reloc_record_t) (operand : Expression)
  | binary (rp : reloc_record_t) (left right : Expression)

/-- What an operator means, on 32-bit values. -/
def operate (act : Dload_Actions) (left right : RVALUE) : RVALUE :=
  match act with
  | .RACT_PLUS => left + right
  | .RACT_SUB => left - right
  | .RACT_NEG => -right
  | .RACT_MPY => left * right
  | .RACT_DIV => left.sdiv right
  | .RACT_MOD => left.srem right
  | .RACT_SR => left >>> right.toNat
  | .RACT_ASR => left.sshiftRight right.toNat
  | .RACT_SL => left <<< right.toNat
  | .RACT_AND => left &&& right
  | .RACT_OR => left ||| right
  | .RACT_XOR => left ^^^ right
  | .RACT_NOT => ~~~right
  | _ => right

/-- The entries of a record's operator. -/
def entriesOf (rp : reloc_record_t) : Nat × Nat := (operatorOf rp.r_type).getD (0, 0)

/-- What a push puts onto the stack. -/
def pushed (src : RelocSource) (data : Nat) (bytes : Memory) (rp : reloc_record_t) : RVALUE :=
  let (reloc_action, reloc_info) := entriesOf rp
  match actionOf reloc_action with
  | .RACT_ASGN => src.amountOf rp reloc_info
  | .RACT_ASGPC => src.run_addr + src.amountOf rp reloc_info
  | _ =>
    extend (bytes.field (8 * addressOf data rp + fieldOffset rp reloc_action)
      (fieldWidth rp reloc_action)) (RFV_SIGN reloc_info)

namespace Expression

def records : Expression → List reloc_record_t
  | push rp => [rp]
  | unary rp operand => operand.records ++ [rp]
  | binary rp left right => left.records ++ right.records ++ [rp]

def value (src : RelocSource) (data : Nat) (bytes : Memory) : Expression → RVALUE
  | push rp => pushed src data bytes rp
  | unary rp operand => operate (actionOf (entriesOf rp).1) 0 (operand.value src data bytes)
  | binary rp left right =>
    operate (actionOf (entriesOf rp).1) (left.value src data bytes) (right.value src data bytes)

/-- How many places of the stack the evaluation takes. -/
def height : Expression → Nat
  | push _ => 1
  | unary _ operand => operand.height
  | binary _ left right => max left.height (right.height + 1)

theorem height_pos (e : Expression) : 0 < e.height := by
  induction e with
  | push => exact Nat.one_pos
  | unary _ _ ih => exact ih
  | binary _ left _ ih => exact Nat.lt_of_lt_of_le ih (Nat.le_max_left ..)

/-- The records have the roles that the expression gives them, and a pushed field can be read. -/
def WellFormed : Expression → Prop
  | push rp => (operatorOf rp.r_type).isSome ∧
      roleOf (entriesOf rp).1 (entriesOf rp).2 = .push ∧
      ((entriesOf rp).2 &&& ROP_R ≠ 0 → Accessible rp (entriesOf rp).1)
  | unary rp operand => (operatorOf rp.r_type).isSome ∧
      roleOf (entriesOf rp).1 (entriesOf rp).2 = .unary ∧ operand.WellFormed
  | binary rp left right => (operatorOf rp.r_type).isSome ∧
      roleOf (entriesOf rp).1 (entriesOf rp).2 = .binary ∧ left.WellFormed ∧ right.WellFormed

/-- No division by zero, and no arithmetic shift to the right by 32 or more. -/
def Regular (src : RelocSource) (data : Nat) (bytes : Memory) : Expression → Prop
  | push _ => True
  | unary _ operand => operand.Regular src data bytes
  | binary rp left right => left.Regular src data bytes ∧ right.Regular src data bytes ∧
      (Divides (actionOf (entriesOf rp).1) → right.value src data bytes ≠ 0) ∧
      (actionOf (entriesOf rp).1 = .RACT_ASR → (right.value src data bytes).toNat < 32)

end Expression

section

variable {src : RelocSource} {dlthis : RelocState} {data : Nat} {rp : reloc_record_t}

/-- The state with another stack. -/
def RelocState.withStack (dlthis : RelocState) (relstkidx : Int) (relstk : Int → RVALUE) :
    RelocState :=
  { dlthis with relstkidx := relstkidx, relstk := relstk }

@[simp] theorem withStack_relstkidx (dlthis : RelocState) (i : Int) (relstk : Int → RVALUE) :
    (dlthis.withStack i relstk).relstkidx = i := rfl

@[simp] theorem withStack_relstk (dlthis : RelocState) (i : Int) (relstk : Int → RVALUE) :
    (dlthis.withStack i relstk).relstk = relstk := rfl

@[simp] theorem withStack_image (dlthis : RelocState) (i : Int) (relstk : Int → RVALUE) :
    (dlthis.withStack i relstk).image = dlthis.image := rfl

@[simp] theorem withStack_withStack (dlthis : RelocState) (i j : Int)
    (relstk relstk' : Int → RVALUE) :
    (dlthis.withStack i relstk).withStack j relstk' = dlthis.withStack j relstk' := rfl

theorem dload_relocations_append (xs ys : List reloc_record_t) :
    dload_relocations src data dlthis (xs ++ ys) =
      (dload_relocations src data dlthis xs).bind (dload_relocations src data · ys) := by
  induction xs generalizing dlthis with
  | nil => rfl
  | cons rp xs ih =>
    rw [List.cons_append, dload_relocations, dload_relocations]
    cases dload_relocate src dlthis data rp with
    | none => rfl
    | some after => exact ih

theorem entriesOf_eq (h : (operatorOf rp.r_type).isSome) :
    operatorOf rp.r_type = some ((entriesOf rp).1, (entriesOf rp).2) := by
  obtain ⟨entry, hentry⟩ := isSome_iff_exists.1 h
  rw [entriesOf, hentry]
  rfl

/-- The code's operators are the 32-bit ones but for the arithmetic shift. -/
theorem stackAction_eq {left right : RVALUE}
    (h : act = .RACT_ASR → right.toNat < 32) : stackAction act right left =
      operate act left right := by
  cases act with
  | RACT_PLUS => exact add_comm _ _
  | RACT_MPY => exact mul_comm _ _
  | RACT_AND => exact and_comm _ _
  | RACT_OR => exact or_comm _ _
  | RACT_XOR => exact BitVec.xor_comm _ _
  | RACT_SR =>
    rw [stackAction, operate]
    split
    case isTrue hwide => exact (ushiftRight_eq_zero hwide).symm
    case isFalse => rfl
  | RACT_SL =>
    rw [stackAction, operate]
    split
    case isTrue hwide => exact (shiftLeft_eq_zero hwide).symm
    case isFalse => rfl
  | RACT_ASR => rw [stackAction, operate, if_neg (Nat.not_le.2 (h rfl))]
  | _ => rfl

/-- An operator that leaves its result on the stack. -/
theorem relocate_stack {v r : RVALUE} {top : Int}
    (hop : operatorOf rp.r_type = some (reloc_action, reloc_info))
    (hstk : RFV_STK reloc_info ≠ 0) (hw : reloc_info &&& ROP_W = 0)
    (htop : newTop dlthis reloc_info = top) (hpos : 0 < top) (hroom : top < STATIC_EXPR_STK_SIZE)
    (hread : readValue { dlthis with relstkidx := top } (addressOf data rp) reloc_info
      (dlthis.relstk dlthis.relstkidx) (fieldOf rp reloc_action reloc_info) = some v)
    (haction : relocAction src { dlthis with relstkidx := top } rp (actionOf reloc_action) v
      (src.amountOf rp reloc_info) (src.symbolOf rp reloc_info) top
      (fieldOf rp reloc_action reloc_info) =
        ({ dlthis with relstkidx := top }, r, fieldOf rp reloc_action reloc_info)) :
    dload_relocate src dlthis data rp =
      some (dlthis.withStack top (update dlthis.relstk top r)) := by
  have hne : top ≠ 0 := by omega
  rw [actionOf] at haction
  rw [dload_relocate_known hop, relocate, if_neg hstk, htop, if_neg (Int.not_le.2 hroom)]
  simp only [relocValue, hread, bind_eq_bind, bind_some, haction]
  rw [writeValue, if_neg (not_not.2 hw), if_neg hne, if_pos hpos]
  rfl

theorem relocAction_binary {val reloc_amt : RVALUE}
    {svp : Option Local_Symbol} {top : Int} {field : RelocField} (hact : act ∈ binaryActions)
    (hdiv : Divides act → val ≠ 0) :
    relocAction src dlthis rp act val reloc_amt svp top field =
      (dlthis, stackAction act val (dlthis.relstk top), field) := by
  cases act with
  | RACT_DIV => rw [relocAction, if_neg (hdiv (.inl rfl))]
  | RACT_MOD => rw [relocAction, if_neg (hdiv (.inr rfl))]
  | RACT_ASGN => exact absurd hact (by decide)
  | RACT_ADD => exact absurd hact (by decide)
  | RACT_PCR => exact absurd hact (by decide)
  | RACT_ADDISP => exact absurd hact (by decide)
  | RACT_ASGPC => exact absurd hact (by decide)
  | RACT_C6SECT => exact absurd hact (by decide)
  | RACT_C6BASE => exact absurd hact (by decide)
  | RACT_C6DSPL => exact absurd hact (by decide)
  | _ => rfl

/-- A push. -/
theorem relocate_push (hlow : 0 ≤ dlthis.relstkidx)
    (hroom : dlthis.relstkidx + 1 < STATIC_EXPR_STK_SIZE) (h : (operatorOf rp.r_type).isSome)
    (hpush : roleOf (entriesOf rp).1 (entriesOf rp).2 = .push)
    (hacc : (entriesOf rp).2 &&& ROP_R ≠ 0 → Accessible rp (entriesOf rp).1) :
    dload_relocate src dlthis data rp =
      some (dlthis.withStack (dlthis.relstkidx + 1) (update dlthis.relstk (dlthis.relstkidx + 1)
          (pushed src data dlthis.image.bytes rp))) := by
  have hop := entriesOf_eq h
  obtain ⟨hstk, hw, hscale, hact⟩ := (operatorOf_role hop).push hpush
  have htop : newTop dlthis (entriesOf rp).2 = dlthis.relstkidx + 1 := by
    rw [newTop_of_stk hstk, RSTK_PSH]
    omega
  have hne : RFV_STK (entriesOf rp).2 ≠ 0 := by
    rw [hstk]
    decide
  have hfield := fieldOf_eq rp (entriesOf rp).1 (entriesOf rp).2
  simp only [List.mem_cons, List.not_mem_nil, or_false] at hact
  -- the value read, if the operator reads one
  by_cases hr : (entriesOf rp).2 &&& ROP_R = 0
  · have hread : readValue { dlthis with relstkidx := dlthis.relstkidx + 1 } (addressOf data rp)
        (entriesOf rp).2 (dlthis.relstk dlthis.relstkidx)
        (fieldOf rp (entriesOf rp).1 (entriesOf rp).2) = some (dlthis.relstk dlthis.relstkidx) := by
      rw [readValue, if_neg (not_not.2 hr)]
    refine relocate_stack hop hne hw htop (by omega) hroom hread ?_
    rcases hact with hact | hact | hact
    · unfold roleOf at hpush
      rw [if_neg hne, hstk, if_neg (by decide), if_neg (by decide), if_pos ⟨hact, hr⟩] at hpush
      cases hpush
    · rw [hact, pushed]
      simp only [hact]
      rfl
    · rw [hact, pushed]
      simp only [hact]
      rfl
  · obtain ⟨h0, h32, ho⟩ := hacc hr
    have hread : readValue { dlthis with relstkidx := dlthis.relstkidx + 1 } (addressOf data rp)
        (entriesOf rp).2 (dlthis.relstk dlthis.relstkidx)
        (fieldOf rp (entriesOf rp).1 (entriesOf rp).2) =
          some (extend (dlthis.image.bytes.field
            (8 * addressOf data rp + fieldOffset rp (entriesOf rp).1)
            (fieldWidth rp (entriesOf rp).1)) (RFV_SIGN (entriesOf rp).2)) := by
      rw [hfield, readValue, if_pos hr]
      simp only [dload_unpack_eq _ _ h0 h32 ho, hscale, bind_eq_bind, bind_some,
        pure_def, shiftLeft_eq, shiftLeft_zero]
    refine relocate_stack hop hne hw htop (by omega) hroom hread ?_
    rcases hact with hact | hact | hact
    · rw [hact, pushed]
      simp only [hact]
      rfl
    · rw [hact, pushed]
      simp only [hact]
      rfl
    · rw [hact, pushed]
      simp only [hact]
      rfl

/-- An operator on one value. -/
theorem relocate_unary (hlow : 0 < dlthis.relstkidx)
    (hroom : dlthis.relstkidx < STATIC_EXPR_STK_SIZE) (h : (operatorOf rp.r_type).isSome)
    (hunary : roleOf (entriesOf rp).1 (entriesOf rp).2 = .unary) :
    dload_relocate src dlthis data rp =
      some (dlthis.withStack dlthis.relstkidx (update dlthis.relstk dlthis.relstkidx
          (operate (actionOf (entriesOf rp).1) 0 (dlthis.relstk dlthis.relstkidx)))) := by
  have hop := entriesOf_eq h
  obtain ⟨hstk, hr, hw, hact⟩ := (operatorOf_role hop).unary hunary
  have htop : newTop dlthis (entriesOf rp).2 = dlthis.relstkidx := by
    rw [newTop_of_stk hstk, RSTK_UOP]
    omega
  have hne : RFV_STK (entriesOf rp).2 ≠ 0 := by
    rw [hstk]
    decide
  refine relocate_stack (v := dlthis.relstk dlthis.relstkidx) hop hne hw htop hlow hroom ?_ ?_
  · rw [readValue, if_neg (not_not.2 hr)]
  · simp only [List.mem_cons, List.not_mem_nil, or_false] at hact
    rcases hact with hact | hact <;> rw [hact] <;> rfl

/-- An operator on two values. -/
theorem relocate_binary (hlow : 1 < dlthis.relstkidx)
    (hroom : dlthis.relstkidx < STATIC_EXPR_STK_SIZE) (h : (operatorOf rp.r_type).isSome)
    (hbinary : roleOf (entriesOf rp).1 (entriesOf rp).2 = .binary)
    (hdiv : Divides (actionOf (entriesOf rp).1) → dlthis.relstk dlthis.relstkidx ≠ 0)
    (hasr : actionOf (entriesOf rp).1 = .RACT_ASR → (dlthis.relstk dlthis.relstkidx).toNat < 32) :
    dload_relocate src dlthis data rp =
      some (dlthis.withStack (dlthis.relstkidx - 1) (update dlthis.relstk (dlthis.relstkidx - 1)
          (operate (actionOf (entriesOf rp).1) (dlthis.relstk (dlthis.relstkidx - 1))
            (dlthis.relstk dlthis.relstkidx)))) := by
  have hop := entriesOf_eq h
  obtain ⟨hstk, hr, hw, hact⟩ := (operatorOf_role hop).binary hbinary
  have htop : newTop dlthis (entriesOf rp).2 = dlthis.relstkidx - 1 := by
    rw [newTop_of_stk hstk, RSTK_POP]
    omega
  have hne : RFV_STK (entriesOf rp).2 ≠ 0 := by
    rw [hstk]
    decide
  refine relocate_stack (v := dlthis.relstk dlthis.relstkidx) hop hne hw htop (by omega)
    (by omega) ?_ ?_
  · rw [readValue, if_neg (not_not.2 hr)]
  · rw [← stackAction_eq hasr]
    exact relocAction_binary hact hdiv

/-- The records of an expression push its value. -/
theorem evaluates (e : Expression) (hlow : 0 ≤ dlthis.relstkidx)
    (hroom : dlthis.relstkidx + e.height < STATIC_EXPR_STK_SIZE) (hwf : e.WellFormed)
    (hreg : e.Regular src data dlthis.image.bytes) :
    ∃ relstk : Int → RVALUE, dload_relocations src data dlthis e.records =
        some (dlthis.withStack (dlthis.relstkidx + 1) relstk) ∧
      relstk (dlthis.relstkidx + 1) = e.value src data dlthis.image.bytes ∧
      ∀ k ≤ dlthis.relstkidx, relstk k = dlthis.relstk k := by
  induction e generalizing dlthis with
  | push rp =>
    obtain ⟨hknown, hpush, hacc⟩ := hwf
    refine ⟨_, ?_, update_self .., fun k hk => update_of_ne (by omega) ..⟩
    rw [Expression.records, dload_relocations, relocate_push hlow hroom hknown hpush hacc]
    rfl
  | unary rp operand ih =>
    obtain ⟨hknown, hunary, hwf⟩ := hwf
    rw [Expression.height] at hroom
    obtain ⟨relstk, hrun, htop, hrest⟩ := ih hlow hroom hwf hreg
    have hheight := operand.height_pos
    have hop := @relocate_unary src (dlthis.withStack (dlthis.relstkidx + 1) relstk) data rp
      (by rw [withStack_relstkidx]; omega) (by rw [withStack_relstkidx]; omega) hknown hunary
    rw [withStack_relstkidx, withStack_relstk, withStack_withStack, htop] at hop
    rw [Expression.records, dload_relocations_append, hrun, bind_some, dload_relocations, hop]
    refine ⟨_, rfl, update_self .., fun k hk => ?_⟩
    rw [update_of_ne (by omega), hrest k hk]
  | binary rp left right ihl ihr =>
    obtain ⟨hknown, hbinary, hwfl, hwfr⟩ := hwf
    obtain ⟨hregl, hregr, hdiv, hasr⟩ := hreg
    rw [Expression.height] at hroom
    obtain ⟨relstkl, hrunl, htopl, hrestl⟩ := ihl hlow (by omega) hwfl hregl
    obtain ⟨relstkr, hrunr, htopr, hrestr⟩ :=
      @ihr (dlthis.withStack (dlthis.relstkidx + 1) relstkl) (by rw [withStack_relstkidx]; omega)
        (by rw [withStack_relstkidx]; omega) hwfr hregr
    rw [withStack_relstkidx, withStack_withStack] at hrunr
    rw [withStack_relstkidx, withStack_image] at htopr
    rw [withStack_relstkidx, withStack_relstk] at hrestr
    have hheight := right.height_pos
    have hbelow : relstkr (dlthis.relstkidx + 1) = left.value src data dlthis.image.bytes := by
      rw [hrestr _ (by omega), htopl]
    have hback : dlthis.relstkidx + 1 + 1 - 1 = dlthis.relstkidx + 1 := by omega
    have hop := @relocate_binary src (dlthis.withStack (dlthis.relstkidx + 1 + 1) relstkr) data rp
      (by rw [withStack_relstkidx]; omega) (by rw [withStack_relstkidx]; omega) hknown hbinary
      (by rwa [withStack_relstkidx, withStack_relstk, htopr])
      (by rwa [withStack_relstkidx, withStack_relstk, htopr])
    rw [withStack_relstkidx, withStack_relstk, withStack_withStack, htopr, hback, hbelow] at hop
    rw [Expression.records, dload_relocations_append, dload_relocations_append, hrunl,
      bind_some, hrunr, bind_some, dload_relocations, hop]
    refine ⟨_, rfl, update_self .., fun k hk => ?_⟩
    rw [update_of_ne (by omega), hrestr k (by omega), hrestl k hk]

/-- A store of the value on top of the stack. -/
theorem relocate_store (hroom : dlthis.relstkidx < STATIC_EXPR_STK_SIZE)
    (h : (operatorOf rp.r_type).isSome) (hstore : roleOf (entriesOf rp).1 (entriesOf rp).2 = .store)
    (hacc : Accessible rp (entriesOf rp).1) :
    ∃ after, dload_relocate src dlthis data rp = some after ∧
      after.relstkidx = dlthis.relstkidx - 1 ∧
      after.image.bytes.field (8 * addressOf data rp + fieldOffset rp (entriesOf rp).1)
        (fieldWidth rp (entriesOf rp).1) =
          (dlthis.relstk dlthis.relstkidx).setWidth (fieldWidth rp (entriesOf rp).1) := by
  have hop := entriesOf_eq h
  obtain ⟨hstk, hr, hw, hscale, hact⟩ := (operatorOf_role hop).store hstore
  obtain ⟨h0, h32, ho⟩ := hacc
  have htop : newTop dlthis (entriesOf rp).2 = dlthis.relstkidx - 1 := by
    rw [newTop_of_stk hstk, RSTK_POP]
    omega
  have hne : RFV_STK (entriesOf rp).2 ≠ 0 := by
    rw [hstk]
    decide
  have hlt : ¬ STATIC_EXPR_STK_SIZE ≤ dlthis.relstkidx - 1 := by omega
  obtain ⟨image, hrepack, hins, -⟩ := dload_repack_eq (dlthis.relstk dlthis.relstkidx)
    dlthis.image (addressOf data rp) h0 h32 ho (RFV_SIGN (entriesOf rp).2)
  have haction : ∀ dl v top field, relocAction src dl rp
      (Dload_Actions.all.getD (RFV_ACTION (entriesOf rp).1) .RACT_VAL) v
      (src.amountOf rp (entriesOf rp).2) (src.symbolOf rp (entriesOf rp).2) top field =
        (dl, v, field) := by
    intro dl v top field
    rw [actionOf] at hact
    rw [hact]
    rfl
  rw [dload_relocate_known hop, relocate, if_neg hne, htop, if_neg hlt]
  simp only [relocValue, readValue, if_neg (not_not.2 hr), bind_eq_bind, bind_some, haction]
  rw [fieldOf_eq, writeValue, if_pos hw]
  simp only [hscale, sshiftRight_zero, hrepack, bind_eq_bind, bind_some, pure_def]
  refine ⟨_, rfl, ?_, ?_⟩
  · split <;> rfl
  · rw [← hins.field_eq h32]
    split <;> rfl

end

/-- In a run of careful records each one has a result, the stack's index stays in range, nothing is
divided by zero and what cannot be worked on is reported; and an expression's records, with a store
behind them, put the value of the expression into the field. -/
theorem expression_stack (src : RelocSource) (data : Nat) :
    (∀ dlthis records, InStack dlthis → CarefulRun src data dlthis records →
      SoundRun src data dlthis records) ∧
    ∀ (dlthis : RelocState) (e : Expression) (rp : reloc_record_t), 0 ≤ dlthis.relstkidx →
      dlthis.relstkidx + e.height < STATIC_EXPR_STK_SIZE → e.WellFormed →
      e.Regular src data dlthis.image.bytes → (operatorOf rp.r_type).isSome →
      roleOf (entriesOf rp).1 (entriesOf rp).2 = .store → Accessible rp (entriesOf rp).1 →
      ∃ after, dload_relocations src data dlthis (e.records ++ [rp]) = some after ∧
        after.relstkidx = dlthis.relstkidx ∧
        after.image.bytes.field (8 * addressOf data rp + fieldOffset rp (entriesOf rp).1)
          (fieldWidth rp (entriesOf rp).1) =
            (e.value src data dlthis.image.bytes).setWidth (fieldWidth rp (entriesOf rp).1) := by
  refine ⟨fun dlthis records hin h => careful_run records hin h, ?_⟩
  intro dlthis e rp hlow hroom hwf hreg hknown hstore hacc
  obtain ⟨relstk, hrun, htop, -⟩ := @evaluates src dlthis data e hlow hroom hwf hreg
  have hheight := e.height_pos
  obtain ⟨after, hafter, hindex, hfield⟩ :=
    @relocate_store src (dlthis.withStack (dlthis.relstkidx + 1) relstk) data rp
      (by rw [withStack_relstkidx]; omega) hknown hstore hacc
  refine ⟨after, ?_, ?_, ?_⟩
  · rw [dload_relocations_append, hrun, bind_some, dload_relocations, hafter]
    rfl
  · rw [hindex, withStack_relstkidx]
    omega
  · rw [hfield, withStack_relstkidx, withStack_relstk, htop]

def sumOfTwo : Expression :=
  .binary ⟨0, 0, 0, 16384⟩ (.push ⟨0, 2, 0, 16402⟩) (.push ⟨0, 3, 0, 16402⟩)

theorem expression_stack_sample :
    SoundRun wordSource 0 clearState [⟨0, 2, 0, 16402⟩, ⟨0, 0x1000, 0, 16406⟩] ∧
      ∃ after, dload_relocations wordSource 0 clearState
          (sumOfTwo.records ++ [⟨0, 0x1000, 0, 16406⟩]) = some after ∧
        after.relstkidx = clearState.relstkidx ∧
        after.image.bytes.field (8 * addressOf 0 ⟨0, 0x1000, 0, 16406⟩ +
          fieldOffset ⟨0, 0x1000, 0, 16406⟩ (entriesOf ⟨0, 0x1000, 0, 16406⟩).1)
          (fieldWidth ⟨0, 0x1000, 0, 16406⟩ (entriesOf ⟨0, 0x1000, 0, 16406⟩).1) =
            (sumOfTwo.value wordSource 0 clearState.image.bytes).setWidth
              (fieldWidth ⟨0, 0x1000, 0, 16406⟩ (entriesOf ⟨0, 0x1000, 0, 16406⟩).1) := by
  constructor
  · refine (expression_stack wordSource 0).1 clearState _ (by decide)
      ⟨⟨by decide, ?_⟩, fun after h => ⟨⟨by decide, ?_⟩, fun _ _ => trivial⟩⟩
    · intro reloc_action reloc_info hop
      have hentry : operatorOf 16402 = some (1536, 196) := by decide
      cases hentry.symm.trans hop
      exact .inr (by decide)
    · intro reloc_action reloc_info hop
      have hentry : operatorOf 16406 = some (0, 66) := by decide
      cases hentry.symm.trans hop
      have hindex : (dload_relocate wordSource clearState 0 ⟨0, 2, 0, 16402⟩).map
          (·.relstkidx) = some 1 := by decide
      rw [h] at hindex
      have hone : after.relstkidx = 1 := some.inj hindex
      refine .inr ⟨?_, fun hdivides => absurd hdivides (by decide), fun _ => by decide⟩
      rw [hone]
      decide
  · apply (expression_stack wordSource 0).2 clearState sumOfTwo ⟨0, 0x1000, 0, 16406⟩
    · decide
    · decide
    · exact ⟨by decide, by decide, ⟨by decide, by decide, by decide⟩, by decide, by decide,
        by decide⟩
    · exact ⟨trivial, trivial, by decide, by decide⟩
    · decide
    · decide
    · decide

/-- A store on an empty stack takes the index below zero, a division by zero is made, and an
arithmetic shift of 5 by 40 gives 31. -/
theorem expression_faults :
    (dload_relocations wordSource 0 clearState [⟨0, 0x1000, 0, 16406⟩]).map
        (·.relstkidx) = some (-1) ∧
      (dload_relocations wordSource 0 clearState
        [⟨0, 1, 0, 16402⟩, ⟨0, 0, 0, 16402⟩, ⟨0, 0, 0, 16388⟩]).map (·.zero_divisions) = some 1 ∧
      (dload_relocations wordSource 0 clearState
        [⟨0, 5, 0, 16402⟩, ⟨0, 40, 0, 16402⟩, ⟨0, 0, 0, 16391⟩]).map (·.relstk 1) = some 31 ∧
      (5 : RVALUE).sshiftRight 40 = 0 := by
  decide +kernel

end OmapHal.Dynload
