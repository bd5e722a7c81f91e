import OmapHal.Dynload.Relocate

/-!
# The operators of the relocation tables

What the lookup finds, what the two tables agree on, and what the actions do to the loader's state.
-/

namespace OmapHal.Dynload

open OmapHal.Core

variable {r_type : UInt16} {reloc_action reloc_info data : Nat} {src : RelocSource}
  {dlthis : RelocState} {rp : reloc_record_t}

/-- The entries of a known operator. -/
def operatorOf (r_type : UInt16) : Option (Nat × Nat) :=
  match ropIndex r_type with
  | none => none
  | some rx =>
    if rx < rop_action.length ∧ rx < rop_info.length then
      some (rop_action.getD rx 0, rop_info.getD rx 0)
    else none

/-- The action of an entry. -/
def actionOf (reloc_action : Nat) : Dload_Actions :=
  Dload_Actions.all.getD (RFV_ACTION reloc_action) .RACT_VAL

/-- The actions that find the scale in the field. -/
def Scaled (act : Dload_Actions) : Prop :=
  act = .RACT_C6SECT ∨ act = .RACT_C6BASE ∨ act = .RACT_C6DSPL

instance (act : Dload_Actions) : Decidable (Scaled act) := inferInstanceAs (Decidable (_ ∨ _))

/-- What the two tables agree on, entry by entry. -/
structure EntryFits (reloc_action reloc_info : Nat) : Prop where
  scaled_field : Scaled (actionOf reloc_action) →
    RFV_WIDTH reloc_action = 19 ∧ RFV_POSN reloc_action = 4 ∧ RFV_STK reloc_info = 0 ∧
      reloc_info &&& ROP_W ≠ 0
  read_access : reloc_info &&& ROP_R ≠ 0 → reloc_info &&& ROP_RW ≠ 0
  write_access : reloc_info &&& ROP_W ≠ 0 → reloc_info &&& ROP_RW ≠ 0
  access : reloc_info &&& ROP_RW ≠ 0 → reloc_info &&& ROP_R ≠ 0 ∨ reloc_info &&& ROP_W ≠ 0

theorem operatorOf_eq_some (h : operatorOf r_type = some (reloc_action, reloc_info)) :
    ∃ rx < 48, rop_action.getD rx 0 = reloc_action ∧ rop_info.getD rx 0 = reloc_info := by
  unfold operatorOf at h
  split at h
  · cases h
  · next rx _ =>
    split at h
    · next hrx =>
      cases h
      exact ⟨rx, hrx.1, rfl, rfl⟩
    · cases h

theorem operatorOf_fits (h : operatorOf r_type = some (reloc_action, reloc_info)) :
    EntryFits reloc_action reloc_info := by
  obtain ⟨rx, hrx, rfl, rfl⟩ := operatorOf_eq_some h
  clear h
  constructor
  · revert rx
    decide
  · revert rx
    decide
  · revert rx
    decide
  · revert rx
    decide

theorem dload_relocate_unknown (h : operatorOf rp.r_type = none) :
    dload_relocate src dlthis data rp =
      if (ropIndex rp.r_type).isSome then none
      else if rp.r_type = R_C60ALIGN ∨ rp.r_type = R_C60NOCMP ∨ rp.r_type = R_C60FPHEAD then
        some dlthis
      else some (dlthis.error (.badOperator rp.r_type)) := by
  unfold operatorOf at h
  unfold dload_relocate
  cases hrx : ropIndex rp.r_type with
  | none =>
    simp only [Option.isSome_none, Bool.false_eq_true, if_false]
    split <;> rfl
  | some rx =>
    rw [hrx] at h
    dsimp only at h ⊢
    split at h
    · cases h
    · next hout => rw [if_neg hout, Option.isSome_some, if_pos rfl]

theorem dload_relocate_known (h : operatorOf rp.r_type = some (reloc_action, reloc_info)) :
    dload_relocate src dlthis data rp = relocate src dlthis data rp reloc_action reloc_info := by
  unfold operatorOf at h
  unfold dload_relocate
  cases hrx : ropIndex rp.r_type with
  | none => simp [hrx] at h
  | some rx =>
    rw [hrx] at h
    dsimp only at h ⊢
    split at h
    · next hin =>
      cases h
      rw [if_pos hin]
    · cases h

/-- A type that the lookup finds stands in the table. -/
theorem ropFind_mem (links : Nat) {rx i : Nat}
    (h : ropFind r_type links rx = some i) : r_type ∈ rop_map1 := by
  induction links generalizing rx with
  | zero => cases h
  | succ links ih =>
    rw [ropFind] at h
    split at h
    · next hfound =>
      rw [← hfound, List.getD_eq_getElem?_getD]
      cases hslot : rop_map1[rx]? with
      | none => decide
      | some t => exact List.mem_of_getElem? hslot
    · split at h
      · cases h
      · exact ih h

/-- The lookup finds the entries of the types in the table; the table's free slots hold a type
whose entries do not exist. -/
theorem operatorOf_isSome :
    (operatorOf r_type).isSome ↔ r_type ∈ rop_map1 ∧ r_type ≠ 65535 := by
  have hlisted : rop_map1.all (fun t => t == 65535 || (operatorOf t).isSome) := by decide
  refine ⟨fun h => ⟨?_, ?_⟩, fun ⟨hmem, hne⟩ => ?_⟩
  · cases hrx : ropIndex r_type with
    | none => simp [operatorOf, hrx] at h
    | some rx => exact ropFind_mem 64 hrx
  · rintro rfl
    exact absurd h (by decide)
  · have ht := List.all_eq_true.mp hlisted r_type hmem
    rw [Bool.or_eq_true, beq_iff_eq] at ht
    exact ht.resolve_left hne

theorem ropIndex_of_unknown (h : operatorOf r_type = none) :
    (ropIndex r_type).isSome ↔ r_type = 65535 := by
  constructor
  · intro hs
    by_contra hne
    obtain ⟨rx, hrx⟩ := Option.isSome_iff_exists.1 hs
    have hknown := operatorOf_isSome.2 ⟨ropFind_mem 64 hrx, hne⟩
    rw [h] at hknown
    cases hknown
  · rintro rfl
    decide

def fieldWidth (rp : reloc_record_t) (reloc_action : Nat) : Nat :=
  if RFV_WIDTH reloc_action ≠ 0 then RFV_WIDTH reloc_action else rp.r_fieldsz

def fieldOffset (rp : reloc_record_t) (reloc_action : Nat) : Nat :=
  if RFV_WIDTH reloc_action ≠ 0 then RFV_POSN reloc_action else rp.r_offset

theorem fieldOf_eq (rp : reloc_record_t) (reloc_action reloc_info : Nat) :
    fieldOf rp reloc_action reloc_info =
      ⟨fieldWidth rp reloc_action, fieldOffset rp reloc_action, RFV_SCALE reloc_info⟩ := by
  unfold fieldOf fieldWidth fieldOffset
  split <;> rfl

/-- A field that the access functions can handle. -/
def Accessible (rp : reloc_record_t) (reloc_action : Nat) : Prop :=
  0 < fieldWidth rp reloc_action ∧ fieldWidth rp reloc_action ≤ 32 ∧
    fieldOffset rp reloc_action ≤ 8

instance (rp : reloc_record_t) (reloc_action : Nat) : Decidable (Accessible rp reloc_action) :=
  inferInstanceAs (Decidable (_ ∧ _))

section

variable {src : RelocSource} {dlthis : RelocState} {dp : Nat} {rp : reloc_record_t}
  {reloc_action reloc_info : Nat} {act : Dload_Actions} {val reloc_amt : RVALUE}
  {svp : Option Local_Symbol} {top : Int} {field : RelocField}

@[simp] theorem error_image (dlthis : RelocState) (e : RelocError) :
    (dlthis.error e).image = dlthis.image := rfl

@[simp] theorem c6base_image (src : RelocSource) (dlthis : RelocState) (rp : reloc_record_t) :
    (c6base src dlthis rp).image = dlthis.image := by
  unfold c6base
  split
  · split <;> rfl
  · rfl

theorem c6dspl_spec (src : RelocSource) (dlthis : RelocState) (rp : reloc_record_t)
    (val reloc_amt : RVALUE) (field : RelocField) :
    (c6dspl src dlthis rp val reloc_amt field).1.image = dlthis.image ∧
      (c6dspl src dlthis rp val reloc_amt field).2.2.fieldsz = field.fieldsz - 4 ∧
      (c6dspl src dlthis rp val reloc_amt field).2.2.offset = field.offset + 4 := by
  refine ⟨?_, rfl, rfl⟩
  unfold c6dspl
  dsimp only
  split <;> rfl

/-- The actions that find the scale in the field move the field. -/
theorem relocAction_scaled (h : Scaled act) :
    (relocAction src dlthis rp act val reloc_amt svp top field).1.image = dlthis.image ∧
      (relocAction src dlthis rp act val reloc_amt svp top field).2.2.fieldsz =
        field.fieldsz - 4 ∧
      (relocAction src dlthis rp act val reloc_amt svp top field).2.2.offset =
        field.offset + 4 := by
  rcases h with rfl | rfl | rfl
  · have hspec := c6dspl_spec src (c6base src dlthis rp) rp val
      (c6sect src rp svp reloc_amt - (c6base src dlthis rp).bss_run_base) field
    rw [c6base_image] at hspec
    exact hspec
  · have hspec := c6dspl_spec src (c6base src dlthis rp) rp val
      (reloc_amt - (c6base src dlthis rp).bss_run_base) field
    rw [c6base_image] at hspec
    exact hspec
  · exact c6dspl_spec src dlthis rp val reloc_amt field

/-- The other actions compute a value. -/
theorem relocAction_plain (h : ¬ Scaled act) :
    ∃ z v, relocAction src dlthis rp act val reloc_amt svp top field =
      ({ dlthis with zero_divisions := z }, v, field) := by
  cases act with
  | RACT_C6SECT => exact absurd (.inl rfl) h
  | RACT_C6BASE => exact absurd (.inr (.inl rfl)) h
  | RACT_C6DSPL => exact absurd (.inr (.inr rfl)) h
  | _ => exact ⟨_, _, rfl⟩

theorem readValue_accessible (hacc : Accessible rp reloc_action) :
    ∃ v, readValue dlthis dp reloc_info val (fieldOf rp reloc_action reloc_info) = some v := by
  rw [fieldOf_eq, readValue]
  split
  · rw [dload_unpack_eq dlthis.image.bytes dp hacc.1 hacc.2.1 hacc.2.2]
    exact ⟨_, rfl⟩
  · exact ⟨val, rfl⟩

end

end OmapHal.Dynload
