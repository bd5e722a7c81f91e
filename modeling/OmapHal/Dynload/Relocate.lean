import OmapHal.Dynload.Field

/-!
# Relocation

`dload_relocate` of `reloc.c` with the tables of `reloc_table_c6000.c`. Sums, products and shifts
wrap. Three things have no defined result: the use of a table entry that was not found, a shift
in the field access by a count outside the width, and a store outside the expression stack.
-/

namespace OmapHal.Dynload

open OmapHal.Core

/-! The tables. -/

def rop_map1 : List UInt16 :=
  [0, 1, 2, 20, 4, 5, 6, 15, 80, 81, 82, 83, 84, 85, 86, 87, 17, 18, 19, 21, 16, 16394, 16404,
   65535, 65535, 65535, 65535, 65535, 65535, 32, 65535, 65535, 65535, 65535, 65535, 65535, 40,
   112, 113, 65535, 16384, 16385, 16386, 16387, 16388, 16389, 16390, 16391, 16392, 16393, 16395,
   16396, 16397, 16398, 16399, 16400, 16401, 16402, 16403, 16405, 16406, 65535, 65535, 65535]

def rop_map2 : List Int :=
  [-256, -255, -254, -245, -253, -252, -251, -250, -241, -240, -239, -238, -237, -236, 1813, 5142,
   -248, -247, 778, -244, -249, -221, -211, -1, -1, -1, -1, -1, -1, -243, -1, -1, -1, -1, -1, -1,
   -242, -233, -232, -1, -231, -230, -229, -228, -227, -226, -225, -224, -223, 5410, -220, -219,
   -218, -217, -216, -215, -214, -213, 5676, -210, -209, -1, -1, -1]

def rop_action : List Nat :=
  [2560, 2304, 2304, 2432, 2432, 2560, 2176, 2304, 2560, 3200, 3328, 3584, 3456, 2304, 4208,
   20788, 21812, 3415, 3245, 2311, 4359, 19764, 2311, 3191, 3280, 6656, 7680, 8704, 9728, 10752,
   11776, 12800, 13824, 14848, 15872, 16896, 17920, 18944, 0, 0, 0, 0, 1536, 1536, 1536, 5632,
   512, 0]

def rop_info : List Nat :=
  [0, 35, 35, 35, 35, 35, 35, 35, 35, 39, 39, 39, 39, 35, 34, 283, 299, 4135, 4391, 291, 33059,
   283, 295, 4647, 4135, 64, 64, 128, 64, 64, 64, 64, 64, 64, 64, 64, 64, 128, 201, 197, 74, 70,
   208, 196, 200, 192, 192, 66]

/-! How an operator accesses the image, uses the symbol reference and uses the stack. -/

def ROP_R : Nat := 1

def ROP_W : Nat := 2

def ROP_RW : Nat := 3

def ROP_SYMD : Nat := 2

def RSTK_UOP : Nat := 2

def RFV_POSN (reloc_action : Nat) : Nat := reloc_action &&& 0xF

def RFV_WIDTH (reloc_action : Nat) : Nat := reloc_action >>> 4 &&& 0x3F

def RFV_ACTION (reloc_action : Nat) : Nat := reloc_action >>> 10

def RFV_SIGN (reloc_info : Nat) : Nat := reloc_info >>> 2 &&& 0x3

def RFV_SYM (reloc_info : Nat) : Nat := reloc_info >>> 4 &&& 0x3

def RFV_STK (reloc_info : Nat) : Nat := reloc_info >>> 6 &&& 0x3

def RFV_SCALE (reloc_info : Nat) : Nat := reloc_info >>> 11

inductive Dload_Actions where
  | RACT_VAL
  | RACT_ASGN
  | RACT_ADD
  | RACT_PCR
  | RACT_ADDISP
  | RACT_ASGPC
  | RACT_PLUS
  | RACT_SUB
  | RACT_NEG
  | RACT_MPY
  | RACT_DIV
  | RACT_MOD
  | RACT_SR
  | RACT_ASR
  | RACT_SL
  | RACT_AND
  | RACT_OR
  | RACT_XOR
  | RACT_NOT
  | RACT_C6SECT
  | RACT_C6BASE
  | RACT_C6DSPL
  | RACT_PCR23T
  deriving DecidableEq, Repr

/-- The actions in the order of their numbers. -/
def Dload_Actions.all : List Dload_Actions :=
  [.RACT_VAL, .RACT_ASGN, .RACT_ADD, .RACT_PCR, .RACT_ADDISP, .RACT_ASGPC, .RACT_PLUS, .RACT_SUB,
   .RACT_NEG, .RACT_MPY, .RACT_DIV, .RACT_MOD, .RACT_SR, .RACT_ASR, .RACT_SL, .RACT_AND, .RACT_OR,
   .RACT_XOR, .RACT_NOT, .RACT_C6SECT, .RACT_C6BASE, .RACT_C6DSPL, .RACT_PCR23T]

/-! Operators that are ignored. -/

def R_C60ALIGN : UInt16 := 0x76

def R_C60FPHEAD : UInt16 := 0x77

def R_C60NOCMP : UInt16 := 0x100

def HASH_FUNC (zz : UInt16) : Nat := ((zz.toNat + 1) * 1845 % 2 ^ 32) >>> 11 &&& 63

def HASH_L (zz : Int) : Int := zz >>> 8

def HASH_I (zz : Int) : Nat := (zz % 256).toNat

/-- The chained lookup from table slot `rx` on; a chain has no more links than the table has
slots. -/
def ropFind (r_type : UInt16) : Nat → Nat → Option Nat
  | 0, _ => none
  | links + 1, rx =>
    if rop_map1.getD rx 0 = r_type then some (HASH_I (rop_map2.getD rx 0))
    else if HASH_L (rop_map2.getD rx 0) < 0 then none
    else ropFind r_type links (HASH_L (rop_map2.getD rx 0)).toNat

/-- The index of an operator in the other two tables. -/
def ropIndex (r_type : UInt16) : Option Nat := ropFind r_type 64 (HASH_FUNC r_type)

/-- A record of the file. One word is the literal `r_uval`, the symbol index `r_symndx`, or the
bytes of the field's place. -/
structure reloc_record_t where
  r_vaddr : RVALUE
  r_uval : RVALUE
  r_disp : UInt16
  r_type : UInt16
  deriving DecidableEq, Repr

namespace reloc_record_t

def r_symndx (rp : reloc_record_t) : Int := rp.r_uval.toInt

def r_offset (rp : reloc_record_t) : Nat := (rp.r_uval.extractLsb' 0 8).toNat

def r_fieldsz (rp : reloc_record_t) : Nat := (rp.r_uval.extractLsb' 8 8).toNat

end reloc_record_t

structure Local_Symbol where
  value : RVALUE
  delta : RVALUE
  secnn : Int
  deriving DecidableEq, Repr

def STATIC_EXPR_STK_SIZE : Int := 10

/-- What the relocation reads of the loader's state. The tables give the entry at each index,
whatever stands behind their last one. -/
structure RelocSource where
  df_no_syms : UInt16
  local_symtab : Nat → Local_Symbol
  /-- The run addresses of `ldr_sections`. -/
  ldr_sections : Nat → RVALUE
  delta_runaddr : RVALUE
  /-- `image_secn->run_addr`. -/
  run_addr : RVALUE
  image_offset : RVALUE
  /-- What `Find_Matching_Symbol` knows of the symbol `.bss`. -/
  bss : Option RVALUE

/-- The errors, with the data of their messages. -/
inductive RelocError where
  | badOperator (r_type : UInt16)
  | stackOverflow (offset : RVALUE)
  | bssNotDefined (offset : RVALUE)
  | unaligned (offset : RVALUE)
  | overflow (val : RVALUE) (fieldsz : Int) (offset : RVALUE)
  deriving DecidableEq, Repr

/-- What the relocation changes. -/
structure RelocState where
  image : HostImage
  bss_run_base : RVALUE
  relstkidx : Int
  relstk : Int → RVALUE
  errors : List RelocError
  /-- How often a division by zero has been made. -/
  zero_divisions : Nat

def RelocState.error (dlthis : RelocState) (e : RelocError) : RelocState :=
  { dlthis with errors := dlthis.errors ++ [e] }

/-- The place that the messages name. -/
def RelocSource.offsetOf (src : RelocSource) (rp : reloc_record_t) : RVALUE :=
  rp.r_vaddr + src.image_offset

/-- `svp`. -/
def RelocSource.symbolOf (src : RelocSource) (rp : reloc_record_t) (reloc_info : Nat) :
    Option Local_Symbol :=
  if RFV_SYM reloc_info ≠ 0 ∧ rp.r_uval.toNat < src.df_no_syms.toNat then
    some (src.local_symtab rp.r_uval.toNat)
  else none

/-- `reloc_amt`. -/
def RelocSource.amountOf (src : RelocSource) (rp : reloc_record_t) (reloc_info : Nat) : RVALUE :=
  match src.symbolOf rp reloc_info with
  | some svp => if RFV_SYM reloc_info = ROP_SYMD then svp.delta else svp.value
  | none =>
    if RFV_SYM reloc_info ≠ 0 ∧ rp.r_symndx = -1 then
      if RFV_SYM reloc_info = ROP_SYMD then src.delta_runaddr else src.run_addr
    else rp.r_uval

/-- The place and the scale of the field. -/
structure RelocField where
  fieldsz : Int
  offset : Int
  scale : Nat
  deriving DecidableEq, Repr

/-- From the table, or from the record where the table gives no width. -/
def fieldOf (rp : reloc_record_t) (reloc_action reloc_info : Nat) : RelocField :=
  if RFV_WIDTH reloc_action ≠ 0 then
    ⟨RFV_WIDTH reloc_action, RFV_POSN reloc_action, RFV_SCALE reloc_info⟩
  else ⟨rp.r_fieldsz, rp.r_offset, RFV_SCALE reloc_info⟩

/-- The host address of the field. Host pointers have 32 bits. -/
def addressOf (data : Nat) (rp : reloc_record_t) : Nat :=
  (((data : Int) + rp.r_vaddr.toInt) % 2 ^ 32).toNat

def SCALE_BITS : Int := 4

def C60_Scale : List Nat := [1, 0, 0, 0, 1, 1, 2, 2]

/-- `case RACT_C6SECT`: the address of the section that the symbol lies in. -/
def c6sect (src : RelocSource) (rp : reloc_record_t) (svp : Option Local_Symbol)
    (reloc_amt : RVALUE) : RVALUE :=
  match svp with
  | some svp =>
    if 0 ≤ rp.r_symndx ∧ 0 < svp.secnn then src.ldr_sections (svp.secnn - 1).toNat else reloc_amt
  | none => reloc_amt

/-- `case RACT_C6BASE`: the loader looks for the global base once. -/
def c6base (src : RelocSource) (dlthis : RelocState) (rp : reloc_record_t) : RelocState :=
  if dlthis.bss_run_base = 0 then
    match src.bss with
    | some value => { dlthis with bss_run_base := value }
    | none => dlthis.error (.bssNotDefined (src.offsetOf rp))
  else dlthis

/-- `case RACT_C6DSPL`: the scale stands in the low bits of the field. -/
def c6dspl (src : RelocSource) (dlthis : RelocState) (rp : reloc_record_t)
    (val reloc_amt : RVALUE) (field : RelocField) : RelocState × RVALUE × RelocField :=
  let scale := C60_Scale.getD (val &&& 7).toNat 0
  let val := (val.sshiftRight 4) <<< scale + reloc_amt
  (if ((1#32 <<< scale) - 1) &&& val ≠ 0 then dlthis.error (.unaligned (src.offsetOf rp))
    else dlthis,
    val, ⟨field.fieldsz - SCALE_BITS, field.offset + SCALE_BITS, scale⟩)

/-- The actions on the value and on the one below it on the stack. -/
def stackAction (act : Dload_Actions) (val top : RVALUE) : RVALUE :=
  match act with
  | .RACT_PLUS => val + top
  | .RACT_SUB => top - val
  | .RACT_NEG => -val
  | .RACT_MPY => val * top
  | .RACT_DIV => top.sdiv val
  | .RACT_MOD => top.srem val
  | .RACT_SR => if 32 ≤ val.toNat then 0 else top >>> val.toNat
  | .RACT_ASR => if 32 ≤ val.toNat then 31 else top.sshiftRight val.toNat
  | .RACT_SL => if 32 ≤ val.toNat then 0 else top <<< val.toNat
  | .RACT_AND => val &&& top
  | .RACT_OR => val ||| top
  | .RACT_XOR => val ^^^ top
  | .RACT_NOT => ~~~val
  | _ => val

/-- `switch (RFV_ACTION(reloc_action))`. The actions on the stack stand only in entries of the
table that use it. -/
def relocAction (src : RelocSource) (dlthis : RelocState) (rp : reloc_record_t)
    (act : Dload_Actions) (val reloc_amt : RVALUE) (svp : Option Local_Symbol) (top : Int)
    (field : RelocField) : RelocState × RVALUE × RelocField :=
  match act with
  | .RACT_ASGN => (dlthis, reloc_amt, field)
  | .RACT_ADD => (dlthis, val + reloc_amt, field)
  | .RACT_PCR =>
    (dlthis, val + ((if rp.r_symndx = -1 then 0 else reloc_amt) - src.delta_runaddr), field)
  | .RACT_ADDISP => (dlthis, val + (BitVec.ofNat 32 rp.r_disp.toNat + reloc_amt), field)
  | .RACT_ASGPC => (dlthis, src.run_addr + reloc_amt, field)
  | .RACT_DIV | .RACT_MOD =>
    ({ dlthis with
        zero_divisions := if val = 0 then dlthis.zero_divisions + 1 else dlthis.zero_divisions },
      stackAction act val (dlthis.relstk top), field)
  | .RACT_C6SECT =>
    let dlthis := c6base src dlthis rp
    c6dspl src dlthis rp val (c6sect src rp svp reloc_amt - dlthis.bss_run_base) field
  | .RACT_C6BASE =>
    let dlthis := c6base src dlthis rp
    c6dspl src dlthis rp val (reloc_amt - dlthis.bss_run_base) field
  | .RACT_C6DSPL => c6dspl src dlthis rp val reloc_amt field
  | _ => (dlthis, stackAction act val (dlthis.relstk top), field)

/-- The value that goes into the actions: the one on the stack, or the field's. -/
def readValue (dlthis : RelocState) (dp : Nat) (reloc_info : Nat) (val : RVALUE)
    (field : RelocField) : Option RVALUE :=
  if reloc_info &&& ROP_R ≠ 0 then do
    let val ← dload_unpack dlthis.image.bytes dp field.fieldsz field.offset (RFV_SIGN reloc_info)
    return BitVec.shiftLeft val field.scale
  else some val

/-- `Put back result as required`. -/
def writeValue (src : RelocSource) (dlthis : RelocState) (rp : reloc_record_t) (dp : Nat)
    (reloc_info : Nat) (val : RVALUE) (top : Int) (field : RelocField) : Option RelocState :=
  if reloc_info &&& ROP_W ≠ 0 then do
    let val := val.sshiftRight field.scale
    let (image, result) ←
      dload_repack val dlthis.image dp field.fieldsz field.offset (RFV_SIGN reloc_info)
    let dlthis := { dlthis with image := image }
    return if result = 0 then dlthis
      else dlthis.error (.overflow val field.fieldsz (src.offsetOf rp))
  else if top = 0 then some dlthis
  else if 0 < top then some { dlthis with relstk := Function.update dlthis.relstk top val }
  else none

/-- The relocation once the stack index is adjusted: `val` is the value on the stack, and `top`
the new index, or zero for an operator that does not use the stack. -/
def relocValue (src : RelocSource) (dlthis : RelocState) (data : Nat) (rp : reloc_record_t)
    (reloc_action reloc_info : Nat) (val : RVALUE) (top : Int) : Option RelocState := do
  let field := fieldOf rp reloc_action reloc_info
  let dp := addressOf data rp
  let val ← readValue dlthis dp reloc_info val field
  let (dlthis, val, field) := relocAction src dlthis rp
    (Dload_Actions.all.getD (RFV_ACTION reloc_action) .RACT_VAL) val
    (src.amountOf rp reloc_info) (src.symbolOf rp reloc_info) top field
  writeValue src dlthis rp dp reloc_info val top field

/-- `top` for an operator that uses the stack. -/
def newTop (dlthis : RelocState) (reloc_info : Nat) : Int :=
  RFV_STK reloc_info + dlthis.relstkidx - RSTK_UOP

/-- `dload_relocate` for an operator of the tables. -/
def relocate (src : RelocSource) (dlthis : RelocState) (data : Nat) (rp : reloc_record_t)
    (reloc_action reloc_info : Nat) : Option RelocState :=
  if RFV_STK reloc_info = 0 then relocValue src dlthis data rp reloc_action reloc_info 0 0
  else if STATIC_EXPR_STK_SIZE ≤ newTop dlthis reloc_info then
    some (dlthis.error (.stackOverflow (src.offsetOf rp)))
  else
    relocValue src { dlthis with relstkidx := newTop dlthis reloc_info } data rp reloc_action
      reloc_info (dlthis.relstk dlthis.relstkidx) (newTop dlthis reloc_info)

def dload_relocate (src : RelocSource) (dlthis : RelocState) (data : Nat) (rp : reloc_record_t) :
    Option RelocState :=
  match ropIndex rp.r_type with
  | none =>
    some (if rp.r_type = R_C60ALIGN ∨ rp.r_type = R_C60NOCMP ∨ rp.r_type = R_C60FPHEAD then dlthis
      else dlthis.error (.badOperator rp.r_type))
  | some rx =>
    if rx < rop_action.length ∧ rx < rop_info.length then
      relocate src dlthis data rp (rop_action.getD rx 0) (rop_info.getD rx 0)
    else none

end OmapHal.Dynload
