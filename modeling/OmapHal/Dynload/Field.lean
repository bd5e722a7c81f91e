import OmapHal.Core.Fields

/-!
# Relocation fields

`dload_unpack` and `dload_repack` of `reloc.c` for a little-endian target with eight-bit
addressable units. A shift by a count outside the width of its operand has no defined result,
and neither has a call that makes one.
-/

namespace OmapHal.Dynload

open OmapHal.Core Nat BitVec Bool Option

variable {objval mask val : RVALUE} {data data' : Memory}

abbrev RVALUE := BitVec 32

def TGTAU_BITS : Int := 8

/-! The overflow rules. -/

def ROP_ANY : Nat := 0

def ROP_SGN : Nat := 1

def ROP_UNS : Nat := 2

def ROP_MAX : Nat := 3

/-- The count of a shift. -/
def shiftCount (n : Int) : Option Nat := if 0 ≤ n ∧ n < 32 then some n.toNat else none

/-- `(2 << fieldsz) - 1`. -/
def fieldMask (fieldsz : Int) : Option RVALUE := do
  let n ← shiftCount fieldsz
  return (2#32 <<< n) - 1

def targetUnit (data : Memory) (dp : Nat) : RVALUE := (data dp).toBitVec.setWidth 32

/-- `while (shift <= fieldsz)`: a round fails once `shift` reaches the width, so five rounds
are as good as any number. -/
def unpackLoop (data : Memory) (fieldsz : Int) : Nat → Nat → RVALUE → Int → Option RVALUE
  | 0, _, objval, _ => some objval
  | rounds + 1, dp, objval, shift =>
    if shift ≤ fieldsz then do
      let n ← shiftCount shift
      unpackLoop data fieldsz rounds (dp + 1) (objval + targetUnit data (dp + 1) <<< n)
        (shift + TGTAU_BITS)
    else some objval

def dload_unpack (data : Memory) (dp : Nat) (fieldsz offset : Int) (sgn : Nat) :
    Option RVALUE := do
  let fieldsz := fieldsz - 1
  let first ← shiftCount offset
  let objval ← unpackLoop data fieldsz 5 dp (targetUnit data dp >>> first) (TGTAU_BITS - offset)
  if sgn = ROP_UNS then
    let mask ← fieldMask fieldsz
    return objval &&& mask
  else
    let shift ← shiftCount (31 - fieldsz)
    return (objval <<< shift).sshiftRight shift

/-- The host memory that an image packet lies in. -/
structure HostImage where
  bytes : Memory
  /-- The addresses stored to; the code keeps no such record. -/
  stored : List Nat

/-- A target unit is stored. -/
def storeUnit (data : HostImage) (dp : Nat) (x : RVALUE) : HostImage where
  bytes := Function.update data.bytes dp (UInt8.ofBitVec (x.setWidth 8))
  stored := data.stored ++ [dp]

/-- `while (mask)`: four rounds leave no bit of the mask. -/
def repackLoop : Nat → HostImage → Nat → RVALUE → RVALUE → HostImage
  | 0, data, _, _, _ => data
  | rounds + 1, data, dp, objval, mask =>
    if mask = 0 then data
    else
      repackLoop rounds
        (storeUnit data (dp + 1) ((targetUnit data.bytes (dp + 1) &&& ~~~mask) + objval))
        (dp + 1) (objval >>> 8) (mask >>> 8)

def ovf_limit : List Nat := [1, 2, 2]

/-- The check for overflow, with the width less one. -/
def overflows (val : RVALUE) (fieldsz sgn : Nat) : Bool :=
  if sgn = ROP_ANY then false
  else ovf_limit.getD (sgn - 1) 0 < (val.sshiftRight fieldsz + BitVec.ofNat 32 (sgn &&& 1)).toNat

/-- The image afterwards, and the result, which is 1 for a value that does not fit. -/
def dload_repack (val : RVALUE) (data : HostImage) (dp : Nat) (fieldsz offset : Int) (sgn : Nat) :
    Option (HostImage × Nat) := do
  let fieldsz := fieldsz - 1
  let mask ← fieldMask fieldsz
  let objval := val &&& mask
  let first ← shiftCount offset
  let data := storeUnit data dp
    ((targetUnit data.bytes dp &&& ~~~(mask <<< first)) + objval <<< first)
  let shift ← shiftCount (TGTAU_BITS - offset)
  let data := repackLoop 4 data dp (objval >>> shift) (mask >>> shift)
  let width ← shiftCount fieldsz
  return (data, if overflows val width sgn then 1 else 0)

theorem shiftCount_of {n : Nat} (h : n < 32) : shiftCount n = some n := by
  rw [shiftCount, if_pos (by omega)]
  rfl

theorem shiftCount_eq_none {n : Int} (h : n < 0 ∨ 32 ≤ n) : shiftCount n = none := by
  rw [shiftCount, if_neg (by omega)]

theorem fieldMask_eq_none {n : Int} (h : n < 0 ∨ 32 ≤ n) : fieldMask n = none := by
  rw [fieldMask, shiftCount_eq_none h]
  rfl

/-- The mask of a field of `w` bits. -/
theorem fieldMask_eq {w : Nat} (h0 : 0 < w) (h : w ≤ 32) :
    fieldMask (w - 1 : Nat) = some ((BitVec.allOnes w).setWidth 32) := by
  have hmask : ∀ n < 32, (2#32 <<< n) - 1 = (allOnes (n + 1)).setWidth 32 := by decide
  rw [fieldMask, shiftCount_of (by omega)]
  obtain ⟨n, rfl⟩ : ∃ n, w = n + 1 := ⟨w - 1, by omega⟩
  exact congrArg some (hmask n (by omega))

theorem getLsbD_targetUnit (data : Memory) (dp i : Nat) :
    (targetUnit data dp).getLsbD i = (decide (i < 8) && data.bit (8 * dp + i)) := by
  by_cases hi : i < 8
  · have h32 : i < 32 := by omega
    rw [data.bit_byte dp hi]
    simp [targetUnit, hi, h32]
  · have hge : 8 ≤ i := not_lt.1 hi
    simp [targetUnit, hi, getLsbD_of_ge _ _ hge]

/-- What the loop has collected: the bits from bit `start` on, `shift` of them. -/
def Collected (data : Memory) (start shift : Nat) (objval : RVALUE) : Prop :=
  ∀ i < 32, objval.getLsbD i = (decide (i < shift) && data.bit (start + i))

theorem Collected.add {start shift dp : Nat}
    (h : Collected data start shift objval) (hdp : start + shift = 8 * dp) :
    Collected data start (shift + 8) (objval + targetUnit data dp <<< shift) := by
  intro i hi
  have hdisjoint : ∀ j, objval.getLsbD j →
      (targetUnit data dp <<< shift).getLsbD j = false := by
    intro j hj
    have hlt : j < 32 := lt_of_getLsbD hj
    rw [h j hlt, and_eq_true, decide_eq_true_iff] at hj
    rw [getLsbD_shiftLeft]
    simp [hj.1]
  rw [getLsbD_add_of_disjoint hdisjoint, h i hi, getLsbD_shiftLeft, getLsbD_targetUnit]
  by_cases hs : i < shift
  · have hs8 : i < shift + 8 := by omega
    simp [hs, hs8]
  · by_cases h8 : i < shift + 8
    · have hat : 8 * dp + (i - shift) = start + i := by omega
      have hoff : i - shift < 8 := by omega
      simp [hs, hi, h8, hat, hoff]
    · have hoff : ¬ i - shift < 8 := by omega
      simp [hs, h8, hoff]

theorem unpackLoop_spec {start fieldsz : Nat} (hf : fieldsz < 32)
    (rounds dp shift : Nat) (hrounds : fieldsz < shift + 8 * rounds)
    (hdp : start + shift = 8 * (dp + 1)) (h : Collected data start shift objval) :
    ∃ r shift', unpackLoop data fieldsz rounds dp objval shift = some r ∧ fieldsz < shift' ∧
      Collected data start shift' r := by
  induction rounds generalizing dp shift objval with
  | zero => exact ⟨objval, shift, rfl, by omega, h⟩
  | succ rounds ih =>
    by_cases hs : (shift : Int) ≤ fieldsz
    · have hadd := h.add hdp
      obtain ⟨r, shift', hr, hlt, hcol⟩ :=
        ih (dp + 1) (shift + 8) (by omega) (by omega) hadd
      refine ⟨r, shift', ?_, hlt, hcol⟩
      rw [unpackLoop, if_pos hs, shiftCount_of (by omega)]
      exact hr
    · refine ⟨objval, shift, ?_, by omega, h⟩
      rw [unpackLoop, if_neg hs]

/-- What `dload_unpack` makes of the bits of a field. -/
def extend {w : Nat} (field : BitVec w) (sgn : Nat) : RVALUE :=
  if sgn = ROP_UNS then field.setWidth 32 else field.signExtend 32

theorem dload_unpack_eq (data : Memory) (dp : Nat) {w offset : Nat} (h0 : 0 < w) (hw : w ≤ 32)
    (ho : offset ≤ 8) (sgn : Nat) :
    dload_unpack data dp w offset sgn = some (extend (data.field (8 * dp + offset) w) sgn) := by
  have hfirst : Collected data (8 * dp + offset) (8 - offset) (targetUnit data dp >>> offset) := by
    intro i hi
    rw [getLsbD_ushiftRight, getLsbD_targetUnit]
    have hiff : offset + i < 8 ↔ i < 8 - offset := by omega
    simp only [hiff, add_assoc]
  obtain ⟨r, shift, hr, hlt, hcol⟩ := unpackLoop_spec (show w - 1 < 32 by omega) 5 dp (8 - offset)
    (by omega) (by omega) hfirst
  have hfs : (w : Int) - 1 = (w - 1 : Nat) := by omega
  have hsh : TGTAU_BITS - (offset : Int) = (8 - offset : Nat) := by
    rw [TGTAU_BITS]
    omega
  have hbit : ∀ i < w, r.getLsbD i = (data.field (8 * dp + offset) w).getLsbD i := by
    intro i hi
    have hi' : i < shift := by omega
    rw [hcol i (by omega), Memory.getLsbD_field]
    simp [hi, hi']
  simp only [dload_unpack, hfs, hsh, shiftCount_of (show offset < 32 by omega), hr,
    bind_eq_bind, bind_some, pure_def]
  split
  case isTrue hu =>
    rw [fieldMask_eq h0 hw, extend, if_pos hu]
    refine congrArg some (eq_of_getLsbD_eq fun i hi => ?_)
    rw [getLsbD_and, getLsbD_setWidth, getLsbD_setWidth]
    by_cases hiw : i < w
    · rw [hbit i hiw]
      simp [hi, hiw]
    · have hge : w ≤ i := not_lt.1 hiw
      simp [hi, getLsbD_of_ge _ _ hge]
  case isFalse hu =>
    have hs : (31 : Int) - (w - 1 : Nat) = (32 - w : Nat) := by omega
    rw [hs, shiftCount_of (by omega), extend, if_neg hu]
    refine congrArg some (eq_of_getLsbD_eq fun i hi => ?_)
    have hmsb : (r <<< (32 - w)).msb = (data.field (8 * dp + offset) w).msb := by
      have hlast : 32 - 1 - (32 - w) = w - 1 := by omega
      have hnot : ¬ 32 - 1 < 32 - w := by omega
      rw [msb_eq_getLsbD_last, msb_eq_getLsbD_last, getLsbD_shiftLeft, hlast,
        hbit (w - 1) (by omega)]
      simp [hnot]
    rw [getLsbD_sshiftRight, hmsb, getLsbD_signExtend]
    by_cases hiw : i < w
    · have hin : 32 - w + i < 32 := by omega
      have hback : 32 - w + i - (32 - w) = i := by omega
      have hnot : ¬ 32 - w + i < 32 - w := by omega
      rw [if_pos hin, if_pos hiw, getLsbD_shiftLeft, hback, hbit i hiw]
      simp [hi, hin]
    · have hout : ¬ 32 - w + i < 32 := by omega
      rw [if_neg hout, if_neg hiw]
      simp [hi]

theorem bit_storeUnit (data : HostImage) (dp : Nat) (x : RVALUE) (k : Nat) :
    (storeUnit data dp x).bytes.bit k =
      if 8 * dp ≤ k ∧ k < 8 * dp + 8 then x.getLsbD (k - 8 * dp) else data.bytes.bit k := by
  rw [storeUnit, Memory.bit_update]
  split
  case isTrue hk =>
    have h8 : k - 8 * dp < 8 := by omega
    simp [h8]
  case isFalse => rfl

/-- A value put through a mask. -/
theorem getLsbD_masked {old : RVALUE}
    (h : ∀ i, objval.getLsbD i → mask.getLsbD i) {i : Nat} (hi : i < 32) :
    ((old &&& ~~~mask) + objval).getLsbD i =
      if mask.getLsbD i then objval.getLsbD i else old.getLsbD i := by
  have hdisjoint : ∀ j, (old &&& ~~~mask).getLsbD j → objval.getLsbD j = false := by
    intro j hj
    by_contra hne
    have hobj := not_eq_false _ ▸ hne
    rw [getLsbD_and, getLsbD_not, h j hobj] at hj
    simp at hj
  rw [getLsbD_add_of_disjoint hdisjoint, getLsbD_and, getLsbD_not]
  cases hm : mask.getLsbD i with
  | true => simp
  | false =>
    have hobj : objval.getLsbD i = false := by
      by_contra hne
      rw [h i (not_eq_false _ ▸ hne)] at hm
      cases hm
    rw [hobj, Bool.or_false]
    simp [hi]

/-- The bits of `val` stand from bit `start` on, as far as the field's `w` bits and the bound
`limit` go; the other bits are those of `data`. -/
def Inserted (data data' : Memory) (val : RVALUE) (start w limit : Nat) : Prop :=
  ∀ k, data'.bit k =
    if start ≤ k ∧ k < start + w ∧ k < limit then val.getLsbD (k - start) else data.bit k

/-- What is left of the value and of the mask once `shift` bits are stored. -/
structure Left (val : RVALUE) (w shift : Nat) (objval mask : RVALUE) : Prop where
  mask_bit : ∀ i < 32, mask.getLsbD i = decide (i + shift < w)
  objval_bit : ∀ i < 32, objval.getLsbD i = (decide (i + shift < w) && val.getLsbD (i + shift))

theorem Left.masked {w shift : Nat} (h : Left val w shift objval mask)
    (i : Nat) (hi : objval.getLsbD i) : mask.getLsbD i = true := by
  have hlt : i < 32 := lt_of_getLsbD hi
  rw [h.objval_bit i hlt, and_eq_true] at hi
  rw [h.mask_bit i hlt]
  exact hi.1

/-- The next shift. -/
theorem Left.shift {w shift : Nat} (h : Left val w shift objval mask)
    (hw : w ≤ 32) (n : Nat) : Left val w (shift + n) (objval >>> n) (mask >>> n) := by
  have hout : ∀ i, ¬ n + i < 32 → ¬ i + (shift + n) < w := fun i hi => by omega
  have hsum : ∀ i, n + i + shift = i + (shift + n) := fun i => by omega
  constructor
  · intro i hi
    rw [getLsbD_ushiftRight]
    by_cases hn : n + i < 32
    · rw [h.mask_bit _ hn, hsum]
    · rw [getLsbD_of_ge _ _ (not_lt.1 hn)]
      simp [hout i hn]
  · intro i hi
    rw [getLsbD_ushiftRight]
    by_cases hn : n + i < 32
    · rw [h.objval_bit _ hn, hsum]
    · rw [getLsbD_of_ge _ _ (not_lt.1 hn)]
      simp [hout i hn]

/-- Bounds that let the same bits in. -/
theorem Inserted.congr {start w limit limit' : Nat} (h : Inserted data data' val start w limit)
    (hl : ∀ k, start ≤ k → k < start + w → (k < limit ↔ k < limit')) :
    Inserted data data' val start w limit' := by
  intro k
  have hiff : (start ≤ k ∧ k < start + w ∧ k < limit) ↔
      (start ≤ k ∧ k < start + w ∧ k < limit') :=
    and_congr_right fun h0 => and_congr_right fun h1 => hl k h0 h1
  rw [h k]
  simp only [hiff]

/-- A further unit. -/
theorem Inserted.store {data' : HostImage}
    {start w shift dp : Nat} (h : Inserted data data'.bytes val start w (8 * dp))
    (hdp : start + shift = 8 * dp) (hleft : Left val w shift objval mask) :
    Inserted data
      (storeUnit data' dp ((targetUnit data'.bytes dp &&& ~~~mask) + objval)).bytes val start w
      (8 * (dp + 1)) := by
  intro k
  rw [bit_storeUnit]
  by_cases hk : 8 * dp ≤ k ∧ k < 8 * dp + 8
  · have hi : k - 8 * dp < 32 := by omega
    have h8 : k - 8 * dp < 8 := by omega
    have hat : 8 * dp + (k - 8 * dp) = k := by omega
    have hoff : k - 8 * dp + shift = k - start := by omega
    rw [if_pos hk, getLsbD_masked hleft.masked hi, hleft.mask_bit _ hi, hleft.objval_bit _ hi,
      hoff, getLsbD_targetUnit, hat, h k]
    by_cases hin : k - start < w
    · have hcond : start ≤ k ∧ k < start + w ∧ k < 8 * (dp + 1) := by omega
      simp [hin, hcond]
    · have hcond : ¬ k < start + w := by omega
      simp [hin, hcond, h8]
  · have hiff : (start ≤ k ∧ k < start + w ∧ k < 8 * dp) ↔
        (start ≤ k ∧ k < start + w ∧ k < 8 * (dp + 1)) := by omega
    rw [if_neg hk, h k]
    simp only [hiff]

theorem repackLoop_spec {start w : Nat} (hw : w ≤ 32)
    (rounds : Nat) {data' : HostImage} {dp shift : Nat}
    (hrounds : w ≤ shift + 8 * rounds) (hdp : start + shift = 8 * (dp + 1))
    (hleft : Left val w shift objval mask)
    (h : Inserted data data'.bytes val start w (8 * (dp + 1))) :
    Inserted data (repackLoop rounds data' dp objval mask).bytes val start w (start + w) ∧
      (repackLoop rounds data' dp objval mask).stored =
        data'.stored ++ List.range' (dp + 1) ((w - shift + 7) / 8) := by
  induction rounds generalizing dp shift objval mask data' with
  | zero =>
    have hnone : (w - shift + 7) / 8 = 0 := by omega
    refine ⟨h.congr fun k _ hk => by omega, ?_⟩
    rw [hnone, List.range'_zero, List.append_nil, repackLoop]
  | succ rounds ih =>
    have hbit := hleft.mask_bit 0 (by omega)
    rw [repackLoop]
    split
    case isTrue hmask =>
      have hle : w ≤ shift := by simpa [hmask] using hbit
      have hnone : (w - shift + 7) / 8 = 0 := by omega
      refine ⟨h.congr fun k _ hk => by omega, ?_⟩
      rw [hnone, List.range'_zero, List.append_nil]
    case isFalse hmask =>
      obtain ⟨hins, hstored⟩ := ih (by omega) (by omega) (hleft.shift hw 8) (h.store hdp hleft)
      refine ⟨hins, ?_⟩
      have hlt : shift < w := by
        by_contra hge
        apply hmask
        refine eq_of_getLsbD_eq fun i hi => ?_
        have hout : ¬ i + shift < w := by omega
        rw [hleft.mask_bit i hi]
        simp [hout]
      have hcount : (w - shift + 7) / 8 = (w - (shift + 8) + 7) / 8 + 1 := by omega
      rw [hstored, hcount, List.range'_succ, storeUnit, List.append_assoc, List.singleton_append]

/-- `dload_repack` puts the value into the field, whether it fits or not. -/
theorem dload_repack_eq (val : RVALUE) (data : HostImage) (dp : Nat) {w offset : Nat} (h0 : 0 < w)
    (hw : w ≤ 32) (ho : offset ≤ 8) (sgn : Nat) :
    ∃ data', dload_repack val data dp w offset sgn =
        some (data', if overflows val (w - 1) sgn then 1 else 0) ∧
      Inserted data.bytes data'.bytes val (8 * dp + offset) w (8 * dp + offset + w) ∧
      data'.stored = data.stored ++ List.range' dp ((offset + w + 7) / 8) := by
  have hfs : (w : Int) - 1 = (w - 1 : Nat) := by omega
  have hsh : TGTAU_BITS - (offset : Int) = (8 - offset : Nat) := by
    rw [TGTAU_BITS]
    omega
  have hstart : Left val w 0 (val &&& (allOnes w).setWidth 32)
      ((allOnes w).setWidth 32) := by
    constructor
    · intro i hi
      simp [hi]
    · intro i hi
      rw [getLsbD_and, getLsbD_setWidth, add_zero, Bool.and_comm]
      simp [hi]
  have hfirst : Inserted data.bytes (storeUnit data dp
      ((targetUnit data.bytes dp &&& ~~~((allOnes w).setWidth 32 <<< offset)) +
        (val &&& (allOnes w).setWidth 32) <<< offset)).bytes val (8 * dp + offset) w
      (8 * (dp + 1)) := by
    intro k
    rw [bit_storeUnit]
    by_cases hk : 8 * dp ≤ k ∧ k < 8 * dp + 8
    · have hi : k - 8 * dp < 32 := by omega
      have h8 : k - 8 * dp < 8 := by omega
      have hat : 8 * dp + (k - 8 * dp) = k := by omega
      have hmasked : ∀ i, ((val &&& (allOnes w).setWidth 32) <<< offset).getLsbD i →
          ((allOnes w).setWidth 32 <<< offset).getLsbD i := by
        intro i hbit
        rw [getLsbD_shiftLeft, and_eq_true] at hbit ⊢
        exact ⟨hbit.1, hstart.masked _ hbit.2⟩
      have hi' : k - 8 * dp - offset < 32 := by omega
      rw [if_pos hk, getLsbD_masked hmasked hi, getLsbD_shiftLeft, getLsbD_shiftLeft,
        hstart.mask_bit _ hi', hstart.objval_bit _ hi', getLsbD_targetUnit, hat]
      by_cases hin : offset ≤ k - 8 * dp ∧ k - 8 * dp - offset < w
      · have hcond : 8 * dp + offset ≤ k ∧ k < 8 * dp + offset + w ∧ k < 8 * (dp + 1) := by omega
        have hoff : k - 8 * dp - offset = k - (8 * dp + offset) := by omega
        have hnot : ¬ k - 8 * dp < offset := not_lt.2 hin.1
        rw [if_pos hcond, ← hoff]
        simp [hi, hnot, hin.2]
      · have hcond : ¬ (8 * dp + offset ≤ k ∧ k < 8 * dp + offset + w ∧ k < 8 * (dp + 1)) := by
          omega
        rw [if_neg hcond]
        by_cases hlt : k - 8 * dp < offset
        · simp [hlt, h8]
        · have hnot : ¬ k - 8 * dp - offset < w := by omega
          simp [hnot, h8]
    · have hiff : ¬ (8 * dp + offset ≤ k ∧ k < 8 * dp + offset + w ∧ k < 8 * (dp + 1)) := by omega
      rw [if_neg hk, if_neg hiff]
  obtain ⟨hins, hstored⟩ :=
    repackLoop_spec hw 4 (by omega) (by omega) (hstart.shift hw (8 - offset)) hfirst
  have hcount : (offset + w + 7) / 8 = (w - (0 + (8 - offset)) + 7) / 8 + 1 := by omega
  refine ⟨_, ?_, hins, by
    rw [hstored, hcount, List.range'_succ, storeUnit, List.append_assoc, List.singleton_append]⟩
  simp only [dload_repack, hfs, hsh, fieldMask_eq h0 hw, shiftCount_of (show offset < 32 by omega),
    shiftCount_of (show 8 - offset < 32 by omega), shiftCount_of (show w - 1 < 32 by omega),
    bind_eq_bind, bind_some, pure_def]

/-- A field of another width, or from beyond the first unit on, makes an undefined shift. -/
theorem dload_unpack_eq_none (data : Memory) (dp : Nat) {w offset : Nat} (sgn : Nat)
    (h : ¬ (0 < w ∧ w ≤ 32 ∧ offset ≤ 8)) : dload_unpack data dp w offset sgn = none := by
  by_cases hw : 0 < w ∧ w ≤ 32
  · have ho : 8 < offset := by omega
    have hneg : TGTAU_BITS - (offset : Int) < 0 := by
      rw [TGTAU_BITS]
      omega
    have hle : TGTAU_BITS - (offset : Int) ≤ w - 1 := by omega
    have hloop : ∀ n objval,
        unpackLoop data (w - 1) (n + 1) dp objval (TGTAU_BITS - offset) = none := by
      intro n objval
      rw [unpackLoop, if_pos hle, shiftCount_eq_none (.inl hneg)]
      rfl
    rw [dload_unpack]
    cases shiftCount (offset : Int) with
    | none => rfl
    | some first =>
      simp only [bind_eq_bind, bind_some, hloop, bind_none]
  · rw [dload_unpack]
    have hmask : fieldMask ((w : Int) - 1) = none := fieldMask_eq_none (by omega)
    have hshift : shiftCount (31 - ((w : Int) - 1)) = none := shiftCount_eq_none (by omega)
    cases shiftCount (offset : Int) with
    | none => rfl
    | some first =>
      simp only [bind_eq_bind, bind_some, hmask, hshift, bind_none, ite_self]
      cases unpackLoop data (w - 1) 5 dp (targetUnit data dp >>> first) (TGTAU_BITS - offset) with
      | none => rfl
      | some objval => rfl

theorem dload_repack_eq_none (val : RVALUE) (data : HostImage) (dp : Nat) {w offset : Nat}
    (sgn : Nat) (h : ¬ (0 < w ∧ w ≤ 32 ∧ offset ≤ 8)) :
    dload_repack val data dp w offset sgn = none := by
  rw [dload_repack]
  by_cases hw : 0 < w ∧ w ≤ 32
  · have ho : 8 < offset := by omega
    have hneg : TGTAU_BITS - (offset : Int) < 0 := by
      rw [TGTAU_BITS]
      omega
    have hshift := shiftCount_eq_none (.inl hneg)
    simp only [hshift, bind_eq_bind, bind_none]
    cases fieldMask ((w : Int) - 1) with
    | none => rfl
    | some mask => cases shiftCount (offset : Int) <;> rfl
  · rw [fieldMask_eq_none (by omega)]
    rfl

/-- The values that a field of `w` bits can hold under an overflow rule. -/
structure Fits (val : RVALUE) (w sgn : Nat) : Prop where
  signed : sgn = ROP_SGN → -2 ^ (w - 1) ≤ val.toInt ∧ val.toInt < 2 ^ (w - 1)
  unsigned : sgn = ROP_UNS → 0 ≤ val.toInt ∧ val.toInt < 2 ^ w
  either : sgn = ROP_MAX → -2 ^ (w - 1) ≤ val.toInt ∧ val.toInt < 2 ^ w

/-- A quotient within bounds, as the check counts it. -/
theorem quotient_le {x : RVALUE} {c limit : Nat} (hc : c ≤ 1) (hl : limit ≤ 2) :
    (x + BitVec.ofNat 32 c).toNat ≤ limit ↔ -(c : Int) ≤ x.toInt ∧ x.toInt + c ≤ limit := by
  have hx := x.isLt
  rw [toNat_add, toNat_ofNat, toInt_eq_toNat_cond]
  split <;> omega

theorem overflows_eq_false {f sgn : Nat} (hs : sgn ≠ ROP_ANY) (hmax : sgn ≤ ROP_MAX) :
    overflows val f sgn = false ↔
      -((sgn &&& 1 : Nat) : Int) * 2 ^ f ≤ val.toInt ∧
        val.toInt < ((ovf_limit.getD (sgn - 1) 0 : Nat) - (sgn &&& 1 : Nat) + 1) * 2 ^ f := by
  have hpos : (0 : Int) < 2 ^ f := by positivity
  have hc : sgn &&& 1 ≤ 1 := and_le_right
  have hl : ovf_limit.getD (sgn - 1) 0 ≤ 2 := by
    unfold ROP_ANY ROP_MAX at *
    interval_cases sgn <;> decide
  have hq : (val.sshiftRight f).toInt = val.toInt / 2 ^ f := by
    rw [toInt_sshiftRight, Int.shiftRight_eq_div_pow]
    rfl
  rw [overflows, if_neg hs, decide_eq_false_iff_not, not_lt, quotient_le hc hl, hq,
    Int.le_ediv_iff_mul_le hpos]
  refine and_congr_right fun _ => ?_
  rw [← Int.ediv_lt_iff_lt_mul hpos]
  omega

/-- A signed value comes back from its low bits. -/
theorem signExtend_setWidth {w : Nat} (h0 : 0 < w) (hw : w ≤ 32)
    (hlow : -2 ^ (w - 1) ≤ val.toInt) (hhigh : val.toInt < 2 ^ (w - 1)) :
    (val.setWidth w).signExtend 32 = val := by
  have hpow : (2 : Int) ^ w = 2 * 2 ^ (w - 1) := by
    obtain ⟨n, rfl⟩ : ∃ n, w = n + 1 := ⟨w - 1, by omega⟩
    rw [Nat.add_sub_cancel, pow_succ]
    ring
  apply eq_of_toInt_eq
  rw [toInt_signExtend_of_le hw, toInt_setWidth]
  have hdvd : ((2 ^ w : Nat) : Int) ∣ ((2 ^ 32 : Nat) : Int) :=
    Int.natCast_dvd_natCast.2 (pow_dvd_pow 2 hw)
  have hbmod : Int.bmod val.toNat (2 ^ w) = Int.bmod val.toInt (2 ^ w) := by
    rw [toInt_eq_toNat_bmod, Int.bmod_bmod_of_dvd (Int.natCast_dvd_natCast.1 hdvd)]
  rw [hbmod]
  apply Int.bmod_eq_of_le
  · push_cast
    omega
  · push_cast
    omega

/-- An unsigned value comes back from its low bits. -/
theorem setWidth_setWidth_self {w : Nat} (hlow : 0 ≤ val.toInt)
    (hhigh : val.toInt < 2 ^ w) : (val.setWidth w).setWidth 32 = val := by
  have hnat : (val.toNat : Int) = val.toInt := by
    rw [toInt_eq_toNat_cond] at hlow ⊢
    split at hlow <;> omega
  have hlt : val.toNat < 2 ^ w := by
    apply Int.ofNat_lt.1
    rw [hnat]
    exact_mod_cast hhigh
  apply eq_of_toNat_eq
  rw [toNat_setWidth, toNat_setWidth, mod_eq_of_lt hlt, mod_eq_of_lt val.isLt]

/-- The check lets through the values that fit and, for an unsigned field, those of a further
half of its range. -/
theorem overflows_iff_fits {w sgn : Nat} (h0 : 0 < w) (hmax : sgn ≤ ROP_MAX)
    (hgap : ¬ (sgn = ROP_UNS ∧ 2 ^ w ≤ val.toInt ∧ val.toInt < 3 * 2 ^ (w - 1))) :
    overflows val (w - 1) sgn = false ↔ Fits val w sgn := by
  have hpow : (2 : Int) ^ w = 2 * 2 ^ (w - 1) := by
    obtain ⟨n, rfl⟩ : ∃ n, w = n + 1 := ⟨w - 1, by omega⟩
    rw [Nat.add_sub_cancel, pow_succ]
    ring
  have hcases : sgn = ROP_ANY ∨ sgn = ROP_SGN ∨ sgn = ROP_UNS ∨ sgn = ROP_MAX := by
    unfold ROP_ANY ROP_SGN ROP_UNS ROP_MAX at *
    omega
  rcases hcases with rfl | rfl | rfl | rfl
  · refine iff_of_true rfl ⟨fun h => ?_, fun h => ?_, fun h => ?_⟩ <;> cases h
  · have hcheck : overflows val (w - 1) ROP_SGN = false ↔
        -2 ^ (w - 1) ≤ val.toInt ∧ val.toInt < 2 ^ (w - 1) := by
      rw [overflows_eq_false (by decide) (by decide)]
      simp [ROP_SGN, ovf_limit]
    rw [hcheck]
    exact ⟨fun h => ⟨fun _ => h, nofun, nofun⟩, fun h => h.signed rfl⟩
  · have hcheck : overflows val (w - 1) ROP_UNS = false ↔
        0 ≤ val.toInt ∧ val.toInt < 3 * 2 ^ (w - 1) := by
      rw [overflows_eq_false (by decide) (by decide)]
      simp [ROP_UNS, ovf_limit]
    rw [hcheck]
    constructor
    · intro h
      have hlt : val.toInt < 2 ^ w := by
        by_contra hle
        exact hgap ⟨rfl, Int.not_lt.1 hle, h.2⟩
      exact ⟨nofun, fun _ => ⟨h.1, hlt⟩, nofun⟩
    · intro h
      have hfit := h.unsigned rfl
      exact ⟨hfit.1, by omega⟩
  · have hcheck : overflows val (w - 1) ROP_MAX = false ↔
        -2 ^ (w - 1) ≤ val.toInt ∧ val.toInt < 2 * 2 ^ (w - 1) := by
      rw [overflows_eq_false (by decide) (by decide)]
      simp [ROP_MAX, ovf_limit]
    rw [hcheck, ← hpow]
    exact ⟨fun h => ⟨nofun, nofun, fun _ => h⟩, fun h => h.either rfl⟩

/-- The field holds the low bits of the value that went in. -/
theorem Inserted.field_eq {start w : Nat} (hw : w ≤ 32)
    (h : Inserted data data' val start w (start + w)) :
    data'.field start w = val.setWidth w := by
  refine eq_of_getLsbD_eq fun i hi => ?_
  have hin : start ≤ start + i ∧ start + i < start + w ∧ start + i < start + w := by omega
  rw [Memory.getLsbD_field, h (start + i), if_pos hin, Nat.add_sub_cancel_left,
    getLsbD_setWidth]

/-- Packing and unpacking: the result tells whether the value fits, no bit outside the field
changes, and the field reads back as the value, or as one with the same low bits where the rule
does not say which of the values with these bits went in. -/
theorem repack_unpack (val : RVALUE) (data : HostImage) (dp : Nat) {w offset sgn : Nat} (h0 : 0 < w)
    (hw : w ≤ 32) (ho : offset ≤ 8) (hmax : sgn ≤ ROP_MAX)
    (hgap : ¬ (sgn = ROP_UNS ∧ 2 ^ w ≤ val.toInt ∧ val.toInt < 3 * 2 ^ (w - 1))) :
    ∃ data' result r, dload_repack val data dp w offset sgn = some (data', result) ∧
      (result = 0 ↔ Fits val w sgn) ∧
      (∀ k, k < 8 * dp + offset ∨ 8 * dp + offset + w ≤ k → data'.bytes.bit k = data.bytes.bit k) ∧
      dload_unpack data'.bytes dp w offset sgn = some r ∧ r.toNat % 2 ^ w = val.toNat % 2 ^ w ∧
      (result = 0 → sgn = ROP_SGN ∨ sgn = ROP_UNS → r = val) := by
  obtain ⟨data', hrepack, hins, -⟩ := dload_repack_eq val data dp h0 hw ho sgn
  have hresult : (if overflows val (w - 1) sgn then 1 else 0) = 0 ↔ Fits val w sgn := by
    rw [← overflows_iff_fits h0 hmax hgap]
    cases overflows val (w - 1) sgn <;> simp
  refine ⟨data', _, extend (val.setWidth w) sgn, hrepack, hresult, fun k hk => ?_, ?_, ?_,
    fun hzero hrule => ?_⟩
  · have hout : ¬ (8 * dp + offset ≤ k ∧ k < 8 * dp + offset + w ∧ k < 8 * dp + offset + w) := by
      omega
    rw [hins k, if_neg hout]
  · rw [dload_unpack_eq data'.bytes dp h0 hw ho, hins.field_eq hw]
  · have hlow : (extend (val.setWidth w) sgn).setWidth w = val.setWidth w := by
      unfold extend
      split
      · rw [setWidth_setWidth_of_le _ hw, setWidth_eq]
      · refine eq_of_getLsbD_eq fun i hi => ?_
        have hi' : i < 32 := by omega
        rw [getLsbD_setWidth, getLsbD_signExtend, if_pos hi]
        simp [hi, hi']
    have hnat := congrArg BitVec.toNat hlow
    rwa [toNat_setWidth, toNat_setWidth] at hnat
  · have hfits := hresult.1 hzero
    rcases hrule with rfl | rfl
    · have hrange := hfits.signed rfl
      exact signExtend_setWidth h0 hw hrange.1 hrange.2
    · have hrange := hfits.unsigned rfl
      exact setWidth_setWidth_self hrange.1 hrange.2

theorem repack_unpack_sample :
    ∃ data' result r, dload_repack (-3) ⟨fun _ => 0, []⟩ 4 15 7 ROP_SGN = some (data', result) ∧
      (result = 0 ↔ Fits (-3) 15 ROP_SGN) ∧
      (∀ k, k < 8 * 4 + 7 ∨ 8 * 4 + 7 + 15 ≤ k → data'.bytes.bit k = Memory.bit (fun _ => 0) k) ∧
      dload_unpack data'.bytes 4 15 7 ROP_SGN = some r ∧
      r.toNat % 2 ^ 15 = (-3 : RVALUE).toNat % 2 ^ 15 ∧
      (result = 0 → ROP_SGN = ROP_SGN ∨ ROP_SGN = ROP_UNS → r = -3) :=
  repack_unpack (-3) ⟨fun _ => 0, []⟩ 4 (by decide) (by decide) (by decide) (by decide) (by decide)

/-- Under the rule that takes either sign, 255 fits into eight bits and comes back as -1. -/
theorem either_reads_back_signed :
    (dload_repack 255 ⟨fun _ => 0, []⟩ 0 8 0 ROP_MAX).map Prod.snd = some 0 ∧
      ((dload_repack 255 ⟨fun _ => 0, []⟩ 0 8 0 ROP_MAX).bind fun packed =>
        dload_unpack packed.1.bytes 0 8 0 ROP_MAX) = some (-1) ∧ (-1 : RVALUE) ≠ 255 := by
  decide

end OmapHal.Dynload
