import OmapHal.Core.Fields

/-!
# The byte order of a module file

`dload_reorder` and the check of the byte order in `dload_headers`, of `cload.c`. The host is
little-endian. Words stand at addresses of bytes.
-/

namespace OmapHal.Dynload

open OmapHal.Core Nat

def BITS_PER_BYTE : Nat := 8

def LOG_BITS_PER_BYTE : Nat := 3

def BYTE_MASK : BitVec 32 := 0xFF

def SHIFT_COUNT_MASK : BitVec 32 := 3#32 <<< LOG_BITS_PER_BYTE

def BYTE_RESHUFFLE_VALUE : BitVec 32 := 0x00010203

def REORDER_MAP (rawmap : BitVec 32) : BitVec 32 := rawmap ^^^ 0x3030303

/-- `sizeof(struct doff_filehdr_t) + sizeof(struct doff_verify_rec_t)` -/
def COMBINED_HEADER_SIZE : Int32 := 56

/-- Where `df_byte_reshuffle` stands in the file header. -/
def offset_byte_reshuffle : Nat := 8

theorem ushiftRight_lt {datv : BitVec 32} (h : datv >>> BITS_PER_BYTE ≠ 0) :
    (datv >>> BITS_PER_BYTE).toNat < datv.toNat := by
  have hpos : (datv >>> BITS_PER_BYTE).toNat ≠ 0 := fun h0 => h (BitVec.eq_of_toNat_eq h0)
  rw [BitVec.toNat_ushiftRight, shiftRight_eq_div_pow] at hpos ⊢
  unfold BITS_PER_BYTE at *
  omega

/-- The loop over the bytes of a word, up to the last one that is not zero. -/
def reorderBytes (tmp datv tmap : BitVec 32) : BitVec 32 :=
  let tmp := tmp ||| (datv &&& BYTE_MASK) <<< (tmap &&& SHIFT_COUNT_MASK)
  if datv >>> BITS_PER_BYTE ≠ 0 then
    reorderBytes tmp (datv >>> BITS_PER_BYTE) (tmap >>> BITS_PER_BYTE)
  else tmp
termination_by datv.toNat
decreasing_by exact ushiftRight_lt ‹_›

theorem toInt_sub_lt {dsiz : Int32} (h : 0 < dsiz - 4) :
    (dsiz - 4 - 4).toInt.toNat < (dsiz - 4).toInt.toNat := by
  have hpos : 0 < (dsiz - 4).toInt := Int32.lt_iff_toInt_lt.1 h
  have hle := (dsiz - 4).toInt_lt
  have hsub : (dsiz - 4 - 4).toInt = (dsiz - 4).toInt - 4 := by
    rw [Int32.toInt_sub (a := dsiz - 4)]
    have h4 : (4 : Int32).toInt = 4 := rfl
    rw [h4, Int.bmod_eq_of_le] <;> omega
  omega

/-- The loop over the words. The size wraps as it is counted down. -/
def reorderWords (map : BitVec 32) (data : Memory) (dp : Nat) (dsiz : Int32) : Memory :=
  let data := data.setWord dp (reorderBytes 0 (data.word dp) map)
  if 0 < dsiz - 4 then reorderWords map data (dp + 4) (dsiz - 4) else data
termination_by (dsiz - 4).toInt.toNat
decreasing_by exact toInt_sub_lt ‹_›

def dload_reorder (data : Memory) (dp : Nat) (dsiz : Int32) (map : BitVec 32) : Memory :=
  reorderWords (map <<< LOG_BITS_PER_BYTE) data dp dsiz

/-- The check in `dload_headers`: the headers as they are left and `reorder_map`. No result is the
error of a bad byte swap map. -/
def headerOrder (dfile_hdr : Memory) : Option (Memory × BitVec 32) :=
  let map := REORDER_MAP (dfile_hdr.word offset_byte_reshuffle)
  if map ≠ REORDER_MAP BYTE_RESHUFFLE_VALUE then
    let dfile_hdr :=
      if map &&& 0xFCFCFCFC = 0 then dload_reorder dfile_hdr 0 COMBINED_HEADER_SIZE map
      else dfile_hdr
    if dfile_hdr.word offset_byte_reshuffle ≠ BYTE_RESHUFFLE_VALUE then none
    else some (dfile_hdr, map)
  else some (dfile_hdr, 0)

/-- What every reader of the file does with what it has read. -/
def reorderIfNeeded (reorder_map : BitVec 32) (data : Memory) (dp : Nat) (dsiz : Int32) : Memory :=
  if reorder_map ≠ 0 then dload_reorder data dp dsiz reorder_map else data

/-! ### One word -/

/-- The place that the map gives to byte `i`. -/
def mapPlace (map : BitVec 32) (i : Nat) : Nat := (byteOf map i &&& 3).toNat

theorem mapPlace_lt (map : BitVec 32) (i : Nat) : mapPlace map i < 4 := by
  have hle : (byteOf map i &&& 3).toNat ≤ 3 := by
    rw [UInt8.toNat_and]
    exact and_le_right
  unfold mapPlace
  omega

/-- The count of the shift for byte `i`. -/
theorem shiftCount_eq (map : BitVec 32) {i : Nat} (hi : i < 4) :
    ((map <<< LOG_BITS_PER_BYTE) >>> (8 * i)) &&& SHIFT_COUNT_MASK =
      (byteOf map i &&& 3).toBitVec.setWidth 32 <<< 3 := by
  apply BitVec.eq_of_getLsbD_eq
  intro k hk
  have h3 : (3 : UInt8).toBitVec = 3#8 := rfl
  rw [SHIFT_COUNT_MASK, LOG_BITS_PER_BYTE, UInt8.toBitVec_and, h3, BitVec.getLsbD_and,
    BitVec.getLsbD_ushiftRight, BitVec.getLsbD_shiftLeft, BitVec.getLsbD_shiftLeft,
    BitVec.getLsbD_shiftLeft, BitVec.getLsbD_setWidth, BitVec.getLsbD_and, getLsbD_byteOf]
  by_cases h : k = 3 ∨ k = 4
  · have hplace : 8 * i + k - 3 = 8 * i + (k - 3) := by omega
    have hwidth : 8 * i + k < 32 := by omega
    have hlow : ¬ 8 * i + k < 3 := by omega
    rcases h with rfl | rfl
    · simp [hplace, hwidth, hlow]
    · simp [hplace, hwidth, hlow]
  · have hmask : ∀ j, j ≠ 0 → j ≠ 1 → (3#32).getLsbD j = false ∧ (3#8).getLsbD j = false := by
      intro j h0 h1
      have hbit : testBit 3 j = false := by
        apply testBit_lt_two_pow
        calc 3 < 2 ^ 2 := by decide
          _ ≤ 2 ^ j := Nat.pow_le_pow_right (by decide) (by omega)
      constructor
      · rw [BitVec.getLsbD_ofNat, hbit, Bool.and_false]
      · rw [BitVec.getLsbD_ofNat, hbit, Bool.and_false]
    by_cases hk3 : k < 3
    · simp [hk3]
    · obtain ⟨hw, hb⟩ := hmask (k - 3) (by omega) (by omega)
      simp [hw, hb]

/-- What a round joins to the result. -/
theorem piece_eq (map w : BitVec 32) {i : Nat} (hi : i < 4) :
    ((w >>> (8 * i)) &&& BYTE_MASK) <<<
        (((map <<< LOG_BITS_PER_BYTE) >>> (8 * i)) &&& SHIFT_COUNT_MASK) =
      placeByte (byteOf w i) (mapPlace map i) := by
  have hlt := mapPlace_lt map i
  have hcount : ((byteOf map i &&& 3).toBitVec.setWidth 32 <<< 3).toNat = 8 * mapPlace map i := by
    rw [BitVec.toNat_shiftLeft, BitVec.toNat_setWidth, shiftLeft_eq]
    unfold mapPlace at *
    rw [UInt8.toNat_toBitVec]
    omega
  have hbyte : (w >>> (8 * i)) &&& BYTE_MASK = (byteOf w i).toBitVec.setWidth 32 := by
    apply BitVec.eq_of_getLsbD_eq
    intro k hk
    have hmask : BYTE_MASK.getLsbD k = decide (k < 8) := by
      have heq : BYTE_MASK = BitVec.ofNat 32 (2 ^ 8 - 1) := rfl
      rw [heq, BitVec.getLsbD_ofNat, testBit_two_pow_sub_one]
      simp [hk]
    rw [BitVec.getLsbD_and, BitVec.getLsbD_ushiftRight, BitVec.getLsbD_setWidth, getLsbD_byteOf,
      hmask, Bool.and_comm]
    simp [hk]
  rw [hbyte, shiftCount_eq map hi, BitVec.shiftLeft_eq', hcount, placeByte]

/-- Nothing is joined once no bits are left, so a round more makes no difference. -/
theorem reorderBytes_round (tmp datv tmap : BitVec 32) :
    reorderBytes tmp datv tmap =
      reorderBytes (tmp ||| (datv &&& BYTE_MASK) <<< (tmap &&& SHIFT_COUNT_MASK))
        (datv >>> BITS_PER_BYTE) (tmap >>> BITS_PER_BYTE) := by
  rw [reorderBytes]
  by_cases h : datv >>> BITS_PER_BYTE = 0
  · rw [if_neg (not_not.2 h), h, reorderBytes]
    simp
  · rw [if_pos h]

/-- The word that `dload_reorder` makes of a word. -/
def reorderWord (map w : BitVec 32) : BitVec 32 := reorderBytes 0 w (map <<< LOG_BITS_PER_BYTE)

theorem reorderWord_eq (map w : BitVec 32) :
    reorderWord map w =
      placeByte (byteOf w 0) (mapPlace map 0) ||| placeByte (byteOf w 1) (mapPlace map 1) |||
        placeByte (byteOf w 2) (mapPlace map 2) ||| placeByte (byteOf w 3) (mapPlace map 3) := by
  have hend : w >>> 8 >>> 8 >>> 8 >>> 8 = 0#32 := by
    rw [← BitVec.shiftRight_add, ← BitVec.shiftRight_add, ← BitVec.shiftRight_add]
    exact BitVec.ushiftRight_eq_zero (by decide)
  have hdone : ∀ tmp tmap, reorderBytes tmp 0#32 tmap = tmp := by
    intro tmp tmap
    rw [reorderBytes]
    simp
  have h0 := piece_eq map w (i := 0) (by decide)
  have h1 := piece_eq map w (i := 1) (by decide)
  have h2 := piece_eq map w (i := 2) (by decide)
  have h3 := piece_eq map w (i := 3) (by decide)
  rw [reorderWord, reorderBytes_round, reorderBytes_round, reorderBytes_round, reorderBytes_round]
  unfold BITS_PER_BYTE
  rw [hend, hdone]
  simp only [← BitVec.shiftRight_add]
  simpa using congrArg₂ (· ||| ·) (congrArg₂ (· ||| ·) (congrArg₂ (· ||| ·) h0 h1) h2) h3

/-- The byte that comes to place `p` is made of all the bytes that the map sends there. -/
theorem byteOf_reorderWord (map w : BitVec 32) {p : Nat} (hp : p < 4) :
    byteOf (reorderWord map w) p =
      (if mapPlace map 0 = p then byteOf w 0 else 0) |||
        (if mapPlace map 1 = p then byteOf w 1 else 0) |||
        (if mapPlace map 2 = p then byteOf w 2 else 0) |||
        (if mapPlace map 3 = p then byteOf w 3 else 0) := by
  rw [reorderWord_eq]
  simp only [byteOf_or, byteOf_placeByte _ _ hp]

/-- The map sends the bytes of a word to different places. -/
def Scatters (map : BitVec 32) : Prop := ∀ i < 4, ∀ j < 4, mapPlace map i = mapPlace map j → i = j

theorem byteOf_reorderWord_place {map : BitVec 32} (h : Scatters map) (w : BitVec 32) {i : Nat}
    (hi : i < 4) : byteOf (reorderWord map w) (mapPlace map i) = byteOf w i := by
  have hplace : ∀ j < 4, mapPlace map j = mapPlace map i ↔ j = i := fun j hj =>
    ⟨h j hj i hi, fun hji => by rw [hji]⟩
  rw [byteOf_reorderWord map w (mapPlace_lt map i)]
  simp only [hplace 0 (by omega), hplace 1 (by omega), hplace 2 (by omega), hplace 3 (by omega)]
  rcases (by omega : i = 0 ∨ i = 1 ∨ i = 2 ∨ i = 3) with rfl | rfl | rfl | rfl <;> simp

/-! ### A range of words -/

/-- The number of words that the loop goes over. -/
def wordCount (dsiz : Int32) : Nat := ((dsiz - 4).toInt.toNat + 3) / 4 + 1

section

variable {map : BitVec 32} {data : Memory} {dp : Nat} {dsiz : Int32}

theorem toInt_sub_four (h : 0 < dsiz) : (dsiz - 4).toInt = dsiz.toInt - 4 := by
  have hpos : 0 < dsiz.toInt := Int32.lt_iff_toInt_lt.1 h
  have hle := dsiz.toInt_lt
  have h4 : (4 : Int32).toInt = 4 := rfl
  rw [Int32.toInt_sub, h4, Int.bmod_eq_of_le] <;> omega

theorem wordCount_next (h : 0 < dsiz - 4) : wordCount dsiz = wordCount (dsiz - 4) + 1 := by
  have hpos : 0 < (dsiz - 4).toInt := Int32.lt_iff_toInt_lt.1 h
  rw [wordCount, wordCount, toInt_sub_four h]
  omega

theorem wordCount_last (h : ¬ 0 < dsiz - 4) : wordCount dsiz = 1 := by
  have hle : ¬ 0 < (dsiz - 4).toInt := fun hpos => h (Int32.lt_iff_toInt_lt.2 hpos)
  rw [wordCount]
  omega

theorem wordCount_of_pos (h : 0 < dsiz) : wordCount dsiz = (dsiz.toInt.toNat + 3) / 4 := by
  have hpos : 0 < dsiz.toInt := Int32.lt_iff_toInt_lt.1 h
  rw [wordCount, toInt_sub_four h]
  omega

theorem reorderWords_outside {x : Nat} (h : x < dp ∨ dp + 4 * wordCount dsiz ≤ x) :
    reorderWords map data dp dsiz x = data x := by
  induction data, dp, dsiz using reorderWords.induct map with
  | case1 data dp dsiz _ hmore ih =>
    rw [wordCount_next hmore] at h
    rw [reorderWords, if_pos hmore, ih (by omega)]
    exact Memory.setWord_of_outside (by omega)
  | case2 data dp dsiz hlast =>
    rw [wordCount_last hlast] at h
    rw [reorderWords, if_neg hlast]
    exact Memory.setWord_of_outside (by omega)

theorem reorderWords_inside {i : Nat} (hi : i < 4) : ∀ k < wordCount dsiz,
    reorderWords map data dp dsiz (dp + 4 * k + i) =
      byteOf (reorderBytes 0 (data.word (dp + 4 * k)) map) i := by
  induction data, dp, dsiz using reorderWords.induct map with
  | case1 data dp dsiz _ hmore ih =>
    intro k hk
    rw [reorderWords, if_pos hmore]
    rw [wordCount_next hmore] at hk
    cases k with
    | zero =>
      rw [mul_zero, add_zero, reorderWords_outside (by omega)]
      exact Memory.setWord_inside data dp _ hi
    | succ k =>
      have haddr : dp + 4 * (k + 1) = dp + 4 + 4 * k := by omega
      have hkeep : ∀ w, (data.setWord dp w).word (dp + 4 + 4 * k) = data.word (dp + 4 + 4 * k) :=
        fun w => Memory.word_congr fun j _ => Memory.setWord_of_outside (by omega)
      rw [haddr, ih k (by omega), hkeep]
  | case2 data dp dsiz hlast =>
    intro k hk
    rw [wordCount_last hlast] at hk
    obtain rfl : k = 0 := by omega
    rw [reorderWords, if_neg hlast, mul_zero, add_zero]
    exact Memory.setWord_inside data dp _ hi

end

/-! ### The check of the headers -/

/-- A reader with the recorded map turns what a file of some byte order holds into the host's
words: the map moves byte `i` of every word to place `order i`, over `dsiz` bytes and no more. -/
structure Normalises (raw reorder_map : BitVec 32) (dsiz : Int32) (order : Equiv.Perm (Fin 4)) :
    Prop where
  /-- the reshuffle value stands in the file in this order -/
  header : ∀ i : Fin 4, byteOf raw i = byteOf BYTE_RESHUFFLE_VALUE (order i)
  permutes : ∀ (data : Memory) (dp k : Nat) (i : Fin 4), (4 * k + i : Nat) < dsiz.toInt →
    reorderIfNeeded reorder_map data dp dsiz (dp + 4 * k + order i) = data (dp + 4 * k + i)
  frame : ∀ (data : Memory) (dp x : Nat), x < dp ∨ dp + dsiz.toInt.toNat ≤ x →
    reorderIfNeeded reorder_map data dp dsiz x = data x
  /-- an image that is written in this order is read back -/
  reads_back : ∀ (image data : Memory) (dp : Nat),
    (∀ (k : Nat) (i : Fin 4), (4 * k + i : Nat) < dsiz.toInt →
      data (dp + 4 * k + i) = image (4 * k + order i)) →
    ∀ j : Nat, j < dsiz.toInt → reorderIfNeeded reorder_map data dp dsiz (dp + j) = image j

/-- The file has the host's byte order, or its reshuffle value has four different bytes, the size is
positive, and the bytes of the last word that are behind it have the host's order. -/
def Reorderable (raw : BitVec 32) (dsiz : Int32) : Prop :=
  raw = BYTE_RESHUFFLE_VALUE ∨
    (∀ i < 4, ∀ j < 4, byteOf raw i = byteOf raw j → i = j) ∧ 0 < dsiz ∧
      ∀ i < 4, dsiz.toInt.toNat % 4 ≠ 0 → dsiz.toInt.toNat % 4 ≤ i →
        byteOf raw i = byteOf BYTE_RESHUFFLE_VALUE i

theorem reshuffle_inj {i j : Nat} (hi : i < 4) (hj : j < 4)
    (h : byteOf BYTE_RESHUFFLE_VALUE i = byteOf BYTE_RESHUFFLE_VALUE j) : i = j := by
  have hall : ∀ i < 4, ∀ j < 4,
      byteOf BYTE_RESHUFFLE_VALUE i = byteOf BYTE_RESHUFFLE_VALUE j → i = j := by decide
  exact hall i hi j hj h

section

variable {dfile_hdr hdr : Memory} {raw map : BitVec 32} {dsiz : Int32}

/-- Without obviously bogus bits the bytes of the header tell the places of the map. -/
theorem header_byte (hmap : map = REORDER_MAP raw) (hbogus : map &&& 0xFCFCFCFC = 0) {i : Nat}
    (hi : i < 4) : byteOf raw i = byteOf BYTE_RESHUFFLE_VALUE (mapPlace map i) := by
  have hraw : raw = map ^^^ 0x3030303 := by
    rw [hmap, REORDER_MAP, BitVec.xor_assoc, BitVec.xor_self, BitVec.xor_zero]
  have hmask : ∀ i < 4, byteOf 0xFCFCFCFC i = 0xFC ∧ byteOf 0x3030303 i = 3 := by decide
  have hhigh : byteOf map i &&& 0xFC = 0 := by
    rw [← (hmask i hi).1, ← byteOf_and, hbogus, byteOf_zero]
  have hlow : byteOf map i = .ofNat (mapPlace map i) := by
    have hfact : ∀ b : BitVec 8, b &&& 0xFC#8 = 0#8 → b &&& 3#8 = b := by decide
    rw [mapPlace, UInt8.ofNat_toNat]
    exact (UInt8.toBitVec_inj.1 (hfact _ (congrArg UInt8.toBitVec hhigh))).symm
  have hplaces : ∀ m < 4, UInt8.ofNat m ^^^ 3 = byteOf BYTE_RESHUFFLE_VALUE m := by decide
  rw [hraw, byteOf_xor, (hmask i hi).2, hlow, hplaces _ (mapPlace_lt map i)]

theorem word_dload_reorder {k : Nat} (hk : k < wordCount dsiz) :
    (dload_reorder hdr 0 dsiz map).word (4 * k) = reorderWord map (hdr.word (4 * k)) := by
  refine word_ext fun i hi => ?_
  have hinside := @reorderWords_inside (map <<< LOG_BITS_PER_BYTE) hdr 0 dsiz i hi k hk
  rw [zero_add] at hinside
  rw [Memory.byteOf_word _ _ hi, dload_reorder, hinside, reorderWord]

/-- What the check lets pass. -/
theorem headerOrder_spec (h : headerOrder dfile_hdr = some (hdr, map)) :
    dfile_hdr.word offset_byte_reshuffle = BYTE_RESHUFFLE_VALUE ∧ map = 0 ∨
      dfile_hdr.word offset_byte_reshuffle ≠ BYTE_RESHUFFLE_VALUE ∧ map ≠ 0 ∧
        map = REORDER_MAP (dfile_hdr.word offset_byte_reshuffle) ∧ map &&& 0xFCFCFCFC = 0 := by
  rw [headerOrder] at h
  generalize hraw : dfile_hdr.word offset_byte_reshuffle = raw at h ⊢
  by_cases hhost : raw = BYTE_RESHUFFLE_VALUE
  · subst hhost
    simp only [ne_eq, not_true, if_false, Option.some.injEq, Prod.mk.injEq] at h
    exact .inl ⟨rfl, h.2.symm⟩
  · have hdiffers : REORDER_MAP raw ≠ REORDER_MAP BYTE_RESHUFFLE_VALUE :=
      fun heq => hhost ((BitVec.xor_left_inj _).1 heq)
    simp only [hdiffers, ne_eq, not_false_iff, if_true] at h
    by_cases hbogus : REORDER_MAP raw &&& 0xFCFCFCFC = 0
    · rw [if_pos hbogus] at h
      split at h
      · exact absurd h (by simp)
      · rename_i hword
        obtain ⟨rfl, rfl⟩ := Prod.mk.inj (Option.some.inj h)
        refine .inr ⟨hhost, fun h0 => ?_, rfl, hbogus⟩
        -- a map of zeros leaves nothing in the second byte
        have hcount : 2 < wordCount COMBINED_HEADER_SIZE := by decide
        have hsecond := congrArg (byteOf · 1) ((word_dload_reorder hcount).symm.trans
          (not_not.1 hword))
        have hzero : ∀ i < 4, mapPlace 0 i ≠ 1 := by decide
        simp only [h0, byteOf_reorderWord _ _ (by decide : 1 < 4), hzero 0 (by decide),
          hzero 1 (by decide), hzero 2 (by decide), hzero 3 (by decide), if_false] at hsecond
        exact absurd hsecond (by decide)
    · rw [if_neg hbogus, if_pos (by rw [hraw]; exact hhost)] at h
      exact absurd h (by simp)

theorem dload_reorder_inside {data : Memory} {dp k i : Nat} (hk : k < wordCount dsiz)
    (hi : i < 4) :
    dload_reorder data dp dsiz map (dp + 4 * k + i) =
      byteOf (reorderWord map (data.word (dp + 4 * k))) i :=
  reorderWords_inside hi k hk

/-- Where the order is the one of the map, a byte goes to its place in the order. -/
theorem dload_reorder_place {data : Memory} {dp k : Nat} {i : Nat} (h : Scatters map)
    (hk : k < wordCount dsiz) (hi : i < 4) :
    dload_reorder data dp dsiz map (dp + 4 * k + mapPlace map i) = data (dp + 4 * k + i) := by
  rw [dload_reorder_inside hk (mapPlace_lt map i), byteOf_reorderWord_place h _ hi,
    Memory.byteOf_word _ _ hi]

variable {order : Equiv.Perm (Fin 4)}

theorem Normalises.order_eq (h : Normalises raw map dsiz order) (hmap : map = REORDER_MAP raw)
    (hbogus : map &&& 0xFCFCFCFC = 0) (i : Fin 4) : (order i : Nat) = mapPlace map i :=
  reshuffle_inj (order i).isLt (mapPlace_lt map i)
    ((h.header i).symm.trans (header_byte hmap hbogus i.isLt))

theorem Normalises.scatters (h : Normalises raw map dsiz order) (hmap : map = REORDER_MAP raw)
    (hbogus : map &&& 0xFCFCFCFC = 0) : Scatters map := by
  intro i hi j hj hij
  have heq : order ⟨i, hi⟩ = order ⟨j, hj⟩ := by
    apply Fin.ext
    rw [h.order_eq hmap hbogus, h.order_eq hmap hbogus]
    exact hij
  exact congrArg Fin.val (order.injective heq)

/-- The order leaves a byte where it is that is behind the size, but in the last word. -/
theorem Normalises.fixed (h : Normalises raw map dsiz order) (hmap : map = REORDER_MAP raw)
    (hbogus : map &&& 0xFCFCFCFC = 0) (h0 : map ≠ 0) {k : Nat} (hk : k < wordCount dsiz)
    {i : Fin 4} (hout : dsiz.toInt.toNat ≤ 4 * k + i) : order i = i := by
  let data : Memory := fun x => byteOf BYTE_RESHUFFLE_VALUE (x % 4)
  obtain ⟨j, rfl⟩ := order.surjective i
  have hkeep := h.frame data 0 (4 * k + order j) (.inr (by omega))
  have hmove := @dload_reorder_place map dsiz data 0 k j (h.scatters hmap hbogus) hk j.isLt
  rw [reorderIfNeeded, if_pos h0] at hkeep
  rw [zero_add, ← h.order_eq hmap hbogus, hkeep] at hmove
  have hmod : ∀ p : Fin 4, (4 * k + p) % 4 = p := fun p => by omega
  have heq : (order j : Nat) = j := by
    apply reshuffle_inj (order j).isLt j.isLt
    simpa only [data, hmod] using hmove
  have hfix : order j = j := Fin.ext heq
  rw [hfix, hfix]

theorem reorderable_of_normalises (h : headerOrder dfile_hdr = some (hdr, map))
    (hn : Normalises (dfile_hdr.word offset_byte_reshuffle) map dsiz order) :
    Reorderable (dfile_hdr.word offset_byte_reshuffle) dsiz := by
  rcases headerOrder_spec h with ⟨hhost, -⟩ | ⟨hdiffers, h0, hmap, hbogus⟩
  · exact .inl hhost
  generalize dfile_hdr.word offset_byte_reshuffle = raw at *
  have hfixed : ∀ k < wordCount dsiz, ∀ i < 4, dsiz.toInt.toNat ≤ 4 * k + i →
      byteOf raw i = byteOf BYTE_RESHUFFLE_VALUE i := by
    intro k hk i hi hout
    have hheader := hn.header ⟨i, hi⟩
    rwa [hn.fixed hmap hbogus h0 hk (i := ⟨i, hi⟩) hout] at hheader
  have hpos : 0 < dsiz := by
    by_contra hle
    have hsize : ¬ 0 < dsiz.toInt := fun hpos => hle (Int32.lt_iff_toInt_lt.2 hpos)
    refine hdiffers (word_ext fun i hi => hfixed 0 ?_ i hi (by omega))
    rw [wordCount]
    omega
  have hcount := wordCount_of_pos hpos
  have hsize : 0 < dsiz.toInt := Int32.lt_iff_toInt_lt.1 hpos
  refine .inr ⟨fun i hi j hj hij => ?_, hpos, fun i hi hpart htail => ?_⟩
  · have heq : order ⟨i, hi⟩ = order ⟨j, hj⟩ := by
      apply Fin.ext
      apply reshuffle_inj (order _).isLt (order _).isLt
      rw [← hn.header, ← hn.header]
      exact hij
    exact congrArg Fin.val (order.injective heq)
  · exact hfixed (wordCount dsiz - 1) (by omega) i hi (by omega)

theorem normalises_of_reorderable (h : headerOrder dfile_hdr = some (hdr, map))
    (hr : Reorderable (dfile_hdr.word offset_byte_reshuffle) dsiz) :
    ∃ order, Normalises (dfile_hdr.word offset_byte_reshuffle) map dsiz order := by
  rcases headerOrder_spec h with ⟨hhost, rfl⟩ | ⟨hdiffers, h0, hmap, hbogus⟩
  · have hkeep : ∀ data dp, reorderIfNeeded 0 data dp dsiz = data := fun data dp => rfl
    refine ⟨Equiv.refl _, fun i => by rw [hhost]; rfl, fun data dp k i _ => ?_,
      fun data dp x _ => ?_, fun image data dp hwritten j hj => ?_⟩
    · rw [hkeep]
      rfl
    · rw [hkeep]
    · have hdiv : 4 * (j / 4) + j % 4 = j := by omega
      have hbyte := hwritten (j / 4) ⟨j % 4, by omega⟩ (by simpa [hdiv] using hj)
      rw [hkeep]
      simpa [hdiv, add_assoc] using hbyte
  obtain ⟨hdistinct, hpos, htail⟩ := hr.resolve_left hdiffers
  generalize dfile_hdr.word offset_byte_reshuffle = raw at *
  have hscatters : Scatters map := by
    intro i hi j hj hij
    apply hdistinct i hi j hj
    rw [header_byte hmap hbogus hi, header_byte hmap hbogus hj, hij]
  let places : Fin 4 → Fin 4 := fun i => ⟨mapPlace map i, mapPlace_lt map i⟩
  have hinj : Function.Injective places := fun i j hij =>
    Fin.ext (hscatters i i.isLt j j.isLt (Fin.mk.inj hij))
  let order := Equiv.ofBijective places (Finite.injective_iff_bijective.1 hinj)
  have horder : ∀ i, (order i : Nat) = mapPlace map i := fun i => rfl
  have hcount := wordCount_of_pos hpos
  have hsize : 0 < dsiz.toInt := Int32.lt_iff_toInt_lt.1 hpos
  have hfixed : ∀ k < wordCount dsiz, ∀ i : Fin 4, dsiz.toInt.toNat ≤ 4 * k + i → order i = i := by
    intro k hk i hout
    apply Fin.ext
    apply reshuffle_inj (order i).isLt i.isLt
    rw [horder, ← header_byte hmap hbogus i.isLt]
    exact htail i i.isLt (by omega) (by omega)
  have hplace : ∀ (data : Memory) (dp : Nat), ∀ k < wordCount dsiz, ∀ i : Fin 4,
      reorderIfNeeded map data dp dsiz (dp + 4 * k + order i) = data (dp + 4 * k + i) := by
    intro data dp k hk i
    rw [reorderIfNeeded, if_pos h0, horder]
    exact dload_reorder_place hscatters hk i.isLt
  refine ⟨order, fun i => ?_, fun data dp k i hin => ?_, fun data dp x hx => ?_,
    fun image data dp hwritten j hj => ?_⟩
  · rw [horder]
    exact header_byte hmap hbogus i.isLt
  · exact hplace data dp k (by omega) i
  · by_cases hrange : x < dp ∨ dp + 4 * wordCount dsiz ≤ x
    · rw [reorderIfNeeded, if_pos h0]
      exact reorderWords_outside hrange
    · have hx' : x = dp + 4 * ((x - dp) / 4) + (x - dp) % 4 := by omega
      have hmod : (x - dp) % 4 < 4 := mod_lt _ (by decide)
      have hk : (x - dp) / 4 < wordCount dsiz := by omega
      have hfix := hfixed ((x - dp) / 4) hk ⟨(x - dp) % 4, hmod⟩ (by dsimp only; omega)
      have hmove := hplace data dp _ hk ⟨(x - dp) % 4, hmod⟩
      rw [hfix] at hmove
      rw [hx']
      exact hmove
  · obtain ⟨i, hi⟩ := order.surjective ⟨j % 4, mod_lt j (by decide)⟩
    have hk : j / 4 < wordCount dsiz := by omega
    have hji : j = 4 * (j / 4) + order i := by
      rw [hi]
      dsimp only
      omega
    have hin : (4 * (j / 4) + i : Nat) < dsiz.toInt := by
      by_contra hout
      have hfix := hfixed (j / 4) hk i (by omega)
      rw [hfix] at hji
      omega
    rw [hji, ← add_assoc, hplace data dp _ hk i, hwritten (j / 4) i hin]

/-- A map that passes is recorded. -/
theorem headerOrder_of_word (hraw : dfile_hdr.word offset_byte_reshuffle = raw)
    (hdiffers : raw ≠ BYTE_RESHUFFLE_VALUE) (hbogus : REORDER_MAP raw &&& 0xFCFCFCFC = 0)
    (hword : reorderWord (REORDER_MAP raw) raw = BYTE_RESHUFFLE_VALUE) :
    headerOrder dfile_hdr =
      some (dload_reorder dfile_hdr 0 COMBINED_HEADER_SIZE (REORDER_MAP raw), REORDER_MAP raw) := by
  have hmap : REORDER_MAP raw ≠ REORDER_MAP BYTE_RESHUFFLE_VALUE :=
    fun heq => hdiffers ((BitVec.xor_left_inj _).1 heq)
  have hcount : 2 < wordCount COMBINED_HEADER_SIZE := by decide
  have hreordered := @word_dload_reorder dfile_hdr (REORDER_MAP raw) _ 2 hcount
  have hoffset : 4 * 2 = offset_byte_reshuffle := rfl
  rw [hoffset, hraw, hword] at hreordered
  rw [headerOrder]
  simp only [hraw, hmap, hbogus, hreordered, ne_eq, not_false_iff, not_true, if_true, if_false]

end

theorem reorder_normalises_iff {dfile_hdr hdr : Memory} {reorder_map : BitVec 32}
    (h : headerOrder dfile_hdr = some (hdr, reorder_map)) (dsiz : Int32) :
    (∃ order, Normalises (dfile_hdr.word offset_byte_reshuffle) reorder_map dsiz order) ↔
      Reorderable (dfile_hdr.word offset_byte_reshuffle) dsiz := by
  constructor
  · rintro ⟨order, hn⟩
    exact reorderable_of_normalises h hn
  · exact normalises_of_reorderable h

/-- Headers with this reshuffle word. -/
def headerWith (raw : BitVec 32) : Memory :=
  Memory.setWord (fun _ => 0) offset_byte_reshuffle raw

theorem headerWith_word (raw : BitVec 32) : (headerWith raw).word offset_byte_reshuffle = raw :=
  Memory.word_setWord _ _ _

/-- The map of a big-endian file is recorded. -/
theorem bigEndian_recorded :
    ∃ hdr, headerOrder (headerWith 0x03020100) = some (hdr, 0x00010203) := by
  have hword : reorderWord 0x00010203 0x03020100 = BYTE_RESHUFFLE_VALUE := by
    rw [reorderWord_eq]
    decide
  exact ⟨_, headerOrder_of_word (headerWith_word _) (by decide) (by decide) hword⟩

theorem reorder_normalises_big_endian :
    (∃ order, Normalises 0x03020100 0x00010203 8 order) ↔ Reorderable 0x03020100 8 := by
  obtain ⟨hdr, hheader⟩ := bigEndian_recorded
  simpa only [headerWith_word] using reorder_normalises_iff hheader 8

/-- The check lets a map pass that sends two bytes to one place, and the reader then makes one word
of two. With a good map a word is changed though the size is zero. -/
theorem doubled_place_loses_data :
    (∃ hdr, headerOrder (headerWith 0x03010203) = some (hdr, 0x00020100)) ∧
      reorderWord 0x00020100 0x00000001 = reorderWord 0x00020100 0x01000000 ∧
      (∀ order, ¬ Normalises 0x03010203 0x00020100 4 order) ∧
      ∀ order, ¬ Normalises 0x03020100 0x00010203 0 order := by
  have hword : reorderWord 0x00020100 0x03010203 = BYTE_RESHUFFLE_VALUE := by
    rw [reorderWord_eq]
    decide
  obtain ⟨hdr, hdoubled⟩ :
      ∃ hdr, headerOrder (headerWith 0x03010203) = some (hdr, 0x00020100) :=
    ⟨_, headerOrder_of_word (headerWith_word _) (by decide) (by decide) hword⟩
  refine ⟨⟨hdr, hdoubled⟩, ?_, fun order hn => ?_, fun order hn => ?_⟩
  · rw [reorderWord_eq, reorderWord_eq]
    decide
  · have hr := reorderable_of_normalises hdoubled (by simpa only [headerWith_word] using hn)
    rw [headerWith_word] at hr
    exact absurd hr (by unfold Reorderable; decide)
  · obtain ⟨hdr, hheader⟩ := bigEndian_recorded
    have hr := reorderable_of_normalises hheader (by simpa only [headerWith_word] using hn)
    rw [headerWith_word] at hr
    exact absurd hr (by unfold Reorderable; decide)

end OmapHal.Dynload
