import OmapHal.Dynload.SectionPackets

/-!
# Extraction inside the caller's buffer

What the loop of `DLOAD_GetSection` stores and when it returns true, said by the packets that the
file holds.
-/

namespace OmapHal.Dynload

open OmapHal.Core List Nat

/-! ### Words and sums -/

theorem checksumLoop_eq (data : Memory) (sum : BitVec 32) (dp : Nat) (left : Int32) :
    checksumLoop data sum dp left =
      sum + ((List.range ((left.toInt.toNat + 3) / 4)).map
        fun k => data.word (dp + 4 * k)).sum := by
  induction sum, dp, left using checksumLoop.induct data with
  | case1 sum dp left hpos ih =>
    have hleft : 0 < left.toInt := Int32.lt_iff_toInt_lt.1 hpos
    have hcount : (left.toInt.toNat + 3) / 4 = ((left - 4).toInt.toNat + 3) / 4 + 1 := by
      rw [toInt_sub_four hpos]
      omega
    have hplace : ∀ k, dp + 4 + 4 * k = dp + 4 * (k + 1) := fun k => by omega
    rw [checksumLoop, if_pos hpos, ih, hcount, range_succ_eq_map, map_cons, sum_cons,
      map_map, BitVec.add_assoc]
    simp only [mul_zero, add_zero, hplace, Function.comp_def, succ_eq_add_one]
  | case2 sum dp left hneg =>
    have hleft : ¬ 0 < left.toInt := fun hpos => hneg (Int32.lt_iff_toInt_lt.2 hpos)
    have hcount : (left.toInt.toNat + 3) / 4 = 0 := by omega
    rw [checksumLoop, if_neg hneg, hcount]
    simp

theorem dload_checksum_eq (data : Memory) (dp : Nat) (siz : Int32) :
    dload_checksum data dp siz =
      ((List.range ((siz.toInt.toNat + 3) / 4)).map fun k => data.word (dp + 4 * k)).sum := by
  rw [dload_checksum, checksumLoop_eq]
  exact BitVec.zero_add _

theorem toNat_doffAlign (x : BitVec 32) :
    (doffAlign x).toNat = (x.toNat + 3) % 2 ^ 32 / 4 * 4 := by
  have hmask : (~~~3 : BitVec 32) = ~~~(BitVec.ofNat 32 (2 ^ 2 - 1)) := by decide
  have hclear : doffAlign x = (x + 3) >>> 2 <<< 2 := by
    apply BitVec.eq_of_getLsbD_eq
    intro k hk
    rw [doffAlign, hmask, BitVec.getLsbD_and, BitVec.getLsbD_not, BitVec.getLsbD_ofNat,
      testBit_two_pow_sub_one, BitVec.getLsbD_shiftLeft, BitVec.getLsbD_ushiftRight]
    by_cases hlow : k < 2
    · simp [hlow]
    · have hback : 2 + (k - 2) = k := by omega
      simp [hlow, hk, hback]
  have h3 : (3 : BitVec 32).toNat = 3 := rfl
  rw [hclear, BitVec.toNat_shiftLeft, BitVec.toNat_ushiftRight, BitVec.toNat_add, h3,
    shiftLeft_eq, shiftRight_eq_div_pow]
  omega

theorem toInt_of_nonneg {x : BitVec 32} (h : 0 ≤ x.toInt) : x.toInt = x.toNat := by
  rw [BitVec.toInt_eq_toNat_cond] at *
  split at h <;> split <;> omega

namespace ModuleInfo

variable {dlthis : ModuleInfo} {p n : Nat}

theorem length_read_buffer (dlthis : ModuleInfo) (p n : Nat) :
    (dlthis.strm.read_buffer p n).length = min n (dlthis.length - p) := by
  rw [ModuleFile.read_buffer, length_take, length_drop, length]

theorem getElem?_read_buffer {j : Nat} (hj : j < n) :
    (dlthis.strm.read_buffer p n)[j]? = dlthis.strm.bytes[p + j]? := by
  rw [ModuleFile.read_buffer, getElem?_take_of_lt hj, getElem?_drop]

/-- A word of what was read, put into order, is a word of the file. -/
theorem hostWord_of_read {data : Memory} {dest k : Nat}
    (hread : 4 * k + 4 ≤ (dlthis.strm.read_buffer p n).length) :
    Memory.word (data.write dest (dlthis.strm.read_buffer p n)) (dest + 4 * k) =
      Memory.word (fun a => dlthis.strm.bytes.getD a 0) (p + 4 * k) := by
  refine word_ext fun i hi => ?_
  have hlen := length_read_buffer dlthis p n
  have hback : dest + 4 * k + i - dest = 4 * k + i := by omega
  have hplace : p + (4 * k + i) = p + 4 * k + i := by omega
  have hin : p + 4 * k + i < dlthis.strm.bytes.length := by
    unfold length at hlen
    omega
  rw [Memory.byteOf_word _ _ hi, Memory.byteOf_word _ _ hi, Memory.write, if_pos (by omega), hback,
    getD_eq_getElem?_getD, getElem?_read_buffer (by omega), hplace,
    getD_eq_getElem?_getD, getElem?_eq_getElem hin, Option.getD_some, Option.getD_some]

/-- The words of the header. -/
theorem packetHeader_word (h : p + IPH_SIZE ≤ dlthis.length) {k : Nat} (hk : k < 3) :
    (packetHeader dlthis (dlthis.strm.read_buffer p IPH_SIZE)).word (4 * k) =
      dlthis.hostWord (p + 4 * k) := by
  have hlen := length_read_buffer dlthis p IPH_SIZE
  have hword := @hostWord_of_read dlthis p IPH_SIZE (fun _ => 0) 0 k
    (by unfold IPH_SIZE at *; omega)
  rw [zero_add] at hword
  rw [packetHeader, reorderIfNeeded, hostWord]
  split
  · have hcount : wordCount 12 = 3 := by decide
    rw [word_dload_reorder (by omega), hword]
  · exact hword

theorem alignedSize_mod (dlthis : ModuleInfo) (p : Nat) : (dlthis.alignedSize p).toNat % 4 = 0 := by
  rw [alignedSize, toNat_doffAlign]
  omega

/-- All of a packet's data is read, if the size is not negative and the file has it. -/
theorem length_bits_eq_iff (h : p + IPH_SIZE ≤ dlthis.length) :
    ((dlthis.strm.read_buffer (p + IPH_SIZE) (dlthis.alignedSize p).toNat).length : Int) =
        (dlthis.alignedSize p).toInt ↔
      0 ≤ (dlthis.alignedSize p).toInt ∧
        p + IPH_SIZE + (dlthis.alignedSize p).toNat ≤ dlthis.length := by
  have hlen := length_read_buffer dlthis (p + IPH_SIZE) (dlthis.alignedSize p).toNat
  constructor
  · intro heq
    have hint := toInt_of_nonneg (x := dlthis.alignedSize p) (by omega)
    omega
  · rintro ⟨h0, hfile⟩
    rw [toInt_of_nonneg h0]
    omega

/-- What the buffer holds of a packet that was read completely. -/
theorem word_stored {dest k : Nat} (h0 : 0 ≤ (dlthis.alignedSize p).toInt)
    (hfile : p + IPH_SIZE + (dlthis.alignedSize p).toNat ≤ dlthis.length)
    (hk : k < (dlthis.alignedSize p).toNat / 4) (s : Extraction) :
    ((s.store dest (dlthis.strm.read_buffer (p + IPH_SIZE) (dlthis.alignedSize p).toNat)).reorder
        dlthis dest (dlthis.alignedSize p)).data.word (dest + 4 * k) =
      dlthis.hostWord (p + IPH_SIZE + 4 * k) := by
  have hlen := length_read_buffer dlthis (p + IPH_SIZE) (dlthis.alignedSize p).toNat
  have hword := @hostWord_of_read dlthis (p + IPH_SIZE) (dlthis.alignedSize p).toNat s.data dest k
    (by omega)
  rw [Extraction.reorder, hostWord]
  split
  · have hpos : 0 < Int32.ofBitVec (dlthis.alignedSize p) := by
      apply Int32.lt_iff_toInt_lt.2
      rw [Int32.toInt_ofBitVec, toInt_of_nonneg h0]
      have hzero : (0 : Int32).toInt = 0 := rfl
      omega
    have hcount := wordCount_of_pos hpos
    rw [Int32.toInt_ofBitVec, toInt_of_nonneg h0] at hcount
    rw [← hword]
    refine word_ext fun i hi => ?_
    rw [Memory.byteOf_word _ _ hi]
    exact dload_reorder_inside (by omega) hi
  · exact hword

end ModuleInfo

/-- What the loop does with a packet. -/
structure PacketRead (dlthis : ModuleInfo) (s : Extraction) (dest : Nat)
    (r : Option SectionError × Extraction × Nat) : Prop where
  none_iff : r.1 = none ↔ dlthis.Verifies s.posn
  mem_stored : ∀ a, a ∈ r.2.1.stored ↔
    a ∈ s.stored ∨ dest ≤ a ∧ a < dest + dlthis.storedAt s.posn
  posn_eq : dlthis.Verifies s.posn →
    r.2.1.posn = s.posn + IPH_SIZE + (dlthis.alignedSize s.posn).toNat
  advance_eq : dlthis.Verifies s.posn → r.2.2 = (dlthis.alignedSize s.posn).toNat
  read_eq : dlthis.Verifies s.posn →
    r.2.1.data.read dest (dlthis.alignedSize s.posn).toNat = dlthis.packetData s.posn
  keeps : dlthis.Verifies s.posn → ∀ x < dest, r.2.1.data x = s.data x

section

variable {dlthis : ModuleInfo} {s : Extraction} (dest : Nat)

/-- The state after a packet's data was read completely and put into order. -/
def Extraction.taken (dlthis : ModuleInfo) (s : Extraction) (dest : Nat) : Extraction :=
  (s.store dest (dlthis.strm.read_buffer (s.posn + IPH_SIZE)
    (dlthis.alignedSize s.posn).toNat)).reorder dlthis dest (dlthis.alignedSize s.posn)

theorem mem_taken_stored (hheader : s.posn + IPH_SIZE ≤ dlthis.length)
    (h0 : 0 ≤ (dlthis.alignedSize s.posn).toInt)
    (hsize : (dlthis.alignedSize s.posn).toInt ≤ IMAGE_PACKET_SIZE)
    (hfile : s.posn + IPH_SIZE + (dlthis.alignedSize s.posn).toNat ≤ dlthis.length) (a : Nat) :
    a ∈ (s.taken dlthis dest).stored ↔
      a ∈ s.stored ∨ dest ≤ a ∧ a < dest + dlthis.storedAt s.posn := by
  have hlen := dlthis.length_read_buffer (s.posn + IPH_SIZE) (dlthis.alignedSize s.posn).toNat
  have hmod := dlthis.alignedSize_mod s.posn
  have hmin : min (dlthis.alignedSize s.posn).toNat (dlthis.length - (s.posn + IPH_SIZE)) =
      (dlthis.alignedSize s.posn).toNat := by omega
  rw [hmin] at hlen
  rw [ModuleInfo.storedAt, if_pos ⟨hheader, hsize⟩, hmin, Extraction.taken, Extraction.reorder]
  by_cases hmap : dlthis.reorder_map ≠ 0
  · rw [if_pos hmap]
    simp only [Extraction.store, mem_append, mem_range'_1, hlen]
    by_cases hzero : dlthis.alignedSize s.posn = 0
    · have hcount : wordCount (.ofBitVec 0) = 1 := by decide
      rw [if_pos ⟨hmap, hzero⟩, hzero, hcount]
      have hnat : (0 : BitVec 32).toNat = 0 := rfl
      rw [hnat, or_assoc]
      exact or_congr_right (by omega)
    · have hpos : 0 < Int32.ofBitVec (dlthis.alignedSize s.posn) := by
        have hne : (dlthis.alignedSize s.posn).toNat ≠ 0 := fun h =>
          hzero (BitVec.eq_of_toNat_eq h)
        apply Int32.lt_iff_toInt_lt.2
        rw [Int32.toInt_ofBitVec, toInt_of_nonneg h0]
        have hzero : (0 : Int32).toInt = 0 := rfl
        omega
      have hcount := wordCount_of_pos hpos
      rw [Int32.toInt_ofBitVec, toInt_of_nonneg h0] at hcount
      rw [if_neg fun h => hzero h.2, hcount, or_assoc]
      exact or_congr_right (by omega)
  · rw [if_neg hmap, if_neg fun h => hmap h.1]
    simp only [Extraction.store, mem_append, mem_range'_1, hlen]

theorem taken_read (h0 : 0 ≤ (dlthis.alignedSize s.posn).toInt)
    (hfile : s.posn + IPH_SIZE + (dlthis.alignedSize s.posn).toNat ≤ dlthis.length) :
    (s.taken dlthis dest).data.read dest (dlthis.alignedSize s.posn).toNat =
      dlthis.packetData s.posn := by
  have hmod := dlthis.alignedSize_mod s.posn
  apply ext_getElem?
  intro j
  by_cases hj : j < (dlthis.alignedSize s.posn).toNat
  · have hplace : dest + 4 * (j / 4) + j % 4 = dest + j := by omega
    rw [Memory.getElem?_read _ _ hj, ModuleInfo.packetData, getElem?_map,
      getElem?_range hj, Option.map_some, ← ModuleInfo.word_stored h0 hfile (by omega) s,
      Memory.byteOf_word _ _ (mod_lt j (by decide)), hplace]
    rfl
  · rw [getElem?_eq_none (by rw [Memory.length_read]; omega),
      getElem?_eq_none (by rw [ModuleInfo.packetData, length_map, length_range]; omega)]

theorem taken_keeps {x : Nat} (hx : x < dest) : (s.taken dlthis dest).data x = s.data x := by
  rw [Extraction.taken, Extraction.reorder]
  have hstore : ∀ bits, (s.store dest bits).data x = s.data x := fun bits =>
    Memory.write_of_outside (.inl hx)
  split
  · exact (reorderWords_outside (.inl hx)).trans (hstore _)
  · exact hstore _

/-- The sum that is checked is the one over the file's words. -/
theorem taken_checks (hheader : s.posn + IPH_SIZE ≤ dlthis.length)
    (h0 : 0 ≤ (dlthis.alignedSize s.posn).toInt)
    (hfile : s.posn + IPH_SIZE + (dlthis.alignedSize s.posn).toNat ≤ dlthis.length) :
    dload_checksum (s.taken dlthis dest).data dest (.ofBitVec (dlthis.alignedSize s.posn)) +
        dload_checksum (packetHeader dlthis (dlthis.strm.read_buffer s.posn IPH_SIZE)) 0 12 =
      dlthis.wordSum (s.posn + IPH_SIZE) ((dlthis.alignedSize s.posn).toNat / 4) +
        dlthis.wordSum s.posn 3 := by
  have hmod := dlthis.alignedSize_mod s.posn
  have hcount : ((Int32.ofBitVec (dlthis.alignedSize s.posn)).toInt.toNat + 3) / 4 =
      (dlthis.alignedSize s.posn).toNat / 4 := by
    rw [Int32.toInt_ofBitVec, toInt_of_nonneg h0]
    omega
  have hthree : ((12 : Int32).toInt.toNat + 3) / 4 = 3 := by decide
  congr 1
  · rw [dload_checksum_eq, hcount, ModuleInfo.wordSum]
    congr 1
    refine map_congr_left fun k hk => ?_
    exact ModuleInfo.word_stored h0 hfile (mem_range.1 hk) s
  · rw [dload_checksum_eq, hthree, ModuleInfo.wordSum]
    congr 1
    refine map_congr_left fun k hk => ?_
    rw [zero_add]
    exact ModuleInfo.packetHeader_word hheader (mem_range.1 hk)

theorem getPacket_spec (dlthis : ModuleInfo) (s : Extraction) (dest : Nat) :
    PacketRead dlthis s dest (getPacket dlthis s dest) := by
  have hlen := dlthis.length_read_buffer s.posn IPH_SIZE
  rw [getPacket]
  by_cases hheader : s.posn + IPH_SIZE ≤ dlthis.length
  swap
  · have hshort : (dlthis.strm.read_buffer s.posn IPH_SIZE).length ≠ IPH_SIZE := by
      unfold IPH_SIZE at *
      omega
    have hnot : ¬ dlthis.Verifies s.posn := fun h => hheader h.1
    have hzero : dlthis.storedAt s.posn = 0 := if_neg fun h => hheader h.1
    simp only [ne_eq, hshort, not_false_iff, if_true]
    refine ⟨iff_of_false (by simp) hnot, fun a => ?_, fun h => absurd h hnot,
      fun h => absurd h hnot, fun h => absurd h hnot, fun h => absurd h hnot⟩
    rw [hzero]
    exact (or_iff_left (by omega)).symm
  have hfull : (dlthis.strm.read_buffer s.posn IPH_SIZE).length = IPH_SIZE := by
    omega
  have hsize := ModuleInfo.packetHeader_word hheader (k := 1) (by decide)
  have hrelocs := ModuleInfo.packetHeader_word hheader (k := 0) (by decide)
  have haligned : doffAlign ((packetHeader dlthis
      (dlthis.strm.read_buffer s.posn IPH_SIZE)).word 4) = dlthis.alignedSize s.posn :=
    congrArg doffAlign hsize
  simp only [ne_eq, hfull, not_true, if_false, haligned]
  by_cases hlarge : (dlthis.alignedSize s.posn).toInt > IMAGE_PACKET_SIZE
  · have hnot : ¬ dlthis.Verifies s.posn := fun h => absurd h.2.2.1 (by omega)
    have hzero : dlthis.storedAt s.posn = 0 := if_neg fun h => absurd h.2 (by omega)
    rw [if_pos hlarge]
    refine ⟨iff_of_false (by simp) hnot, fun a => ?_, fun h => absurd h hnot,
      fun h => absurd h hnot, fun h => absurd h hnot, fun h => absurd h hnot⟩
    rw [hzero]
    exact (or_iff_left (by omega)).symm
  rw [if_neg hlarge]
  by_cases hbits : ((dlthis.strm.read_buffer (s.posn + IPH_SIZE)
      (dlthis.alignedSize s.posn).toNat).length : Int) = (dlthis.alignedSize s.posn).toInt
  swap
  · have hcut := mt (ModuleInfo.length_bits_eq_iff hheader).2 hbits
    have hnot : ¬ dlthis.Verifies s.posn := fun h => hcut ⟨h.2.1, h.2.2.2.1⟩
    have hbitsLen := dlthis.length_read_buffer (s.posn + IPH_SIZE)
      (dlthis.alignedSize s.posn).toNat
    have hne : dlthis.alignedSize s.posn ≠ 0 := by
      intro h0
      rw [h0] at hcut
      exact hcut ⟨by decide, by simpa using hheader⟩
    rw [if_pos hbits]
    refine ⟨iff_of_false (by simp) hnot, fun a => ?_, fun h => absurd h hnot,
      fun h => absurd h hnot, fun h => absurd h hnot, fun h => absurd h hnot⟩
    rw [ModuleInfo.storedAt, if_pos ⟨hheader, by omega⟩, if_neg fun h => hne h.2]
    simp only [Extraction.store, mem_append, mem_range'_1, hbitsLen]
  obtain ⟨h0, hfile⟩ := (ModuleInfo.length_bits_eq_iff hheader).1 hbits
  have hmem := mem_taken_stored dest hheader h0 (by omega) hfile
  have hread := taken_read dest h0 hfile
  have hchecks := taken_checks dest hheader h0 hfile
  have hposn : (s.taken dlthis dest).posn =
      s.posn + IPH_SIZE + (dlthis.alignedSize s.posn).toNat := by
    have hlength : (dlthis.strm.read_buffer (s.posn + IPH_SIZE)
        (dlthis.alignedSize s.posn).toNat).length = (dlthis.alignedSize s.posn).toNat := by
      have hint := toInt_of_nonneg h0
      omega
    rw [Extraction.taken, Extraction.reorder]
    split <;> simp only [Extraction.store, hlength]
  have hverifies : dlthis.Verifies s.posn ↔
      (packetHeader dlthis (dlthis.strm.read_buffer s.posn IPH_SIZE)).word 0 = 0 ∧
      ~~~(dload_checksum (s.taken dlthis dest).data dest (.ofBitVec (dlthis.alignedSize s.posn)) +
        dload_checksum (packetHeader dlthis (dlthis.strm.read_buffer s.posn IPH_SIZE)) 0 12) =
          0 := by
    rw [hchecks, ModuleInfo.Verifies]
    exact ⟨fun h => ⟨hrelocs.trans h.2.2.2.2.1, h.2.2.2.2.2⟩,
      fun h => ⟨hheader, h0, by omega, hfile, hrelocs.symm.trans h.1, h.2⟩⟩
  rw [if_neg (not_not.2 hbits)]
  change PacketRead dlthis s dest (
    if (packetHeader dlthis (dlthis.strm.read_buffer s.posn IPH_SIZE)).word 0 ≠ 0 then
      (some (.E_RELOC (dlthis.alignedSize s.posn)), s.taken dlthis dest, 0)
    else if ~~~(dload_checksum (s.taken dlthis dest).data dest
        (.ofBitVec (dlthis.alignedSize s.posn)) + dload_checksum (packetHeader dlthis
          (dlthis.strm.read_buffer s.posn IPH_SIZE)) 0 12) ≠ 0 then
      (some .E_CHECKSUM, s.taken dlthis dest, 0)
    else (none, s.taken dlthis dest, (dlthis.alignedSize s.posn).toNat))
  split
  · rename_i hreloc
    have hnot : ¬ dlthis.Verifies s.posn := fun h => hreloc (hverifies.1 h).1
    exact ⟨iff_of_false (by simp) hnot, hmem, fun h => absurd h hnot, fun h => absurd h hnot,
      fun h => absurd h hnot, fun h => absurd h hnot⟩
  · split
    · rename_i hchecksum
      have hnot : ¬ dlthis.Verifies s.posn := fun h => hchecksum (hverifies.1 h).2
      exact ⟨iff_of_false (by simp) hnot, hmem, fun h => absurd h hnot, fun h => absurd h hnot,
        fun h => absurd h hnot, fun h => absurd h hnot⟩
    · rename_i hreloc hchecksum
      have hall : dlthis.Verifies s.posn :=
        hverifies.2 ⟨not_not.1 hreloc, not_not.1 hchecksum⟩
      exact ⟨iff_of_true rfl hall, hmem, fun _ => hposn, fun _ => rfl, fun _ => hread,
        fun _ x hx => taken_keeps dest hx⟩

end

/-! ### The packets in turn -/

namespace ModuleInfo

variable (dlthis : ModuleInfo)

/-- How many bytes the packets at these positions have. -/
def span (ps : List Nat) : Nat := (ps.map fun p => (dlthis.alignedSize p).toNat).sum

/-- A byte is stored for one of the packets, the first of which goes to `dest`. -/
def StoresAt (a : Nat) : List Nat → Nat → Prop
  | [], _ => False
  | p :: ps, dest =>
    dest ≤ a ∧ a < dest + dlthis.storedAt p ∨
      dlthis.Verifies p ∧ StoresAt a ps (dest + (dlthis.alignedSize p).toNat)

/-- What is stored for each packet that is reached, the first of which goes to `dest`, ends before
the limit. -/
def Fits (limit : Nat) : List Nat → Nat → Prop
  | [], _ => True
  | p :: ps, dest =>
    dest + dlthis.storedAt p ≤ limit ∧
      (dlthis.Verifies p → Fits limit ps (dest + (dlthis.alignedSize p).toNat))

variable {dlthis} {p limit dest a : Nat} {ps : List Nat}

theorem Verifies.alignedSize_le (h : dlthis.Verifies p) :
    (dlthis.alignedSize p).toNat ≤ dlthis.storedAt p := by
  obtain ⟨hheader, -, hsize, hfile, -⟩ := h
  rw [storedAt, if_pos ⟨hheader, hsize⟩]
  split
  · rename_i hempty
    rw [hempty.2]
    exact zero_le 4
  · omega

theorem Verifies.storedAt_eq (h : dlthis.Verifies p) :
    dlthis.storedAt p =
      if dlthis.reorder_map ≠ 0 ∧ dlthis.alignedSize p = 0 then 4
      else (dlthis.alignedSize p).toNat := by
  obtain ⟨hheader, -, hsize, hfile, -⟩ := h
  rw [storedAt, if_pos ⟨hheader, hsize⟩]
  split
  · rfl
  · omega

theorem storesAt_lt_iff_fits (hdest : dest ≤ limit) :
    (∀ a, dlthis.StoresAt a ps dest → a < limit) ↔ dlthis.Fits limit ps dest := by
  induction ps generalizing dest with
  | nil => exact iff_of_true (fun a h => h.elim) trivial
  | cons p ps ih =>
    constructor
    · intro h
      have hhere : dest + dlthis.storedAt p ≤ limit := by
        by_contra hout
        have hlast := h (dest + dlthis.storedAt p - 1) (.inl (by omega))
        omega
      refine ⟨hhere, fun hv => (ih ?_).1 fun a ha => h a (.inr ⟨hv, ha⟩)⟩
      have hsize := hv.alignedSize_le
      omega
    · rintro ⟨hhere, hrest⟩ a (ha | ⟨hv, ha⟩)
      · omega
      · have hsize := hv.alignedSize_le
        exact (ih (by omega)).2 (hrest hv) a ha

@[simp] theorem span_cons :
    dlthis.span (p :: ps) = (dlthis.alignedSize p).toNat + dlthis.span ps := by
  rw [span, span, map_cons, sum_cons]

theorem length_flatMap_packetData : (ps.flatMap dlthis.packetData).length = dlthis.span ps := by
  induction ps with
  | nil => rfl
  | cons p ps ih =>
    rw [flatMap_cons, length_append, ih, span_cons, packetData, length_map, length_range]

/-- Packets that end with one that is not empty have at least a word. -/
theorem four_le_span (hne : ps ≠ [])
    (hlast : ∀ q, ps.getLast? = some q → dlthis.alignedSize q ≠ 0) :
    4 ≤ dlthis.span ps := by
  induction ps with
  | nil => exact absurd rfl hne
  | cons p ps ih =>
    rw [span_cons]
    cases ps with
    | nil =>
      have hpos : (dlthis.alignedSize p).toNat ≠ 0 := fun h =>
        hlast p rfl (BitVec.eq_of_toNat_eq h)
      have hmod := dlthis.alignedSize_mod p
      omega
    | cons q ps =>
      have hrest := ih (by simp) fun r hr => hlast r (by rw [getLast?_cons_cons, hr])
      omega

/-- The bytes of the packets and no others are stored, unless the last packet is empty and a word
is put into order behind the packets. -/
theorem storesAt_iff (hall : ∀ q ∈ ps, dlthis.Verifies q)
    (hlast : dlthis.reorder_map ≠ 0 → ∀ q, ps.getLast? = some q → dlthis.alignedSize q ≠ 0) :
    dlthis.StoresAt a ps dest ↔ dest ≤ a ∧ a < dest + dlthis.span ps := by
  induction ps generalizing dest with
  | nil =>
    rw [StoresAt, span]
    simp only [map_nil, sum_nil, false_iff]
    omega
  | cons p ps ih =>
    have hp := hall p mem_cons_self
    have hstored := hp.storedAt_eq
    have hrest : dlthis.reorder_map ≠ 0 → ∀ q, ps.getLast? = some q →
        dlthis.alignedSize q ≠ 0 := fun hmap q hq => hlast hmap q (by
      cases ps with
      | nil => cases hq
      | cons r ps => rw [getLast?_cons_cons, hq])
    rw [StoresAt, ih (fun q hq => hall q (mem_cons_of_mem p hq)) hrest, span_cons]
    simp only [hp, true_and]
    by_cases hempty : dlthis.reorder_map ≠ 0 ∧ dlthis.alignedSize p = 0
    · rw [if_pos hempty] at hstored
      have hne : ps ≠ [] := by
        rintro rfl
        exact hlast hempty.1 p rfl hempty.2
      have hspan := four_le_span hne (hrest hempty.1)
      have hzero : (dlthis.alignedSize p).toNat = 0 := by
        rw [hempty.2]
        rfl
      omega
    · rw [if_neg hempty] at hstored
      omega

/-- A word behind the packets is stored when the last one is empty. -/
theorem storesAt_behind (hall : ∀ q ∈ ps, dlthis.Verifies q) (hmap : dlthis.reorder_map ≠ 0)
    {q : Nat} (hq : ps.getLast? = some q) (hempty : dlthis.alignedSize q = 0) :
    dlthis.StoresAt (dest + dlthis.span ps) ps dest := by
  induction ps generalizing dest with
  | nil => cases hq
  | cons p ps ih =>
    have hp := hall p mem_cons_self
    cases ps with
    | nil =>
      obtain rfl : p = q := Option.some.inj hq
      have hstored := hp.storedAt_eq
      rw [if_pos ⟨hmap, hempty⟩] at hstored
      have hzero : (dlthis.alignedSize p).toNat = 0 := by
        rw [hempty]
        rfl
      refine .inl ?_
      rw [span_cons, span, map_nil, sum_nil]
      omega
    | cons r ps =>
      rw [getLast?_cons_cons] at hq
      refine .inr ⟨hp, ?_⟩
      rw [span_cons, ← add_assoc]
      exact ih (fun x hx => hall x (mem_cons_of_mem p hx)) hq

end ModuleInfo

end OmapHal.Dynload
