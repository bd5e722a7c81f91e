import OmapHal.Core.Run
import OmapHal.ConfigParser.Stream

/-!
# Reading bits

The cached word of a stream is the word of the buffer that ends behind the position, as long as no
call needs bits beyond the last whole word, bits of five bytes at once, or a new word while it
aligns the position.
-/

namespace OmapHal.ConfigParser

open OmapHal.Core Mp4StreamType Nat List

variable {s : Mp4StreamType} {data : Nat → UInt8} {numBytes p n : Nat}

/-! ### Words -/

/-- The buffer with zeros behind it. -/
def padded (data : Nat → UInt8) (numBytes k : Nat) : UInt8 := if k < numBytes then data k else 0

theorem bits_padded (h : p + n ≤ 8 * numBytes) :
    bits (byteBits (padded data numBytes)) p n = bits (byteBits data) p n := by
  refine bits_congr fun i hi => ?_
  rw [byteBits, byteBits, padded, if_pos (by omega)]

theorem bits_past (h : 8 * numBytes ≤ p) (n : Nat) :
    bits (byteBits (padded data numBytes)) p n = 0 := by
  induction n with
  | zero => rfl
  | succ n ih =>
    have hbit : byteBits (padded data numBytes) (p + n) = false := by
      rw [byteBits, padded, if_neg (by omega)]
      exact zero_testBit _
    rw [bits_succ, ih, hbit]
    rfl

theorem word_eq (data : Nat → UInt8) (p : Nat) : word data p = bits (byteBits data) (8 * p) 32 := by
  have h1 := bits_byte data p
  have h2 := bits_push data p 1
  have h3 := bits_push data p 2
  have h4 := bits_push data p 3
  rw [h1] at h2
  rw [h2] at h3
  rw [h3, shiftLeft_or_distrib, shiftLeft_or_distrib, shiftLeft_or_distrib] at h4
  simp only [← shiftLeft_add] at h4
  rw [word]
  exact h4.symm

/-- A word inside the buffer. -/
theorem word_padded (h : p + 4 ≤ numBytes) :
    word data p = bits (byteBits (padded data numBytes)) (8 * p) 32 := by
  rw [word_eq, bits_padded (by omega)]

theorem shl32_eq {x k : Nat} (hk : k < 32) (hx : x < 2 ^ (32 - k)) : shl32 x k = x * 2 ^ k := by
  have hpow : 2 ^ (32 - k) * 2 ^ k = 2 ^ 32 := by rw [← Nat.pow_add, Nat.sub_add_cancel hk.le]
  have hlt : x * 2 ^ k < 2 ^ 32 := hpow ▸ Nat.mul_lt_mul_of_pos_right hx (Nat.two_pow_pos k)
  rw [shl32, if_pos hk, shiftLeft_eq, mod_eq_of_lt hlt]

theorem lastBytes_eq (data : Nat → UInt8) (p : Nat) {i : Nat} (hi : i ≤ 3) :
    lastBytes data p i = bits (byteBits data) (8 * p) (8 * i) * 2 ^ 8 := by
  induction i with
  | zero =>
    rw [mul_zero, bits_zero, zero_mul]
    rfl
  | succ i ih =>
    have hpush := bits_push data p i
    have hlt := bits_lt (byteBits data) (8 * p) (8 * i + 8)
    have hpow : 2 ^ (8 * i + 8) ≤ 2 ^ 24 := Nat.pow_le_pow_right (by omega) (by omega)
    rw [lastBytes, ih (by omega), ← shiftLeft_eq, ← hpush, shl32_eq (by omega) (by omega),
      mul_succ]

/-- The last bytes and zeros. -/
theorem lastBytes_padded (hp : p ≤ numBytes) (h : numBytes - p ≤ 3) :
    shl32 (lastBytes data p (numBytes - p)) (8 * (3 - (numBytes - p))) =
      bits (byteBits (padded data numBytes)) (8 * p) 32 := by
  obtain ⟨k, rfl⟩ : ∃ k, numBytes = p + k := ⟨numBytes - p, by omega⟩
  rw [Nat.add_sub_cancel_left] at h ⊢
  have hlt := bits_lt (byteBits data) (8 * p) (8 * k)
  have hx : bits (byteBits data) (8 * p) (8 * k) * 2 ^ 8 < 2 ^ (32 - 8 * (3 - k)) := by
    have hpow : 2 ^ (32 - 8 * (3 - k)) = 2 ^ (8 * k) * 2 ^ 8 := by
      rw [← pow_add]
      congr 1
      omega
    rw [hpow]
    exact Nat.mul_lt_mul_of_pos_right hlt (Nat.two_pow_pos 8)
  have hwidth : 32 = 8 * k + (8 + 8 * (3 - k)) := by omega
  have hsplit := bits_append (byteBits (padded data (p + k))) (8 * p) (8 * k) (8 + 8 * (3 - k))
  rw [← hwidth, bits_past (p := 8 * p + 8 * k) (by omega), bits_padded (n := 8 * k) (by omega),
    Nat.pow_add] at hsplit
  rw [lastBytes_eq data p h, shl32_eq (by omega) hx, hsplit, Nat.add_zero, Nat.mul_assoc]

/-- The bits that stand in a cached word from a position on. -/
theorem cached_bits {bit : Nat → Bool} {buf pos bitPos : Nat} (hpos : bitPos ≤ pos)
    (hbuf : buf = bits bit (pos - bitPos) 32) (hn : 0 < n) (hle : bitPos + n ≤ 32) :
    shr32 buf (sub32 32 (bitPos + n)) &&& mask n = bits bit pos n := by
  have hsub : sub32 32 (bitPos + n) = 32 - (bitPos + n) := by
    rw [sub32]
    omega
  have hslice := bits_slice bit (pos - bitPos) bitPos n (32 - (bitPos + n))
  rw [Nat.add_sub_cancel' hle, Nat.sub_add_cancel hpos] at hslice
  rw [hsub, shr32, if_pos (by omega), mask, Nat.and_two_pow_sub_one_eq_mod,
    Nat.shiftRight_eq_div_pow, hbuf, hslice]

theorem and_seven (x : Nat) : x &&& 7 = x % 8 := and_two_pow_sub_one_eq_mod x 3

theorem shiftRight_three (x : Nat) : x >>> 3 = x / 8 := shiftRight_eq_div_pow x 3

/-! ### The cache -/

/-- A stream over a buffer whose cached word, if it is not used up, is the one before the end of
which the position stands. -/
structure Mp4StreamType.Valid (data : Nat → UInt8) (numBytes : Nat) (s : Mp4StreamType) : Prop where
  data_eq : s.data = data
  numBytes_eq : s.numBytes = numBytes
  position : s.dataBitPos ≤ s.limit
  bitPos : s.bitPos ≤ 32
  aligned : s.bitPos % 8 = s.dataBitPos % 8
  cache : s.bitPos < 32 → s.bitPos ≤ s.dataBitPos ∧
    s.bitBuf = bits (byteBits (padded data numBytes)) (s.dataBitPos - s.bitPos) 32
  accessed : ∀ k ∈ s.accessed, k < numBytes

theorem valid_start (data : Nat → UInt8) (numBytes : Nat) :
    (start data numBytes).Valid data numBytes where
  data_eq := rfl
  numBytes_eq := rfl
  position := zero_le _
  bitPos := le_rfl
  aligned := show 32 % 8 = 0 % 8 from rfl
  cache h := absurd h (lt_irrefl 32)
  accessed _ h := absurd h not_mem_nil

theorem Mp4StreamType.Valid.limit_le (h : s.Valid data numBytes) :
    s.limit ≤ 8 * numBytes ∧ s.limit < 2 ^ 32 := by
  rw [limit, h.numBytes_eq, shiftLeft_eq, mul_comm]
  exact ⟨Nat.mod_le _ _, Nat.mod_lt _ (Nat.two_pow_pos 32)⟩

/-- A position further on in the cached word. -/
theorem Mp4StreamType.Valid.advance (h : s.Valid data numBytes) (hn : s.bitPos + n ≤ 32)
    (hpos : s.dataBitPos + n ≤ s.limit) :
    { s with dataBitPos := s.dataBitPos + n, bitPos := s.bitPos + n }.Valid data numBytes := by
  have haligned := h.aligned
  refine ⟨h.data_eq, h.numBytes_eq, hpos, hn, ?_, fun hlt => ?_, h.accessed⟩
  · show (s.bitPos + n) % 8 = (s.dataBitPos + n) % 8
    omega
  · have hlt' : s.bitPos + n < 32 := hlt
    obtain ⟨hle, hbuf⟩ := h.cache (by omega)
    exact ⟨Nat.add_le_add_right hle n, by
      rw [Nat.add_sub_add_right]
      exact hbuf⟩

/-- Another word of the buffer. -/
theorem Mp4StreamType.Valid.refill {buf pos : Nat} {read : List Nat} (h : s.Valid data numBytes)
    (hpos : pos ≤ s.limit)
    (hbuf : buf = bits (byteBits (padded data numBytes)) (8 * (pos / 8)) 32)
    (hread : ∀ k ∈ read, k < numBytes) :
    { s with
      bitBuf := buf
      accessed := s.accessed ++ read
      dataBitPos := pos
      bitPos := pos % 8 }.Valid data numBytes := by
  refine ⟨h.data_eq, h.numBytes_eq, hpos, ?_, mod_mod pos 8, fun _ => ⟨mod_le pos 8, ?_⟩,
    fun k hk => ?_⟩
  · exact (mod_lt pos (by omega)).le.trans (by omega)
  · have hstart : pos - pos % 8 = 8 * (pos / 8) := by omega
    rw [hstart]
    exact hbuf
  · exact (mem_append.mp hk).elim (h.accessed k) (hread k)

/-- A word that is all in the buffer. -/
theorem Mp4StreamType.Valid.fill {pos : Nat} (h : s.Valid data numBytes) (hpos : pos ≤ s.limit)
    (hin : pos / 8 + 4 ≤ numBytes) :
    { s.fill (pos >>> 3) with dataBitPos := pos, bitPos := pos &&& 7 }.Valid data numBytes := by
  rw [and_seven, shiftRight_three]
  refine h.refill hpos ?_ fun k hk => ?_
  · show word s.data (pos / 8) = _
    rw [h.data_eq]
    exact word_padded hin
  · have := mem_range'_1.mp hk
    omega

/-- Behind the last word `ShowBits` caches the bytes that are left. -/
theorem Mp4StreamType.showFill_last (hn : s.numBytes < 2 ^ 32)
    (hpos : s.dataBitPos ≤ 8 * s.numBytes)
    (hlast : s.dataBitPos >>> 3 > sub32 s.numBytes 4) :
    4 ≤ s.numBytes ∧ s.numBytes - s.dataBitPos / 8 ≤ 3 ∧ s.showFill = { s with
      bitBuf := shl32 (lastBytes s.data (s.dataBitPos / 8) (s.numBytes - s.dataBitPos / 8))
        (8 * (3 - (s.numBytes - s.dataBitPos / 8)))
      accessed := s.accessed ++
        List.range' (s.dataBitPos / 8) (s.numBytes - s.dataBitPos / 8)
      bitPos := s.dataBitPos % 8 } := by
  have hbehind := hlast
  rw [shiftRight_three, sub32] at hbehind
  have hleft : sub32 s.numBytes (s.dataBitPos / 8) = s.numBytes - s.dataBitPos / 8 := by
    rw [sub32]
    omega
  have hshift : 8 * sub32 3 (s.numBytes - s.dataBitPos / 8) % 2 ^ 32 =
      8 * (3 - (s.numBytes - s.dataBitPos / 8)) := by
    rw [sub32]
    omega
  refine ⟨by omega, by omega, ?_⟩
  rw [Mp4StreamType.showFill, if_pos hlast]
  simp only [shiftRight_three, and_seven, hleft, hshift]

theorem Mp4StreamType.showFill_inside (hinside : ¬ s.dataBitPos >>> 3 > sub32 s.numBytes 4) :
    s.showFill = { s.fill (s.dataBitPos >>> 3) with bitPos := s.dataBitPos &&& 7 } :=
  if_neg hinside

/-- `ShowBits` caches a word, with zeros behind the last byte. -/
theorem Mp4StreamType.Valid.showFill (h : s.Valid data numBytes) (hn : numBytes < 2 ^ 32)
    (h4 : 4 ≤ numBytes) : s.showFill.Valid data numBytes ∧
      s.showFill.dataBitPos = s.dataBitPos ∧ s.showFill.bitPos = s.dataBitPos % 8 := by
  obtain rfl := h.numBytes_eq
  have hpos := h.position.trans h.limit_le.1
  by_cases hlast : s.dataBitPos >>> 3 > sub32 s.numBytes 4
  · obtain ⟨-, hthree, hshow⟩ := Mp4StreamType.showFill_last hn hpos hlast
    rw [hshow]
    refine ⟨h.refill h.position ?_ fun k hk => ?_, rfl, rfl⟩
    · rw [h.data_eq]
      exact lastBytes_padded (by omega) hthree
    · have := mem_range'_1.mp hk
      omega
  · rw [Mp4StreamType.showFill_inside hlast]
    rw [shiftRight_three, sub32] at hlast
    exact ⟨h.fill h.position (by omega), rfl, and_seven _⟩

/-! ### Calls -/

/-- A number of bits that a word can hold. -/
structure Width where
  val : Nat
  pos : 0 < val
  le : val ≤ 32

instance : CoeOut Width Nat := ⟨Width.val⟩

/-- A call that reads from the stream. -/
inductive Call where
  | showBits (ucNBits : Width)
  | flushBits (ucNBits : Width)
  | readBits (ucNBits : Width)
  | byteAlign

/-- The effect of a call. -/
def Mp4StreamType.step (s : Mp4StreamType) : Call → Mp4StreamType
  | .showBits n => (ShowBits s n).1
  | .flushBits n => (FlushBits s n).1
  | .readBits n => (ReadBits s n).1
  | .byteAlign => (ByteAlign s).1

/-- A call that succeeds returns the next bits of the buffer and moves behind them, one that fails
does not move; only bytes of the buffer have been read. -/
def Right (data : Nat → UInt8) (numBytes : Nat) (s : Mp4StreamType) (call : Call) : Prop :=
  (∀ k ∈ (s.step call).accessed, k < numBytes) ∧
  match call with
  | .showBits n => (ShowBits s n).1.dataBitPos = s.dataBitPos ∧
      (ShowBits s n).2 = bits (byteBits (padded data numBytes)) s.dataBitPos n
  | .flushBits n =>
      if (FlushBits s n).2 = 0 then
        (FlushBits s n).1.dataBitPos = s.dataBitPos + n ∧ s.dataBitPos + n ≤ 8 * numBytes
      else (FlushBits s n).1.dataBitPos = s.dataBitPos
  | .readBits n =>
      if (ReadBits s n).2.1 = 0 then
        (ReadBits s n).1.dataBitPos = s.dataBitPos + n ∧ s.dataBitPos + n ≤ 8 * numBytes ∧
          (ReadBits s n).2.2 = bits (byteBits data) s.dataBitPos n
      else (ReadBits s n).1.dataBitPos = s.dataBitPos
  | .byteAlign =>
      if (ByteAlign s).2 = 0 then
        (ByteAlign s).1.dataBitPos = (s.dataBitPos / 8 + 1) * 8 ∧
          (ByteAlign s).1.dataBitPos ≤ 8 * numBytes
      else (ByteAlign s).1.dataBitPos = s.dataBitPos

/-- The calls that the cache serves: a new word is all in the buffer, or in `ShowBits` the buffer
has a word at all; the bits are in one word; sums of `uint32` positions do not wrap around; and no
new word is needed to align the position. -/
def Careful (s : Mp4StreamType) : Call → Prop
  | .showBits n => 32 < s.bitPos + n → 4 ≤ s.numBytes ∧ s.dataBitPos % 8 + n ≤ 32
  | .flushBits n => (s.dataBitPos + n) % 2 ^ 32 ≤ s.limit →
      s.dataBitPos + n < 2 ^ 32 ∧
        (32 < s.bitPos + n → (s.dataBitPos + n) / 8 + 4 ≤ s.numBytes)
  | .readBits n => (s.dataBitPos + n) % 2 ^ 32 ≤ s.limit →
      s.dataBitPos + n < 2 ^ 32 ∧
        (32 < s.bitPos + n → s.dataBitPos / 8 + 4 ≤ s.numBytes ∧ s.dataBitPos % 8 + n ≤ 32)
  | .byteAlign => s.dataBitPos % 8 = 0 → (s.dataBitPos + 8) % 2 ^ 32 ≤ s.limit →
      s.dataBitPos + 8 < 2 ^ 32 ∧ s.bitPos ≠ 32

instance (s : Mp4StreamType) (call : Call) : Decidable (Careful s call) :=
  match call with
  | .showBits _ => inferInstanceAs (Decidable (_ → _))
  | .flushBits _ => inferInstanceAs (Decidable (_ → _))
  | .readBits _ => inferInstanceAs (Decidable (_ → _))
  | .byteAlign => inferInstanceAs (Decidable (_ → _))

theorem sub32_bitPos {bitPos : Nat} (h : bitPos ≤ 32) : sub32 32 bitPos = 32 - bitPos := by
  rw [sub32]
  omega

theorem showBits_right (h : s.Valid data numBytes) (hn : numBytes < 2 ^ 32) (n : Width)
    (hc : Careful s (.showBits n)) :
    (ShowBits s n).1.Valid data numBytes ∧ Right data numBytes s (.showBits n) := by
  obtain rfl := h.numBytes_eq
  have hbit := h.bitPos
  have hsub := sub32_bitPos hbit
  have hpos := n.pos
  -- the stream with the word in which the bits are
  obtain ⟨t, ht, hshow, hvalid, hsame, hle⟩ : ∃ t : Mp4StreamType,
      (if n.val > sub32 32 s.bitPos then s.showFill else s) = t ∧
        ShowBits s n = (t, shr32 t.bitBuf (sub32 32 ((t.bitPos + n) % 2 ^ 32)) &&& mask n) ∧
        t.Valid data s.numBytes ∧ t.dataBitPos = s.dataBitPos ∧ t.bitPos + n ≤ 32 := by
    refine ⟨_, rfl, rfl, ?_⟩
    split
    · next hgt =>
      obtain ⟨h4, hn32⟩ := hc (by omega)
      obtain ⟨hvalid, hsame, hbitPos⟩ := h.showFill hn h4
      exact ⟨hvalid, hsame, by rw [hbitPos]; exact hn32⟩
    · exact ⟨h, rfl, by omega⟩
  obtain ⟨hcache, hbuf⟩ := hvalid.cache (by omega)
  have hmod : (t.bitPos + n) % 2 ^ 32 = t.bitPos + n := mod_eq_of_lt (by omega)
  have hstep : s.step (.showBits n) = t := congrArg Prod.fst hshow
  refine ⟨by rwa [hshow], by rw [hstep]; exact hvalid.accessed, ?_⟩
  show (ShowBits s n).1.dataBitPos = s.dataBitPos ∧
    (ShowBits s n).2 = bits (byteBits (padded data s.numBytes)) s.dataBitPos n
  rw [hshow, hmod, cached_bits hcache hbuf hpos hle, hsame]
  exact ⟨rfl, rfl⟩

theorem flushBits_right (h : s.Valid data numBytes) (n : Width)
    (hc : Careful s (.flushBits n)) :
    (FlushBits s n).1.Valid data numBytes ∧ Right data numBytes s (.flushBits n) := by
  obtain rfl := h.numBytes_eq
  have hbit := h.bitPos
  have hpos := n.pos
  have hlimit := h.limit_le
  by_cases hfail : (s.dataBitPos + n) % 2 ^ 32 > s.limit
  · have hflush : FlushBits s n = (s, -2) := if_pos hfail
    have hstep : s.step (.flushBits n) = s := congrArg Prod.fst hflush
    refine ⟨by rwa [hflush], by rw [hstep]; exact h.accessed, ?_⟩
    simp [hflush]
  · obtain ⟨hsum, hword⟩ := hc (not_lt.mp hfail)
    rw [mod_eq_of_lt hsum] at hfail
    have hmod : (s.bitPos + n) % 2 ^ 32 = s.bitPos + n :=
      mod_eq_of_lt (by have := n.le; omega)
    obtain ⟨t, hflush, hvalid, hmoved⟩ : ∃ t : Mp4StreamType, FlushBits s n = (t, 0) ∧
        t.Valid data s.numBytes ∧ t.dataBitPos = s.dataBitPos + n := by
      simp only [FlushBits, mod_eq_of_lt hsum, if_neg hfail, hmod]
      by_cases hgt : s.bitPos + n > 32
      · exact ⟨_, if_pos hgt, h.fill (by omega) (hword hgt), rfl⟩
      · exact ⟨_, if_neg hgt, h.advance (by omega) (by omega), rfl⟩
    have hstep : s.step (.flushBits n) = t := congrArg Prod.fst hflush
    refine ⟨by rwa [hflush], by rw [hstep]; exact hvalid.accessed, ?_⟩
    simp only [hflush, hmoved, if_true, true_and]
    omega

theorem readBits_right (h : s.Valid data numBytes) (n : Width)
    (hc : Careful s (.readBits n)) :
    (ReadBits s n).1.Valid data numBytes ∧ Right data numBytes s (.readBits n) := by
  obtain rfl := h.numBytes_eq
  have hbit := h.bitPos
  have hsub := sub32_bitPos hbit
  have hpos := n.pos
  have hlimit := h.limit_le
  by_cases hfail : (s.dataBitPos + n) % 2 ^ 32 > s.limit
  · have hread : ReadBits s n = (s, -2, 0) := if_pos hfail
    have hstep : s.step (.readBits n) = s := congrArg Prod.fst hread
    refine ⟨by rwa [hread], by rw [hstep]; exact h.accessed, ?_⟩
    simp [hread]
  · obtain ⟨hsum, hword⟩ := hc (not_lt.mp hfail)
    have hin : s.dataBitPos + n ≤ s.limit := by
      rw [mod_eq_of_lt hsum] at hfail
      omega
    -- the stream at the old position, with the word in which the bits are
    obtain ⟨t, hread, hvalid, hsame, hlim, hle⟩ : ∃ t : Mp4StreamType,
        ReadBits s n =
          ({ t with dataBitPos := t.dataBitPos + n, bitPos := t.bitPos + n }, 0,
            shr32 t.bitBuf (sub32 32 (t.bitPos + n)) &&& mask n) ∧
        t.Valid data s.numBytes ∧ t.dataBitPos = s.dataBitPos ∧ t.limit = s.limit ∧
          t.bitPos + n ≤ 32 := by
      have hbyte : ∀ m, m + n.val ≤ 32 → (m + n.val) % 2 ^ 8 = m + n.val := fun m hm =>
        mod_eq_of_lt (by omega)
      by_cases hgt : 32 < s.bitPos + n
      · obtain ⟨h4, hn32⟩ := hword hgt
        refine ⟨_, ?_, h.fill h.position h4, rfl, rfl, ?_⟩
        · simp only [ReadBits, mod_eq_of_lt hsum, if_neg (not_lt.mpr hin),
            if_pos (show n.val > sub32 32 s.bitPos by omega), and_seven, hbyte _ hn32]
        · show (s.dataBitPos &&& 7) + n.val ≤ 32
          rw [and_seven]
          exact hn32
      · refine ⟨s, ?_, h, rfl, rfl, by omega⟩
        simp only [ReadBits, mod_eq_of_lt hsum, if_neg (not_lt.mpr hin),
          if_neg (show ¬n.val > sub32 32 s.bitPos by omega), hbyte _ (not_lt.mp hgt)]
    obtain ⟨hcache, hbuf⟩ := hvalid.cache (by omega)
    have hnext := hvalid.advance hle (by omega)
    have hstep : s.step (.readBits n) =
        { t with dataBitPos := t.dataBitPos + n, bitPos := t.bitPos + n } :=
      congrArg Prod.fst hread
    refine ⟨by rwa [hread], by rw [hstep]; exact hnext.accessed, ?_⟩
    rw [cached_bits hcache hbuf hpos hle, bits_padded (by omega), hsame] at hread
    simp only [hread, if_true, true_and, and_true]
    omega

theorem byteAlign_right (h : s.Valid data numBytes) (hc : Careful s .byteAlign) :
    (ByteAlign s).1.Valid data numBytes ∧ Right data numBytes s .byteAlign := by
  obtain rfl := h.numBytes_eq
  have hbit := h.bitPos
  have halign := h.aligned
  have hlimit := h.limit_le
  have hposition := h.position
  have hleft : 8 - (s.dataBitPos &&& 7) = 8 ↔ s.dataBitPos % 8 = 0 := by
    rw [and_seven]
    omega
  by_cases hfail : s.dataBitPos % 8 = 0 ∧ (s.dataBitPos + 8) % 2 ^ 32 > s.limit
  · have hbyte : ByteAlign s = (s, -2) := if_pos ⟨hleft.mpr hfail.1, hfail.2⟩
    have hstep : s.step .byteAlign = s := congrArg Prod.fst hbyte
    refine ⟨by rwa [hbyte], by rw [hstep]; exact h.accessed, ?_⟩
    simp [hbyte]
  · -- the cached word holds the next byte boundary
    have hfail' : ¬(8 - (s.dataBitPos &&& 7) = 8 ∧ (s.dataBitPos + 8) % 2 ^ 32 > s.limit) := by
      rwa [hleft]
    have hstay : s.bitPos + (8 - s.dataBitPos % 8) ≤ 32 ∧
        s.dataBitPos + (8 - s.dataBitPos % 8) ≤ s.limit := by
      have hmul : s.limit % 8 = 0 := by
        rw [limit, shiftLeft_eq]
        omega
      by_cases h0 : s.dataBitPos % 8 = 0
      · obtain ⟨hsum, hne⟩ := hc h0 (by omega)
        omega
      · omega
    have hbyte : ByteAlign s = ({ s with
        dataBitPos := s.dataBitPos + (8 - s.dataBitPos % 8)
        bitPos := s.bitPos + (8 - s.dataBitPos % 8) }, 0) := by
      have hsum : (s.dataBitPos + (8 - s.dataBitPos % 8)) % 2 ^ 32 =
          s.dataBitPos + (8 - s.dataBitPos % 8) := mod_eq_of_lt (by omega)
      have hbits : (s.bitPos + (8 - s.dataBitPos % 8)) % 2 ^ 32 =
          s.bitPos + (8 - s.dataBitPos % 8) := mod_eq_of_lt (by omega)
      have hkeep : ¬s.bitPos + (8 - s.dataBitPos % 8) > 32 := by omega
      rw [and_seven] at hfail'
      simp only [ByteAlign, and_seven, if_neg hfail', hsum, hbits, if_neg hkeep]
    have hvalid := h.advance hstay.1 hstay.2
    have hstep : s.step .byteAlign = { s with
        dataBitPos := s.dataBitPos + (8 - s.dataBitPos % 8)
        bitPos := s.bitPos + (8 - s.dataBitPos % 8) } := congrArg Prod.fst hbyte
    refine ⟨by rwa [hbyte], by rw [hstep]; exact hvalid.accessed, ?_⟩
    simp only [hbyte, if_true]
    omega

theorem step_right (h : s.Valid data numBytes) (hn : numBytes < 2 ^ 32) {call : Call}
    (hc : Careful s call) :
    (s.step call).Valid data numBytes ∧ Right data numBytes s call := by
  cases call with
  | showBits n => exact showBits_right h hn n hc
  | flushBits n => exact flushBits_right h n hc
  | readBits n => exact readBits_right h n hc
  | byteAlign => exact byteAlign_right h hc

/-- For every buffer and every sequence of calls that the cache serves, every call is right. -/
theorem calls_right (data : Nat → UInt8) (numBytes : UInt32) (calls : List Call)
    (h : Along step Careful (start data numBytes.toNat) calls) :
    Along step (Right data numBytes.toNat) (start data numBytes.toNat) calls := by
  have hn := numBytes.toNat_lt
  refine h.mono_invariant (I := Valid data numBytes.toNat) (valid_start _ _) ?_ ?_
  · exact fun s call hs hc => (step_right hs hn hc).2
  · exact fun s call hs hc => (step_right hs hn hc).1

/-- Eight bytes, with four calls one of which takes a new word. -/
theorem calls_right_sample : Along step (Right (fun k => .ofNat (17 * k)) 8)
    (start (fun k => .ofNat (17 * k)) 8)
    [.readBits ⟨4, by omega, by omega⟩, .showBits ⟨9, by omega, by omega⟩,
      .flushBits ⟨29, by omega, by omega⟩, .byteAlign] :=
  calls_right (fun k => .ofNat (17 * k)) 8 _ ⟨by decide, by decide, by decide, by decide, trivial⟩

/-- The word that the bit of a buffer of one byte is taken from has three bytes behind the
buffer. -/
theorem last_bytes_overread : ¬∀ (data : Nat → UInt8) (numBytes : UInt32) (calls : List Call),
    Along step (Right data numBytes.toNat) (start data numBytes.toNat) calls := by
  intro h
  have hread := (h (fun _ => 0) 1 [.readBits ⟨1, by omega, by omega⟩]).1.1 1 (by decide)
  exact absurd hread (by decide)

/-- Nor are 32 bits at an odd position right, or a bit after the first byte has been skipped. -/
example :
    (ReadBits (ReadBits (start (fun _ => 255) 8) 1).1 32).2 = (0, 0) ∧
      (ReadBits (ByteAlign (start (fun _ => 255) 8)).1 1).2 = (0, 0) := by
  decide

end OmapHal.ConfigParser
