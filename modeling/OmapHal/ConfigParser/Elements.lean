import OmapHal.ConfigParser.BitReader
import OmapHal.ConfigParser.SequenceParameterSet

/-!
# Syntax elements

What the calls return as long as the bits are in the buffer and in one cached word, and what the
decoder's steps read where the codes of a parameter set's elements stand. The bytes of a word may
lie behind the buffer, so nothing is said about its other bits.
-/

namespace OmapHal.ConfigParser

open Nat

section Position

open OmapHal.Core Mp4StreamType

variable {data : Nat → UInt8} {numBytes p n : Nat} {s : Mp4StreamType}

/-- A word that agrees with the buffer where they overlap, by its first bit. -/
def HoldsAt (data : Nat → UInt8) (numBytes start buf : Nat) : Prop :=
  ∃ memory : Nat → UInt8, (∀ k < numBytes, memory k = data k) ∧
    buf = bits (byteBits memory) start 32

theorem bits_agree {memory : Nat → UInt8} (h : ∀ k < numBytes, memory k = data k)
    (hp : p + n ≤ 8 * numBytes) : bits (byteBits memory) p n = bits (byteBits data) p n := by
  refine bits_congr fun i hi => ?_
  rw [byteBits, byteBits, h _ (by omega)]

/-- A stream at a bit position of the buffer. -/
structure Mp4StreamType.At (data : Nat → UInt8) (numBytes p : Nat) (s : Mp4StreamType) :
    Prop where
  data_eq : s.data = data
  numBytes_eq : s.numBytes = numBytes
  dataBitPos : s.dataBitPos = p
  bitPos : s.bitPos ≤ 32
  aligned : s.bitPos % 8 = p % 8
  cache : s.bitPos < 32 → s.bitPos ≤ p ∧ HoldsAt data numBytes (p - s.bitPos) s.bitBuf

theorem at_start (data : Nat → UInt8) (numBytes : Nat) :
    (start data numBytes).At data numBytes 0 where
  data_eq := rfl
  numBytes_eq := rfl
  dataBitPos := rfl
  bitPos := le_rfl
  aligned := show 32 % 8 = 0 % 8 from rfl
  cache h := absurd h (lt_irrefl 32)

/-- The next bits of the cached word. -/
theorem Mp4StreamType.At.cached (h : s.At data numBytes p) (hle : s.bitPos + n ≤ 32) :
    ∃ memory : Nat → UInt8, (∀ k < numBytes, memory k = data k) ∧
      shr32 s.bitBuf (sub32 32 (s.bitPos + n)) &&& mask n = bits (byteBits memory) p n := by
  rcases Nat.eq_zero_or_pos n with rfl | hn
  · exact ⟨data, fun _ _ => rfl, and_zero _⟩
  · obtain ⟨hpos, memory, hmem, hbuf⟩ := h.cache (by omega)
    exact ⟨memory, hmem, cached_bits hpos hbuf hn hle⟩

theorem Mp4StreamType.At.advance (h : s.At data numBytes p) (hle : s.bitPos + n ≤ 32) :
    { s with dataBitPos := p + n, bitPos := s.bitPos + n }.At data numBytes (p + n) := by
  have haligned := h.aligned
  refine ⟨h.data_eq, h.numBytes_eq, rfl, hle, ?_, fun hlt => ?_⟩
  · show (s.bitPos + n) % 8 = (p + n) % 8
    omega
  · have hlt' : s.bitPos + n < 32 := hlt
    obtain ⟨hpos, hbuf⟩ := h.cache (by omega)
    exact ⟨Nat.add_le_add_right hpos n, by rwa [Nat.add_sub_add_right]⟩

/-- Another word, with the byte of the position first. -/
theorem Mp4StreamType.At.refill {buf q : Nat} {read : List Nat} (h : s.At data numBytes p)
    (hbuf : HoldsAt data numBytes (8 * (q / 8)) buf) :
    { s with bitBuf := buf, accessed := read, dataBitPos := q, bitPos := q % 8 }.At
      data numBytes q := by
  refine ⟨h.data_eq, h.numBytes_eq, rfl, ?_, mod_mod q 8, fun _ => ⟨mod_le q 8, ?_⟩⟩
  · exact (mod_lt q (by omega)).le.trans (by omega)
  · have hstart : q - q % 8 = 8 * (q / 8) := by omega
    rwa [hstart]

theorem holdsAt_word (data : Nat → UInt8) (numBytes k : Nat) :
    HoldsAt data numBytes (8 * k) (word data k) :=
  ⟨data, fun _ _ => rfl, word_eq data k⟩

theorem Mp4StreamType.At.fill {q : Nat} (h : s.At data numBytes p) :
    { s.fill (q >>> 3) with dataBitPos := q, bitPos := q &&& 7 }.At data numBytes q := by
  have hword : HoldsAt data numBytes (8 * (q / 8)) (word s.data (q / 8)) := by
    rw [h.data_eq]
    exact holdsAt_word data numBytes (q / 8)
  rw [and_seven, shiftRight_three]
  exact h.refill hword

/-- `ShowBits` caches the word at the position, with zeros for the bytes behind the buffer. -/
theorem Mp4StreamType.At.showFill (h : s.At data numBytes p) (hn : numBytes < 2 ^ 29)
    (hp : p ≤ 8 * numBytes) : s.showFill.At data numBytes p ∧ s.showFill.bitPos = p % 8 := by
  obtain rfl := h.dataBitPos
  obtain rfl := h.numBytes_eq
  by_cases hlast : s.dataBitPos >>> 3 > sub32 s.numBytes 4
  · obtain ⟨h4, hthree, hshow⟩ := Mp4StreamType.showFill_last (by omega) hp hlast
    rw [hshow]
    refine ⟨h.refill ⟨padded data s.numBytes, fun k hk => if_pos hk, ?_⟩, rfl⟩
    rw [h.data_eq]
    exact lastBytes_padded (by omega) hthree
  · rw [Mp4StreamType.showFill_inside hlast]
    exact ⟨h.fill, and_seven _⟩

theorem Mp4StreamType.At.limit_eq (h : s.At data numBytes p) (hn : numBytes < 2 ^ 29) :
    s.limit = 8 * numBytes := by
  rw [limit, h.numBytes_eq, shiftLeft_eq]
  omega

/-! ### The calls -/

/-- `ReadBits` returns the bits at the position when one word has them all. -/
theorem Mp4StreamType.At.readBits (h : s.At data numBytes p) (hn : numBytes < 2 ^ 29)
    (hp : p + n ≤ 8 * numBytes) (hword : p % 8 + n ≤ 32) :
    ∃ s', ReadBits s n = (s', 0, bits (byteBits data) p n) ∧ s'.At data numBytes (p + n) := by
  have hlimit := h.limit_eq hn
  have hbit := h.bitPos
  have hsub := sub32_bitPos hbit
  have hsum : (p + n) % 2 ^ 32 = p + n := mod_eq_of_lt (by omega)
  have hbyte : ∀ m, m + n ≤ 32 → (m + n) % 2 ^ 8 = m + n := fun m hm =>
    mod_eq_of_lt (by omega)
  have hfits : ¬p + n > s.limit := by omega
  -- the stream with the word in which the bits are
  obtain ⟨t, hread, ht, hle⟩ : ∃ t : Mp4StreamType,
      ReadBits s n =
        ({ t with dataBitPos := p + n, bitPos := t.bitPos + n }, 0,
          shr32 t.bitBuf (sub32 32 (t.bitPos + n)) &&& mask n) ∧
      t.At data numBytes p ∧ t.bitPos + n ≤ 32 := by
    by_cases hgt : n > sub32 32 s.bitPos
    · have hfill := h.fill (q := p)
      have hle : (p &&& 7) + n ≤ 32 := by
        rw [and_seven]
        exact hword
      refine ⟨_, ?_, hfill, hle⟩
      simp only [ReadBits, h.dataBitPos, hsum, if_neg hfits, if_pos hgt, hbyte _ hle]
    · refine ⟨s, ?_, h, by omega⟩
      simp only [ReadBits, h.dataBitPos, hsum, if_neg hfits, if_neg hgt,
        hbyte s.bitPos (by omega)]
  obtain ⟨memory, hmem, hbits⟩ := ht.cached hle
  rw [hbits, bits_agree hmem hp] at hread
  exact ⟨_, hread, ht.advance hle⟩

/-- `ShowBits` stays at the position; of the bits behind the buffer nothing is known. -/
theorem Mp4StreamType.At.showBits (h : s.At data numBytes p) (hn : numBytes < 2 ^ 29)
    (hp : p ≤ 8 * numBytes) (hword : p % 8 + n ≤ 32) :
    ∃ s' memory, ShowBits s n = (s', bits (byteBits memory) p n) ∧
      (∀ k < numBytes, memory k = data k) ∧ s'.At data numBytes p := by
  have hbit := h.bitPos
  have hsub := sub32_bitPos hbit
  obtain ⟨t, hshow, ht, hle⟩ : ∃ t : Mp4StreamType,
      ShowBits s n =
        (t, shr32 t.bitBuf (sub32 32 ((t.bitPos + n) % 2 ^ 32)) &&& mask n) ∧
      t.At data numBytes p ∧ t.bitPos + n ≤ 32 := by
    by_cases hgt : n > sub32 32 s.bitPos
    · obtain ⟨hat, hfirst⟩ := h.showFill hn hp
      exact ⟨s.showFill, by rw [ShowBits, if_pos hgt], hat, by rw [hfirst]; exact hword⟩
    · exact ⟨s, by rw [ShowBits, if_neg hgt], h, by omega⟩
  obtain ⟨memory, hmem, hbits⟩ := ht.cached hle
  rw [mod_eq_of_lt (by omega), hbits] at hshow
  exact ⟨t, memory, hshow, hmem, ht⟩

theorem Mp4StreamType.At.flushBits (h : s.At data numBytes p) (hn : numBytes < 2 ^ 29)
    (hp : p + n ≤ 8 * numBytes) (hword : n ≤ 32) :
    ∃ s', FlushBits s n = (s', 0) ∧ s'.At data numBytes (p + n) := by
  have hlimit := h.limit_eq hn
  have hbit := h.bitPos
  have hsum : (p + n) % 2 ^ 32 = p + n := mod_eq_of_lt (by omega)
  have hpos : (s.bitPos + n) % 2 ^ 32 = s.bitPos + n := mod_eq_of_lt (by omega)
  have hfits : ¬p + n > s.limit := by omega
  simp only [FlushBits, h.dataBitPos, hsum, if_neg hfits, hpos]
  by_cases hgt : s.bitPos + n > 32
  · exact ⟨_, if_pos hgt, h.fill⟩
  · exact ⟨_, if_neg hgt, h.advance (by omega)⟩

end Position

/-!
## Syntax elements

The codes of a parameter set's elements, and what the decoder's steps read where such codes stand.
The cached word of a stream serves a read only as far as its bits begin in the byte of the
position.
-/

section Elements

open OmapHal.Core Mp4StreamType

variable {data : Nat → UInt8} {numBytes p : Nat} {s : Mp4StreamType}

/-! ### Reading the codes -/

theorem pv_clz_eq {k rounds A B : Nat} (hk : k ≤ 15) (hrounds : k < rounds)
    (hzeros : ∀ j < k, B.testBit (15 - j) = false) (hone : B.testBit (15 - k) = true) :
    PV_CLZ rounds A B = A + k := by
  have htop : ∀ B : Nat, B &&& 0x8000 = (B.testBit 15).toNat * 2 ^ 15 := fun B =>
    and_two_pow B 15
  induction k generalizing rounds A B with
  | zero =>
    obtain ⟨rounds, rfl⟩ := Nat.exists_eq_add_of_lt hrounds
    rw [Nat.sub_zero] at hone
    rw [zero_add, PV_CLZ, htop, hone]
    rfl
  | succ k ih =>
    obtain ⟨rounds, rfl⟩ : ∃ r, rounds = r + 1 := ⟨rounds - 1, by omega⟩
    have hfirst : B.testBit 15 = false := hzeros 0 (succ_pos k)
    have hshift : ∀ i < 15, (shl32 B 1).testBit (i + 1) = B.testBit i := by
      intro i hi
      rw [shl32, if_pos (by omega), testBit_mod_two_pow, testBit_shiftLeft]
      simp
      omega
    rw [PV_CLZ, htop, hfirst, Bool.toNat_false, zero_mul, if_pos rfl,
      ih (by omega) (by omega) ?_ ?_]
    · omega
    · intro j hj
      have hj' : 15 - j = (15 - (j + 1)) + 1 := by omega
      rw [hj', hshift _ (by omega)]
      exact hzeros (j + 1) (by omega)
    · have hk' : 15 - k = (15 - (k + 1)) + 1 := by omega
      rw [hk', hshift _ (by omega)]
      exact hone

/-- The macro counts the zeros before the first one of 16 bits. -/
theorem pv_clz_bits {bit : Nat → Bool} {k : Nat} (hk : k ≤ 15)
    (hzeros : ∀ i < k, bit (p + i) = false) (hone : bit (p + k) = true) :
    PV_CLZ 16 0 (bits bit p 16 ||| 1) = k := by
  have hbit : ∀ j ≤ 15, (bits bit p 16).testBit (15 - j) = bit (p + j) := by
    intro j hj
    have h := testBit_bits bit p j (15 - j)
    have hwidth : j + 1 + (15 - j) = 16 := by omega
    rwa [hwidth] at h
  rw [pv_clz_eq hk (by omega) ?_ ?_, zero_add]
  · intro j hj
    obtain ⟨i, hi⟩ : ∃ i, 15 - j = i + 1 := ⟨14 - j, by omega⟩
    rw [testBit_or, hbit j (by omega), hzeros j hj, Bool.false_or, hi, testBit_succ]
    exact zero_testBit i
  · rw [testBit_or, hbit k hk, hone, Bool.true_or]

/-- `ue_v` reads the code of a number when the code, or its first 16 bits, is in one word. -/
theorem Mp4StreamType.At.ue_v {v : Nat} (h : s.At data numBytes p) (hn : numBytes < 2 ^ 29)
    (hcode : Stands (byteBits data) p (golomb v)) (hp : p + (golomb v).length ≤ 8 * numBytes)
    (hzeros : leadingZeros v ≤ 15) (hword : p % 8 + (golomb v).length ≤ 32) :
    ∃ s', ConfigParser.ue_v s = (s', v) ∧ s'.At data numBytes (p + (golomb v).length) := by
  have hlen := length_golomb v
  obtain ⟨t, memory, hshow, hmem, ht⟩ := h.showBits (n := 16) hn (by omega) (by omega)
  have hcode' : Stands (byteBits memory) p (golomb v) := hcode.congr fun i hi => by
    rw [byteBits, byteBits, hmem _ (by omega)]
  have hclz := pv_clz_bits hzeros hcode'.golomb_zeros hcode'.golomb_one
  have hv : sub32 (v + 1) 1 = v := by
    have hlt := lt_two_pow_leadingZeros v
    have hpow : 2 ^ (leadingZeros v + 1) ≤ 2 ^ 16 := Nat.pow_le_pow_right (by omega) (by omega)
    rw [sub32]
    omega
  have htwice : leadingZeros v <<< 1 = 2 * leadingZeros v := by
    rw [shiftLeft_eq]
    omega
  simp only [ConfigParser.ue_v, hshow, hclz, htwice]
  rw [hlen] at hp hword ⊢
  by_cases hshort : leadingZeros v < 8
  · obtain ⟨s', hflush, hat⟩ := ht.flushBits hn hp (by omega)
    have hsplit : 16 = 2 * leadingZeros v + 1 + (15 - 2 * leadingZeros v) := by omega
    have hhigh := bits_high (byteBits memory) p (2 * leadingZeros v + 1)
      (15 - 2 * leadingZeros v)
    rw [← hsplit, hcode'.bits_golomb] at hhigh
    rw [if_pos hshort, shiftRight_eq_div_pow, hhigh, hv, hflush]
    exact ⟨s', rfl, hat⟩
  · obtain ⟨s', hread, hat⟩ := ht.readBits hn hp hword
    rw [if_neg hshort, hread, hcode.bits_golomb]
    exact ⟨s', by rw [hv], hat⟩

/-- The zeros of a code and the one behind them. -/
theorem Mp4StreamType.At.skipZeroBits {z rounds m : Nat} (h : s.At data numBytes p)
    (hn : numBytes < 2 ^ 29) (hp : p + z + 1 ≤ 8 * numBytes) (hrounds : z < rounds)
    (hzeros : ∀ i < z, byteBits data (p + i) = false) (hone : byteBits data (p + z) = true) :
    ∃ s', ConfigParser.skipZeroBits rounds m s = (s', m + z + 1) ∧
      s'.At data numBytes (p + z + 1) := by
  induction z generalizing rounds m s p with
  | zero =>
    obtain ⟨rounds, rfl⟩ : ∃ r, rounds = r + 1 := ⟨rounds - 1, by omega⟩
    obtain ⟨t, hread, ht⟩ := h.readBits (n := 1) hn (by omega) (by omega)
    rw [bits_succ, bits_zero, hone] at hread
    exact ⟨t, by simp [ConfigParser.skipZeroBits, hread], ht⟩
  | succ z ih =>
    obtain ⟨rounds, rfl⟩ : ∃ r, rounds = r + 1 := ⟨rounds - 1, by omega⟩
    obtain ⟨t, hread, ht⟩ := h.readBits (n := 1) hn (by omega) (by omega)
    rw [bits_succ, bits_zero, hzeros 0 (by omega)] at hread
    have hzeros' : ∀ i < z, byteBits data (p + 1 + i) = false := fun i hi => by
      rw [add_assoc, add_comm 1]
      exact hzeros (i + 1) (by omega)
    have hone' : byteBits data (p + 1 + z) = true := by
      rw [add_assoc, add_comm 1]
      exact hone
    obtain ⟨s', hskip, hat⟩ :=
      ih (m := m + 1) ht (by omega) (lt_of_succ_lt_succ hrounds) hzeros' hone'
    refine ⟨s', ?_, ?_⟩
    · rw [ConfigParser.skipZeroBits, hread]
      simp only [Bool.toNat_false, mul_zero, add_zero, ne_eq, not_true, or_self, if_false,
        hskip]
      congr 1
      omega
    · have hend : p + 1 + z + 1 = p + (z + 1) + 1 := by omega
      rwa [hend] at hat

/-- `se_v` skips a code when the bits behind its first one are in one word. -/
theorem Mp4StreamType.At.se_v {v : Nat} (h : s.At data numBytes p) (hn : numBytes < 2 ^ 29)
    (hcode : Stands (byteBits data) p (golomb v)) (hp : p + (golomb v).length ≤ 8 * numBytes)
    (hword : (p + leadingZeros v + 1) % 8 + leadingZeros v ≤ 32) :
    (ConfigParser.se_v s).At data numBytes (p + (golomb v).length) := by
  have hlimit := h.limit_eq hn
  have hzeros := hcode.golomb_zeros
  have hone := hcode.golomb_one
  rw [length_golomb] at hp ⊢
  obtain ⟨t, hread, ht⟩ := h.readBits (n := 1) hn (by omega) (by omega)
  rw [bits_succ, bits_zero, add_zero] at hread
  -- the stream behind the first one
  obtain ⟨t', hskip, ht'⟩ : ∃ t', (if 2 * 0 + (byteBits data p).toNat = 0 then
      ConfigParser.skipZeroBits (t.limit + 1) 0 t else (t, 0)) = (t', leadingZeros v) ∧
        t'.At data numBytes (p + leadingZeros v + 1) := by
    rcases Nat.eq_zero_or_pos (leadingZeros v) with h0 | hpos
    · rw [h0] at hone ⊢
      rw [add_zero] at hone
      exact ⟨t, by simp [hone], ht⟩
    · have hfirst : byteBits data p = false := hzeros 0 hpos
      have hlimit' := ht.limit_eq hn
      obtain ⟨z, hz⟩ : ∃ z, leadingZeros v = z + 1 := ⟨leadingZeros v - 1, by omega⟩
      rw [hz] at hzeros hone hp ⊢
      have hrounds : z < t.limit + 1 := by omega
      have hzeros' : ∀ i < z, byteBits data (p + 1 + i) = false := fun i hi => by
        rw [add_assoc, add_comm 1]
        exact hzeros (i + 1) (by omega)
      have hone' : byteBits data (p + 1 + z) = true := by
        rw [add_assoc, add_comm 1]
        exact hone
      obtain ⟨s', hskip, hat⟩ :=
        ht.skipZeroBits (m := 0) hn (by omega) hrounds hzeros' hone'
      refine ⟨s', ?_, ?_⟩
      · rw [hfirst, Bool.toNat_false, if_pos rfl, hskip, zero_add]
      · have hend : p + 1 + z + 1 = p + (z + 1) + 1 := by omega
        rwa [hend] at hat
  obtain ⟨s', hrest, hat⟩ := ht'.readBits hn (by omega) hword
  have hwidth : leadingZeros v % 2 ^ 8 = leadingZeros v := mod_eq_of_lt (by omega)
  simp only [ConfigParser.se_v, hread, hskip, hwidth, hrest]
  have hend : p + leadingZeros v + 1 + leadingZeros v = p + (2 * leadingZeros v + 1) := by omega
  rwa [hend] at hat

end Elements

end OmapHal.ConfigParser
