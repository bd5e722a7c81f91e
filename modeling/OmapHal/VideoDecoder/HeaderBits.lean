import OmapHal.Core.Bits
import OmapHal.Core.Memory

/-!
# The bits of a header

`VIDDEC_GetBits` and `VIDDEC_UVLC_dec`, by which the parsers of the video decoder read the headers
of a stream. How far the bytes of the buffer were read is kept beside the position. A loop has so
many turns; where they are not enough there is no result.
-/

namespace OmapHal.VideoDecoder

open OmapHal.Core Nat List

variable {xs : List Bool} {n p v turns : Nat}

/-- The position, and the index behind the last byte that was read. -/
structure Cursor where
  nPosition : Nat
  readEnd : Nat
  deriving DecidableEq, Repr

/-- A computation over the bytes of a buffer. -/
def HeaderReader (α : Type) : Type := Memory → Cursor → Option (α × Cursor)

namespace HeaderReader

variable {α β : Type}

def ret (a : α) : HeaderReader α := fun _ c => some (a, c)

def next (m : HeaderReader α) (k : α → HeaderReader β) : HeaderReader β :=
  fun pBuffer c => (m pBuffer c).bind fun r => k r.1 pBuffer r.2

instance : Monad HeaderReader where
  pure := ret
  bind := next

theorem bind_some {m : HeaderReader α} {k : α → HeaderReader β} {pBuffer : Memory} {c c' : Cursor}
    {a : α} (h : m pBuffer c = some (a, c')) : (m >>= k) pBuffer c = k a pBuffer c' := by
  change (m pBuffer c).bind _ = _
  rw [h]
  rfl

/-- A loop that has no turns left. -/
def unfinished : HeaderReader α := fun _ _ => none

def position : HeaderReader Nat := fun _ c => some (c.nPosition, c)

/-- The position, as a number of 32 bits. -/
def setPosition (nPosition : Nat) : HeaderReader Unit :=
  fun _ c => some ((), { c with nPosition := nPosition % 2 ^ 32 })

end HeaderReader

/-! ## Bits -/

/-- How many bytes the function reads for its bits. -/
def bytesRead (nBitPosition nBits : Nat) : Nat :=
  if 24 - nBitPosition < nBits then 4
  else if 16 - nBitPosition < nBits then 3
  else if 8 - nBitPosition < nBits then 2
  else 1

/-- The value that is read. A shift by all the 32 bits is zero. -/
def bitsAt (pBuffer : Memory) (nPosition nBits : Nat) : Nat :=
  let nBytePosition := nPosition / 8
  let nBitPosition := nPosition % 8
  let byte i := (pBuffer (nBytePosition + i)).toNat
  let nOutput := byte 0 <<< (24 + nBitPosition) % 2 ^ 32
  let nOutput :=
    if 8 - nBitPosition < nBits then nOutput ||| byte 1 <<< (16 + nBitPosition) else nOutput
  let nOutput :=
    if 16 - nBitPosition < nBits then nOutput ||| byte 2 <<< (8 + nBitPosition) else nOutput
  let nOutput :=
    if 24 - nBitPosition < nBits then nOutput ||| byte 3 <<< nBitPosition else nOutput
  nOutput >>> (32 - nBits)

/-- The bytes count as read whatever the position is afterwards. -/
def VIDDEC_GetBits (nBits : Nat) (bIncreasePosition : Bool) : HeaderReader Nat :=
  fun pBuffer c => some (bitsAt pBuffer c.nPosition nBits,
    { nPosition := if bIncreasePosition then (c.nPosition + nBits) % 2 ^ 32 else c.nPosition
      readEnd := max c.readEnd (c.nPosition / 8 + bytesRead (c.nPosition % 8) nBits) })

/-- The next bits. -/
def getBits (nBits : Nat) : HeaderReader Nat := VIDDEC_GetBits nBits true

/-- `nBitPosition += n`. -/
def advance (n : Nat) : HeaderReader Unit := do
  HeaderReader.setPosition ((← HeaderReader.position) + n)

/-- `nBitPosition -= n`. -/
def goBack (n : Nat) : HeaderReader Unit := do
  HeaderReader.setPosition ((← HeaderReader.position) + 2 ^ 32 - n)

/-- Bits that are not used. -/
def skipBits (nBits : Nat) : HeaderReader Unit := do
  let _ ← getBits nBits
  pure ()

def skipBitsIf (present : Bool) (nBits : Nat) : HeaderReader Unit :=
  if present then skipBits nBits else pure ()

/-- Something that is there where a flag is set. -/
def ifFlag (m : HeaderReader Unit) : HeaderReader Unit := do
  let flag ← getBits 1
  if flag ≠ 0 then m else pure ()

/-- A byte of the buffer; the position stays. -/
def byteAt (i : Nat) : HeaderReader UInt8 :=
  fun pBuffer c => some (pBuffer i, { c with readEnd := max c.readEnd (i + 1) })

/-- The loop that looks for a start code before the last three bytes: whether there is one, and
`nInBytePosition` behind it. -/
def findStartCode (nTotalInBytes : Nat) : Nat → Nat → HeaderReader (Bool × Nat)
  | 0, _ => HeaderReader.unfinished
  | turns + 1, nInBytePosition =>
    if nInBytePosition < (nTotalInBytes + 2 ^ 32 - 3) % 2 ^ 32 then do
      let code ← VIDDEC_GetBits 24 false
      if code ≠ 0x000001 then
        advance 8
        findStartCode nTotalInBytes turns (nInBytePosition + 1)
      else
        advance 24
        pure (true, (nInBytePosition + 3) % 2 ^ 32)
    else pure (false, nInBytePosition)

/-! ## Exp-Golomb codes -/

/-- A byte, and a bit in it from the highest on. -/
structure BitPlace where
  nBytePosition : Nat
  cBitPosition : Nat

def BitPlace.succ (place : BitPlace) : BitPlace :=
  if (place.cBitPosition + 1) % 8 = 0 then ⟨place.nBytePosition + 1, 0⟩
  else ⟨place.nBytePosition, place.cBitPosition + 1⟩

/-- One bit; the position stays. -/
def readCtrBit (place : BitPlace) : HeaderReader Bool :=
  fun pBuffer c => some ((pBuffer place.nBytePosition).toNat.testBit (7 - place.cBitPosition),
    { c with readEnd := max c.readEnd (place.nBytePosition + 1) })

/-- `(*nPosition)++`. -/
def incPosition : HeaderReader Unit := do HeaderReader.setPosition ((← HeaderReader.position) + 1)

/-- The loop over the zeros, with the place of the first one and `nLen`. -/
def countZeros : Nat → BitPlace → Nat → HeaderReader (BitPlace × Nat)
  | 0, _, _ => HeaderReader.unfinished
  | turns + 1, place, nLen => do
    if ← readCtrBit place then pure (place, nLen)
    else
      incPosition
      countZeros turns place.succ ((nLen + 1) % 2 ^ 32)

/-- The loop over the bits behind the first one. -/
def readInfoBits : Nat → BitPlace → Nat → HeaderReader Nat
  | 0, _, nVal => pure nVal
  | nInfoBit + 1, place, nVal => do
    incPosition
    let bit ← readCtrBit place.succ
    readInfoBits nInfoBit place.succ (nVal <<< 1 % 2 ^ 32 ||| bit.toNat)

def VIDDEC_UVLC_dec (turns : Nat) : HeaderReader Nat := do
  let nPosition ← HeaderReader.position
  let (place, nLen) ← countZeros turns ⟨nPosition / 8, nPosition % 8⟩ 1
  let nVal ← readInfoBits (nLen - 1) place 1
  incPosition
  pure ((nVal + 2 ^ 32 - 1) % 2 ^ 32)

/-! ## Reading what stands in the buffer -/

section Reading

variable {α β : Type} {pBuffer : Memory} {p : Nat} {xs ys : List Bool} {a : α} {b : β}

/-- At the position where the bits stand, the value is read and the position is behind them. -/
def ReadsAt (pBuffer : Memory) (p : Nat) (m : HeaderReader α) (xs : List Bool) (a : α) : Prop :=
  Stands (byteBits pBuffer) p xs → p + xs.length < 2 ^ 32 → ∀ readEnd, ∃ readEnd',
    m pBuffer ⟨p, readEnd⟩ = some (a, ⟨p + xs.length, readEnd'⟩)

theorem ReadsAt.pure (a : α) : ReadsAt pBuffer p (Pure.pure a) [] a :=
  fun _ _ readEnd => ⟨readEnd, rfl⟩

/-- Reading two values in turn. -/
theorem ReadsAt.bind {m : HeaderReader α} {k : α → HeaderReader β} (hm : ReadsAt pBuffer p m xs a)
    (hk : ReadsAt pBuffer (p + xs.length) (k a) ys b) :
    ReadsAt pBuffer p (m >>= k) (xs ++ ys) b := by
  intro hstands hp readEnd
  rw [stands_append] at hstands
  rw [length_append] at hp
  obtain ⟨readEnd', hrun⟩ := hm hstands.1 (by omega) readEnd
  obtain ⟨readEnd'', hrun'⟩ := hk hstands.2 (by omega) readEnd'
  refine ⟨readEnd'', ?_⟩
  rw [HeaderReader.bind_some hrun, hrun', length_append, ← add_assoc]

theorem ReadsAt.map {m : HeaderReader α} (f : α → β) (h : ReadsAt pBuffer p m xs a) :
    ReadsAt pBuffer p (m >>= fun a => Pure.pure (f a)) xs (f a) := by
  rw [← append_nil xs]
  exact h.bind (ReadsAt.pure (f a))

/-- The value is found, wherever the position is afterwards. -/
def Finds (pBuffer : Memory) (p : Nat) (m : HeaderReader α) (xs : List Bool) (a : α) : Prop :=
  Stands (byteBits pBuffer) p xs → p + xs.length < 2 ^ 32 → ∀ readEnd, ∃ c,
    m pBuffer ⟨p, readEnd⟩ = some (a, c)

theorem ReadsAt.finds {m : HeaderReader α} (h : ReadsAt pBuffer p m xs a) :
    Finds pBuffer p m xs a := fun hstands hp readEnd => by
  obtain ⟨readEnd', hrun⟩ := h hstands hp readEnd
  exact ⟨_, hrun⟩

theorem ReadsAt.then_finds {m : HeaderReader α} {k : α → HeaderReader β}
    (hm : ReadsAt pBuffer p m xs a) (hk : Finds pBuffer (p + xs.length) (k a) ys b) :
    Finds pBuffer p (m >>= k) (xs ++ ys) b := by
  intro hstands hp readEnd
  rw [stands_append] at hstands
  rw [length_append] at hp
  obtain ⟨readEnd', hrun⟩ := hm hstands.1 (by omega) readEnd
  obtain ⟨c, hrun'⟩ := hk hstands.2 (by omega) readEnd'
  exact ⟨c, by rw [HeaderReader.bind_some hrun, hrun']⟩

theorem Finds.pure (a : α) : Finds pBuffer p (Pure.pure a) [] a := (ReadsAt.pure a).finds

/-- Nothing more is read. -/
theorem ReadsAt.last_finds {m : HeaderReader α} {k : α → HeaderReader β}
    (hm : ReadsAt pBuffer p m xs a) (hk : k a = Pure.pure b) :
    Finds pBuffer p (m >>= k) xs b := by
  have hthen : Finds pBuffer p (m >>= k) (xs ++ []) b :=
    hm.then_finds (by rw [hk]; exact Finds.pure b)
  rwa [append_nil] at hthen

/-- Whatever stands behind the bits. -/
theorem Finds.append {m : HeaderReader α} (h : Finds pBuffer p m xs a) (ys : List Bool) :
    Finds pBuffer p m (xs ++ ys) a := fun hstands hp =>
  h (stands_append.mp hstands).1 (by rw [length_append] at hp; omega)

theorem Finds.map {m : HeaderReader α} {a : α} (f : α → β)
    (h : Finds pBuffer p m xs a) : Finds pBuffer p (m >>= fun a => Pure.pure (f a)) xs (f a) :=
  fun hstands hp readEnd => by
    obtain ⟨c, hrun⟩ := h hstands hp readEnd
    exact ⟨c, by rw [HeaderReader.bind_some hrun]; rfl⟩

/-- There is a result whatever stands in the buffer. -/
def HeaderReader.Ends (m : HeaderReader α) : Prop := ∀ pBuffer c, ∃ r, m pBuffer c = some r

theorem HeaderReader.Ends.pure (a : α) : (Pure.pure a : HeaderReader α).Ends :=
  fun _ c => ⟨(a, c), rfl⟩

theorem HeaderReader.Ends.bind {m : HeaderReader α} {k : α → HeaderReader β} (hm : m.Ends)
    (hk : ∀ a, (k a).Ends) : (m >>= k).Ends := fun pBuffer c => by
  obtain ⟨r, hrun⟩ := hm pBuffer c
  rw [HeaderReader.bind_some hrun]
  exact hk r.1 pBuffer r.2

theorem HeaderReader.Ends.getBits (n : Nat) : (getBits n).Ends := fun _ _ => ⟨_, rfl⟩

theorem HeaderReader.Ends.finds {m : HeaderReader α} (h : m.Ends) (b : β) :
    Finds pBuffer p (m >>= fun _ => Pure.pure b) [] b := fun _ _ readEnd => by
  obtain ⟨r, hrun⟩ := h pBuffer ⟨p, readEnd⟩
  exact ⟨r.2, by rw [HeaderReader.bind_some hrun]; rfl⟩

end Reading

/-! ## The value -/

section Value

variable {pBuffer : Memory} {k o m : Nat}

/-- The bits of the first byte, behind `o` others that are shifted out. -/
private theorem first_byte (pBuffer : Memory) (k : Nat) (ho : o < 8) :
    (pBuffer k).toNat <<< (24 + o) % 2 ^ 32 =
      bits (byteBits pBuffer) (8 * k + o) (8 - o) <<< (24 + o) := by
  have hsplit : (pBuffer k).toNat =
      bits (byteBits pBuffer) (8 * k) o * 2 ^ (8 - o) +
        bits (byteBits pBuffer) (8 * k + o) (8 - o) := by
    rw [← bits_append, Nat.add_sub_cancel' ho.le, bits_byte]
  have hpow : 2 ^ (8 - o) * 2 ^ (24 + o) = 2 ^ 32 := by
    rw [← pow_add]
    congr 1
    omega
  have hlow : bits (byteBits pBuffer) (8 * k + o) (8 - o) * 2 ^ (24 + o) < 2 ^ 32 :=
    (Nat.mul_lt_mul_of_pos_right (bits_lt _ _ _) (Nat.two_pow_pos _)).trans_eq hpow
  rw [hsplit, shiftLeft_eq, shiftLeft_eq, add_mul, mul_assoc, hpow,
    mul_add_mod', mod_eq_of_lt hlow]

/-- One more byte below the bits of the `m` bytes before. -/
private theorem next_byte (pBuffer : Memory) (k : Nat) (ho : o < 8) (hm : 0 < m) (s : Nat) :
    bits (byteBits pBuffer) (8 * k + o) (8 * m - o) <<< (8 + s) ||| (pBuffer (k + m)).toNat <<< s =
      bits (byteBits pBuffer) (8 * k + o) (8 * (m + 1) - o) <<< s := by
  have hlength : 8 * (m + 1) - o = 8 * m - o + 8 := by omega
  have hplace : 8 * k + o + (8 * m - o) = 8 * (k + m) := by omega
  rw [shiftLeft_add, ← shiftLeft_or_distrib, hlength, bits_append, hplace, bits_byte,
    place_eq_shift_or (UInt8.toNat_lt _)]

theorem shiftRight_bits (pBuffer : Memory) (k : Nat) (hn : n ≤ 8 * m - o)
    (hle : 8 * m ≤ 32) (hom : o ≤ 8 * m) :
    bits (byteBits pBuffer) (8 * k + o) (8 * m - o) <<< (32 - 8 * m + o) >>> (32 - n) =
      bits (byteBits pBuffer) (8 * k + o) n := by
  have hlength : 8 * m - o = n + (8 * m - o - n) := by omega
  have hshift : 32 - n = 32 - 8 * m + o + (8 * m - o - n) := by omega
  rw [hshift, shiftRight_add, shiftLeft_shiftRight, shiftRight_eq_div_pow]
  have hhigh := bits_high (byteBits pBuffer) (8 * k + o) n (8 * m - o - n)
  rwa [← hlength] at hhigh

/-- Where all the four bytes are read. -/
theorem bitsAt_four (pBuffer : Memory) (h : 24 < p % 8 + n) :
    bitsAt pBuffer p n =
      bits (byteBits pBuffer) p (32 - p % 8) <<< (p % 8) >>> (32 - n) := by
  have ho : p % 8 < 8 := mod_lt _ (by norm_num)
  have hp (m : Nat) : bits (byteBits pBuffer) p m =
      bits (byteBits pBuffer) (8 * (p / 8) + p % 8) m := by
    rw [div_add_mod]
  rw [hp]
  unfold bitsAt
  dsimp only
  generalize p / 8 = k
  generalize p % 8 = o at *
  have hone := next_byte pBuffer k ho one_pos (16 + o)
  have htwo := next_byte pBuffer k ho two_pos (8 + o)
  have hthree := next_byte pBuffer k ho three_pos o
  rw [show 8 + (16 + o) = 24 + o by omega, mul_one] at hone
  rw [show 8 + (8 + o) = 16 + o by omega] at htwo
  simp only [reduceAdd] at hone htwo hthree
  rw [add_zero, first_byte pBuffer k ho, if_pos (show 8 - o < n by omega), hone,
    if_pos (show 16 - o < n by omega), htwo, if_pos (show 24 - o < n by omega), hthree]

/-- The function reads the bits from the position on, as long as they are in four bytes. -/
theorem bitsAt_eq (pBuffer : Memory) (h : p % 8 + n ≤ 32) :
    bitsAt pBuffer p n = bits (byteBits pBuffer) p n := by
  have ho : p % 8 < 8 := mod_lt _ (by norm_num)
  have hp : bits (byteBits pBuffer) p n =
      bits (byteBits pBuffer) (8 * (p / 8) + p % 8) n := by
    rw [div_add_mod]
  by_cases hfour : 24 < p % 8 + n
  · have hshift := shiftRight_bits pBuffer (p / 8) (o := p % 8) (m := 4) (n := n) (by omega)
      (by omega) (by omega)
    rw [Nat.sub_self, Nat.zero_add, Nat.div_add_mod] at hshift
    rw [bitsAt_four pBuffer hfour, hshift]
  rw [hp]
  unfold bitsAt
  dsimp only
  generalize p / 8 = k
  generalize p % 8 = o at *
  rw [add_zero, first_byte pBuffer k ho, if_neg (show ¬24 - o < n by omega)]
  have hone := next_byte pBuffer k ho one_pos (16 + o)
  have htwo := next_byte pBuffer k ho two_pos (8 + o)
  rw [show 8 + (16 + o) = 24 + o by omega, mul_one] at hone
  rw [show 8 + (8 + o) = 16 + o by omega] at htwo
  simp only [reduceAdd] at hone htwo
  by_cases h8 : 8 - o < n
  swap
  · rw [if_neg h8, if_neg (show ¬16 - o < n by omega)]
    exact shiftRight_bits pBuffer k (m := 1) (by omega) (by omega) (by omega)
  rw [if_pos h8, hone]
  by_cases h16 : 16 - o < n
  swap
  · rw [if_neg h16]
    exact shiftRight_bits pBuffer k (m := 2) (by omega) (by omega) (by omega)
  rw [if_pos h16, htwo]
  exact shiftRight_bits pBuffer k (m := 3) (by omega) (by omega) (by omega)

theorem bits_eq_zero_iff {bit : Nat → Bool} :
    bits bit p n = 0 ↔ ∀ i < n, bit (p + i) = false := by
  refine ⟨fun h => ?_, bits_eq_zero⟩
  induction n with
  | zero => exact fun i hi => absurd hi (not_lt_zero i)
  | succ n ih =>
    rw [bits_succ, Nat.add_eq_zero_iff, Nat.mul_eq_zero, Bool.toNat_eq_zero] at h
    intro i hi
    rcases Nat.lt_succ_iff_lt_or_eq.mp hi with hi | rfl
    · exact ih (h.1.resolve_left two_ne_zero) i hi
    · exact h.2

/-- Of the bits in a fifth byte zeros are read. -/
theorem bitsAt_eq_iff (pBuffer : Memory) (hn : n ≤ 32) :
    bitsAt pBuffer p n = bits (byteBits pBuffer) p n ↔
      bits (byteBits pBuffer) (p + (32 - p % 8)) (p % 8 + n - 32) = 0 := by
  by_cases h : p % 8 + n ≤ 32
  · rw [Nat.sub_eq_zero_of_le h, bits_zero]
    exact iff_of_true (bitsAt_eq pBuffer h) rfl
  · have hshift : p % 8 = 32 - n + (p % 8 + n - 32) := by omega
    have hread : bitsAt pBuffer p n =
        bits (byteBits pBuffer) p (32 - p % 8) * 2 ^ (p % 8 + n - 32) := by
      rw [bitsAt_four pBuffer (by omega)]
      generalize bits (byteBits pBuffer) p (32 - p % 8) = value
      rw [hshift, add_comm (32 - n), shiftLeft_add, shiftLeft_shiftRight,
        shiftLeft_eq]
      congr 2
      omega
    have hsplit := bits_append (byteBits pBuffer) p (32 - p % 8) (p % 8 + n - 32)
    have hwidth : 32 - p % 8 + (p % 8 + n - 32) = n := by omega
    rw [hwidth] at hsplit
    rw [hread, hsplit, left_eq_add]

/-- The three bytes of a code. -/
theorem bits_threeBytes (pBuffer : Memory) (k : Nat) : bits (byteBits pBuffer) (8 * k) 24 =
    (pBuffer k).toNat * 2 ^ 16 + (pBuffer (k + 1)).toNat * 2 ^ 8 + (pBuffer (k + 2)).toNat := by
  have htwo : 8 * k + (8 + 8) = 8 * (k + 2) := by omega
  have hpair := bits_append (byteBits pBuffer) (8 * k) 8 8
  have hvalue := bits_append (byteBits pBuffer) (8 * k) (8 + 8) 8
  rw [← mul_succ, bits_byte, bits_byte] at hpair
  rw [htwo, hpair, bits_byte, add_mul, mul_assoc, ← pow_add] at hvalue
  exact hvalue

/-- The prefix of a start code, or of an escape, in a byte position. -/
theorem bits_code (pBuffer : Memory) (k : Nat) {b : UInt8} :
    bits (byteBits pBuffer) (8 * k) 24 = b.toNat ↔
      pBuffer k = 0 ∧ pBuffer (k + 1) = 0 ∧ pBuffer (k + 2) = b := by
  have hsecond := UInt8.toNat_lt (pBuffer (k + 1))
  have hthird := UInt8.toNat_lt (pBuffer (k + 2))
  have hb := UInt8.toNat_lt b
  rw [bits_threeBytes, ← UInt8.toNat_inj, ← UInt8.toNat_inj, ← UInt8.toNat_inj]
  change _ ↔ (pBuffer k).toNat = 0 ∧ (pBuffer (k + 1)).toNat = 0 ∧ (pBuffer (k + 2)).toNat = b.toNat
  omega

theorem bits_startCode (pBuffer : Memory) (k : Nat) : bits (byteBits pBuffer) (8 * k) 24 = 1 ↔
    pBuffer k = 0 ∧ pBuffer (k + 1) = 0 ∧ pBuffer (k + 2) = 1 :=
  bits_code pBuffer k (b := 1)

/-- A prefix of a start code stands there. -/
def PrefixAt (data : List UInt8) (i : Nat) : Prop :=
  data[i]? = some 0 ∧ data[i + 1]? = some 0 ∧ data[i + 2]? = some 1

/-- No start code begins in plain data that stand before one. -/
theorem no_code_in_data {data : List UInt8} (hplain : ∀ i, ¬PrefixAt data i)
    (hdata : ∀ i b, data[i]? = some b → pBuffer (k + i) = b)
    (hnext : bits (byteBits pBuffer) (8 * (k + data.length)) 24 = 1) {i : Nat}
    (hi : i < data.length) : bits (byteBits pBuffer) (8 * (k + i)) 24 ≠ 1 := by
  intro hcode
  obtain ⟨hzero, hzero', hone⟩ := (bits_startCode pBuffer (k + i)).mp hcode
  obtain ⟨hnext0, hnext1, -⟩ := (bits_startCode pBuffer (k + data.length)).mp hnext
  have hget {j : Nat} (hj : j < data.length) : data[j]? = some (pBuffer (k + j)) := by
    rw [getElem?_eq_getElem hj, hdata j _ (getElem?_eq_getElem hj)]
  have hne : (0 : UInt8) ≠ 1 := by decide
  by_cases hin : i + 2 < data.length
  · refine hplain i ⟨?_, ?_, ?_⟩
    · rw [hget hi, hzero]
    · rw [hget (by omega), ← add_assoc, hzero']
    · rw [hget hin, ← add_assoc, hone]
  · by_cases hlast : i + 2 = data.length
    · rw [add_assoc, hlast, hnext0] at hone
      exact hne hone
    · have hend : k + i + 2 = k + data.length + 1 := by omega
      rw [hend, hnext1] at hone
      exact hne hone

/-- The bytes of a buffer, with zeros behind them. -/
def bufferOf (bytes : List UInt8) : Memory := fun i => bytes.getD i 0

end Value

/-! ## The elements of a header -/

section Elements

variable {pBuffer : Memory} {p n : Nat} {α : Type}

/-- The bits from the position on, as long as they are in four bytes. -/
theorem getBits_eq (pBuffer : Memory) (c : Cursor) (h : c.nPosition % 8 + n ≤ 32)
    (hend : c.nPosition + n < 2 ^ 32) :
    VideoDecoder.getBits n pBuffer c = some (bits (byteBits pBuffer) c.nPosition n,
      ⟨c.nPosition + n, max c.readEnd (c.nPosition / 8 + bytesRead (c.nPosition % 8) n)⟩) := by
  unfold VideoDecoder.getBits VIDDEC_GetBits
  rw [bitsAt_eq pBuffer h, if_pos rfl, mod_eq_of_lt hend]

theorem bytesRead_eq (k : Nat) {o : Nat} (hn : 0 < n) (h : o + n ≤ 32) (ho : o < 8) :
    k + bytesRead o n = (8 * k + o + n + 7) / 8 := by
  unfold bytesRead
  split_ifs <;> omega

/-- No byte behind the bits is read. -/
theorem getBits_exact (pBuffer : Memory) (hn : 0 < n) (readEnd : Nat)
    (h : p % 8 + n ≤ 32) (hend : p + n < 2 ^ 32) :
    VideoDecoder.getBits n pBuffer ⟨p, readEnd⟩ = some (bits (byteBits pBuffer) p n,
      ⟨p + n, max readEnd ((p + n + 7) / 8)⟩) := by
  rw [getBits_eq pBuffer _ h hend, bytesRead_eq _ hn h (mod_lt _ (by omega)), div_add_mod]

theorem skipBits_exact (pBuffer : Memory) (hn : 0 < n) (readEnd : Nat)
    (h : p % 8 + n ≤ 32) (hend : p + n < 2 ^ 32) :
    skipBits n pBuffer ⟨p, readEnd⟩ = some ((), ⟨p + n, max readEnd ((p + n + 7) / 8)⟩) := by
  rw [skipBits, HeaderReader.bind_some (getBits_exact pBuffer hn readEnd h hend)]
  rfl

/-- The next bits are read, and the position is moved where it is asked for. -/
def ReadsBits (pBuffer : Memory) (nBits : Nat) (bIncreasePosition : Bool) (p : Nat) : Prop :=
  ∀ readEnd, ∃ readEnd', VIDDEC_GetBits nBits bIncreasePosition pBuffer ⟨p, readEnd⟩ =
    some (bits (byteBits pBuffer) p nBits,
      ⟨if bIncreasePosition then p + nBits else p, readEnd'⟩)

theorem readsBits_iff (pBuffer : Memory) {nBits : Nat} (bIncreasePosition : Bool)
    (hn : nBits ≤ 32) (hend : p + nBits < 2 ^ 32) :
    ReadsBits pBuffer nBits bIncreasePosition p ↔
      bits (byteBits pBuffer) (p + (32 - p % 8)) (p % 8 + nBits - 32) = 0 := by
  rw [← bitsAt_eq_iff pBuffer hn]
  unfold ReadsBits VIDDEC_GetBits
  dsimp only
  rw [mod_eq_of_lt hend]
  constructor
  · intro h
    obtain ⟨readEnd', hread⟩ := h 0
    rw [Option.some.injEq, Prod.mk.injEq] at hread
    exact hread.1
  · intro h readEnd
    rw [h]
    exact ⟨_, rfl⟩

/-- A number of `n` bits that are in four bytes. -/
theorem ReadsAt.getBits (h : p % 8 + n ≤ 32) (hv : v < 2 ^ n) :
    ReadsAt pBuffer p (getBits n) (unsigned n v) v := by
  intro hstands hp readEnd
  rw [length_unsigned] at hp ⊢
  refine ⟨max readEnd (p / 8 + bytesRead (p % 8) n), ?_⟩
  rw [getBits_eq pBuffer _ h hp, hstands.bits_unsigned, mod_eq_of_lt hv]

/-- A flag. -/
theorem ReadsAt.flag (b : Bool) : ReadsAt pBuffer p (VideoDecoder.getBits 1) [b] b.toNat := by
  have h : ReadsAt pBuffer p (VideoDecoder.getBits 1) (unsigned 1 b.toNat) b.toNat :=
    ReadsAt.getBits (by omega) (by cases b <;> decide)
  have hbit : unsigned 1 b.toNat = [b] := by cases b <;> rfl
  rwa [hbit] at h

/-- A part that is there where its flag is set. -/
def flagged {α : Type} (code : α → List Bool) : Option α → List Bool
  | none => [false]
  | some a => true :: code a

def bitVec {n : Nat} (v : BitVec n) : List Bool := unsigned n v.toNat

theorem ReadsAt.bitVec (hn : n ≤ 25) (v : BitVec n) :
    ReadsAt pBuffer p (VideoDecoder.getBits n) (VideoDecoder.bitVec v) v.toNat :=
  ReadsAt.getBits (by omega) v.isLt

theorem ReadsAt.skip {a : Nat}
    (h : ReadsAt pBuffer p (VideoDecoder.getBits n) xs a) :
    ReadsAt pBuffer p (skipBits n) xs () := by
  have hbind := h.bind (k := fun _ => Pure.pure ()) (ReadsAt.pure ())
  rwa [append_nil] at hbind

theorem ReadsAt.skipVec (hn : n ≤ 25) (v : BitVec n) :
    ReadsAt pBuffer p (skipBits n) (VideoDecoder.bitVec v) () :=
  (ReadsAt.bitVec hn v).skip

theorem ReadsAt.skipFlag (b : Bool) : ReadsAt pBuffer p (skipBits 1) [b] () :=
  (ReadsAt.flag b).skip

theorem ReadsAt.ifFlag {m : HeaderReader Unit} {code : α → List Bool} (part : Option α)
    (h : ∀ a, part = some a → ReadsAt pBuffer (p + 1) m (code a) ()) :
    ReadsAt pBuffer p (ifFlag m) (flagged code part) () := by
  cases part with
  | none => exact (ReadsAt.flag false).bind (ReadsAt.pure ())
  | some a => exact (ReadsAt.flag true).bind (h a rfl)

theorem skipBits_ends (n : Nat) : (skipBits n).Ends :=
  (HeaderReader.Ends.getBits n).bind fun _ => HeaderReader.Ends.pure ()

theorem skipBitsIf_ends (present : Bool) (n : Nat) : (skipBitsIf present n).Ends := by
  cases present with
  | false => exact HeaderReader.Ends.pure ()
  | true => exact skipBits_ends n

theorem ifFlag_ends {m : HeaderReader Unit} (h : m.Ends) : (ifFlag m).Ends := by
  refine (HeaderReader.Ends.getBits 1).bind fun flag => ?_
  split_ifs
  · exact h
  · exact HeaderReader.Ends.pure ()

theorem goBack_eq (c : Cursor) (hn : n ≤ c.nPosition) (hp : c.nPosition < 2 ^ 32) :
    goBack n pBuffer c = some ((), ⟨c.nPosition - n, c.readEnd⟩) := by
  change some ((), Cursor.mk ((c.nPosition + 2 ^ 32 - n) % 2 ^ 32) c.readEnd) = _
  have hback : (c.nPosition + 2 ^ 32 - n) % 2 ^ 32 = c.nPosition - n := by omega
  rw [hback]

/-- The place of a position. -/
def placeOf (p : Nat) : BitPlace := ⟨p / 8, p % 8⟩

private theorem placeOf_succ (p : Nat) : (placeOf p).succ = placeOf (p + 1) := by
  unfold placeOf BitPlace.succ
  dsimp only
  split_ifs with h
  · rw [BitPlace.mk.injEq]
    omega
  · rw [BitPlace.mk.injEq]
    omega

theorem readCtrBit_eq (pBuffer : Memory) (p : Nat) (c : Cursor) :
    ∃ readEnd, readCtrBit (placeOf p) pBuffer c =
      some (byteBits pBuffer p, ⟨c.nPosition, readEnd⟩) := ⟨_, rfl⟩

theorem incPosition_eq (pBuffer : Memory) (c : Cursor) (h : c.nPosition + 1 < 2 ^ 32) :
    incPosition pBuffer c = some ((), ⟨c.nPosition + 1, c.readEnd⟩) := by
  change some ((), { c with nPosition := (c.nPosition + 1) % 2 ^ 32 }) = _
  rw [mod_eq_of_lt h]

/-- The zeros are counted, as many as there are. -/
theorem countZeros_eq {zeros : Nat} (nLen : Nat) (hlen : nLen + zeros < 2 ^ 32)
    (hturns : zeros < turns)
    (hzeros : ∀ i < zeros, byteBits pBuffer (p + i) = false)
    (hone : byteBits pBuffer (p + zeros)) (hp : p + zeros < 2 ^ 32) (readEnd : Nat) :
    ∃ readEnd', countZeros turns (placeOf p) nLen pBuffer ⟨p, readEnd⟩ =
      some ((placeOf (p + zeros), nLen + zeros), ⟨p + zeros, readEnd'⟩) := by
  induction turns generalizing zeros nLen p readEnd with
  | zero => omega
  | succ turns ih =>
    obtain ⟨readEnd₁, hread⟩ := readCtrBit_eq pBuffer p ⟨p, readEnd⟩
    rw [countZeros, HeaderReader.bind_some hread]
    cases zeros with
    | zero =>
      rw [add_zero] at hone
      rw [if_pos hone]
      exact ⟨readEnd₁, rfl⟩
    | succ zeros =>
      have hbit : ¬byteBits pBuffer p := by
        have h := hzeros 0 (succ_pos _)
        rw [add_zero] at h
        rw [h]
        decide
      have hzeros' : ∀ i < zeros, byteBits pBuffer (p + 1 + i) = false := fun i hi => by
        have h := hzeros (i + 1) (by omega)
        rwa [add_comm i, ← add_assoc] at h
      rw [add_comm zeros, ← add_assoc] at hone hp ⊢
      obtain ⟨readEnd₂, hloop⟩ := ih (nLen + 1) (by omega) (by omega) hzeros'
        hone hp readEnd₁
      rw [if_neg hbit, HeaderReader.bind_some (incPosition_eq _ _ (by dsimp only; omega)),
        placeOf_succ, mod_eq_of_lt (show nLen + 1 < 2 ^ 32 by omega), hloop]
      refine ⟨readEnd₂, ?_⟩
      rw [add_assoc nLen]

/-- The bits behind the first one are put below it. -/
theorem readInfoBits_eq (pBuffer : Memory) {nInfoBit nVal : Nat} (hp : p + nInfoBit < 2 ^ 32)
    (hval : (nVal + 1) * 2 ^ nInfoBit ≤ 2 ^ 32) (readEnd : Nat) :
    ∃ readEnd', readInfoBits nInfoBit (placeOf p) nVal pBuffer ⟨p, readEnd⟩ =
      some (nVal * 2 ^ nInfoBit + bits (byteBits pBuffer) (p + 1) nInfoBit,
        ⟨p + nInfoBit, readEnd'⟩) := by
  induction nInfoBit generalizing p nVal readEnd with
  | zero =>
    refine ⟨readEnd, ?_⟩
    rw [readInfoBits, pow_zero, mul_one]
    rfl
  | succ nInfoBit ih =>
    have hhalf : (nVal * 2 + 2) * 2 ^ nInfoBit ≤ 2 ^ 32 := by
      rw [pow_succ'] at hval
      linarith
    have hbit := Bool.toNat_le (byteBits pBuffer (p + 1))
    have hsmall : nVal * 2 < 2 ^ 32 := by
      have hpos : (nVal * 2 + 2) * 1 ≤ (nVal * 2 + 2) * 2 ^ nInfoBit :=
        Nat.mul_le_mul_left _ Nat.one_le_two_pow
      omega
    have hnext : nVal <<< 1 % 2 ^ 32 ||| (byteBits pBuffer (p + 1)).toNat =
        nVal * 2 + (byteBits pBuffer (p + 1)).toNat := by
      rw [shiftLeft_eq, pow_one, mod_eq_of_lt hsmall]
      have hplace : (byteBits pBuffer (p + 1)).toNat < 2 ^ 1 := by omega
      have hor := place_eq_shift_or (a := nVal) hplace
      rw [shiftLeft_eq, pow_one] at hor
      exact hor.symm
    have hval' : (nVal * 2 + (byteBits pBuffer (p + 1)).toNat + 1) * 2 ^ nInfoBit ≤ 2 ^ 32 :=
      (Nat.mul_le_mul_right _ (by omega)).trans hhalf
    obtain ⟨readEnd₁, hread⟩ := readCtrBit_eq pBuffer (p + 1) ⟨p + 1, readEnd⟩
    obtain ⟨readEnd₂, hloop⟩ := ih (p := p + 1) (by omega) hval' readEnd₁
    rw [readInfoBits, HeaderReader.bind_some (incPosition_eq _ _ (by dsimp only; omega)),
      placeOf_succ, HeaderReader.bind_some hread, hnext, hloop]
    have hsplit := bits_append (byteBits pBuffer) (p + 1) 1 nInfoBit
    rw [bits_succ, bits_zero, mul_zero, zero_add, add_zero, add_comm 1] at hsplit
    have hend : p + 1 + nInfoBit = p + (nInfoBit + 1) := by omega
    refine ⟨readEnd₂, ?_⟩
    rw [hsplit, Nat.add_mul, Nat.mul_assoc, ← Nat.pow_succ', hend, Nat.add_assoc (nVal * _)]

/-- The code of a number. -/
theorem ReadsAt.uvlc (hturns : leadingZeros v < turns) (hv : v + 1 < 2 ^ 32) :
    ReadsAt pBuffer p (VIDDEC_UVLC_dec turns) (golomb v) v := by
  intro hstands hp readEnd
  rw [length_golomb] at hp ⊢
  obtain ⟨readEnd₁, hzeros⟩ := countZeros_eq 1 (by omega) hturns hstands.golomb_zeros
    hstands.golomb_one (by omega) readEnd
  have hlog : 2 ^ leadingZeros v ≤ v + 1 := log2_self_le (succ_ne_zero v)
  have hfew : leadingZeros v < 32 :=
    (Nat.pow_lt_pow_iff_right (Nat.lt_succ_self 1)).mp (hlog.trans_lt hv)
  have hpow : (1 + 1) * 2 ^ leadingZeros v ≤ 2 ^ 32 := by
    rw [← Nat.pow_succ']
    exact Nat.pow_le_pow_right two_pos hfew
  obtain ⟨readEnd₂, hinfo⟩ := readInfoBits_eq pBuffer (p := p + leadingZeros v)
    (by omega) hpow readEnd₁
  have hvalue : 1 * 2 ^ leadingZeros v +
      bits (byteBits pBuffer) (p + leadingZeros v + 1) (leadingZeros v) = v + 1 := by
    have hwidth : 2 * leadingZeros v + 1 = leadingZeros v + 1 + leadingZeros v := by omega
    rw [← hstands.bits_golomb, hwidth, bits_append, bits_succ, hstands.golomb_one,
      bits_eq_zero hstands.golomb_zeros, add_assoc p]
    rfl
  refine ⟨readEnd₂, ?_⟩
  unfold VIDDEC_UVLC_dec
  have hposition : HeaderReader.position pBuffer ⟨p, readEnd⟩ = some (p, ⟨p, readEnd⟩) := rfl
  rw [HeaderReader.bind_some hposition]
  change (countZeros turns (placeOf p) 1 >>= _) pBuffer _ = _
  rw [HeaderReader.bind_some hzeros]
  dsimp only
  rw [Nat.add_sub_cancel_left, HeaderReader.bind_some hinfo, hvalue,
    HeaderReader.bind_some (incPosition_eq _ _ (by dsimp only; omega))]
  have hlast : (v + 1 + 2 ^ 32 - 1) % 2 ^ 32 = v := by omega
  have hend : p + leadingZeros v + leadingZeros v + 1 = p + (2 * leadingZeros v + 1) := by omega
  rw [hlast, hend]
  rfl

/-- The code of the number is read, and the position is behind it. -/
def DecodesCode (pBuffer : Memory) (p v : Nat) : Prop :=
  ∀ turns readEnd, 32 ≤ turns → ∃ readEnd', VIDDEC_UVLC_dec turns pBuffer ⟨p, readEnd⟩ =
    some (v, ⟨p + (golomb v).length, readEnd'⟩)

/-- A read of bits is right where none of them is in a fifth byte, or only zeros are; codes are
always read. -/
theorem bit_primitives_iff (pBuffer : Memory) (p : Nat) :
    (∀ nBits bIncreasePosition, 1 ≤ nBits → nBits ≤ 32 → p + nBits < 2 ^ 32 →
      (ReadsBits pBuffer nBits bIncreasePosition p ↔
        ∀ i, 32 ≤ p % 8 + i → i < nBits → byteBits pBuffer (p + i) = false)) ∧
    ∀ v, v + 1 < 2 ^ 32 → Stands (byteBits pBuffer) p (golomb v) →
      p + (golomb v).length < 2 ^ 32 → DecodesCode pBuffer p v := by
  refine ⟨fun nBits inc _ hn hend => ?_, fun v hv hstands hend turns readEnd hturns => ?_⟩
  · rw [readsBits_iff pBuffer inc hn hend, bits_eq_zero_iff]
    constructor
    · intro h i hi hlt
      have hbit := h (p % 8 + i - 32) (by omega)
      have hplace : p + (32 - p % 8) + (p % 8 + i - 32) = p + i := by omega
      rwa [hplace] at hbit
    · intro h j hj
      rw [add_assoc]
      exact h _ (by omega) (by omega)
  · have hzeros : leadingZeros v < 32 := (Nat.pow_lt_pow_iff_right (Nat.lt_succ_self 1)).mp
      ((log2_self_le (succ_ne_zero v)).trans_lt hv)
    exact ReadsAt.uvlc (hzeros.trans_le hturns) hv hstands hend readEnd

/-- Three bytes from the middle of one, and the code of 6 across two bytes. -/
theorem primitives_read : ReadsBits (bufferOf [0x12, 0x34, 0x56, 0x78]) 24 true 4 ∧
    DecodesCode (bufferOf [0x01, 0xC0]) 5 6 :=
  ⟨((bit_primitives_iff _ 4).1 24 true (by decide) (by decide) (by decide)).mpr
      fun _ h hlt => absurd h (by omega),
    (bit_primitives_iff _ 5).2 6 (by decide) (by decide) (by decide)⟩

/-- The last of 32 bits behind the first one is not read. -/
theorem fifth_byte_dropped : ¬∀ (pBuffer : Memory) (p nBits : Nat) (bIncreasePosition : Bool),
    1 ≤ nBits → nBits ≤ 32 → p + nBits < 2 ^ 32 →
      ReadsBits pBuffer nBits bIncreasePosition p := by
  intro h
  have hread := h (bufferOf [0, 0, 0, 0, 0x80]) 1 32 true (by decide) (by decide) (by decide)
  rw [readsBits_iff _ true (by decide) (by decide)] at hread
  exact absurd hread (by decide)

end Elements

end OmapHal.VideoDecoder
