import Mathlib.Data.List.Lex
import Mathlib.Data.List.Forall2
import Mathlib.Algebra.BigOperators.Group.List.Basic
import Mathlib.Data.Nat.Bitwise
import Mathlib.Tactic.Cases

/-!
# Numerals and bit strings

A number put together from digits, the first one the most significant, where each place has a
radix of its own. As long as every digit is below its radix, numbers are ordered as the lists of
their digits.
-/

namespace OmapHal.Core

open List Nat

/-- The digits behind a number that stands already. -/
def numeralFrom (start : Nat) : List (Nat × Nat) → Nat
  | [] => start
  | (radix, digit) :: places => numeralFrom (start * radix + digit) places

/-- The digits, each with its radix. -/
def numeral (places : List (Nat × Nat)) : Nat := numeralFrom 0 places

/-- Every digit is below its radix. -/
abbrev InRadix (radixes digits : List Nat) : Prop :=
  List.Forall₂ (fun radix digit => digit < radix) radixes digits

theorem place_lt_iff {a b r d e : Nat} (hd : d < r) (he : e < r) :
    a * r + d < b * r + e ↔ a < b ∨ a = b ∧ d < e := by
  constructor
  · intro h
    rcases lt_trichotomy a b with hab | hab | hab
    · exact Or.inl hab
    · subst hab
      exact Or.inr ⟨rfl, Nat.lt_of_add_lt_add_left h⟩
    · have hstep : (b + 1) * r ≤ a * r := mul_le_mul_right r hab
      rw [succ_mul] at hstep
      omega
  · rintro (hab | ⟨rfl, hde⟩)
    · have hstep : (a + 1) * r ≤ b * r := mul_le_mul_right r hab
      rw [succ_mul] at hstep
      omega
    · exact Nat.add_lt_add_left hde _

theorem place_eq_iff {a b r d e : Nat} (hd : d < r) (he : e < r) :
    a * r + d = b * r + e ↔ a = b ∧ d = e := by
  have hlt := place_lt_iff (a := a) (b := b) hd he
  have hgt := place_lt_iff (a := b) (b := a) he hd
  constructor
  · intro h
    omega
  · rintro ⟨rfl, rfl⟩
    rfl

variable {radixes digits digits' : List Nat}

theorem numeralFrom_lt_iff (h : InRadix radixes digits) (h' : InRadix radixes digits')
    (a b : Nat) :
    numeralFrom a (radixes.zip digits) < numeralFrom b (radixes.zip digits') ↔
      a < b ∨ a = b ∧ digits < digits' := by
  induction h generalizing digits' a b with
  | nil =>
    cases h'
    simp [numeralFrom]
  | @cons r d radixes digits hd hrest ih =>
    cases h' with
    | @cons _ e _ digits' he hrest' =>
      simp only [zip_cons_cons, numeralFrom]
      rw [ih hrest', place_lt_iff hd he, place_eq_iff hd he, cons_lt_cons_iff]
      tauto

/-- Numbers are ordered as their digits. -/
theorem numeral_lt_iff (h : InRadix radixes digits) (h' : InRadix radixes digits') :
    numeral (radixes.zip digits) < numeral (radixes.zip digits') ↔ digits < digits' := by
  rw [numeral, numeral, numeralFrom_lt_iff h h']
  simp

/-- A binary place is a shift and an or. -/
theorem place_eq_shift_or {a d k : Nat} (hd : d < 2 ^ k) : a * 2 ^ k + d = a <<< k ||| d := by
  rw [shiftLeft_eq, mul_comm, two_pow_add_eq_or_of_lt hd]

/-!
## Bit strings

The number that stands in a range of a string of bits, the first bit being the highest, the string
of bits of a byte memory, and the codes of numbers.
-/

section Ranges

variable {bit bit' : Nat → Bool} {p n : Nat}

/-- The number in the `n` bits from position `p` on. -/
def bits (bit : Nat → Bool) (p : Nat) : Nat → Nat
  | 0 => 0
  | n + 1 => 2 * bits bit p n + (bit (p + n)).toNat

@[simp] theorem bits_zero (bit : Nat → Bool) (p : Nat) : bits bit p 0 = 0 := rfl

theorem bits_succ (bit : Nat → Bool) (p n : Nat) :
    bits bit p (n + 1) = 2 * bits bit p n + (bit (p + n)).toNat := rfl

theorem bits_lt (bit : Nat → Bool) (p n : Nat) : bits bit p n < 2 ^ n := by
  induction n with
  | zero => exact Nat.one_pos
  | succ n ih =>
    have hb := Bool.toNat_le (bit (p + n))
    rw [bits_succ, pow_succ]
    omega

theorem bits_append (bit : Nat → Bool) (p m n : Nat) :
    bits bit p (m + n) = bits bit p m * 2 ^ n + bits bit (p + m) n := by
  induction n with
  | zero => rw [add_zero, bits_zero, pow_zero, mul_one, add_zero]
  | succ n ih =>
    have hpow : bits bit p m * 2 ^ (n + 1) = 2 * (bits bit p m * 2 ^ n) := by
      rw [pow_succ, ← mul_assoc, mul_comm]
    rw [← add_assoc, bits_succ, bits_succ, ih, hpow, add_assoc p m n]
    omega

theorem bits_congr (h : ∀ i < n, bit (p + i) = bit' (p + i)) : bits bit p n = bits bit' p n := by
  induction n with
  | zero => rfl
  | succ n ih =>
    rw [bits_succ, bits_succ, ih fun i hi => h i (Nat.lt_succ_of_lt hi), h n (Nat.lt_succ_self n)]

/-- A part of the range as digits of the number. -/
theorem bits_slice (bit : Nat → Bool) (p a n b : Nat) :
    bits bit p (a + n + b) / 2 ^ b % 2 ^ n = bits bit (p + a) n := by
  have hlow := bits_lt bit (p + (a + n)) b
  have hmid := bits_lt bit (p + a) n
  rw [bits_append, Nat.mul_comm, Nat.mul_add_div (Nat.two_pow_pos b), Nat.div_eq_of_lt hlow,
    Nat.add_zero, bits_append, Nat.mul_comm, Nat.mul_add_mod, Nat.mod_eq_of_lt hmid]

/-- The bits of a byte memory. -/
def byteBits (data : Nat → UInt8) (p : Nat) : Bool := (data (p / 8)).toNat.testBit (7 - p % 8)

theorem byteBits_eq (data : Nat → UInt8) (k : Nat) {i : Nat} (hi : i < 8) :
    byteBits data (8 * k + i) = (data k).toNat.testBit (7 - i) := by
  rw [byteBits, mul_add_div (by omega), mul_add_mod, div_eq_of_lt hi,
    mod_eq_of_lt hi, add_zero]

theorem bits_in_byte (data : Nat → UInt8) (k : Nat) {n : Nat} (hn : n ≤ 8) :
    bits (byteBits data) (8 * k) n = (data k).toNat / 2 ^ (8 - n) := by
  induction n with
  | zero => exact (div_eq_of_lt (UInt8.toNat_lt _)).symm
  | succ n ih =>
    have hhalf : (data k).toNat / 2 ^ (8 - n) = (data k).toNat / 2 ^ (7 - n) / 2 := by
      rw [Nat.div_div_eq_div_mul, ← Nat.pow_succ]
      congr 2
      omega
    have hpow : 8 - (n + 1) = 7 - n := by omega
    rw [bits_succ, ih (by omega), byteBits_eq data k hn, toNat_testBit, hhalf, hpow,
      div_add_mod]

theorem bits_byte (data : Nat → UInt8) (k : Nat) :
    bits (byteBits data) (8 * k) 8 = (data k).toNat := by
  rw [bits_in_byte data k (Nat.le_refl 8), Nat.sub_self, Nat.pow_zero, Nat.div_one]

/-- One more byte behind a number of whole bytes. -/
theorem bits_push (data : Nat → UInt8) (k n : Nat) :
    bits (byteBits data) (8 * k) (8 * n + 8) =
      bits (byteBits data) (8 * k) (8 * n) <<< 8 ||| (data (k + n)).toNat := by
  rw [bits_append, ← mul_add, bits_byte]
  exact place_eq_shift_or (UInt8.toNat_lt _)

end Ranges

/-!
## Codes of numbers

Lists of bits that stand in a string of bits, and two codes of numbers as such lists: binary
numbers of a fixed width and Exp-Golomb codes.
-/

section Codes

variable {bit bit' : Nat → Bool} {p n v : Nat} {xs ys : List Bool}

/-- The bits of the list stand from position `p` on. -/
def Stands (bit : Nat → Bool) : Nat → List Bool → Prop
  | _, [] => True
  | p, x :: xs => bit p = x ∧ Stands bit (p + 1) xs

instance decidableStands (bit : Nat → Bool) : (p : Nat) → (xs : List Bool) →
    Decidable (Stands bit p xs)
  | _, [] => inferInstanceAs (Decidable True)
  | p, _ :: xs =>
    haveI := decidableStands bit (p + 1) xs
    inferInstanceAs (Decidable (_ ∧ _))

theorem stands_append :
    Stands bit p (xs ++ ys) ↔ Stands bit p xs ∧ Stands bit (p + xs.length) ys := by
  induction xs generalizing p with
  | nil => simp [Stands]
  | cons x xs ih =>
    rw [cons_append, Stands, Stands, ih, and_assoc, length_cons, add_assoc, add_comm 1]

theorem Stands.congr (h : Stands bit p xs) (hbit : ∀ i < xs.length, bit' (p + i) = bit (p + i)) :
    Stands bit' p xs := by
  induction xs generalizing p with
  | nil => trivial
  | cons x xs ih =>
    refine ⟨(hbit 0 (succ_pos _)).trans h.1, ih h.2 fun i hi => ?_⟩
    rw [add_assoc, add_comm 1]
    exact hbit (i + 1) (succ_lt_succ hi)

theorem Stands.replicate {b : Bool} (h : Stands bit p (List.replicate n b)) :
    ∀ i < n, bit (p + i) = b := by
  induction n generalizing p with
  | zero => exact fun i hi => absurd hi (not_lt_zero i)
  | succ n ih =>
    obtain ⟨hfirst, hrest⟩ := h
    intro i hi
    cases i with
    | zero => exact hfirst
    | succ i =>
      have hbit := ih hrest i (lt_of_succ_lt_succ hi)
      rwa [add_assoc, add_comm 1] at hbit

/-- One bit of the number in a range. -/
theorem testBit_bits (bit : Nat → Bool) (p a b : Nat) :
    (bits bit p (a + 1 + b)).testBit b = bit (p + a) := by
  have hslice := bits_slice bit p a 1 b
  rw [bits_succ, bits_zero, mul_zero, zero_add, pow_one, add_zero] at hslice
  rw [testBit_eq_decide_div_mod_eq, hslice]
  cases bit (p + a) <;> rfl

/-- The first bits of the number in a range. -/
theorem bits_high (bit : Nat → Bool) (p m n : Nat) :
    bits bit p (m + n) / 2 ^ n = bits bit p m := by
  rw [bits_append, Nat.mul_comm, Nat.mul_add_div (Nat.two_pow_pos n),
    div_eq_of_lt (bits_lt bit (p + m) n), add_zero]

theorem bits_eq_zero (h : ∀ i < n, bit (p + i) = false) : bits bit p n = 0 := by
  induction n with
  | zero => rfl
  | succ n ih =>
    rw [bits_succ, ih fun i hi => h i (lt_succ_of_lt hi), h n (lt_succ_self n)]
    rfl

/-! ### Words of 32 bits -/

def addU (a b : Nat) : Nat := (a + b) % 2 ^ 32

def subU (a b : Nat) : Nat := (a + 2 ^ 32 - b) % 2 ^ 32

/-! ### Binary numbers -/

/-- The low `n` bits of a number, the highest one first. -/
def unsigned : Nat → Nat → List Bool
  | 0, _ => []
  | n + 1, v => unsigned n (v / 2) ++ [decide (v % 2 = 1)]

@[simp] theorem length_unsigned (n v : Nat) : (unsigned n v).length = n := by
  induction n generalizing v with
  | zero => rfl
  | succ n ih => rw [unsigned, length_append, ih, length_singleton]

theorem Stands.bits_unsigned (h : Stands bit p (unsigned n v)) : bits bit p n = v % 2 ^ n := by
  induction n generalizing v with
  | zero => rw [bits_zero, pow_zero, mod_one]
  | succ n ih =>
    rw [unsigned, stands_append, length_unsigned] at h
    obtain ⟨hhigh, hlow, -⟩ := h
    have hbit : (decide (v % 2 = 1)).toNat = v % 2 := by
      rcases mod_two_eq_zero_or_one v with h0 | h1
      · simp [h0]
      · simp [h1]
    rw [bits_succ, ih hhigh, hlow, hbit, pow_succ, mul_comm _ 2, mod_mul, add_comm]

/-- The number in a range stands there as a binary number. -/
theorem stands_bits (bit : Nat → Bool) (p n : Nat) : Stands bit p (unsigned n (bits bit p n)) := by
  induction n with
  | zero => trivial
  | succ n ih =>
    have hb := Bool.toNat_lt (bit (p + n))
    have hhalf : (2 * bits bit p n + (bit (p + n)).toNat) / 2 = bits bit p n := by omega
    rw [unsigned, bits_succ, stands_append, hhalf, length_unsigned]
    refine ⟨ih, ?_, trivial⟩
    rw [mul_add_mod]
    cases bit (p + n) <;> rfl

theorem stands_unsigned_iff (hv : v < 2 ^ n) :
    Stands bit p (unsigned n v) ↔ bits bit p n = v := by
  constructor
  · intro h
    rw [h.bits_unsigned, mod_eq_of_lt hv]
  · rintro rfl
    exact stands_bits bit p n

/-- Two numbers one behind the other. -/
theorem unsigned_append (m n high low : Nat) (hlow : low < 2 ^ n) :
    unsigned (m + n) (high * 2 ^ n + low) = unsigned m high ++ unsigned n low := by
  induction n generalizing low with
  | zero =>
    rw [pow_zero] at hlow
    have hzero : low = 0 := by omega
    rw [hzero, pow_zero, mul_one, unsigned, append_nil, add_zero, add_zero]
  | succ n ih =>
    rw [pow_succ] at hlow
    have hhalf : (high * 2 ^ (n + 1) + low) / 2 = high * 2 ^ n + low / 2 := by
      rw [pow_succ, ← mul_assoc]
      omega
    have hparity : (high * 2 ^ (n + 1) + low) % 2 = low % 2 := by
      rw [pow_succ, ← mul_assoc]
      omega
    rw [← add_assoc, unsigned, hhalf, hparity, ih _ (by omega), unsigned, append_assoc]

/-! ### Bytes -/

/-- The bits of bytes. -/
def byteCode (bytes : List UInt8) : List Bool := bytes.flatMap fun b => unsigned 8 b.toNat

@[simp] theorem length_byteCode (bytes : List UInt8) :
    (byteCode bytes).length = 8 * bytes.length := by
  induction bytes with
  | nil => rfl
  | cons b bytes ih =>
    rw [byteCode, flatMap_cons, length_append, length_unsigned, ← byteCode, ih, length_cons]
    omega

/-- The bits of bytes stand where the bytes do. -/
theorem stands_byteCode {data : Nat → UInt8} {bytes : List UInt8} {k : Nat} :
    Stands (byteBits data) (8 * k) (byteCode bytes) ↔
      ∀ i b, bytes[i]? = some b → data (k + i) = b := by
  induction bytes generalizing k with
  | nil => simp [byteCode, Stands]
  | cons b bytes ih =>
    have hfirst : Stands (byteBits data) (8 * k) (unsigned 8 b.toNat) ↔ data k = b := by
      rw [stands_unsigned_iff (UInt8.toNat_lt b), bits_byte, UInt8.toNat_inj]
    rw [byteCode, flatMap_cons, ← byteCode, stands_append, length_unsigned, hfirst,
      ← mul_succ, ih]
    constructor
    · rintro ⟨hb, hrest⟩ i c hc
      cases i with
      | zero => exact hb.trans (Option.some.inj hc)
      | succ i =>
        rw [← hrest i c hc, succ_add]
        rfl
    · intro h
      refine ⟨h 0 b rfl, fun i c hc => ?_⟩
      rw [← h (i + 1) c hc, succ_add]
      rfl

/-! ### Exp-Golomb codes -/

/-- How many zeros come before the first one in the code of a number. -/
def leadingZeros (v : Nat) : Nat := (v + 1).log2

/-- As many zeros as the number's successor has bits behind its first one, and the successor. -/
def golomb (v : Nat) : List Bool :=
  List.replicate (leadingZeros v) false ++ unsigned (leadingZeros v + 1) (v + 1)

theorem length_golomb (v : Nat) : (golomb v).length = 2 * leadingZeros v + 1 := by
  rw [golomb, length_append, length_replicate, length_unsigned]
  omega

theorem lt_two_pow_leadingZeros (v : Nat) : v + 1 < 2 ^ (leadingZeros v + 1) :=
  lt_log2_self

theorem Stands.golomb_zeros (h : Stands bit p (golomb v)) :
    ∀ i < leadingZeros v, bit (p + i) = false :=
  (stands_append.mp h).1.replicate

theorem Stands.bits_golomb (h : Stands bit p (golomb v)) :
    bits bit p (2 * leadingZeros v + 1) = v + 1 := by
  obtain ⟨-, hvalue⟩ := stands_append.mp h
  rw [length_replicate] at hvalue
  have hwidth : 2 * leadingZeros v + 1 = leadingZeros v + (leadingZeros v + 1) := by omega
  rw [hwidth, bits_append, bits_eq_zero h.golomb_zeros, hvalue.bits_unsigned, zero_mul,
    zero_add, mod_eq_of_lt (lt_two_pow_leadingZeros v)]

theorem Stands.golomb_one (h : Stands bit p (golomb v)) : bit (p + leadingZeros v) = true := by
  have hbit := testBit_bits bit p (leadingZeros v) (leadingZeros v)
  have hwidth : leadingZeros v + 1 + leadingZeros v = 2 * leadingZeros v + 1 := by omega
  rw [hwidth, h.bits_golomb] at hbit
  rw [← hbit]
  exact testBit_log2 (succ_ne_zero v)

/-- The code of an integer is the code of its place in `0, 1, -1, 2, -2, …`. -/
def signedPlace (v : Int) : Nat := if 0 < v then 2 * v.natAbs - 1 else 2 * v.natAbs

end Codes

end OmapHal.Core
