import OmapHal.Core.Memory

/-!
# Bit fields of a byte memory

The bits of a memory, numbered from the least significant bit of byte zero on, the fields they make
up, and words of 32 bits.
-/

namespace OmapHal.Core

open BitVec

section Fields

/-- A sum without carries. -/
theorem getLsbD_add_of_disjoint {n : Nat} {x y : BitVec n}
    (h : ∀ i, x.getLsbD i → y.getLsbD i = false) (i : Nat) :
    (x + y).getLsbD i = (x.getLsbD i || y.getLsbD i) := by
  have hand : x &&& y = 0#n := by
    apply eq_of_getLsbD_eq
    intro j _
    rw [getLsbD_and, getLsbD_zero]
    cases hx : x.getLsbD j with
    | false => rfl
    | true => rw [h j hx]; rfl
  rw [add_eq_or_of_and_eq_zero x y hand, getLsbD_or]

namespace Memory

variable {m : Memory} {a k w i : Nat}

/-- Bit `k` of the memory. -/
def bit (m : Memory) (k : Nat) : Bool := (m (k / 8)).toBitVec.getLsbD (k % 8)

theorem bit_byte (m : Memory) (a : Nat) (h : i < 8) :
    m.bit (8 * a + i) = (m a).toBitVec.getLsbD i := by
  have hdiv : (8 * a + i) / 8 = a := by omega
  have hmod : (8 * a + i) % 8 = i := by omega
  rw [bit, hdiv, hmod]

/-- A byte that is replaced gives its own bits, the other bytes keep theirs. -/
theorem bit_update (m : Memory) (a k : Nat) (b : UInt8) :
    bit (Function.update m a b) k =
      if 8 * a ≤ k ∧ k < 8 * a + 8 then b.toBitVec.getLsbD (k - 8 * a) else m.bit k := by
  by_cases hk : 8 * a ≤ k ∧ k < 8 * a + 8
  · have hdiv : k / 8 = a := by omega
    have hmod : k % 8 = k - 8 * a := by omega
    rw [if_pos hk, bit, hdiv, hmod, Function.update_self]
  · have hdiv : k / 8 ≠ a := by omega
    rw [if_neg hk, bit, bit, Function.update_of_ne hdiv]

/-- Bytes with the same bits are equal. -/
theorem byte_eq {m' : Memory} (h : ∀ i < 8, m'.bit (8 * a + i) = m.bit (8 * a + i)) :
    m' a = m a := by
  apply UInt8.toBitVec_inj.1
  apply eq_of_getLsbD_eq
  intro i hi
  have hbit := h i hi
  rwa [bit_byte m' a hi, bit_byte m a hi] at hbit

/-- The `w` bits from bit `k` on. -/
def field (m : Memory) (k : Nat) : (w : Nat) → BitVec w
  | 0 => 0#0
  | w + 1 => BitVec.cons (m.bit (k + w)) (field m k w)

theorem getLsbD_field (m : Memory) (k w i : Nat) :
    (m.field k w).getLsbD i = (decide (i < w) && m.bit (k + i)) := by
  induction w with
  | zero => simp [field]
  | succ w ih =>
    rw [field, getLsbD_cons]
    by_cases hi : i = w
    · subst hi
      simp
    · have hiff : i < w + 1 ↔ i < w := by omega
      rw [if_neg hi, ih]
      simp only [hiff]

end Memory

end Fields

/-!
## Words of a byte memory

A word of 32 bits, its four bytes, and the little-endian words of a memory.
-/

section Words

variable {x y : BitVec 32} {b : UInt8} {i j : Nat}

/-- Byte `i` of a word, the lowest first. -/
def byteOf (w : BitVec 32) (i : Nat) : UInt8 := .ofBitVec (w.extractLsb' (8 * i) 8)

/-- A byte moved to place `i` of a word. -/
def placeByte (b : UInt8) (i : Nat) : BitVec 32 := b.toBitVec.setWidth 32 <<< (8 * i)

theorem getLsbD_byteOf (w : BitVec 32) (i k : Nat) :
    (byteOf w i).toBitVec.getLsbD k = (decide (k < 8) && w.getLsbD (8 * i + k)) :=
  getLsbD_extractLsb' _ _ w k

theorem byte_ext {a b : UInt8} (h : ∀ k < 8, a.toBitVec.getLsbD k = b.toBitVec.getLsbD k) :
    a = b :=
  UInt8.toBitVec_inj.1 (eq_of_getLsbD_eq h)

theorem byteOf_zero (i : Nat) : byteOf 0 i = 0 := by
  apply byte_ext
  intro k hk
  have hword : (0 : BitVec 32).getLsbD (8 * i + k) = false := getLsbD_zero
  have hbyte : (0 : UInt8).toBitVec.getLsbD k = false := getLsbD_zero
  rw [getLsbD_byteOf, hword, hbyte, Bool.and_false]

theorem byteOf_or (x y : BitVec 32) (i : Nat) : byteOf (x ||| y) i = byteOf x i ||| byteOf y i := by
  apply byte_ext
  intro k hk
  rw [UInt8.toBitVec_or, getLsbD_or]
  simp only [getLsbD_byteOf, getLsbD_or, hk, decide_true, Bool.true_and]

theorem byteOf_xor (x y : BitVec 32) (i : Nat) :
    byteOf (x ^^^ y) i = byteOf x i ^^^ byteOf y i := by
  apply byte_ext
  intro k hk
  rw [UInt8.toBitVec_xor, getLsbD_xor]
  simp only [getLsbD_byteOf, getLsbD_xor, hk, decide_true, Bool.true_and]

theorem byteOf_and (x y : BitVec 32) (i : Nat) :
    byteOf (x &&& y) i = byteOf x i &&& byteOf y i := by
  apply byte_ext
  intro k hk
  rw [UInt8.toBitVec_and, getLsbD_and]
  simp only [getLsbD_byteOf, getLsbD_and, hk, decide_true, Bool.true_and]

theorem byteOf_placeByte (b : UInt8) (i : Nat) (hj : j < 4) :
    byteOf (placeByte b i) j = if i = j then b else 0 := by
  apply byte_ext
  intro k hk
  have hwidth : 8 * j + k < 32 := by omega
  rw [getLsbD_byteOf, placeByte, getLsbD_shiftLeft, getLsbD_setWidth]
  by_cases hij : i = j
  · subst hij
    have hnot : ¬ 8 * i + k < 8 * i := by omega
    have hback : 8 * i + k - 8 * i = k := by omega
    have hk32 : k < 32 := by omega
    rw [if_pos rfl]
    simp [hk, hwidth, hnot, hback, hk32]
  · rw [if_neg hij]
    by_cases hlow : 8 * j + k < 8 * i
    · simp [hlow]
    · have hout : b.toBitVec.getLsbD (8 * j + k - 8 * i) = false :=
        getLsbD_of_ge _ _ (by omega)
      simp [hout]

/-- A word is its four bytes. -/
theorem word_ext (h : ∀ i < 4, byteOf x i = byteOf y i) : x = y := by
  apply eq_of_getLsbD_eq
  intro k hk
  have hbyte := congrArg (fun b : UInt8 => b.toBitVec.getLsbD (k % 8)) (h (k / 8) (by omega))
  have hmod : k % 8 < 8 := by omega
  simpa only [getLsbD_byteOf, hmod, decide_true, Bool.true_and, Nat.div_add_mod] using hbyte

namespace Memory

variable {m : Memory} {a p : Nat} {w : BitVec 32}

/-- The word from address `a` on. -/
def word (m : Memory) (a : Nat) : BitVec 32 := m.field (8 * a) 32

/-- A word stored from address `a` on. -/
def setWord (m : Memory) (a : Nat) (w : BitVec 32) : Memory := fun p =>
  if a ≤ p ∧ p < a + 4 then byteOf w (p - a) else m p

theorem byteOf_word (m : Memory) (a : Nat) (hi : i < 4) : byteOf (m.word a) i = m (a + i) := by
  apply byte_ext
  intro k hk
  have hwidth : 8 * i + k < 32 := by omega
  have hplace : 8 * a + (8 * i + k) = 8 * (a + i) + k := by omega
  rw [getLsbD_byteOf, word, getLsbD_field, hplace, bit_byte m (a + i) hk]
  simp [hk, hwidth]

theorem setWord_of_outside (h : p < a ∨ a + 4 ≤ p) : m.setWord a w p = m p :=
  if_neg (by omega)

theorem setWord_inside (m : Memory) (a : Nat) (w : BitVec 32) (hi : i < 4) :
    m.setWord a w (a + i) = byteOf w i := by
  rw [setWord, if_pos (by omega), Nat.add_sub_cancel_left]

theorem word_congr {m' : Memory} (h : ∀ i < 4, m' (a + i) = m (a + i)) : m'.word a = m.word a :=
  word_ext fun i hi => by rw [byteOf_word m' a hi, byteOf_word m a hi, h i hi]

@[simp] theorem word_setWord (m : Memory) (a : Nat) (w : BitVec 32) : (m.setWord a w).word a = w :=
  word_ext fun i hi => by rw [byteOf_word _ a hi, setWord_inside m a w hi]

end Memory

end Words

end OmapHal.Core
