import Mathlib

/-!
# Byte memory

A memory of bytes, written in ranges. Numbers stand in it in little-endian order.
-/

namespace OmapHal.Core

open List Nat Function

abbrev Memory := Nat → UInt8

namespace Memory

variable {m : Memory} {a b n : Nat} {bs cs : List UInt8}

/-- The bytes `bs` written from address `a` on. -/
def write (m : Memory) (a : Nat) (bs : List UInt8) : Memory :=
  fun x => if a ≤ x then bs.getD (x - a) (m x) else m x

/-- The `n` bytes from address `a` on. -/
def read (m : Memory) (a : Nat) : Nat → List UInt8
  | 0 => []
  | n + 1 => m a :: read m (a + 1) n

/-- Two ranges of addresses without a common address. -/
def Apart (a n b k : Nat) : Prop := a + n ≤ b ∨ b + k ≤ a

@[simp] theorem length_read (m : Memory) (a n : Nat) : (m.read a n).length = n := by
  induction n generalizing a with
  | zero => rfl
  | succ n ih => rw [read, length_cons, ih]

theorem getElem?_read {k : Nat} (m : Memory) (a : Nat) (h : k < n) :
    (m.read a n)[k]? = some (m (a + k)) := by
  induction n generalizing a k with
  | zero => omega
  | succ n ih =>
    cases k with
    | zero => rfl
    | succ k =>
      rw [read, getElem?_cons_succ, ih (a + 1) (by omega)]
      congr 2
      omega

theorem write_cons (m : Memory) (a : Nat) (b : UInt8) (bs : List UInt8) :
    m.write a (b :: bs) = Function.update (m.write (a + 1) bs) a b := by
  funext x
  by_cases hx : x = a
  · subst hx
    simp [write]
  · rw [update_of_ne hx]
    by_cases hax : a ≤ x
    · obtain ⟨k, rfl⟩ : ∃ k, x = a + 1 + k := ⟨x - a - 1, by omega⟩
      have h1 : a + 1 + k - a = k + 1 := by omega
      have h2 : a + 1 + k - (a + 1) = k := by omega
      simp only [write, hax, le_add_right, if_true, h1, h2, getD_cons_succ]
    · have hax' : ¬ a + 1 ≤ x := by omega
      simp only [write, hax, hax', if_false]

/-- An address outside the written range keeps its byte. -/
theorem write_of_outside {x : Nat} (h : x < a ∨ a + bs.length ≤ x) : m.write a bs x = m x := by
  unfold write
  split
  · rw [getD_eq_getElem?_getD, getElem?_eq_none (by omega), Option.getD_none]
  · rfl

/-- What a written range reads back from its start. -/
theorem read_write_prefix (m : Memory) (a : Nat) (bs cs : List UInt8) :
    (m.write a (bs ++ cs)).read a bs.length = bs := by
  induction bs generalizing a with
  | nil => rfl
  | cons b bs ih =>
    rw [cons_append, write_cons, length_cons, read, update_self]
    congr 1
    have hread : ∀ n c, a < c →
        read (update (m.write (a + 1) (bs ++ cs)) a b) c n =
          read (m.write (a + 1) (bs ++ cs)) c n := by
      intro n
      induction n with
      | zero => intro c _; rfl
      | succ n ihn =>
        intro c hc
        rw [read, read, update_of_ne (by omega), ihn (c + 1) (by omega)]
    rw [hread _ _ (lt_succ_self a), ih]

/-- Memories that agree on a range read the same there. -/
theorem read_congr {m' : Memory} (h : ∀ x, a ≤ x → x < a + n → m' x = m x) :
    m'.read a n = m.read a n := by
  induction n generalizing a with
  | zero => rfl
  | succ n ih =>
    rw [read, read, h a (le_refl a) (by omega), ih fun x hx hx' => h x (by omega) (by omega)]

/-- Two ranges with the same bytes. -/
theorem read_eq_read {m' : Memory} (h : ∀ k < n, m' (b + k) = m (a + k)) :
    m'.read b n = m.read a n := by
  refine ext_getElem? fun k => ?_
  by_cases hk : k < n
  · rw [getElem?_read m' b hk, getElem?_read m a hk, h k hk]
  · rw [getElem?_eq_none (by rw [length_read]; omega),
      getElem?_eq_none (by rw [length_read]; omega)]

theorem read_append (m : Memory) (a n k : Nat) :
    m.read a (n + k) = m.read a n ++ m.read (a + n) k := by
  induction n generalizing a with
  | zero => simp [read]
  | succ n ih =>
    rw [succ_add, read, read, ih, cons_append]
    congr 3
    omega

/-- A part of a range. -/
theorem read_part {xs ys zs : List UInt8} (h : m.read a n = xs ++ (ys ++ zs)) :
    m.read (a + xs.length) ys.length = ys := by
  have hn : n = xs.length + (ys.length + zs.length) := by
    rw [← length_read m a n, h, length_append, length_append]
  rw [hn, read_append] at h
  have htail := (append_inj h (length_read ..)).2
  rw [read_append] at htail
  exact (append_inj htail (length_read ..)).1

end Memory

/-- The little-endian bytes of a number. -/
def encode : Nat → Nat → List UInt8
  | 0, _ => []
  | width + 1, v => UInt8.ofNat v :: encode width (v / 256)

/-- The number that bytes in little-endian order stand for. -/
def decode : List UInt8 → Nat
  | [] => 0
  | b :: bs => b.toNat + 256 * decode bs

@[simp] theorem length_encode (width v : Nat) : (encode width v).length = width := by
  induction width generalizing v with
  | zero => rfl
  | succ width ih => rw [encode, length_cons, ih]

theorem decode_encode (width v : Nat) : decode (encode width v) = v % 256 ^ width := by
  induction width generalizing v with
  | zero => rw [pow_zero, mod_one]; rfl
  | succ width ih =>
    have hbyte : (UInt8.ofNat v).toNat = v % 256 := UInt8.toNat_ofNat'
    rw [encode, decode, ih, hbyte, pow_succ, mul_comm (256 ^ width), mod_mul]

theorem decode_encode_of_lt {width v : Nat} (h : v < 256 ^ width) :
    decode (encode width v) = v := by
  rw [decode_encode, mod_eq_of_lt h]

theorem decode_lt (bytes : List UInt8) : decode bytes < 256 ^ bytes.length := by
  induction bytes with
  | nil => exact one_pos
  | cons b bytes ih =>
    have hb := b.toNat_lt
    rw [decode, length_cons, pow_succ]
    omega

theorem encode_decode (bytes : List UInt8) : encode bytes.length (decode bytes) = bytes := by
  induction bytes with
  | nil => rfl
  | cons b bytes ih =>
    have hb := b.toNat_lt
    have hlow : UInt8.ofNat (b.toNat + 256 * decode bytes) = b := by
      apply UInt8.toNat_inj.mp
      rw [UInt8.toNat_ofNat']
      omega
    have hrest : (b.toNat + 256 * decode bytes) / 256 = decode bytes := by omega
    rw [decode, length_cons, encode, hlow, hrest, ih]

end OmapHal.Core
