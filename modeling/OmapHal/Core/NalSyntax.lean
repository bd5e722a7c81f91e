import OmapHal.Core.Bits

/-!
# The syntax of H.264

The elements that a parameter set is coded by, with the parts that all profiles share, and the
emulation prevention of a unit.
-/

namespace OmapHal.Core

open List

/-! ### Elements -/

/-- An element of a parameter set: `u(n)`, `ue(v)` or `se(v)`. -/
inductive Element where
  | u (n : Nat) (value : Nat)
  | ue (value : Nat)
  | se (value : Int)

def Element.code : Element → List Bool
  | .u n value => unsigned n value
  | .ue value => golomb value
  | .se value => golomb (signedPlace value)

def encodeElements (es : List Element) : List Bool := es.flatMap Element.code

theorem encodeElements_append (es es' : List Element) :
    encodeElements (es ++ es') = encodeElements es ++ encodeElements es' :=
  flatMap_append

/-- The picture order counts of types 0, 1 and 2. -/
inductive PicOrderCnt where
  | lsb (log2_max_pic_order_cnt_lsb_minus4 : Nat)
  | cycle (delta_pic_order_always_zero_flag : Bool) (offset_for_non_ref_pic : Int)
      (offset_for_top_to_bottom_field : Int) (offset_for_ref_frame : List Int)
  | output

def PicOrderCnt.elements : PicOrderCnt → List Element
  | .lsb log2_max => [.ue 0, .ue log2_max]
  | .cycle zero nonRef topToBottom refFrame =>
    [.ue 1, .u 1 zero.toNat, .se nonRef, .se topToBottom, .ue refFrame.length] ++
      refFrame.map .se
  | .output => [.ue 2]

structure Cropping where
  left : Nat
  right : Nat
  top : Nat
  bottom : Nat

def croppingElements : Option Cropping → List Element
  | none => [.u 1 0]
  | some crop => [.u 1 1, .ue crop.left, .ue crop.right, .ue crop.top, .ue crop.bottom]

/-! ### Emulation prevention -/

variable {count : Nat}

/-- The zeros seen in a row after one more byte. -/
def zeros (count : Nat) (b : UInt8) : Nat := if b ≠ 0 then 0 else count + 1

/-- The standard's escaping, after some zeros in a row. -/
def escape : Nat → List UInt8 → List UInt8
  | count, [] => if count = 2 then [3] else []
  | count, b :: s =>
    if count = 2 ∧ b ≤ 3 then 3 :: b :: escape (zeros 0 b) s else b :: escape (zeros count b) s

/-- A byte string without its escapes. -/
def strip : Nat → List UInt8 → List UInt8
  | _, [] => []
  | count, b :: x => if count = 2 ∧ b = 3 then strip 0 x else b :: strip (zeros count b) x

/-- Removal inverts escaping. -/
theorem strip_escape (s : List UInt8) (h : count ≤ 2) : strip count (escape count s) = s := by
  induction s generalizing count with
  | nil =>
    rw [escape]
    split
    · next h2 => rw [h2]; rfl
    · rfl
  | cons b s ih =>
    rw [escape]
    split
    · next h2 =>
      have hz : zeros 0 b ≤ 2 := by
        rw [zeros]
        split <;> omega
      rw [strip, if_pos ⟨h2.1, rfl⟩, strip, if_neg fun h0 => absurd h0.1 (by omega), ih hz]
    · next hno =>
      have hz : zeros count b ≤ 2 := by
        rw [zeros]
        split
        · omega
        · next h0 =>
          have hb : b = 0 := not_not.mp h0
          have hne : count ≠ 2 := fun h2 => hno ⟨h2, by rw [hb]; decide⟩
          omega
      rw [strip, if_neg fun h3 => hno ⟨h3.1, by rw [h3.2]; decide⟩, ih hz]

theorem length_strip_le (x : List UInt8) (count : Nat) : (strip count x).length ≤ x.length := by
  induction x generalizing count with
  | nil => exact Nat.le_refl 0
  | cons b x ih =>
    rw [strip]
    split
    · exact Nat.le_succ_of_le (ih 0)
    · exact Nat.succ_le_succ (ih _)

end OmapHal.Core
