import OmapHal.ConfigParser.SequenceParameterSet
import OmapHal.Core.NalSyntax

/-!
# The syntax of parameter sets

A sequence parameter set, the elements that it is coded by and the parameters that it stands for.
-/

namespace OmapHal.ConfigParser

open OmapHal.Core List

/-! ### Elements -/

/-- The reads of the element at a position stay in one word. -/
def InWord (p : Nat) : Element → Prop
  | .u n _ => p % 8 + n ≤ 32
  | .ue value => leadingZeros value ≤ 15 ∧ p % 8 + (golomb value).length ≤ 32
  | .se value => (p + leadingZeros (signedPlace value) + 1) % 8 +
      leadingZeros (signedPlace value) ≤ 32

instance (p : Nat) (e : Element) : Decidable (InWord p e) :=
  match e with
  | .u _ _ => inferInstanceAs (Decidable (_ ≤ _))
  | .ue _ => inferInstanceAs (Decidable (_ ∧ _))
  | .se _ => inferInstanceAs (Decidable (_ ≤ _))

/-- All reads of the elements stay in one word each. -/
def InWords : Nat → List Element → Prop
  | _, [] => True
  | p, e :: es => InWord p e ∧ InWords (p + e.code.length) es

instance decidableInWords : (p : Nat) → (es : List Element) → Decidable (InWords p es)
  | _, [] => inferInstanceAs (Decidable True)
  | p, e :: es =>
    haveI := decidableInWords (p + e.code.length) es
    inferInstanceAs (Decidable (_ ∧ _))

theorem inWords_append {p : Nat} {es es' : List Element} : InWords p (es ++ es') ↔
    InWords p es ∧ InWords (p + (encodeElements es).length) es' := by
  induction es generalizing p with
  | nil => simp [InWords, encodeElements]
  | cons e es ih =>
    have hlen : p + (encodeElements (e :: es)).length =
        p + e.code.length + (encodeElements es).length := by
      rw [encodeElements, flatMap_cons, length_append, Nat.add_assoc]
      rfl
    rw [cons_append, InWords, InWords, ih, and_assoc, hlen]

theorem lt_of_inWords {p value : Nat} {es : List Element} (h : InWords p es)
    (hmem : Element.ue value ∈ es) : value + 1 < 2 ^ 16 := by
  induction es generalizing p with
  | nil => exact absurd hmem not_mem_nil
  | cons e es ih =>
    rcases mem_cons.mp hmem with rfl | hmem
    · have hlt := lt_two_pow_leadingZeros value
      have hpow : 2 ^ (leadingZeros value + 1) ≤ 2 ^ 16 :=
        Nat.pow_le_pow_right (by omega) (Nat.succ_le_succ h.1.1)
      omega
    · exact ih h.2 hmem

/-! ### Parameter sets -/

/-- The coded deltas of a scaling list, which end with one that makes the scale zero. -/
def Coded : Nat → Int → List Int → Prop
  | 0, _, deltas => deltas = []
  | _ + 1, _, [] => False
  | n + 1, lastScale, delta :: deltas =>
    if (lastScale + delta + 256) % 256 = 0 then deltas = []
    else Coded n ((lastScale + delta + 256) % 256) deltas

instance decidableCoded : (n : Nat) → (lastScale : Int) → (deltas : List Int) →
    Decidable (Coded n lastScale deltas)
  | 0, _, deltas => inferInstanceAs (Decidable (deltas = []))
  | _ + 1, _, [] => inferInstanceAs (Decidable False)
  | n + 1, lastScale, delta :: deltas =>
    haveI := decidableCoded n ((lastScale + delta + 256) % 256) deltas
    inferInstanceAs (Decidable (if (lastScale + delta + 256) % 256 = 0 then deltas = []
      else Coded n ((lastScale + delta + 256) % 256) deltas))

structure ScalingList (size : Nat) where
  deltas : List Int
  range : ∀ delta ∈ deltas, -128 ≤ delta ∧ delta ≤ 127
  coded : Coded size 8 deltas

def scalingListElements {size : Nat} : Option (ScalingList size) → List Element
  | none => [.u 1 0]
  | some list => .u 1 1 :: list.deltas.map .se

/-- What a parameter set of the high profile has besides 4:2:0 samples of 8 bits. -/
structure HighParameters where
  qpprime_y_zero_transform_bypass_flag : Bool
  seq_scaling_matrix : Option ((i : Fin 8) → Option (ScalingList (listSize i)))

def scalingMatrixElements :
    Option ((i : Fin 8) → Option (ScalingList (listSize i))) → List Element
  | none => [.u 1 0]
  | some lists => .u 1 1 :: (List.finRange 8).flatMap fun i => scalingListElements (lists i)

inductive Profile where
  | baseline
  | main
  | extended
  | high (parameters : HighParameters)

def Profile.idc : Profile → Nat
  | .baseline => 66
  | .main => 77
  | .extended => 88
  | .high _ => 100

def Profile.elements : Profile → List Element
  | .high parameters => [.ue 1, .ue 0, .ue 0,
      .u 1 parameters.qpprime_y_zero_transform_bypass_flag.toNat] ++
      scalingMatrixElements parameters.seq_scaling_matrix
  | _ => []

/-- The sizes that are displayed; an offset counts two luma samples. -/
def SpsParameters.cropped (out : SpsParameters) : Option Cropping → SpsParameters
  | none => out
  | some crop => { out with
      display_width := out.width - 2 * (crop.left + crop.right)
      display_height := out.height - 2 * (crop.top + crop.bottom) }

/-- A sequence parameter set for frames of 4:2:0 macroblocks with 8 bits. -/
structure Sps where
  nal_ref_idc : Fin 4
  profile : Profile
  constraint_set0_flag : Bool
  constraint_set1_flag : Bool
  constraint_set2_flag : Bool
  /-- The other constraint flags and the reserved bits. -/
  reserved : Fin 32
  level_idc : Fin 256
  seq_parameter_set_id : Nat
  log2_max_frame_num_minus4 : Nat
  pic_order_cnt : PicOrderCnt
  max_num_ref_frames : Nat
  gaps_in_frame_num_value_allowed_flag : Bool
  pic_width_in_mbs_minus1 : Nat
  pic_height_in_map_units_minus1 : Nat
  direct_8x8_inference_flag : Bool
  frame_cropping : Option Cropping

namespace Sps

/-- The elements up to the flag for usability information, behind the header of the unit. -/
def elements (sps : Sps) : List Element :=
  [.u 8 (sps.nal_ref_idc * 32 + 7), .u 8 sps.profile.idc, .u 1 sps.constraint_set0_flag.toNat,
    .u 1 sps.constraint_set1_flag.toNat, .u 1 sps.constraint_set2_flag.toNat,
    .u 5 sps.reserved, .u 8 sps.level_idc, .ue sps.seq_parameter_set_id] ++
  (sps.profile.elements ++
  ([.ue sps.log2_max_frame_num_minus4] ++
  (sps.pic_order_cnt.elements ++
  ([.ue sps.max_num_ref_frames, .u 1 sps.gaps_in_frame_num_value_allowed_flag.toNat,
    .ue sps.pic_width_in_mbs_minus1, .ue sps.pic_height_in_map_units_minus1, .u 1 1,
    .u 1 sps.direct_8x8_inference_flag.toNat] ++ croppingElements sps.frame_cropping))))

def width (sps : Sps) : Int := 16 * (sps.pic_width_in_mbs_minus1 + 1)

def height (sps : Sps) : Int := 16 * (sps.pic_height_in_map_units_minus1 + 1)

/-- The parameters that the set stands for. -/
def parameters (sps : Sps) : SpsParameters :=
  SpsParameters.cropped
    { width := sps.width
      height := sps.height
      display_width := sps.width
      display_height := sps.height
      profile_idc := sps.profile.idc
      level_idc := sps.level_idc
      frame_mb_only_flag := 1 } sps.frame_cropping

end Sps

/-! ### What the decoder can read -/

/-- The optional parameters that the decoder can read: no lossless mode, and scaling lists with a
delta for each element. -/
structure HighParameters.Served (parameters : HighParameters) : Prop where
  bypass : parameters.qpprime_y_zero_transform_bypass_flag = false
  lists : ∀ lists, parameters.seq_scaling_matrix = some lists → ∀ i list, lists i = some list →
    list.deltas.length = listSize i

/-- The parameter sets that the decoder can read. -/
structure Sps.Served (sps : Sps) : Prop where
  level : sps.level_idc ≤ 51
  high : ∀ parameters, sps.profile = .high parameters → parameters.Served
  inWords : InWords 0 sps.elements

end OmapHal.ConfigParser
