import Mathlib
import OmapHal.Core.Bits

/-!
# The aspect ratio

`aspect_ratio_calc` of `CameraHal_Utils.cpp` chooses a rectangle to crop and its position in the
destination. Its numbers are `unsigned int`; a product that wraps and a division by zero have no
result here. All the pointers for results are given.
-/

namespace OmapHal.Camera

open Option Nat

open OmapHal.Core (addU subU)

/-- A width and a height. -/
structure Size where
  width : Nat
  height : Nat
  deriving DecidableEq, Repr

structure Rect where
  left : Int
  top : Int
  width : Int
  height : Int
  deriving DecidableEq, Repr

structure AspectArgs where
  sens : Size
  pix : Size
  src : Size
  dst : Size
  align_crop : Size
  align_pos : Size
  flags : BitVec 32
  deriving DecidableEq, Repr

def ASPECT_RATIO_FLAG_SHRINK_WHOLE_SRC : BitVec 32 := 2
def ASPECT_RATIO_FLAG_CROP_BY_PHYSICAL : BitVec 32 := 4
def ASPECT_RATIO_FLAG_CROP_BY_SOURCE : BitVec 32 := 8
def ASPECT_RATIO_FLAG_CROP_BY_DESTINATION : BitVec 32 := 16
def ASPECT_RATIO_FLAG_CROP_BY_ALL : BitVec 32 := 28

/-! ## Numbers of 32 bits -/

def mulU (a b : Nat) : Option Nat := if a * b < 2 ^ 32 then some (a * b) else none

def divU (a b : Nat) : Option Nat := if b = 0 then none else some (a / b)

/-- `-1`, for a size that is computed later. -/
def UNSET : Nat := 2 ^ 32 - 1

/-! ## The function -/

/-- `<< 16`, and a division. -/
def rateU (width height : Nat) : Option Nat := do divU (← mulU width (2 ^ 16)) height

/-- The sizes of the crop and of the position, as the ratios compare. -/
def chosenSizes (shrink : Bool) (phys dst : Size) (phys_rate dst_rate : Nat) : Size × Size :=
  if phys_rate >>> 10 = dst_rate >>> 10 then (phys, dst)
  else if phys_rate < dst_rate then
    if shrink then (⟨UNSET, phys.height⟩, ⟨UNSET, dst.height⟩)
    else (⟨phys.width, UNSET⟩, dst)
  else
    if shrink then (⟨phys.width, UNSET⟩, ⟨dst.width, UNSET⟩)
    else (⟨UNSET, phys.height⟩, dst)

/-- `cswidth` and `csheight`, where they are not set. -/
def fillCrop (phys : Size) (dst_rate : Nat) (cs : Size) : Option Size := do
  let cswidth ← if cs.width = UNSET then (mulU phys.height dst_rate).map (· >>> 16)
    else some cs.width
  let csheight ← if cs.height = UNSET then rateU phys.width dst_rate else some cs.height
  some ⟨cswidth, csheight⟩

/-- `pdwidth` and `pdheight`, where they are not set. -/
def fillPos (phys_rate : Nat) (pd : Size) : Option Size := do
  let pdwidth ← if pd.width = UNSET then (mulU pd.height phys_rate).map (· >>> 16)
    else some pd.width
  let pdheight ← if pd.height = UNSET then rateU pdwidth phys_rate else some pd.height
  some ⟨pdwidth, pdheight⟩

/-- The crop in another dimension. -/
def convert (cs phys max : Size) : Option Size := do
  let cswidth ← divU (← mulU cs.width max.width) phys.width
  let csheight ← divU (← mulU cs.height max.height) phys.height
  some ⟨cswidth, csheight⟩

/-- The `switch`: the crop and the rectangle that it is in, if the flags are good. -/
def cropBy (flags : BitVec 32) (phys src dst cs : Size) : Option (Option (Size × Size)) :=
  if flags &&& ASPECT_RATIO_FLAG_CROP_BY_ALL = ASPECT_RATIO_FLAG_CROP_BY_PHYSICAL then
    some (some (cs, phys))
  else if flags &&& ASPECT_RATIO_FLAG_CROP_BY_ALL = ASPECT_RATIO_FLAG_CROP_BY_SOURCE then
    (convert cs phys src).map fun cs => some (cs, src)
  else if flags &&& ASPECT_RATIO_FLAG_CROP_BY_ALL = ASPECT_RATIO_FLAG_CROP_BY_DESTINATION then
    (convert cs phys dst).map fun cs => some (cs, dst)
  else some none

/-- A size that is aligned. -/
def alignU (size align : Nat) : Option Nat := do
  let twice ← mulU align 2
  mulU (← divU (addU size align) twice) twice

def alignSize (size align : Size) : Option Size := do
  let width ← alignU size.width align.width
  let height ← alignU size.height align.height
  some ⟨width, height⟩

/-- The crop rectangle. -/
def cropRect (cs max : Size) : Rect :=
  let width := if cs.width > max.width then max.width else cs.width
  let height := if cs.height > max.height then max.height else cs.height
  ⟨(subU max.width width >>> 1 : Nat), (subU max.height height >>> 1 : Nat), width, height⟩

/-- The position rectangle. -/
def posRect (pd dst : Size) : Rect :=
  ⟨(subU dst.width pd.width >>> 1 : Nat), (subU dst.height pd.height >>> 1 : Nat),
    (pd.width : Int).bmod (2 ^ 32), (pd.height : Int).bmod (2 ^ 32)⟩

/-- The two rectangles, or nothing where the function returns an error. -/
def aspect_ratio_calc (a : AspectArgs) : Option (Option (Rect × Rect)) := do
  let phys_width ← mulU a.sens.width a.pix.width
  let phys_height ← mulU a.sens.height a.pix.height
  let phys : Size := ⟨phys_width, phys_height⟩
  let phys_rate ← rateU phys.width phys.height
  let _src_rate ← rateU a.src.width a.src.height
  let dst_rate ← rateU a.dst.width a.dst.height
  let (cs, pd) := chosenSizes (a.flags &&& ASPECT_RATIO_FLAG_SHRINK_WHOLE_SRC ≠ 0) phys a.dst
    phys_rate dst_rate
  let cs ← fillCrop phys dst_rate cs
  match ← cropBy a.flags phys a.src a.dst cs with
  | none => some none
  | some (cs, max) =>
    let cs ← alignSize cs a.align_crop
    let pd ← fillPos phys_rate pd
    let pd ← alignSize pd a.align_pos
    some (some (cropRect cs max, posRect pd a.dst))

/-! ## What is right -/

/-- The flags say what to crop by. -/
def CropFlags (flags : BitVec 32) : Prop :=
  flags &&& ASPECT_RATIO_FLAG_CROP_BY_ALL = ASPECT_RATIO_FLAG_CROP_BY_PHYSICAL ∨
    flags &&& ASPECT_RATIO_FLAG_CROP_BY_ALL = ASPECT_RATIO_FLAG_CROP_BY_SOURCE ∨
      flags &&& ASPECT_RATIO_FLAG_CROP_BY_ALL = ASPECT_RATIO_FLAG_CROP_BY_DESTINATION

/-- A size with no side of zero, and none of `bound` or more. -/
structure Size.Below (s : Size) (bound : Nat) : Prop where
  width_pos : 0 < s.width
  height_pos : 0 < s.height
  width_lt : s.width < bound
  height_lt : s.height < bound

/-- Arguments for which the function is meant. -/
structure AspectArgs.Ordinary (a : AspectArgs) : Prop where
  sens : a.sens.Below (2 ^ 14)
  pix : a.pix = ⟨1, 1⟩
  src : a.src.Below (2 ^ 14)
  dst : a.dst.Below (2 ^ 14)
  align_crop : a.align_crop.Below (2 ^ 32)
  align_pos : a.align_pos.Below (2 ^ 32)
  flags : CropFlags a.flags

/-- An interval in the middle of one that starts at zero. -/
def Centred (left width total : Int) : Prop :=
  0 ≤ left ∧ 0 ≤ width ∧ 2 * left + width ≤ total ∧ total ≤ 2 * left + width + 1

/-- The products of the sides may be equal, each side being known up to its alignment. -/
def Proportional (cs pd align_crop align_pos : Size) : Prop :=
  (cs.width - align_crop.width) * (pd.height - align_pos.height) ≤
      (cs.height + align_crop.height) * (pd.width + align_pos.width) ∧
    (cs.height - align_crop.height) * (pd.width - align_pos.width) ≤
      (cs.width + align_crop.width) * (pd.height + align_pos.height)

namespace AspectArgs

variable (a : AspectArgs)

/-- The rectangle that the flags select. -/
def maxSize : Size :=
  if a.flags &&& ASPECT_RATIO_FLAG_CROP_BY_ALL = ASPECT_RATIO_FLAG_CROP_BY_PHYSICAL then a.sens
  else if a.flags &&& ASPECT_RATIO_FLAG_CROP_BY_ALL = ASPECT_RATIO_FLAG_CROP_BY_SOURCE then a.src
  else a.dst

/-- The function succeeds with a crop and a position that are right. -/
def Right : Prop :=
  ∃ crop pos, aspect_ratio_calc a = some (some (crop, pos)) ∧
    (0 < crop.width ∧ 0 < crop.height) ∧
    (Centred crop.left crop.width a.maxSize.width ∧
      Centred crop.top crop.height a.maxSize.height) ∧
    (Centred pos.left pos.width a.dst.width ∧ Centred pos.top pos.height a.dst.height) ∧
    (a.flags &&& ASPECT_RATIO_FLAG_CROP_BY_ALL = ASPECT_RATIO_FLAG_CROP_BY_PHYSICAL →
      Proportional ⟨crop.width.toNat, crop.height.toNat⟩ ⟨pos.width.toNat, pos.height.toNat⟩
        a.align_crop a.align_pos)

/-! ## The condition -/

/-- A ratio with 16 bits behind the point. -/
def rate (s : Size) : Nat := s.width * 2 ^ 16 / s.height

/-- The ratios agree but for their last ten bits. -/
def Alike : Prop := rate a.sens / 2 ^ 10 = rate a.dst / 2 ^ 10

instance : Decidable a.Alike := inferInstanceAs (Decidable (_ = _))

def Shrinks : Prop := a.flags &&& ASPECT_RATIO_FLAG_SHRINK_WHOLE_SRC ≠ 0

instance : Decidable a.Shrinks := inferInstanceAs (Decidable (_ ≠ _))

/-- The sensor, cut to the ratio of the destination: in its width or in its height. When shrinking
it is filled up instead. -/
def cutSize : Size :=
  if a.Alike then a.sens
  else if rate a.sens < rate a.dst ↔ a.Shrinks then
    ⟨a.sens.height * rate a.dst / 2 ^ 16, a.sens.height⟩
  else ⟨a.sens.width, a.sens.width * 2 ^ 16 / rate a.dst⟩

/-- The same in the rectangle that the flags select. -/
def cropSize : Size :=
  if a.flags &&& ASPECT_RATIO_FLAG_CROP_BY_ALL = ASPECT_RATIO_FLAG_CROP_BY_PHYSICAL then a.cutSize
  else ⟨a.cutSize.width * a.maxSize.width / a.sens.width,
    a.cutSize.height * a.maxSize.height / a.sens.height⟩

/-- The destination or, when shrinking, the part of it with the ratio of the sensor. -/
def posSize : Size :=
  if a.Alike ∨ ¬a.Shrinks then a.dst
  else if rate a.sens < rate a.dst then ⟨a.dst.height * rate a.sens / 2 ^ 16, a.dst.height⟩
  else ⟨a.dst.width, a.dst.width * 2 ^ 16 / rate a.sens⟩

/-- To the nearest multiple of twice the alignment. -/
def roundTo (size align : Nat) : Nat := (size + align) / (align * 2) * (align * 2)

/-- No product wraps. -/
structure Products : Prop where
  filled : ¬a.Alike → rate a.sens < rate a.dst → a.Shrinks → a.sens.height * rate a.dst < 2 ^ 32
  converted : a.flags &&& ASPECT_RATIO_FLAG_CROP_BY_ALL ≠ ASPECT_RATIO_FLAG_CROP_BY_PHYSICAL →
    a.cutSize.width * a.maxSize.width < 2 ^ 32 ∧ a.cutSize.height * a.maxSize.height < 2 ^ 32
  crop : a.align_crop.width * 2 < 2 ^ 32 ∧ a.align_crop.height * 2 < 2 ^ 32
  pos : a.align_pos.width * 2 < 2 ^ 32 ∧ a.align_pos.height * 2 < 2 ^ 32

/-- The condition. -/
structure Sound : Prop where
  products : a.Products
  width : a.align_crop.width ≤ a.cropSize.width ∧ a.cropSize.width + a.align_crop.width < 2 ^ 32
  height : a.align_crop.height ≤ a.cropSize.height ∧
    a.cropSize.height + a.align_crop.height < 2 ^ 32
  inside : roundTo a.posSize.width a.align_pos.width ≤ a.dst.width ∧
    roundTo a.posSize.height a.align_pos.height ≤ a.dst.height
  alike : a.Alike →
    a.flags &&& ASPECT_RATIO_FLAG_CROP_BY_ALL = ASPECT_RATIO_FLAG_CROP_BY_PHYSICAL →
      Proportional ⟨min (roundTo a.sens.width a.align_crop.width) a.sens.width,
          min (roundTo a.sens.height a.align_crop.height) a.sens.height⟩
        ⟨roundTo a.dst.width a.align_pos.width, roundTo a.dst.height a.align_pos.height⟩
        a.align_crop a.align_pos

variable {a}

/-! ## Computing -/

theorem mulU_of_lt {x y : Nat} (h : x * y < 2 ^ 32) : mulU x y = some (x * y) := if_pos h

theorem divU_of_pos {x y : Nat} (h : 0 < y) : divU x y = some (x / y) :=
  if_neg (pos_iff_ne_zero.mp h)

theorem rateU_of_lt {x y : Nat} (hx : x < 2 ^ 14) (hy : 0 < y) :
    rateU x y = some (x * 2 ^ 16 / y) := by
  unfold rateU
  rw [mulU_of_lt (by omega)]
  exact divU_of_pos hy

theorem rate_pos {s : Size} (h : s.Below (2 ^ 14)) : 0 < rate s := by
  have hwidth := h.width_pos
  have hheight := h.height_lt
  exact div_pos (by omega) h.height_pos

/-- A height times its ratio is no more than the width. -/
theorem height_mul_rate_le (s : Size) : s.height * rate s ≤ s.width * 2 ^ 16 := mul_div_le _ _

theorem ne_unset {x : Nat} (h : x < 2 ^ 14) : x ≠ UNSET := by
  unfold UNSET
  omega

theorem shiftRight_eq_iff : rate a.sens >>> 10 = rate a.dst >>> 10 ↔ a.Alike := by
  rw [shiftRight_eq_div_pow, shiftRight_eq_div_pow]
  rfl

/-- The product of `fillCrop` does not wrap. -/
def Filled (a : AspectArgs) : Prop :=
  ¬a.Alike → rate a.sens < rate a.dst → a.Shrinks → a.sens.height * rate a.dst < 2 ^ 32

/-- The crop before it is converted. -/
theorem fillCrop_chosen (h : a.Ordinary) :
    (a.Filled → fillCrop a.sens (rate a.dst)
      (chosenSizes a.Shrinks a.sens a.dst (rate a.sens) (rate a.dst)).1 = some a.cutSize) ∧
    (¬a.Filled → fillCrop a.sens (rate a.dst)
      (chosenSizes a.Shrinks a.sens a.dst (rate a.sens) (rate a.dst)).1 = none) := by
  have hwidth := ne_unset h.sens.width_lt
  have hheight := ne_unset h.sens.height_lt
  have hrate : rateU a.sens.width (rate a.dst) = some (a.sens.width * 2 ^ 16 / rate a.dst) :=
    rateU_of_lt h.sens.width_lt (rate_pos h.dst)
  unfold chosenSizes fillCrop cutSize
  by_cases halike : a.Alike
  · rw [if_pos (shiftRight_eq_iff.mpr halike), if_pos halike]
    refine ⟨fun _ => ?_, fun hno => absurd (fun hnot => absurd halike hnot) hno⟩
    simp [hwidth, hheight]
  rw [if_neg (mt shiftRight_eq_iff.mp halike), if_neg halike]
  by_cases hless : rate a.sens < rate a.dst <;> by_cases hshrinks : a.Shrinks
  · refine ⟨fun hfilled => ?_, fun hwraps => ?_⟩
    · have hfits := hfilled halike hless hshrinks
      simp [hless, hshrinks, hheight, mulU_of_lt hfits, shiftRight_eq_div_pow]
    · have hnone : mulU a.sens.height (rate a.dst) = none :=
        if_neg fun hfits => hwraps fun _ _ _ => hfits
      simp [hless, hshrinks, hnone]
  · refine ⟨fun _ => ?_, fun hno => absurd (fun _ _ hyes => absurd hyes hshrinks) hno⟩
    simp [hless, hshrinks, hwidth, hrate]
  · refine ⟨fun _ => ?_, fun hno => absurd (fun _ hyes => absurd hyes hless) hno⟩
    simp [hless, hshrinks, hwidth, hrate]
  · refine ⟨fun _ => ?_, fun hno => absurd (fun _ hyes => absurd hyes hless) hno⟩
    have hfits : a.sens.height * rate a.dst < 2 ^ 32 := by
      have hle := height_mul_rate_le a.sens
      have hmono := mul_le_mul_left a.sens.height (not_lt.mp hless)
      have hsens := h.sens.width_lt
      omega
    simp [hless, hshrinks, hheight, mulU_of_lt hfits, shiftRight_eq_div_pow]

/-- The position before it is aligned. -/
theorem fillPos_chosen (h : a.Ordinary) :
    fillPos (rate a.sens)
        (chosenSizes a.Shrinks a.sens a.dst (rate a.sens) (rate a.dst)).2 = some a.posSize := by
  have hwidth := ne_unset h.dst.width_lt
  have hheight := ne_unset h.dst.height_lt
  unfold chosenSizes fillPos posSize
  by_cases halike : a.Alike
  · rw [if_pos (shiftRight_eq_iff.mpr halike), if_pos (Or.inl halike)]
    simp [hwidth, hheight]
  rw [if_neg (mt shiftRight_eq_iff.mp halike)]
  by_cases hless : rate a.sens < rate a.dst <;> by_cases hshrinks : a.Shrinks
  · have hfits : a.dst.height * rate a.sens < 2 ^ 32 := by
      have hle := height_mul_rate_le a.dst
      have hmono := mul_le_mul_left a.dst.height hless.le
      have hdst := h.dst.width_lt
      omega
    simp [hless, hshrinks, halike, hheight, mulU_of_lt hfits, shiftRight_eq_div_pow]
  · simp [hless, hshrinks, hwidth, hheight]
  · simp [hless, hshrinks, halike, hwidth, rateU_of_lt h.dst.width_lt (rate_pos h.sens)]
  · simp [hless, hshrinks, hwidth, hheight]

/-- The products of `convert` do not wrap. -/
def Converted (a : AspectArgs) : Prop :=
  a.flags &&& ASPECT_RATIO_FLAG_CROP_BY_ALL ≠ ASPECT_RATIO_FLAG_CROP_BY_PHYSICAL →
    a.cutSize.width * a.maxSize.width < 2 ^ 32 ∧ a.cutSize.height * a.maxSize.height < 2 ^ 32

theorem convert_eq (h : a.Ordinary) (cs max : Size) :
    (cs.width * max.width < 2 ^ 32 ∧ cs.height * max.height < 2 ^ 32 → convert cs a.sens max =
      some ⟨cs.width * max.width / a.sens.width, cs.height * max.height / a.sens.height⟩) ∧
    (¬(cs.width * max.width < 2 ^ 32 ∧ cs.height * max.height < 2 ^ 32) →
      convert cs a.sens max = none) := by
  unfold convert
  refine ⟨fun hfits => ?_, fun hwraps => ?_⟩
  · rw [mulU_of_lt hfits.1, mulU_of_lt hfits.2]
    simp [divU_of_pos h.sens.width_pos, divU_of_pos h.sens.height_pos]
  · by_cases hwidth : cs.width * max.width < 2 ^ 32
    · have hheight : mulU cs.height max.height = none := if_neg fun hfits => hwraps ⟨hwidth, hfits⟩
      simp [hheight]
    · have hnone : mulU cs.width max.width = none := if_neg hwidth
      simp [hnone]

/-- The crop in the rectangle that the flags select. -/
theorem cropBy_cutSize (h : a.Ordinary) :
    (a.Converted → cropBy a.flags a.sens a.src a.dst a.cutSize =
      some (some (a.cropSize, a.maxSize))) ∧
    (¬a.Converted → cropBy a.flags a.sens a.src a.dst a.cutSize = none) := by
  unfold cropBy Converted cropSize maxSize
  by_cases hphysical :
      a.flags &&& ASPECT_RATIO_FLAG_CROP_BY_ALL = ASPECT_RATIO_FLAG_CROP_BY_PHYSICAL
  · rw [if_pos hphysical, if_pos hphysical, if_pos hphysical]
    exact ⟨fun _ => rfl, fun hno => absurd (fun hnot => absurd hphysical hnot) hno⟩
  rw [if_neg hphysical, if_neg hphysical, if_neg hphysical, forall_prop_of_true hphysical]
  by_cases hsource : a.flags &&& ASPECT_RATIO_FLAG_CROP_BY_ALL = ASPECT_RATIO_FLAG_CROP_BY_SOURCE
  · obtain ⟨hsome, hnone⟩ := convert_eq h a.cutSize a.src
    rw [if_pos hsource, if_pos hsource]
    exact ⟨fun hfits => by rw [hsome hfits]; rfl, fun hwraps => by rw [hnone hwraps]; rfl⟩
  · have hdestination := (h.flags.resolve_left hphysical).resolve_left hsource
    obtain ⟨hsome, hnone⟩ := convert_eq h a.cutSize a.dst
    rw [if_neg hsource, if_pos hdestination, if_neg hsource]
    exact ⟨fun hfits => by rw [hsome hfits]; rfl, fun hwraps => by rw [hnone hwraps]; rfl⟩

/-- What alignment makes of a size. -/
def alignedU (size align : Nat) : Nat := addU size align / (align * 2) * (align * 2)

/-- The products of the alignment do not wrap. -/
def Aligned (align : Size) : Prop := align.width * 2 < 2 ^ 32 ∧ align.height * 2 < 2 ^ 32

theorem alignU_of_lt (x : Nat) {y : Nat} (hy : 0 < y) (hfits : y * 2 < 2 ^ 32) :
    alignU x y = some (alignedU x y) := by
  have hle : addU x y / (y * 2) * (y * 2) < 2 ^ 32 :=
    lt_of_le_of_lt (div_mul_le_self _ _) (mod_lt _ (by norm_num))
  unfold alignU
  rw [mulU_of_lt hfits]
  simp [divU_of_pos (mul_pos hy two_pos), mulU_of_lt hle, alignedU]

theorem alignSize_eq (size : Size) {align : Size} (h : align.Below (2 ^ 32)) :
    (Aligned align → alignSize size align =
      some ⟨alignedU size.width align.width, alignedU size.height align.height⟩) ∧
    (¬Aligned align → alignSize size align = none) := by
  unfold alignSize
  refine ⟨fun hfits => ?_, fun hwraps => ?_⟩
  · rw [alignU_of_lt _ h.width_pos hfits.1, alignU_of_lt _ h.height_pos hfits.2]
    rfl
  · by_cases hwidth : align.width * 2 < 2 ^ 32
    · have hnone : mulU align.height 2 = none := if_neg fun hfits => hwraps ⟨hwidth, hfits⟩
      have hheight : alignU size.height align.height = none := by
        unfold alignU
        rw [hnone]
        rfl
      simp [hheight]
    · have hnone : mulU align.width 2 = none := if_neg hwidth
      unfold alignU
      simp [hnone]

/-- The function computes its two rectangles exactly where no product wraps. -/
theorem aspect_ratio_calc_eq (h : a.Ordinary) :
    (a.Products → aspect_ratio_calc a = some (some
      (cropRect ⟨alignedU a.cropSize.width a.align_crop.width,
          alignedU a.cropSize.height a.align_crop.height⟩ a.maxSize,
        posRect ⟨alignedU a.posSize.width a.align_pos.width,
          alignedU a.posSize.height a.align_pos.height⟩ a.dst))) ∧
      (¬a.Products → aspect_ratio_calc a = none) := by
  have hsens : mulU a.sens.width a.pix.width = some a.sens.width ∧
      mulU a.sens.height a.pix.height = some a.sens.height := by
    have hwidth := h.sens.width_lt
    have hheight := h.sens.height_lt
    rw [h.pix, mulU_of_lt (by dsimp only; omega), mulU_of_lt (by dsimp only; omega)]
    exact ⟨congrArg some (mul_one _), congrArg some (mul_one _)⟩
  have hphys : rateU a.sens.width a.sens.height = some (rate a.sens) :=
    rateU_of_lt h.sens.width_lt h.sens.height_pos
  have hsrc : rateU a.src.width a.src.height = some (rate a.src) :=
    rateU_of_lt h.src.width_lt h.src.height_pos
  have hdst : rateU a.dst.width a.dst.height = some (rate a.dst) :=
    rateU_of_lt h.dst.width_lt h.dst.height_pos
  have hstart : aspect_ratio_calc a = (fillCrop a.sens (rate a.dst)
      (chosenSizes a.Shrinks a.sens a.dst (rate a.sens) (rate a.dst)).1).bind fun cs =>
        (cropBy a.flags a.sens a.src a.dst cs).bind fun
          | none => some none
          | some (cs, max) => (alignSize cs a.align_crop).bind fun cs =>
            (fillPos (rate a.sens)
              (chosenSizes a.Shrinks a.sens a.dst (rate a.sens) (rate a.dst)).2).bind fun pd =>
              (alignSize pd a.align_pos).bind fun pd =>
                some (some (cropRect cs max, posRect pd a.dst)) := by
    unfold aspect_ratio_calc
    rw [hsens.1, hsens.2]
    simp only [bind_eq_bind, bind_some, hphys, hsrc, hdst]
    rfl
  obtain ⟨hfill, hfill'⟩ := fillCrop_chosen h
  obtain ⟨hby, hby'⟩ := cropBy_cutSize h
  obtain ⟨hcrop, hcrop'⟩ := alignSize_eq a.cropSize h.align_crop
  obtain ⟨hpos, hpos'⟩ := alignSize_eq a.posSize h.align_pos
  rw [hstart]
  refine ⟨fun hproducts => ?_, fun hwraps => ?_⟩
  · rw [hfill hproducts.filled, bind_some, hby hproducts.converted, bind_some]
    dsimp only
    rw [hcrop hproducts.crop, bind_some, fillPos_chosen h, bind_some, hpos hproducts.pos, bind_some]
  · by_cases hfilled : a.Filled
    swap
    · rw [hfill' hfilled, bind_none]
    rw [hfill hfilled, bind_some]
    by_cases hconverted : a.Converted
    swap
    · rw [hby' hconverted, bind_none]
    rw [hby hconverted, bind_some]
    dsimp only
    by_cases haligned : Aligned a.align_crop
    swap
    · rw [hcrop' haligned, bind_none]
    rw [hcrop haligned, bind_some, fillPos_chosen h, bind_some,
      hpos' fun hyes => hwraps ⟨hfilled, hconverted, haligned, hyes⟩, bind_none]

/-! ## Rounding -/

theorem alignedU_pos_iff {x y : Nat} (hx : x < 2 ^ 32) (hy : 0 < y) (hfits : y * 2 < 2 ^ 32) :
    0 < alignedU x y ↔ y ≤ x ∧ x + y < 2 ^ 32 := by
  have htwice : 0 < y * 2 := mul_pos hy two_pos
  have hpos : 0 < alignedU x y ↔ y * 2 ≤ addU x y := by
    rw [alignedU, Nat.mul_pos_iff_of_pos_right htwice, Nat.div_pos_iff]
    exact and_iff_right htwice
  rw [hpos, addU]
  by_cases hsum : x + y < 2 ^ 32
  · rw [mod_eq_of_lt hsum]
    omega
  · rw [mod_eq_sub_mod (not_lt.mp hsum), mod_eq_of_lt (by omega)]
    omega

theorem alignedU_eq {x y : Nat} (h : x + y < 2 ^ 32) : alignedU x y = roundTo x y := by
  rw [alignedU, addU, mod_eq_of_lt h, roundTo]

theorem roundTo_le (x y : Nat) : roundTo x y ≤ x + y := div_mul_le_self _ _

theorem lt_roundTo_add (x : Nat) {y : Nat} (hy : 0 < y) : x < roundTo x y + y := by
  have hlt : x + y < (x + y) / (y * 2) * (y * 2) + y * 2 := lt_div_mul_add (by omega)
  unfold roundTo
  omega

/-- What is rounded is at most twice as large. -/
theorem roundTo_le_twice (x y : Nat) : roundTo x y ≤ x * 2 := by
  by_cases hle : y ≤ x
  · have hsum := roundTo_le x y
    omega
  · have hzero : roundTo x y = 0 := by
      rw [roundTo, div_eq_of_lt (by omega), zero_mul]
    omega

/-- A difference that wraps is far outside. -/
theorem centred_iff {x total : Nat} (hx : x < 2 ^ 15) (htotal : total < 2 ^ 15) :
    Centred (subU total x >>> 1 : Nat) x total ↔ x ≤ total := by
  rw [subU, shiftRight_eq_div_pow, Centred]
  by_cases hle : x ≤ total
  · have hdiff : (total + 2 ^ 32 - x) % 2 ^ 32 = total - x := by
      rw [Nat.sub_add_comm hle, Nat.add_mod_right, Nat.mod_eq_of_lt (by omega)]
    rw [hdiff]
    omega
  · rw [mod_eq_of_lt (by omega)]
    omega

theorem ofNat_bmod {x : Nat} (hx : x < 2 ^ 15) : (x : Int).bmod (2 ^ 32) = x := by
  rw [Int.bmod_eq_of_le_mul_two] <;> omega

/-! ## The ratios -/

/-- A width is less than a height times the next ratio. -/
theorem lt_height_mul_succ {s : Size} (h : 0 < s.height) :
    s.width * 2 ^ 16 < s.height * (rate s + 1) := lt_mul_div_succ _ h

/-! A size is cut in its height for a larger ratio and in its width for a smaller one; for the
other the cut is larger than the size. -/

theorem height_for_larger_le {s d : Size} (hs : 0 < s.height) (h : rate s < rate d) :
    s.width * 2 ^ 16 / rate d ≤ s.height := by
  have hwidth := (lt_height_mul_succ hs).le
  have hmono := mul_le_mul_left s.height (succ_le_of_lt h)
  exact Nat.div_le_of_le_mul ((hwidth.trans hmono).trans_eq (Nat.mul_comm _ _))

theorem width_for_smaller_le {s d : Size} (h : rate d ≤ rate s) :
    s.height * rate d / 2 ^ 16 ≤ s.width := by
  have hwidth := height_mul_rate_le s
  have hmono := mul_le_mul_left s.height h
  exact Nat.div_le_of_le_mul ((hmono.trans hwidth).trans_eq (Nat.mul_comm _ _))

theorem le_width_for_larger {s d : Size} (hs : 0 < s.height) (h : rate s < rate d) :
    s.width ≤ s.height * rate d / 2 ^ 16 := by
  have hwidth := (lt_height_mul_succ hs).le
  have hmono := mul_le_mul_left s.height (succ_le_of_lt h)
  exact (le_div_iff_mul_le (by norm_num)).mpr (hwidth.trans hmono)

theorem le_height_for_smaller {s d : Size} (hd : d.Below (2 ^ 14)) (h : rate d ≤ rate s) :
    s.height ≤ s.width * 2 ^ 16 / rate d := by
  have hwidth := height_mul_rate_le s
  have hmono := mul_le_mul_left s.height h
  exact (le_div_iff_mul_le (rate_pos hd)).mpr (hmono.trans hwidth)

theorem rate_lt_of_not_alike (halike : ¬a.Alike) (hless : ¬rate a.sens < rate a.dst) :
    rate a.dst < rate a.sens :=
  lt_of_le_of_ne (not_lt.mp hless) fun heq => halike (congrArg (· / 2 ^ 10) heq.symm)

theorem maxSize_below (h : a.Ordinary) : a.maxSize.Below (2 ^ 14) := by
  unfold maxSize
  split_ifs
  · exact h.sens
  · exact h.src
  · exact h.dst

/-- The position is never larger than the destination before it is aligned. -/
theorem posSize_le (h : a.Ordinary) :
    a.posSize.width ≤ a.dst.width ∧ a.posSize.height ≤ a.dst.height := by
  unfold posSize
  by_cases hwhole : a.Alike ∨ ¬a.Shrinks
  · rw [if_pos hwhole]
    exact ⟨le_rfl, le_rfl⟩
  rw [if_neg hwhole]
  by_cases hless : rate a.sens < rate a.dst
  · rw [if_pos hless]
    exact ⟨width_for_smaller_le hless.le, le_rfl⟩
  · rw [if_neg hless]
    have hmore := rate_lt_of_not_alike (fun halike => hwhole (.inl halike)) hless
    exact ⟨le_rfl, height_for_larger_le h.dst.height_pos hmore⟩

/-- Every size of a crop is a number of 32 bits. -/
theorem cropSize_lt (h : a.Ordinary) (hproducts : a.Products) :
    a.cropSize.width < 2 ^ 32 ∧ a.cropSize.height < 2 ^ 32 := by
  have hwidth := h.sens.width_lt
  have hheight := h.sens.height_lt
  unfold cropSize
  by_cases hphysical :
      a.flags &&& ASPECT_RATIO_FLAG_CROP_BY_ALL = ASPECT_RATIO_FLAG_CROP_BY_PHYSICAL
  swap
  · rw [if_neg hphysical]
    exact (hproducts.converted hphysical).imp (div_le_self _ _).trans_lt
      (div_le_self _ _).trans_lt
  rw [if_pos hphysical]
  unfold cutSize
  by_cases halike : a.Alike
  · rw [if_pos halike]
    omega
  rw [if_neg halike]
  by_cases hcut : rate a.sens < rate a.dst ↔ a.Shrinks
  · rw [if_pos hcut]
    refine ⟨(div_le_self _ _).trans_lt ?_, by dsimp only; omega⟩
    by_cases hless : rate a.sens < rate a.dst
    · exact hproducts.filled halike hless (hcut.mp hless)
    · have hmono := mul_le_mul_left a.sens.height (not_lt.mp hless)
      have hle := height_mul_rate_le a.sens
      omega
  · rw [if_neg hcut]
    refine ⟨by dsimp only; omega, (div_le_self _ _).trans_lt (by omega)⟩

/-- The proportion of the two rectangles, in the numbers that are computed. -/
def Keeps (a : AspectArgs) : Prop :=
  Proportional ⟨min (roundTo a.cropSize.width a.align_crop.width) a.maxSize.width,
      min (roundTo a.cropSize.height a.align_crop.height) a.maxSize.height⟩
    ⟨roundTo a.posSize.width a.align_pos.width, roundTo a.posSize.height a.align_pos.height⟩
    a.align_crop a.align_pos

/-- The crop is not rounded to nothing. -/
structure NotEmpty (a : AspectArgs) : Prop where
  width : a.align_crop.width ≤ a.cropSize.width ∧ a.cropSize.width + a.align_crop.width < 2 ^ 32
  height : a.align_crop.height ≤ a.cropSize.height ∧
    a.cropSize.height + a.align_crop.height < 2 ^ 32

/-- The position is not rounded out of the destination. -/
def Inside (a : AspectArgs) : Prop :=
  roundTo a.posSize.width a.align_pos.width ≤ a.dst.width ∧
    roundTo a.posSize.height a.align_pos.height ≤ a.dst.height

theorem cropRect_eq (cs max : Size) : cropRect cs max =
    ⟨(subU max.width (min cs.width max.width) >>> 1 : Nat),
      (subU max.height (min cs.height max.height) >>> 1 : Nat),
      (min cs.width max.width : Nat), (min cs.height max.height : Nat)⟩ := by
  have hmin (x y : Nat) : (if x > y then y else x) = min x y := by
    rw [min_def]
    split_ifs <;> omega
  simp only [cropRect, hmin]

/-- Where no product wraps, three things can be wrong. -/
theorem right_iff (h : a.Ordinary) (hproducts : a.Products) :
    a.Right ↔ a.NotEmpty ∧ a.Inside ∧
      (a.flags &&& ASPECT_RATIO_FLAG_CROP_BY_ALL = ASPECT_RATIO_FLAG_CROP_BY_PHYSICAL →
        a.Keeps) := by
  obtain ⟨hcropwidth, hcropheight⟩ := cropSize_lt h hproducts
  obtain ⟨hposwidth, hposheight⟩ := posSize_le h
  have hmax := maxSize_below h
  have hdst := h.dst
  have hdstwidth := hdst.width_lt
  have hdstheight := hdst.height_lt
  have hwidth_pos := alignedU_pos_iff hcropwidth h.align_crop.width_pos hproducts.crop.1
  have hheight_pos := alignedU_pos_iff hcropheight h.align_crop.height_pos hproducts.crop.2
  have hpos := hproducts.pos
  have hroundwidth := roundTo_le_twice a.posSize.width a.align_pos.width
  have hroundheight := roundTo_le_twice a.posSize.height a.align_pos.height
  have hposrect : posRect ⟨alignedU a.posSize.width a.align_pos.width,
      alignedU a.posSize.height a.align_pos.height⟩ a.dst =
      ⟨(subU a.dst.width (roundTo a.posSize.width a.align_pos.width) >>> 1 : Nat),
        (subU a.dst.height (roundTo a.posSize.height a.align_pos.height) >>> 1 : Nat),
        (roundTo a.posSize.width a.align_pos.width : Nat),
        (roundTo a.posSize.height a.align_pos.height : Nat)⟩ := by
    rw [alignedU_eq (by omega), alignedU_eq (by omega)]
    dsimp only [posRect]
    rw [ofNat_bmod (by omega), ofNat_bmod (by omega)]
  have hinside : (Centred (subU a.dst.width (roundTo a.posSize.width a.align_pos.width) >>> 1 : Nat)
      (roundTo a.posSize.width a.align_pos.width : Nat) a.dst.width ∧
      Centred (subU a.dst.height (roundTo a.posSize.height a.align_pos.height) >>> 1 : Nat)
        (roundTo a.posSize.height a.align_pos.height : Nat) a.dst.height) ↔ a.Inside :=
    and_congr (centred_iff (by omega) (by omega)) (centred_iff (by omega) (by omega))
  have hcentred (x : Nat) {total : Nat} (htotal : total < 2 ^ 14) :
      Centred (subU total (min x total) >>> 1 : Nat) (min x total : Nat) total := by
    have hle := min_le_right x total
    exact (centred_iff (by omega) (by omega)).mpr hle
  have hmin (x : Nat) {total : Nat} (htotal : 0 < total) :
      (0 : Int) < (min x total : Nat) ↔ 0 < x := by
    omega
  have hrounded (hempty : a.NotEmpty) :
      alignedU a.cropSize.width a.align_crop.width =
          roundTo a.cropSize.width a.align_crop.width ∧
        alignedU a.cropSize.height a.align_crop.height =
          roundTo a.cropSize.height a.align_crop.height :=
    ⟨alignedU_eq hempty.width.2, alignedU_eq hempty.height.2⟩
  unfold Right
  rw [(aspect_ratio_calc_eq h).1 hproducts, cropRect_eq, hposrect]
  constructor
  · rintro ⟨crop, pos, hresult, ⟨hwidth, hheight⟩, _, hin, hprop⟩
    obtain ⟨rfl, rfl⟩ := Prod.mk.injEq _ _ _ _ ▸ some.inj (some.inj hresult)
    have hempty : a.NotEmpty :=
      ⟨hwidth_pos.mp ((hmin _ hmax.width_pos).mp hwidth),
        hheight_pos.mp ((hmin _ hmax.height_pos).mp hheight)⟩
    refine ⟨hempty, hinside.mp hin, fun hphysical => ?_⟩
    obtain ⟨hwidth', hheight'⟩ := hrounded hempty
    have hkeeps := hprop hphysical
    simp only [hwidth', hheight', Int.toNat_natCast] at hkeeps
    exact hkeeps
  · rintro ⟨hempty, hin, hkeeps⟩
    refine ⟨_, _, rfl, ⟨(hmin _ hmax.width_pos).mpr (hwidth_pos.mpr hempty.width),
      (hmin _ hmax.height_pos).mpr (hheight_pos.mpr hempty.height)⟩,
      ⟨hcentred _ hmax.width_lt, hcentred _ hmax.height_lt⟩, hinside.mpr hin,
      fun hphysical => ?_⟩
    obtain ⟨hwidth', hheight'⟩ := hrounded hempty
    simp only [hwidth', hheight', Int.toNat_natCast]
    exact hkeeps hphysical

/-! ## The proportion -/

/-- A side that is known up to its alignment. -/
structure Near (side exact align : Nat) : Prop where
  above : side ≤ exact + align
  below : exact < side + align

theorem near_roundTo (x : Nat) {y : Nat} (hy : 0 < y) : Near (roundTo x y) x y :=
  ⟨roundTo_le x y, lt_roundTo_add x hy⟩

theorem near_min (x total : Nat) {y : Nat} (hy : 0 < y) :
    Near (min (roundTo x y) total) (min x total) y := by
  have habove := roundTo_le x y
  have hbelow := lt_roundTo_add x hy
  constructor <;> omega

/-- A bound on the product of two sides, from the exact ones. -/
theorem Near.mul_le {x y x' y' x₀ y₀ x₀' y₀' : Nat} {s t s' t' : Nat} (hx : Near x x₀ s)
    (hy : Near y y₀ t) (hx' : Near x' x₀' s') (hy' : Near y' y₀' t')
    (h : x₀ * y₀ ≤ (x₀' + 1) * (y₀' + 1)) : (x - s) * (y - t) ≤ (x' + s') * (y' + t') :=
  calc (x - s) * (y - t) ≤ x₀ * y₀ :=
        Nat.mul_le_mul (Nat.sub_le_of_le_add hx.above) (Nat.sub_le_of_le_add hy.above)
    _ ≤ (x₀' + 1) * (y₀' + 1) := h
    _ ≤ (x' + s') * (y' + t') := Nat.mul_le_mul hx'.below hy'.below

/-- The same where the two sides are not rounded up. -/
theorem Near.mul_le_of_le {x y x' y' x₀ y₀ x₀' y₀' : Nat} {s t s' t' : Nat} (hx : x ≤ x₀)
    (hy : y ≤ y₀) (hs : 0 < s) (ht : 0 < t) (hx' : Near x' x₀' s') (hy' : Near y' y₀' t')
    (h : (x₀ - 1) * (y₀ - 1) ≤ (x₀' + 1) * (y₀' + 1)) : (x - s) * (y - t) ≤ (x' + s') * (y' + t') :=
  calc (x - s) * (y - t) ≤ (x₀ - 1) * (y₀ - 1) := Nat.mul_le_mul (by omega) (by omega)
    _ ≤ (x₀' + 1) * (y₀' + 1) := h
    _ ≤ (x' + s') * (y' + t') := Nat.mul_le_mul hx'.below hy'.below

/-! A height `x * 2 ^ 16 / rate d` belongs to the width `x` in the ratio of `d`, and a width
`x * rate d / 2 ^ 16` to the height `x`. -/

theorem width_mul_le (x : Nat) {d : Size} (h : d.Below (2 ^ 14)) :
    x * d.height ≤ (x * 2 ^ 16 / rate d + 1) * (d.width + 1) := by
  have hdiv : x * 2 ^ 16 ≤ rate d * (x * 2 ^ 16 / rate d + 1) :=
    (lt_mul_div_succ _ (rate_pos h)).le
  have hrate := height_mul_rate_le d
  have hscaled : x * d.height * 2 ^ 16 ≤ (x * 2 ^ 16 / rate d + 1) * d.width * 2 ^ 16 :=
    calc x * d.height * 2 ^ 16 = d.height * (x * 2 ^ 16) := by ring
      _ ≤ d.height * (rate d * (x * 2 ^ 16 / rate d + 1)) := mul_le_mul_left _ hdiv
      _ = d.height * rate d * (x * 2 ^ 16 / rate d + 1) := by ring
      _ ≤ d.width * 2 ^ 16 * (x * 2 ^ 16 / rate d + 1) := mul_le_mul_right _ hrate
      _ = (x * 2 ^ 16 / rate d + 1) * d.width * 2 ^ 16 := by ring
  exact (le_of_mul_le_mul_right hscaled (by norm_num)).trans
    (mul_le_mul_left _ (le_succ _))

theorem height_mul_le {x : Nat} {d : Size} (h : d.Below (2 ^ 14))
    (hsmall : x * 2 ^ 16 / rate d ≤ 2 ^ 16) :
    x * 2 ^ 16 / rate d * d.width ≤ (x + 1) * (d.height + 1) := by
  have hdiv : rate d * (x * 2 ^ 16 / rate d) ≤ x * 2 ^ 16 := mul_div_le _ _
  have hrate := (lt_height_mul_succ h.height_pos).le
  have hscaled : x * 2 ^ 16 / rate d * d.width * 2 ^ 16 ≤ (x + 1) * d.height * 2 ^ 16 :=
    calc x * 2 ^ 16 / rate d * d.width * 2 ^ 16
        = x * 2 ^ 16 / rate d * (d.width * 2 ^ 16) := by ring
      _ ≤ x * 2 ^ 16 / rate d * (d.height * (rate d + 1)) := mul_le_mul_left _ hrate
      _ = d.height * (rate d * (x * 2 ^ 16 / rate d) + x * 2 ^ 16 / rate d) := by ring
      _ ≤ d.height * (x * 2 ^ 16 + 2 ^ 16) := Nat.mul_le_mul_left _ (Nat.add_le_add hdiv hsmall)
      _ = (x + 1) * d.height * 2 ^ 16 := by ring
  exact (le_of_mul_le_mul_right hscaled (by norm_num)).trans
    (mul_le_mul_left _ (le_succ _))

theorem width_of_height_mul_le (x : Nat) (d : Size) :
    x * rate d / 2 ^ 16 * d.height ≤ (x + 1) * (d.width + 1) := by
  have hdiv : x * rate d / 2 ^ 16 * 2 ^ 16 ≤ x * rate d := div_mul_le_self _ _
  have hrate := height_mul_rate_le d
  have hscaled : x * rate d / 2 ^ 16 * d.height * 2 ^ 16 ≤ x * d.width * 2 ^ 16 :=
    calc x * rate d / 2 ^ 16 * d.height * 2 ^ 16
        = x * rate d / 2 ^ 16 * 2 ^ 16 * d.height := by ring
      _ ≤ x * rate d * d.height := mul_le_mul_right _ hdiv
      _ = x * (d.height * rate d) := by ring
      _ ≤ x * (d.width * 2 ^ 16) := mul_le_mul_left _ hrate
      _ = x * d.width * 2 ^ 16 := by ring
  exact (le_of_mul_le_mul_right hscaled (by norm_num)).trans
    (Nat.mul_le_mul (Nat.le_succ _) (Nat.le_succ _))

/-- Here the ratio loses more than one in each side may hold, unless the sides are not rounded
up. -/
theorem pred_mul_pred_le (x : Nat) {d : Size} (h : d.Below (2 ^ 14)) :
    (x - 1) * (d.width - 1) ≤ (x * rate d / 2 ^ 16 + 1) * (d.height + 1) := by
  rcases Nat.eq_zero_or_pos x with rfl | hpos
  · simp
  have hdiv : x * rate d ≤ (x * rate d / 2 ^ 16 + 1) * 2 ^ 16 :=
    (lt_mul_div_succ _ (by norm_num)).le.trans_eq (mul_comm _ _)
  have hrate := (lt_height_mul_succ h.height_pos).le
  have hheight : x * d.height ≤ x * 2 ^ 16 :=
    mul_le_mul_left _ (h.height_lt.le.trans (by norm_num))
  have hproduct : x * d.width = (x - 1) * (d.width - 1) + (x + (d.width - 1)) := by
    obtain ⟨x, rfl⟩ := Nat.exists_eq_add_of_le' hpos
    obtain ⟨width, hwidth⟩ := Nat.exists_eq_add_of_le' h.width_pos
    rw [hwidth, Nat.add_sub_cancel, Nat.add_sub_cancel]
    ring
  have hscaled : x * d.width * 2 ^ 16 ≤
      (x * rate d / 2 ^ 16 + 1) * d.height * 2 ^ 16 + x * 2 ^ 16 :=
    calc x * d.width * 2 ^ 16 = x * (d.width * 2 ^ 16) := by ring
      _ ≤ x * (d.height * (rate d + 1)) := mul_le_mul_left _ hrate
      _ = d.height * (x * rate d) + x * d.height := by ring
      _ ≤ d.height * ((x * rate d / 2 ^ 16 + 1) * 2 ^ 16) + x * 2 ^ 16 :=
          Nat.add_le_add (Nat.mul_le_mul_left _ hdiv) hheight
      _ = (x * rate d / 2 ^ 16 + 1) * d.height * 2 ^ 16 + x * 2 ^ 16 := by ring
  have hle : (x - 1) * (d.width - 1) ≤ (x * rate d / 2 ^ 16 + 1) * d.height := by omega
  exact hle.trans (mul_le_mul_left _ (le_succ _))

/-- Where the ratios are told apart, one side is cut and the proportion is kept. -/
theorem keeps_of_not_alike (h : a.Ordinary)
    (hphysical : a.flags &&& ASPECT_RATIO_FLAG_CROP_BY_ALL = ASPECT_RATIO_FLAG_CROP_BY_PHYSICAL)
    (halike : ¬a.Alike) (hinside : a.Inside) : a.Keeps := by
  have hwidth := near_min a.cropSize.width a.maxSize.width h.align_crop.width_pos
  have hheight := near_min a.cropSize.height a.maxSize.height h.align_crop.height_pos
  have hposwidth := near_roundTo a.posSize.width h.align_pos.width_pos
  have hposheight := near_roundTo a.posSize.height h.align_pos.height_pos
  have hmaxwidth := min_le_right (roundTo a.cropSize.width a.align_crop.width) a.maxSize.width
  have hmaxheight :=
    min_le_right (roundTo a.cropSize.height a.align_crop.height) a.maxSize.height
  obtain ⟨hinwidth, hinheight⟩ := hinside
  have hmax : a.maxSize = a.sens := if_pos hphysical
  have hcrop : a.cropSize = a.cutSize := if_pos hphysical
  unfold Keeps Proportional
  by_cases hless : rate a.sens < rate a.dst <;> by_cases hshrinks : a.Shrinks
  · have hcut : a.cutSize = ⟨a.sens.height * rate a.dst / 2 ^ 16, a.sens.height⟩ := by
      rw [cutSize, if_neg halike, if_pos (iff_of_true hless hshrinks)]
    have hpos : a.posSize = ⟨a.dst.height * rate a.sens / 2 ^ 16, a.dst.height⟩ := by
      rw [posSize, if_neg (not_or.mpr ⟨halike, not_not.mpr hshrinks⟩), if_pos hless]
    simp only [hcrop, hmax, hcut, hpos, min_self] at *
    rw [min_eq_right (le_width_for_larger h.sens.height_pos hless)] at hwidth
    constructor
    · refine Near.mul_le_of_le hmaxwidth hinheight h.align_crop.width_pos h.align_pos.height_pos
        hheight hposwidth ?_
      have hprod := pred_mul_pred_le a.dst.height h.sens
      rwa [mul_comm (a.dst.height - 1), mul_comm (_ + 1)] at hprod
    · refine Near.mul_le hheight hposwidth hwidth hposheight ?_
      have hprod := width_of_height_mul_le a.dst.height a.sens
      rwa [mul_comm _ a.sens.height, mul_comm (_ + 1)] at hprod
  · have hcut : a.cutSize = ⟨a.sens.width, a.sens.width * 2 ^ 16 / rate a.dst⟩ := by
      rw [cutSize, if_neg halike, if_neg fun hiff => hshrinks (hiff.mp hless)]
    have hpos : a.posSize = a.dst := if_pos (.inr hshrinks)
    simp only [hcrop, hmax, hcut, hpos, min_self] at *
    have hle := height_for_larger_le h.sens.height_pos hless
    rw [min_eq_left hle] at hheight
    have hsmall : a.sens.width * 2 ^ 16 / rate a.dst ≤ 2 ^ 16 :=
      hle.trans (h.sens.height_lt.le.trans (by norm_num))
    exact ⟨Near.mul_le hwidth hposheight hheight hposwidth (width_mul_le _ h.dst),
      Near.mul_le hheight hposwidth hwidth hposheight (height_mul_le h.dst hsmall)⟩
  · have hmore := rate_lt_of_not_alike halike hless
    have hcut : a.cutSize = ⟨a.sens.width, a.sens.width * 2 ^ 16 / rate a.dst⟩ := by
      rw [cutSize, if_neg halike, if_neg fun hiff => hless (hiff.mpr hshrinks)]
    have hpos : a.posSize = ⟨a.dst.width, a.dst.width * 2 ^ 16 / rate a.sens⟩ := by
      rw [posSize, if_neg (not_or.mpr ⟨halike, not_not.mpr hshrinks⟩), if_neg hless]
    simp only [hcrop, hmax, hcut, hpos, min_self] at *
    rw [min_eq_right (le_height_for_smaller h.dst hmore.le)] at hheight
    have hsmall : a.dst.width * 2 ^ 16 / rate a.sens ≤ 2 ^ 16 :=
      (height_for_larger_le h.dst.height_pos hmore).trans (h.dst.height_lt.le.trans (by norm_num))
    constructor
    · refine Near.mul_le hwidth hposheight hheight hposwidth ?_
      have hprod := height_mul_le h.sens hsmall
      rwa [mul_comm _ a.sens.width, mul_comm (_ + 1)] at hprod
    · refine Near.mul_le hheight hposwidth hwidth hposheight ?_
      have hprod := width_mul_le a.dst.width h.sens
      rwa [mul_comm a.dst.width, mul_comm (_ + 1)] at hprod
  · have hmore := rate_lt_of_not_alike halike hless
    have hcut : a.cutSize = ⟨a.sens.height * rate a.dst / 2 ^ 16, a.sens.height⟩ := by
      rw [cutSize, if_neg halike, if_pos (iff_of_false hless hshrinks)]
    have hpos : a.posSize = a.dst := if_pos (.inr hshrinks)
    simp only [hcrop, hmax, hcut, hpos, min_self] at *
    rw [min_eq_left (width_for_smaller_le hmore.le)] at hwidth
    exact ⟨Near.mul_le hwidth hposheight hheight hposwidth (width_of_height_mul_le _ _),
      Near.mul_le_of_le hmaxheight hinwidth h.align_crop.height_pos h.align_pos.width_pos hwidth
        hposheight (pred_mul_pred_le _ h.dst)⟩

/-- What the function returns is right under the condition, and under no other. -/
theorem aspect_ratio_right_iff (h : a.Ordinary) : a.Right ↔ a.Sound := by
  have hproducts (hright : a.Right) : a.Products := by
    obtain ⟨crop, pos, hresult, _⟩ := hright
    by_contra hwraps
    rw [(aspect_ratio_calc_eq h).2 hwraps] at hresult
    exact some_ne_none _ hresult.symm
  -- alike sizes are neither cut nor shrunk
  have halikes (halike : a.Alike)
      (hphysical : a.flags &&& ASPECT_RATIO_FLAG_CROP_BY_ALL = ASPECT_RATIO_FLAG_CROP_BY_PHYSICAL) :
      a.cropSize = a.sens ∧ a.maxSize = a.sens ∧ a.posSize = a.dst :=
    ⟨(if_pos hphysical).trans (if_pos halike), if_pos hphysical, if_pos (.inl halike)⟩
  constructor
  · intro hright
    obtain ⟨hempty, hinside, hkeeps⟩ := (right_iff h (hproducts hright)).mp hright
    refine ⟨hproducts hright, hempty.width, hempty.height, hinside, fun halike hphysical => ?_⟩
    have hprop := hkeeps hphysical
    unfold Keeps at hprop
    obtain ⟨hcrop, hmax, hpos⟩ := halikes halike hphysical
    rwa [hcrop, hmax, hpos] at hprop
  · intro hsound
    refine (right_iff h hsound.products).mpr ⟨⟨hsound.width, hsound.height⟩, hsound.inside,
      fun hphysical => ?_⟩
    by_cases halike : a.Alike
    · unfold Keeps
      obtain ⟨hcrop, hmax, hpos⟩ := halikes halike hphysical
      rw [hcrop, hmax, hpos]
      exact hsound.alike halike hphysical
    · exact keeps_of_not_alike h hphysical halike hsound.inside

/-- A sensor of 640x480 on a display of 1280x720. -/
def wide : AspectArgs :=
  { sens := ⟨640, 480⟩, pix := ⟨1, 1⟩, src := ⟨640, 480⟩, dst := ⟨1280, 720⟩, align_crop := ⟨1, 1⟩,
    align_pos := ⟨1, 1⟩, flags := ASPECT_RATIO_FLAG_CROP_BY_PHYSICAL }

theorem wide_ordinary : wide.Ordinary :=
  ⟨⟨by decide, by decide, by decide, by decide⟩, rfl, ⟨by decide, by decide, by decide, by decide⟩,
    ⟨by decide, by decide, by decide, by decide⟩, ⟨by decide, by decide, by decide, by decide⟩,
    ⟨by decide, by decide, by decide, by decide⟩, .inl (by decide)⟩

theorem wide_not_alike : ¬wide.Alike := by decide

theorem wide_right : wide.Right :=
  (aspect_ratio_right_iff wide_ordinary).mpr
    { products :=
        { filled := fun _ _ hshrinks => absurd hshrinks (by decide)
          converted := fun hnot => absurd (by decide) hnot
          crop := by decide
          pos := by decide }
      width := by decide
      height := by decide
      inside := by decide
      alike := fun halike => absurd halike wide_not_alike }

/-- The same on a display with a column more. -/
def odd : AspectArgs := { wide with dst := ⟨1281, 720⟩ }

/-- The position is rounded up to 1282 columns, and starts at 2147483647. -/
theorem odd_destination_left : odd.Ordinary ∧ ¬odd.Right := by
  have hresult : aspect_ratio_calc odd =
      some (some (⟨0, 60, 640, 360⟩, ⟨2147483647, 0, 1282, 720⟩)) := by decide +kernel
  refine ⟨⟨wide_ordinary.sens, rfl, wide_ordinary.src,
    ⟨by decide, by decide, by decide, by decide⟩, wide_ordinary.align_crop, wide_ordinary.align_pos,
    wide_ordinary.flags⟩, ?_⟩
  rintro ⟨crop, pos, hsome, _, _, hpos, _⟩
  rw [hresult] at hsome
  obtain ⟨rfl, rfl⟩ := Prod.mk.injEq _ _ _ _ ▸ some.inj (some.inj hsome)
  have hinside : (2 * 2147483647 + 1282 : Int) ≤ 1281 := hpos.1.2.2.1
  omega

end AspectArgs

end OmapHal.Camera
