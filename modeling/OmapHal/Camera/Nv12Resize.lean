import Mathlib
import OmapHal.Core.Bits

/-!
# The resizer

`VT_resizeFrame_Video_opt2_lp` of `NV12_resize.c` resizes a picture of two planes: the luma, and at
half the height the chroma with its two components in turn. A byte that is read is known by its row
and its address in that row, as seen from the first row; outside of its plane there is none. A byte
that is written is known by its distance from the start of its plane.
-/

namespace OmapHal.Camera

open List Nat Option

open OmapHal.Core (addU subU)

inductive enumImageFormat
  | IC_FORMAT_NONE
  | IC_FORMAT_RGB565
  | IC_FORMAT_RGB888
  | IC_FORMAT_YCbCr420_lp
  | IC_FORMAT_YCbCr
  | IC_FORMAT_YCbCr420_FRAME_PK
  | IC_FORMAT_MAX
  deriving DecidableEq, Repr

structure structConvImage where
  uWidth : Nat
  uHeight : Nat
  uStride : Nat
  eFormat : enumImageFormat
  imgPtr : Nat
  clrPtr : Nat
  uOffset : Nat
  deriving DecidableEq, Repr

structure IC_rect_type where
  x : Nat
  y : Nat
  uWidth : Nat
  uHeight : Nat
  deriving DecidableEq, Repr

/-- The bytes of a picture in a plane by row and column, and where the first one stands. -/
structure Plane where
  start : Nat
  rows : Nat
  columns : Nat
  byte : Nat → Nat → UInt8

/-- The byte at `addr`, moved down by `row` rows. -/
def Plane.read (p : Plane) (row addr : Nat) : Option UInt8 :=
  if row < p.rows ∧ p.start ≤ addr ∧ addr < p.start + p.columns then
    some (p.byte row (addr - p.start))
  else none

/-- `bWeights`, by `xf` and `yf`. -/
def bWeights : List (List (List Nat)) :=
  [[[64, 0, 0, 0], [56, 0, 0, 8], [48, 0, 0, 16], [40, 0, 0, 24],
    [32, 0, 0, 32], [24, 0, 0, 40], [16, 0, 0, 48], [8, 0, 0, 56]],
   [[56, 8, 0, 0], [49, 7, 1, 7], [42, 6, 2, 14], [35, 5, 3, 21],
    [28, 4, 4, 28], [21, 3, 5, 35], [14, 2, 6, 42], [7, 1, 7, 49]],
   [[48, 16, 0, 0], [42, 14, 2, 6], [36, 12, 4, 12], [30, 10, 6, 18],
    [24, 8, 8, 24], [18, 6, 10, 30], [12, 4, 12, 36], [6, 2, 14, 42]],
   [[40, 24, 0, 0], [35, 21, 3, 5], [30, 18, 6, 10], [25, 15, 9, 15],
    [20, 12, 12, 20], [15, 9, 15, 25], [10, 6, 18, 30], [5, 3, 21, 35]],
   [[32, 32, 0, 0], [28, 28, 4, 4], [24, 24, 8, 8], [20, 20, 12, 12],
    [16, 16, 16, 16], [12, 12, 20, 20], [8, 8, 24, 24], [4, 4, 28, 28]],
   [[24, 40, 0, 0], [21, 35, 5, 3], [18, 30, 10, 6], [15, 25, 15, 9],
    [12, 20, 20, 12], [9, 15, 25, 15], [6, 10, 30, 18], [3, 5, 35, 21]],
   [[16, 48, 0, 0], [14, 42, 6, 2], [12, 36, 12, 4], [10, 30, 18, 6],
    [8, 24, 24, 8], [6, 18, 30, 10], [4, 12, 36, 12], [2, 6, 42, 14]],
   [[8, 56, 0, 0], [7, 49, 7, 1], [6, 42, 14, 2], [5, 35, 21, 3],
    [4, 28, 28, 4], [3, 21, 35, 5], [2, 14, 42, 6], [1, 7, 49, 7]]]

def weight (xf yf k : Nat) : Nat := ((bWeights.getD xf []).getD yf []).getD k 0

/-! ## The function -/

/-- `y` or `x`, of 16 bits. -/
def whole (i resizeFactor : Nat) : Nat := (i * resizeFactor % 2 ^ 32) >>> 9 % 2 ^ 16

/-- `yf` or `xf`. -/
def eighths (i resizeFactor : Nat) : Nat := (i * resizeFactor % 2 ^ 32) >>> 6 &&& 7

/-- The pixels A to D, at a distance of `step` columns, weighed in 16 bits. The first row starts
at `inImgPtr`. -/
def sample (p : Plane) (inImgPtr y yf x xf step : Nat) : Option UInt8 := do
  let in11 ← p.read y (inImgPtr + x)
  let accum := weight xf yf 0 * in11.toNat % 2 ^ 16
  let in12 ← p.read y (inImgPtr + x + step)
  let accum := (accum + weight xf yf 1 * in12.toNat) % 2 ^ 16
  let in21 ← p.read (y + 1) (inImgPtr + x)
  let accum := (accum + weight xf yf 3 * in21.toNat) % 2 ^ 16
  let in22 ← p.read (y + 1) (inImgPtr + x + step)
  let accum := (accum + weight xf yf 2 * in22.toNat) % 2 ^ 16
  some (UInt8.ofNat (accum >>> 6))

/-- A loop whose counter has 16 bits: it does not end for a larger bound. -/
def forU16 {σ : Type} (n : Nat) (body : Nat → σ → Option σ) (s : σ) : Option σ :=
  if n < 2 ^ 16 then (List.range n).foldlM (fun s i => body i s) s else none

/-- Where the next byte goes, and the bytes that are written. -/
structure Stores where
  ptr : Nat
  done : List (Nat × UInt8)

/-- The loops for Y. -/
def resizeLuma (p : Plane) (inImgPtrY codx cody resizeFactorX resizeFactorY uStride start : Nat) :
    Option Stores :=
  forU16 cody (fun row s => do
    let y := whole row resizeFactorY
    let yf := eighths row resizeFactorY
    let s ← forU16 codx (fun col s => do
      let accum ← sample p inImgPtrY y yf (whole col resizeFactorX) (eighths col resizeFactorX) 1
      some ⟨addU s.ptr 1, s.done ++ [(s.ptr, accum)]⟩) s
    some { s with ptr := addU s.ptr (subU uStride codx) }) ⟨start, []⟩

/-- The loops for Cb and Cr; `ptr8Cr` is always one behind `ptr8Cb`, and `inImgPtrV` one behind
`inImgPtrU`. -/
def resizeChroma (p : Plane)
    (inImgPtrU codx cody resizeFactorX resizeFactorY uStride start : Nat) : Option Stores :=
  forU16 (cody >>> 1) (fun row s => do
    let y := whole row resizeFactorY
    let yf := eighths row resizeFactorY
    let s ← forU16 (codx >>> 1) (fun col s => do
      let x := whole col resizeFactorX
      let xf := eighths col resizeFactorX
      let accumCb ← sample p inImgPtrU y yf (x * 2) xf 2
      let accumCr ← sample p (inImgPtrU + 1) y yf (x * 2) xf 2
      some ⟨addU s.ptr 2, s.done ++ [(s.ptr, accumCb), (addU s.ptr 1, accumCr)]⟩) s
    some { s with ptr := addU s.ptr (subU uStride codx) }) ⟨start, []⟩

/-- The arguments, and the picture's two planes. -/
structure ResizeArgs where
  i_img : structConvImage
  o_img : structConvImage
  cropout : Option IC_rect_type
  luma : Nat → Nat → UInt8
  chroma : Nat → Nat → UInt8

namespace ResizeArgs

variable (a : ResizeArgs)

/-- `cox`, `coy`, `codx` and `cody`. -/
def crop : IC_rect_type := a.cropout.getD ⟨0, 0, a.o_img.uWidth, a.o_img.uHeight⟩

/-- `idx`, of 16 bits. -/
def idx : Nat := a.i_img.uWidth % 2 ^ 16

def idy : Nat := a.i_img.uHeight % 2 ^ 16

def resizeFactorX : Nat := (a.idx - 1) <<< 9 / a.crop.uWidth

def resizeFactorY : Nat := (a.idy - 1) <<< 9 / a.crop.uHeight

/-- The first byte, in either plane. -/
def start : Nat := (a.crop.x + a.crop.y * a.o_img.uWidth) % 2 ^ 32

def inImgPtrY : Nat := a.i_img.imgPtr + a.i_img.uOffset

def inImgPtrU : Nat := a.i_img.clrPtr + a.i_img.uOffset / 2

/-- The luma of the picture, `uOffset` bytes into the buffer. -/
def lumaPlane : Plane :=
  ⟨a.i_img.imgPtr + a.i_img.uOffset, a.i_img.uHeight, a.i_img.uWidth, a.luma⟩

/-- The chroma, half as many rows down and as many columns to the right: where `copy2Dto1D`, too,
finds it for an offset. -/
def chromaPlane : Plane :=
  ⟨a.i_img.clrPtr + (a.i_img.uStride / 2 * (a.i_img.uOffset / a.i_img.uStride) +
    a.i_img.uOffset % a.i_img.uStride), a.i_img.uHeight / 2, a.i_img.uWidth, a.chroma⟩

end ResizeArgs

/-- What the function returns, and what it writes to the luma and to the chroma. -/
def VT_resizeFrame_Video_opt2_lp (a : ResizeArgs) :
    Option (Bool × List (Nat × UInt8) × List (Nat × UInt8)) :=
  if a.i_img.imgPtr = 0 ∨ a.o_img.imgPtr = 0 then some (false, [], [])
  else if a.idx < 1 ∨ a.idy < 1 ∨ a.i_img.uStride < 1 then some (false, [], [])
  else if a.crop.uWidth = 0 ∨ a.crop.uHeight = 0 then none
  else if a.i_img.eFormat = .IC_FORMAT_YCbCr420_lp ∧
      a.o_img.eFormat = .IC_FORMAT_YCbCr420_lp then do
    let luma ← resizeLuma a.lumaPlane a.inImgPtrY a.crop.uWidth a.crop.uHeight a.resizeFactorX
      a.resizeFactorY a.o_img.uStride a.start
    let chroma ← resizeChroma a.chromaPlane a.inImgPtrU a.crop.uWidth a.crop.uHeight
      a.resizeFactorX a.resizeFactorY a.o_img.uStride a.start
    some (true, luma.done, chroma.done)
  else some (false, [], [])

/-! ## What is right -/

/-- The `i`-th of `n` points along a side of `d`, with nine bits behind the point. -/
def position (d n i : Nat) : Nat := i * ((d - 1) * 2 ^ 9 / n)

/-- Four neighbours, weighed by the eighths of a position that has nine bits behind the point. -/
def weighedSum (image : Nat → Nat → UInt8) (Y X : Nat) : Nat :=
  (8 - X / 2 ^ 6 % 8) * (8 - Y / 2 ^ 6 % 8) * (image (Y / 2 ^ 9) (X / 2 ^ 9)).toNat +
    X / 2 ^ 6 % 8 * (8 - Y / 2 ^ 6 % 8) * (image (Y / 2 ^ 9) (X / 2 ^ 9 + 1)).toNat +
    (8 - X / 2 ^ 6 % 8) * (Y / 2 ^ 6 % 8) * (image (Y / 2 ^ 9 + 1) (X / 2 ^ 9)).toNat +
    X / 2 ^ 6 % 8 * (Y / 2 ^ 6 % 8) * (image (Y / 2 ^ 9 + 1) (X / 2 ^ 9 + 1)).toNat

/-- A value between the four neighbours of a position. -/
structure Interpolates (image : Nat → Nat → UInt8) (Y X : Nat) (v : UInt8) : Prop where
  weighed : v.toNat = weighedSum image Y X / 64
  above : ∃ y x, (y = Y / 2 ^ 9 ∨ y = Y / 2 ^ 9 + 1) ∧ (x = X / 2 ^ 9 ∨ x = X / 2 ^ 9 + 1) ∧
    image y x ≤ v
  below : ∃ y x, (y = Y / 2 ^ 9 ∨ y = Y / 2 ^ 9 + 1) ∧ (x = X / 2 ^ 9 ∨ x = X / 2 ^ 9 + 1) ∧
    v ≤ image y x

/-- Every byte of a rectangle is written, with a good value, and nothing else. -/
structure Writes (stores : List (Nat × UInt8)) (rows columns : Nat) (place : Nat → Nat → Nat)
    (good : Nat → Nat → UInt8 → Prop) : Prop where
  only : ∀ s ∈ stores, ∃ row < rows, ∃ col < columns, s.1 = place row col ∧ good row col s.2
  all : ∀ row < rows, ∀ col < columns, ∃ s ∈ stores, s.1 = place row col

/-- A positive even size of 16 bits. -/
structure EvenSize (n : Nat) : Prop where
  pos : 0 < n
  even : n % 2 = 0
  lt : n < 2 ^ 16

namespace ResizeArgs

variable (a : ResizeArgs)

/-- Two images in memory, the first one in rows of even length, and a crop of even sizes in the
second. -/
structure Ordinary : Prop where
  i_img : a.i_img.imgPtr ≠ 0
  o_img : a.o_img.imgPtr ≠ 0
  i_format : a.i_img.eFormat = .IC_FORMAT_YCbCr420_lp
  o_format : a.o_img.eFormat = .IC_FORMAT_YCbCr420_lp
  width : EvenSize a.i_img.uWidth
  height : EvenSize a.i_img.uHeight
  stride : a.i_img.uOffset % a.i_img.uStride + a.i_img.uWidth ≤ a.i_img.uStride
  stride_even : a.i_img.uStride % 2 = 0
  crop_width : EvenSize a.crop.uWidth
  crop_height : EvenSize a.crop.uHeight
  columns : a.crop.x + a.crop.uWidth ≤ a.o_img.uWidth
  rows : a.crop.y + a.crop.uHeight ≤ a.o_img.uHeight
  o_stride : a.o_img.uWidth ≤ a.o_img.uStride
  memory : a.o_img.uHeight * a.o_img.uStride ≤ 2 ^ 32

/-- The function ends and succeeds without a read outside of the planes; it writes the rectangle,
and at half the height its chroma, with interpolated values. -/
def Right : Prop :=
  ∃ luma chroma, VT_resizeFrame_Video_opt2_lp a = some (true, luma, chroma) ∧
    Writes luma a.crop.uHeight a.crop.uWidth
      (fun row col => (a.crop.y + row) * a.o_img.uStride + a.crop.x + col)
      (fun row col => Interpolates a.luma (position a.i_img.uHeight a.crop.uHeight row)
        (position a.i_img.uWidth a.crop.uWidth col)) ∧
    Writes chroma (a.crop.uHeight / 2) a.crop.uWidth
      (fun row col => (a.crop.y / 2 + row) * a.o_img.uStride + a.crop.x + col)
      (fun row col => Interpolates (fun y x => a.chroma y (x * 2 + col % 2))
        (position a.i_img.uHeight a.crop.uHeight row)
        (position a.i_img.uWidth a.crop.uWidth (col / 2)))

/-- The last row and the last column of the chroma have neighbours, the picture starts at the first
column of its buffer, and the crop at the first row. -/
structure Sound : Prop where
  rows : position a.i_img.uHeight a.crop.uHeight (a.crop.uHeight / 2 - 1) / 2 ^ 9 + 1 <
    a.i_img.uHeight / 2
  columns : position a.i_img.uWidth a.crop.uWidth (a.crop.uWidth / 2 - 1) / 2 ^ 9 + 1 <
    a.i_img.uWidth / 2
  offset : a.i_img.uOffset % a.i_img.uStride = 0
  top : a.crop.y = 0

end ResizeArgs

/-! ## The weights -/

theorem weight_eq : ∀ xf < 8, ∀ yf < 8, weight xf yf 0 = (8 - xf) * (8 - yf) ∧
    weight xf yf 1 = xf * (8 - yf) ∧ weight xf yf 3 = (8 - xf) * yf ∧
      weight xf yf 2 = xf * yf := by
  decide

/-- Weights of 64 together keep a sum between the bounds of its parts. -/
theorem weighed_bounds {xf yf A B C D low high : Nat} (hxf : xf ≤ 8) (hyf : yf ≤ 8)
    (hlow : low ≤ A ∧ low ≤ B ∧ low ≤ C ∧ low ≤ D)
    (hhigh : A ≤ high ∧ B ≤ high ∧ C ≤ high ∧ D ≤ high) :
    low * 64 ≤ (8 - xf) * (8 - yf) * A + xf * (8 - yf) * B + (8 - xf) * yf * C + xf * yf * D ∧
      (8 - xf) * (8 - yf) * A + xf * (8 - yf) * B + (8 - xf) * yf * C + xf * yf * D ≤
        high * 64 := by
  have hsum (z : Nat) : (8 - xf) * (8 - yf) * z + xf * (8 - yf) * z + (8 - xf) * yf * z +
      xf * yf * z = z * 64 := by
    obtain ⟨u, hu⟩ := Nat.exists_eq_add_of_le hxf
    obtain ⟨w, hw⟩ := Nat.exists_eq_add_of_le hyf
    have hu' : 8 - xf = u := by omega
    have hw' : 8 - yf = w := by omega
    calc (8 - xf) * (8 - yf) * z + xf * (8 - yf) * z + (8 - xf) * yf * z + xf * yf * z
        = z * ((xf + u) * (yf + w)) := by rw [hu', hw']; ring
      _ = z * 64 := by rw [← hu, ← hw]
  obtain ⟨hA, hB, hC, hD⟩ := hlow
  obtain ⟨hA', hB', hC', hD'⟩ := hhigh
  rw [← hsum low, ← hsum high]
  constructor
  all_goals gcongr

/-- The average of the four neighbours of a position. -/
def mixed (image : Nat → Nat → UInt8) (Y X : Nat) : UInt8 :=
  UInt8.ofNat (weighedSum image Y X / 64)

section

variable {image : Nat → Nat → UInt8} {Y X : Nat}

theorem byte_le (image : Nat → Nat → UInt8) (y x : Nat) : (image y x).toNat ≤ 255 :=
  le_of_lt_succ (image y x).toNat_lt

theorem eighth_le (Z : Nat) : Z / 2 ^ 6 % 8 ≤ 8 := (mod_lt _ (by norm_num)).le

/-- The average is not above all the four bytes, nor below. -/
theorem interpolates_mixed : Interpolates image Y X (mixed image Y X) := by
  have hbyte := byte_le image
  have hzero (y x : Nat) : 0 ≤ (image y x).toNat := zero_le _
  have hall := (weighed_bounds (eighth_le X) (eighth_le Y)
    ⟨hzero _ _, hzero _ _, hzero _ _, hzero _ _⟩
    ⟨hbyte (Y / 2 ^ 9) (X / 2 ^ 9), hbyte (Y / 2 ^ 9) (X / 2 ^ 9 + 1),
      hbyte (Y / 2 ^ 9 + 1) (X / 2 ^ 9), hbyte (Y / 2 ^ 9 + 1) (X / 2 ^ 9 + 1)⟩).2
  have hv := congrArg UInt8.toNat (mixed.eq_1 image Y X)
  rw [weighedSum, UInt8.toNat_ofNat', mod_eq_of_lt (by omega)] at hv
  refine ⟨hv, ?_, ?_⟩
  · by_contra hnone
    have hlow (y x : Nat) (hy : y = Y / 2 ^ 9 ∨ y = Y / 2 ^ 9 + 1)
        (hx : x = X / 2 ^ 9 ∨ x = X / 2 ^ 9 + 1) :
          (mixed image Y X).toNat + 1 ≤ (image y x).toNat :=
      Nat.lt_of_not_le fun hle => hnone ⟨y, x, hy, hx, UInt8.le_iff_toNat_le.mpr hle⟩
    have hmore := (weighed_bounds (eighth_le X) (eighth_le Y) ⟨hlow _ _ (.inl rfl) (.inl rfl),
      hlow _ _ (.inl rfl) (.inr rfl), hlow _ _ (.inr rfl) (.inl rfl),
      hlow _ _ (.inr rfl) (.inr rfl)⟩ ⟨hbyte _ _, hbyte _ _, hbyte _ _, hbyte _ _⟩).1
    omega
  · by_contra hnone
    have hhigh (y x : Nat) (hy : y = Y / 2 ^ 9 ∨ y = Y / 2 ^ 9 + 1)
        (hx : x = X / 2 ^ 9 ∨ x = X / 2 ^ 9 + 1) :
          (image y x).toNat ≤ (mixed image Y X).toNat - 1 :=
      Nat.le_sub_one_of_lt (Nat.lt_of_not_le fun hle =>
        hnone ⟨y, x, hy, hx, UInt8.le_iff_toNat_le.mpr hle⟩)
    have hpos : 0 < (mixed image Y X).toNat := by
      refine pos_of_ne_zero fun hv0 => hnone ⟨_, _, .inl rfl, .inl rfl, ?_⟩
      exact UInt8.le_iff_toNat_le.mpr (hv0.trans_le (zero_le _))
    have hless := (weighed_bounds (eighth_le X) (eighth_le Y)
      ⟨hzero _ _, hzero _ _, hzero _ _, hzero _ _⟩
      ⟨hhigh _ _ (.inl rfl) (.inl rfl), hhigh _ _ (.inl rfl) (.inr rfl),
        hhigh _ _ (.inr rfl) (.inl rfl), hhigh _ _ (.inr rfl) (.inr rfl)⟩).2
    omega

/-- A sample is the average, where its neighbours are in the plane. -/
theorem sample_spec (image : Nat → Nat → UInt8) {p : Plane} {inImgPtr x step k : Nat}
    (hptr : inImgPtr = p.start + k) (himage : ∀ y, p.byte y (x + k) = image y (X / 2 ^ 9) ∧
      p.byte y (x + k + step) = image y (X / 2 ^ 9 + 1)) :
    (Y / 2 ^ 9 + 1 < p.rows ∧ x + k + step < p.columns →
      sample p inImgPtr (Y / 2 ^ 9) (Y / 2 ^ 6 % 8) x (X / 2 ^ 6 % 8) step =
        some (mixed image Y X)) ∧
    (¬(Y / 2 ^ 9 + 1 < p.rows ∧ x + k + step < p.columns) →
      sample p inImgPtr (Y / 2 ^ 9) (Y / 2 ^ 6 % 8) x (X / 2 ^ 6 % 8) step = none) := by
  obtain ⟨hA, hB, hC, hD⟩ := weight_eq (X / 2 ^ 6 % 8) (mod_lt _ (by norm_num)) (Y / 2 ^ 6 % 8)
    (mod_lt _ (by norm_num))
  have hbyte := byte_le image
  constructor
  · rintro ⟨hrow, hcol⟩
    have hread (y : Nat) (hy : y < p.rows) :
        p.read y (inImgPtr + x) = some (image y (X / 2 ^ 9)) ∧
          p.read y (inImgPtr + x + step) = some (image y (X / 2 ^ 9 + 1)) := by
      have hA : inImgPtr + x - p.start = x + k := by omega
      have hB : inImgPtr + x + step - p.start = x + k + step := by omega
      obtain ⟨hbyteA, hbyteB⟩ := himage y
      rw [Plane.read, Plane.read, if_pos ⟨hy, by omega, by omega⟩,
        if_pos ⟨hy, by omega, by omega⟩, hA, hB, hbyteA, hbyteB]
      exact ⟨rfl, rfl⟩
    obtain ⟨hin11, hin12⟩ := hread (Y / 2 ^ 9) (by omega)
    obtain ⟨hin21, hin22⟩ := hread (Y / 2 ^ 9 + 1) hrow
    have hsum := (weighed_bounds (eighth_le X) (eighth_le Y) ⟨zero_le _, zero_le _,
      zero_le _, zero_le _⟩ ⟨hbyte (Y / 2 ^ 9) (X / 2 ^ 9),
        hbyte (Y / 2 ^ 9) (X / 2 ^ 9 + 1), hbyte (Y / 2 ^ 9 + 1) (X / 2 ^ 9),
        hbyte (Y / 2 ^ 9 + 1) (X / 2 ^ 9 + 1)⟩).2
    simp only [sample, bind_eq_bind, hin11, hin12, hin21, hin22, bind_some, hA, hB,
      hC, hD, mod_add_mod]
    rw [mod_eq_of_lt (by omega), shiftRight_eq_div_pow]
    rfl
  · intro hout
    have hlast : p.read (Y / 2 ^ 9 + 1) (inImgPtr + x + step) = none :=
      if_neg fun hin => hout ⟨hin.1, by omega⟩
    unfold sample
    simp only [bind_eq_bind, hlast, bind_none]
    simp

end

/-! ## Positions -/

/-- The factor for `n` points along a side of `d`. -/
theorem mul_factor_le {i n : Nat} (d : Nat) (hi : i < n) :
    i * ((d - 1) <<< 9 / n) ≤ (d - 1) * 2 ^ 9 := by
  rw [shiftLeft_eq]
  exact (mul_le_mul_right _ hi.le).trans (mul_div_le _ _)

/-- The last point but the end is before the last one of the side. -/
theorem mul_factor_lt {i n d : Nat} (hi : i < n) (hd : 2 ≤ d) :
    i * ((d - 1) <<< 9 / n) / 2 ^ 9 + 1 < d := by
  have hlt : i * ((d - 1) <<< 9 / n) < (d - 1) * 2 ^ 9 := by
    rcases Nat.eq_zero_or_pos ((d - 1) <<< 9 / n) with hzero | hpos
    · rw [hzero]
      omega
    · have hmul := mul_div_le ((d - 1) <<< 9) n
      rw [shiftLeft_eq] at hmul hpos ⊢
      exact (mul_lt_mul_of_pos_right hi hpos).trans_le hmul
  have hdiv := Nat.div_lt_of_lt_mul (hlt.trans_eq (Nat.mul_comm _ _))
  omega

theorem whole_eq {i rf : Nat} (h : i * rf < 2 ^ 25) : whole i rf = i * rf / 2 ^ 9 := by
  have hdiv : i * rf / 2 ^ 9 < 2 ^ 16 := Nat.div_lt_of_lt_mul (by omega)
  have hwrap : i * rf % 2 ^ 32 = i * rf := mod_eq_of_lt (by omega)
  rw [whole, hwrap, shiftRight_eq_div_pow, mod_eq_of_lt hdiv]

theorem eighths_eq {i rf : Nat} (h : i * rf < 2 ^ 25) : eighths i rf = i * rf / 2 ^ 6 % 8 := by
  rw [eighths, mod_eq_of_lt (by omega), shiftRight_eq_div_pow]
  exact and_two_pow_sub_one_eq_mod _ 3

/-! ## The loops -/

/-- A loop of 16 bits reaches its bound if every round succeeds, and fails with the first that does
not. -/
theorem forU16_spec {σ : Type} {n : Nat} (body : Nat → σ → Option σ) (st : Nat → σ)
    (ok : Nat → Prop) (hn : n < 2 ^ 16) (hok : ∀ i < n, ok i → body i (st i) = some (st (i + 1)))
    (hno : ∀ i < n, ¬ok i → body i (st i) = none) :
    ((∀ i < n, ok i) → forU16 n body (st 0) = some (st n)) ∧
      (¬(∀ i < n, ok i) → forU16 n body (st 0) = none) := by
  have hrun : ∀ k ≤ n, ((∀ i < k, ok i) →
      (range k).foldlM (fun s i => body i s) (st 0) = some (st k)) ∧
      (¬(∀ i < k, ok i) → (range k).foldlM (fun s i => body i s) (st 0) = none) := by
    intro k
    induction k with
    | zero => exact fun _ =>
      ⟨fun _ => rfl, fun hnot => absurd (fun i hi => absurd hi (by omega)) hnot⟩
    | succ k ih =>
      intro hk
      obtain ⟨hsome, hnone⟩ := ih (by omega)
      rw [range_succ, foldlM_append]
      by_cases hprev : ∀ i < k, ok i
      swap
      · rw [hnone hprev]
        exact ⟨fun hall => absurd (fun i hi => hall i (by omega)) hprev, fun _ => rfl⟩
      rw [hsome hprev]
      by_cases hlast : ok k
      · have hstep := hok k (by omega) hlast
        refine ⟨fun _ => by simp [hstep], fun hnot => absurd (fun i hi => ?_) hnot⟩
        rcases Nat.lt_succ_iff_lt_or_eq.mp hi with hlt | rfl
        · exact hprev i hlt
        · exact hlast
      · have hstep := hno k (by omega) hlast
        exact ⟨fun hall => absurd (hall k (by omega)) hlast, fun _ => by simp [hstep]⟩
  unfold forU16
  rw [if_pos hn]
  exact hrun n le_rfl

/-- A loop whose first round fails. -/
theorem forU16_none {σ : Type} {n : Nat} {body : Nat → σ → Option σ} {s : σ} (hn : 0 < n)
    (h : body 0 s = none) : forU16 n body s = none := by
  obtain ⟨k, rfl⟩ : ∃ k, n = k + 1 := ⟨n - 1, by omega⟩
  unfold forU16
  split
  · rw [range_succ_eq_map, foldlM_cons, h]
    rfl
  · rfl

section

variable {rows cols k stride codx start : Nat} {pixel : Nat → Nat → Stores → Option Stores}
  {bytes : Nat → Nat → Nat → List (Nat × UInt8)}

/-- The bytes of the rows before `row`, and where the next row starts. -/
def rowState (cols k stride start : Nat) (bytes : Nat → Nat → Nat → List (Nat × UInt8))
    (row : Nat) : Stores :=
  ⟨(start + row * stride) % 2 ^ 32, (List.range row).flatMap fun r =>
    (List.range cols).flatMap fun c => bytes r c ((start + r * stride + c * k) % 2 ^ 32)⟩

/-- The same within a row. -/
def colState (cols k stride start : Nat) (bytes : Nat → Nat → Nat → List (Nat × UInt8))
    (row col : Nat) : Stores :=
  ⟨(start + row * stride + col * k) % 2 ^ 32,
    (rowState cols k stride start bytes row).done ++ (List.range col).flatMap fun c =>
      bytes row c ((start + row * stride + c * k) % 2 ^ 32)⟩

/-- The two loops write the bytes of all pixels, row after row, if each pixel has its neighbours. -/
theorem rows_spec (ok : Nat → Nat → Prop) (hrows : rows < 2 ^ 16) (hcols : cols < 2 ^ 16)
    (hcodx : cols * k = codx) (hle : codx ≤ stride) (hstride : stride < 2 ^ 32)
    (hok : ∀ row < rows, ∀ col < cols, ∀ s, ok row col →
      pixel row col s = some ⟨addU s.ptr k, s.done ++ bytes row col s.ptr⟩)
    (hno : ∀ row < rows, ∀ col < cols, ∀ s, ¬ok row col → pixel row col s = none) :
    ((∀ row < rows, ∀ col < cols, ok row col) →
      forU16 rows (fun row s => do
        let s ← forU16 cols (pixel row) s
        some { s with ptr := addU s.ptr (subU stride codx) })
          (rowState cols k stride start bytes 0) =
        some (rowState cols k stride start bytes rows)) ∧
    (¬(∀ row < rows, ∀ col < cols, ok row col) →
      forU16 rows (fun row s => do
        let s ← forU16 cols (pixel row) s
        some { s with ptr := addU s.ptr (subU stride codx) })
          (rowState cols k stride start bytes 0) =
        none) := by
  have hstart (row : Nat) : rowState cols k stride start bytes row =
      colState cols k stride start bytes row 0 := by
    simp [rowState, colState]
  have hinner (row : Nat) (hrow : row < rows) :=
    forU16_spec (pixel row) (colState cols k stride start bytes row) (ok row) hcols
      (fun col hcol hpixel => by
        rw [hok row hrow col hcol _ hpixel]
        simp only [colState, range_succ, flatMap_append, flatMap_singleton,
          append_assoc, some.injEq, Stores.mk.injEq, and_true, addU]
        rw [mod_add_mod, succ_mul, add_assoc])
      (fun col hcol hpixel => hno row hrow col hcol _ hpixel)
  refine forU16_spec _ (rowState cols k stride start bytes)
    (fun row => ∀ col < cols, ok row col) hrows
    (fun row hrow hall => ?_) (fun row hrow hnot => ?_)
  · rw [hstart row, (hinner row hrow).1 hall]
    have hptr : addU ((start + row * stride + codx) % 2 ^ 32) (subU stride codx) =
        (start + (row + 1) * stride) % 2 ^ 32 := by
      have hsub : subU stride codx = stride - codx := by
        unfold subU
        omega
      rw [addU, hsub, mod_add_mod, succ_mul]
      congr 1
      omega
    simp only [bind_eq_bind, bind_some, colState, hcodx, hptr, rowState,
      range_succ, flatMap_append, flatMap_singleton]
  · rw [hstart row, (hinner row hrow).2 hnot]
    rfl

end

/-! ## The two planes -/

namespace ResizeArgs

variable {a : ResizeArgs}

def lumaBytes (a : ResizeArgs) (row col ptr : Nat) : List (Nat × UInt8) :=
  [(ptr, mixed a.luma (row * a.resizeFactorY) (col * a.resizeFactorX))]

/-- One of the two components of the chroma. -/
def component (a : ResizeArgs) (k : Nat) (y x : Nat) : UInt8 := a.chroma y (x * 2 + k)

def chromaBytes (a : ResizeArgs) (row col ptr : Nat) : List (Nat × UInt8) :=
  [(ptr, mixed (a.component 0) (row * a.resizeFactorY) (col * a.resizeFactorX)),
    (addU ptr 1, mixed (a.component 1) (row * a.resizeFactorY) (col * a.resizeFactorX))]

/-- Positions along the sides of the input. -/
theorem positions (h : a.Ordinary) :
    (∀ row < a.crop.uHeight, row * a.resizeFactorY < 2 ^ 25 ∧
      row * a.resizeFactorY / 2 ^ 9 + 1 < a.i_img.uHeight) ∧
    ∀ col < a.crop.uWidth, col * a.resizeFactorX < 2 ^ 25 ∧
      col * a.resizeFactorX / 2 ^ 9 + 1 < a.i_img.uWidth := by
  have hidx : a.idx = a.i_img.uWidth := mod_eq_of_lt h.width.lt
  have hidy : a.idy = a.i_img.uHeight := mod_eq_of_lt h.height.lt
  obtain ⟨hwidth, hwidth_even, hwidth_lt⟩ := h.width
  obtain ⟨hheight, hheight_even, hheight_lt⟩ := h.height
  constructor
  · intro row hrow
    rw [resizeFactorY, hidy]
    have hle := mul_factor_le a.i_img.uHeight hrow
    exact ⟨by omega, mul_factor_lt hrow (by omega)⟩
  · intro col hcol
    rw [resizeFactorX, hidx]
    have hle := mul_factor_le a.i_img.uWidth hcol
    exact ⟨by omega, mul_factor_lt hcol (by omega)⟩

/-- The rows of the output are in memory. -/
theorem stride_lt (h : a.Ordinary) : a.o_img.uStride < 2 ^ 32 ∧
    a.crop.uWidth ≤ a.o_img.uStride := by
  have hrows := h.rows
  have hheight := h.crop_height
  have htwo : 2 ≤ a.o_img.uHeight := by
    have hpos := hheight.pos
    have heven := hheight.even
    omega
  have hmul := (mul_le_mul_right a.o_img.uStride htwo).trans h.memory
  have hcolumns := h.columns
  have hstride := h.o_stride
  omega

theorem start_lt (a : ResizeArgs) : a.start < 2 ^ 32 := mod_lt _ (by norm_num)

theorem rowState_start (a : ResizeArgs) (cols k stride : Nat)
    (bytes : Nat → Nat → Nat → List (Nat × UInt8)) :
    rowState cols k stride a.start bytes 0 = ⟨a.start, []⟩ := by
  rw [rowState, zero_mul, add_zero, mod_eq_of_lt a.start_lt]
  rfl

/-- The luma never needs a neighbour outside. -/
theorem resizeLuma_eq (h : a.Ordinary) :
    resizeLuma a.lumaPlane a.inImgPtrY a.crop.uWidth a.crop.uHeight a.resizeFactorX a.resizeFactorY
      a.o_img.uStride a.start =
    some (rowState a.crop.uWidth 1 a.o_img.uStride a.start a.lumaBytes a.crop.uHeight) := by
  obtain ⟨hrows, hcols⟩ := positions h
  obtain ⟨hstride, hle⟩ := stride_lt h
  unfold resizeLuma
  rw [← a.rowState_start a.crop.uWidth 1 a.o_img.uStride a.lumaBytes]
  refine (rows_spec (fun _ _ => True) h.crop_height.lt h.crop_width.lt (mul_one _) hle hstride
    (fun row hrow col hcol s _ => ?_) (fun _ _ _ _ _ hno => absurd trivial hno)).1
      fun _ _ _ _ => trivial
  obtain ⟨hY, hrow'⟩ := hrows row hrow
  obtain ⟨hX, hcol'⟩ := hcols col hcol
  have hptr : a.inImgPtrY = a.lumaPlane.start + 0 := rfl
  have himage (y : Nat) : a.lumaPlane.byte y (col * a.resizeFactorX / 2 ^ 9 + 0) =
        a.luma y (col * a.resizeFactorX / 2 ^ 9) ∧
      a.lumaPlane.byte y (col * a.resizeFactorX / 2 ^ 9 + 0 + 1) =
        a.luma y (col * a.resizeFactorX / 2 ^ 9 + 1) := ⟨rfl, rfl⟩
  rw [whole_eq hY, whole_eq hX, eighths_eq hY, eighths_eq hX,
    (sample_spec a.luma hptr himage).1 ⟨hrow', hcol'⟩]
  rfl

/-- Where the chroma of a pixel has its neighbours. -/
def Neighbours (a : ResizeArgs) (row col : Nat) : Prop :=
  row * a.resizeFactorY / 2 ^ 9 + 1 < a.i_img.uHeight / 2 ∧
    col * a.resizeFactorX / 2 ^ 9 + 1 < a.i_img.uWidth / 2

/-- The chroma is read from as many columns before its first one as half the picture's column. -/
theorem inImgPtrU_add (h : a.Ordinary) :
    a.inImgPtrU + (a.i_img.uOffset % a.i_img.uStride + 1) / 2 = a.chromaPlane.start := by
  obtain ⟨q, hq⟩ := Nat.dvd_of_mod_eq_zero h.stride_even
  have hsplit := Nat.div_add_mod a.i_img.uOffset a.i_img.uStride
  have hhalf : a.i_img.uStride / 2 = q := by omega
  have hmul : a.i_img.uStride * (a.i_img.uOffset / a.i_img.uStride) =
      2 * (q * (a.i_img.uOffset / a.i_img.uStride)) := by rw [hq, Nat.mul_assoc]
  dsimp only [inImgPtrU, chromaPlane]
  rw [hhalf]
  omega

theorem chroma_sample (h : a.Ordinary) (hoffset : a.i_img.uOffset % a.i_img.uStride = 0)
    {row col k : Nat} (hk : k < 2) :
    (a.Neighbours row col → sample a.chromaPlane (a.inImgPtrU + k) (row * a.resizeFactorY / 2 ^ 9)
      (row * a.resizeFactorY / 2 ^ 6 % 8) (col * a.resizeFactorX / 2 ^ 9 * 2)
      (col * a.resizeFactorX / 2 ^ 6 % 8) 2 =
      some (mixed (a.component k) (row * a.resizeFactorY) (col * a.resizeFactorX))) ∧
    (¬a.Neighbours row col → sample a.chromaPlane (a.inImgPtrU + k)
      (row * a.resizeFactorY / 2 ^ 9) (row * a.resizeFactorY / 2 ^ 6 % 8)
      (col * a.resizeFactorX / 2 ^ 9 * 2) (col * a.resizeFactorX / 2 ^ 6 % 8) 2 = none) := by
  have heven := h.width.even
  have hptr : a.inImgPtrU + k = a.chromaPlane.start + k := by
    have hadd := inImgPtrU_add h
    rw [hoffset] at hadd
    omega
  have hin : a.Neighbours row col ↔ row * a.resizeFactorY / 2 ^ 9 + 1 < a.chromaPlane.rows ∧
      col * a.resizeFactorX / 2 ^ 9 * 2 + k + 2 < a.chromaPlane.columns := by
    refine and_congr_right fun _ => ?_
    dsimp only [chromaPlane]
    omega
  have himage (y : Nat) : a.chromaPlane.byte y (col * a.resizeFactorX / 2 ^ 9 * 2 + k) =
        a.component k y (col * a.resizeFactorX / 2 ^ 9) ∧
      a.chromaPlane.byte y (col * a.resizeFactorX / 2 ^ 9 * 2 + k + 2) =
        a.component k y (col * a.resizeFactorX / 2 ^ 9 + 1) :=
    ⟨rfl, congrArg (a.chroma y) (by omega)⟩
  rw [hin]
  exact sample_spec (a.component k) hptr himage

/-- The chroma is written if its last pixel has its neighbours. -/
theorem resizeChroma_eq (h : a.Ordinary) (hoffset : a.i_img.uOffset % a.i_img.uStride = 0) :
    ((∀ row < a.crop.uHeight / 2, ∀ col < a.crop.uWidth / 2, a.Neighbours row col) →
      resizeChroma a.chromaPlane a.inImgPtrU a.crop.uWidth a.crop.uHeight a.resizeFactorX
        a.resizeFactorY a.o_img.uStride a.start = some (rowState (a.crop.uWidth / 2) 2
          a.o_img.uStride a.start a.chromaBytes (a.crop.uHeight / 2))) ∧
    (¬(∀ row < a.crop.uHeight / 2, ∀ col < a.crop.uWidth / 2, a.Neighbours row col) →
      resizeChroma a.chromaPlane a.inImgPtrU a.crop.uWidth a.crop.uHeight a.resizeFactorX
        a.resizeFactorY a.o_img.uStride a.start = none) := by
  obtain ⟨hrows, hcols⟩ := positions h
  obtain ⟨hstride, hle⟩ := stride_lt h
  have hheight := h.crop_height.lt
  have hwidth := h.crop_width.lt
  have heven := h.crop_width.even
  unfold resizeChroma
  rw [shiftRight_one, shiftRight_one,
    ← a.rowState_start (a.crop.uWidth / 2) 2 a.o_img.uStride a.chromaBytes]
  refine rows_spec a.Neighbours (by omega) (by omega) (by omega) hle hstride
    (fun row hrow col hcol s hin => ?_) (fun row hrow col hcol s hout => ?_)
  all_goals
    obtain ⟨hY, -⟩ := hrows row (by omega)
    obtain ⟨hX, -⟩ := hcols col (by omega)
    rw [whole_eq hY, whole_eq hX, eighths_eq hY, eighths_eq hX]
  · have hcb := (chroma_sample h hoffset (k := 0) (by norm_num)).1 hin
    have hcr := (chroma_sample h hoffset (k := 1) (by norm_num)).1 hin
    simp only [add_zero] at hcb
    simp only [bind_eq_bind, hcb, hcr, bind_some]
    rfl
  · have hcb := (chroma_sample h hoffset (k := 0) (by norm_num)).2 hout
    simp only [add_zero] at hcb
    simp only [bind_eq_bind, hcb, bind_none]

/-- For a picture that does not start at the first column the first byte is read too far left. -/
theorem resizeChroma_offset (h : a.Ordinary) (hoffset : a.i_img.uOffset % a.i_img.uStride ≠ 0) :
    resizeChroma a.chromaPlane a.inImgPtrU a.crop.uWidth a.crop.uHeight a.resizeFactorX
      a.resizeFactorY a.o_img.uStride a.start = none := by
  have hadd := inImgPtrU_add h
  obtain ⟨hwidth, hwidth_even, -⟩ := h.crop_width
  obtain ⟨hheight, hheight_even, -⟩ := h.crop_height
  have hread : a.chromaPlane.read 0 a.inImgPtrU = none := if_neg fun hin => by omega
  have hsample (yf xf step : Nat) :
      sample a.chromaPlane a.inImgPtrU 0 yf (0 * 2) xf step = none := by
    unfold sample
    rw [Nat.zero_mul, Nat.add_zero, hread]
    rfl
  have hfirst (resizeFactor : Nat) : whole 0 resizeFactor = 0 := by
    rw [whole, Nat.zero_mul]
    rfl
  unfold resizeChroma
  refine forU16_none (by omega) ?_
  simp only [hfirst]
  rw [forU16_none (by omega) (by simp only [hfirst, hsample]; rfl)]
  rfl

/-- All the pixels have their neighbours if the last one does. -/
theorem neighbours_iff (h : a.Ordinary) :
    (∀ row < a.crop.uHeight / 2, ∀ col < a.crop.uWidth / 2, a.Neighbours row col) ↔
      a.Neighbours (a.crop.uHeight / 2 - 1) (a.crop.uWidth / 2 - 1) := by
  have hheight := h.crop_height
  have hwidth := h.crop_width
  have hpos := hheight.pos
  have heven := hheight.even
  have hpos' := hwidth.pos
  have heven' := hwidth.even
  constructor
  · intro hall
    exact hall _ (by omega) _ (by omega)
  · rintro ⟨hrows, hcols⟩ row hrow col hcol
    have hY : row * a.resizeFactorY / 2 ^ 9 ≤ (a.crop.uHeight / 2 - 1) * a.resizeFactorY / 2 ^ 9 :=
      Nat.div_le_div_right (Nat.mul_le_mul_right _ (by omega))
    have hX : col * a.resizeFactorX / 2 ^ 9 ≤ (a.crop.uWidth / 2 - 1) * a.resizeFactorX / 2 ^ 9 :=
      Nat.div_le_div_right (Nat.mul_le_mul_right _ (by omega))
    exact ⟨by omega, by omega⟩

/-- The function writes both planes, or reads outside of the chroma. -/
theorem resize_eq (h : a.Ordinary) :
    (a.i_img.uOffset % a.i_img.uStride = 0 ∧
        a.Neighbours (a.crop.uHeight / 2 - 1) (a.crop.uWidth / 2 - 1) →
      VT_resizeFrame_Video_opt2_lp a = some (true,
        (rowState a.crop.uWidth 1 a.o_img.uStride a.start a.lumaBytes a.crop.uHeight).done,
        (rowState (a.crop.uWidth / 2) 2 a.o_img.uStride a.start a.chromaBytes
          (a.crop.uHeight / 2)).done)) ∧
    (¬(a.i_img.uOffset % a.i_img.uStride = 0 ∧
        a.Neighbours (a.crop.uHeight / 2 - 1) (a.crop.uWidth / 2 - 1)) →
      VT_resizeFrame_Video_opt2_lp a = none) := by
  have hwidth := h.width.pos
  have hheight := h.height.pos
  have hstride := h.stride
  have hcropwidth := h.crop_width.pos
  have hcropheight := h.crop_height.pos
  have hidx : a.idx = a.i_img.uWidth := mod_eq_of_lt h.width.lt
  have hidy : a.idy = a.i_img.uHeight := mod_eq_of_lt h.height.lt
  unfold VT_resizeFrame_Video_opt2_lp
  rw [if_neg (not_or.mpr ⟨h.i_img, h.o_img⟩), if_neg (by omega), if_neg (by omega),
    if_pos ⟨h.i_format, h.o_format⟩, resizeLuma_eq h]
  by_cases hoffset : a.i_img.uOffset % a.i_img.uStride = 0
  · obtain ⟨hsome, hnone⟩ := resizeChroma_eq h hoffset
    rw [neighbours_iff h] at hsome hnone
    refine ⟨fun hin => ?_, fun hout => ?_⟩
    · rw [hsome hin.2]
      rfl
    · rw [hnone fun hin => hout ⟨hoffset, hin⟩]
      rfl
  · rw [resizeChroma_offset h hoffset]
    exact ⟨fun hin => absurd hin.1 hoffset, fun _ => rfl⟩

/-! ## What is written -/

theorem mem_rowState {cols k stride start rows : Nat}
    {bytes : Nat → Nat → Nat → List (Nat × UInt8)} {s : Nat × UInt8} :
    s ∈ (rowState cols k stride start bytes rows).done ↔
      ∃ row < rows, ∃ col < cols,
        s ∈ bytes row col ((start + row * stride + col * k) % 2 ^ 32) := by
  simp only [rowState, mem_flatMap, mem_range]

theorem place_lt (h : a.Ordinary) (row col : Nat) (hrow : row < a.crop.uHeight)
    (hcol : col < a.crop.uWidth) : a.start = a.crop.x + a.crop.y * a.o_img.uWidth ∧
      a.start + row * a.o_img.uStride + col < 2 ^ 32 := by
  have hcolumns := h.columns
  have hstride := h.o_stride
  have hwidth := mul_le_mul_left a.crop.y hstride
  have hrows : (a.crop.y + row + 1) * a.o_img.uStride ≤ 2 ^ 32 :=
    (Nat.mul_le_mul_right _ (by have hin := h.rows; omega)).trans h.memory
  have hsplit : (a.crop.y + row + 1) * a.o_img.uStride =
      a.crop.y * a.o_img.uStride + row * a.o_img.uStride + a.o_img.uStride := by ring
  have hstart : a.start = a.crop.x + a.crop.y * a.o_img.uWidth := mod_eq_of_lt (by omega)
  exact ⟨hstart, by omega⟩

theorem luma_writes (h : a.Ordinary) (htop : a.crop.y = 0) :
    Writes (rowState a.crop.uWidth 1 a.o_img.uStride a.start a.lumaBytes a.crop.uHeight).done
      a.crop.uHeight a.crop.uWidth
      (fun row col => (a.crop.y + row) * a.o_img.uStride + a.crop.x + col)
      (fun row col => Interpolates a.luma (row * a.resizeFactorY) (col * a.resizeFactorX)) := by
  have hplace (row col : Nat) (hrow : row < a.crop.uHeight) (hcol : col < a.crop.uWidth) :
      (a.start + row * a.o_img.uStride + col * 1) % 2 ^ 32 =
        (a.crop.y + row) * a.o_img.uStride + a.crop.x + col := by
    obtain ⟨hstart, hlt⟩ := place_lt h row col hrow hcol
    rw [mul_one, mod_eq_of_lt hlt, hstart, htop, zero_mul, zero_add]
    omega
  constructor
  · intro s hs
    obtain ⟨row, hrow, col, hcol, hbyte⟩ := mem_rowState.mp hs
    rw [lumaBytes, mem_singleton] at hbyte
    rw [hbyte]
    exact ⟨row, hrow, col, hcol, hplace row col hrow hcol, interpolates_mixed⟩
  · intro row hrow col hcol
    exact ⟨_, mem_rowState.mpr ⟨row, hrow, col, hcol, mem_singleton.mpr rfl⟩,
      hplace row col hrow hcol⟩

theorem chroma_writes (h : a.Ordinary) (htop : a.crop.y = 0) :
    Writes (rowState (a.crop.uWidth / 2) 2 a.o_img.uStride a.start a.chromaBytes
        (a.crop.uHeight / 2)).done (a.crop.uHeight / 2) a.crop.uWidth
      (fun row col => (a.crop.y / 2 + row) * a.o_img.uStride + a.crop.x + col)
      (fun row col => Interpolates (fun y x => a.chroma y (x * 2 + col % 2))
        (row * a.resizeFactorY) (col / 2 * a.resizeFactorX)) := by
  have hplace (row col : Nat) (hrow : row < a.crop.uHeight / 2) (hcol : col < a.crop.uWidth / 2) :
      (a.start + row * a.o_img.uStride + col * 2) % 2 ^ 32 =
          (a.crop.y / 2 + row) * a.o_img.uStride + a.crop.x + col * 2 ∧
        addU ((a.start + row * a.o_img.uStride + col * 2) % 2 ^ 32) 1 =
          (a.crop.y / 2 + row) * a.o_img.uStride + a.crop.x + (col * 2 + 1) := by
    obtain ⟨hstart, hlt⟩ := place_lt h row (col * 2 + 1) (by omega) (by omega)
    rw [addU, mod_add_mod, mod_eq_of_lt (by omega), mod_eq_of_lt (by omega), hstart,
      htop, Nat.zero_mul, Nat.zero_div, Nat.zero_add]
    omega
  constructor
  · intro s hs
    obtain ⟨row, hrow, col, hcol, hbyte⟩ := mem_rowState.mp hs
    obtain ⟨hcb, hcr⟩ := hplace row col hrow hcol
    rw [chromaBytes, mem_pair] at hbyte
    rcases hbyte with rfl | rfl
    · refine ⟨row, hrow, col * 2, by omega, hcb, ?_⟩
      rw [Nat.mul_mod_left, Nat.mul_div_cancel _ two_pos]
      exact interpolates_mixed
    · refine ⟨row, hrow, col * 2 + 1, by omega, hcr, ?_⟩
      have hmod : (col * 2 + 1) % 2 = 1 := by omega
      have hdiv : (col * 2 + 1) / 2 = col := by omega
      rw [hmod, hdiv]
      exact interpolates_mixed
  · intro row hrow col hcol
    have heven := h.crop_width.even
    have hhalf : col / 2 < a.crop.uWidth / 2 := by omega
    obtain ⟨hcb, hcr⟩ := hplace row (col / 2) hrow hhalf
    have hmem {s : Nat × UInt8} (hs : s ∈ a.chromaBytes row (col / 2)
        ((a.start + row * a.o_img.uStride + col / 2 * 2) % 2 ^ 32)) :=
      mem_rowState.mpr ⟨row, hrow, col / 2, hhalf, hs⟩
    rcases mod_two_eq_zero_or_one col with hzero | hone
    · have hcol' : col / 2 * 2 = col := by omega
      exact ⟨_, hmem (mem_pair.mpr (.inl rfl)), hcb.trans (by rw [hcol'])⟩
    · have hcol' : col / 2 * 2 + 1 = col := by omega
      exact ⟨_, hmem (mem_pair.mpr (.inr rfl)), hcr.trans (by rw [hcol'])⟩

/-- Below the first row the two planes start in the wrong places. -/
theorem top_of_writes (h : a.Ordinary) {good good' : Nat → Nat → UInt8 → Prop}
    (hluma : Writes
      (rowState a.crop.uWidth 1 a.o_img.uStride a.start a.lumaBytes a.crop.uHeight).done
      a.crop.uHeight a.crop.uWidth
      (fun row col => (a.crop.y + row) * a.o_img.uStride + a.crop.x + col) good)
    (hchroma : Writes (rowState (a.crop.uWidth / 2) 2 a.o_img.uStride a.start a.chromaBytes
        (a.crop.uHeight / 2)).done (a.crop.uHeight / 2) a.crop.uWidth
      (fun row col => (a.crop.y / 2 + row) * a.o_img.uStride + a.crop.x + col) good') :
    a.crop.y = 0 := by
  have hwidth := h.crop_width.pos
  have hwidth_even := h.crop_width.even
  have hheight := h.crop_height.pos
  have hheight_even := h.crop_height.even
  obtain ⟨hstart, -⟩ := place_lt h 0 0 hheight hwidth
  -- the first byte of the luma is not before the crop
  have hfirst : a.crop.y * a.o_img.uStride ≤ a.crop.y * a.o_img.uWidth := by
    obtain ⟨row, _, col, _, hplace, _⟩ := hluma.only _ (mem_rowState.mpr
      ⟨0, hheight, 0, hwidth, mem_singleton.mpr rfl⟩)
    rw [Nat.zero_mul, Nat.zero_mul, Nat.add_zero, Nat.mod_eq_of_lt a.start_lt, hstart,
      add_mul] at hplace
    omega
  -- the first byte of the crop is not before the chroma
  have hlast : a.start ≤ a.crop.y / 2 * a.o_img.uStride + a.crop.x := by
    obtain ⟨s, hs, hplace⟩ := hchroma.all 0 (by omega) 0 hwidth
    obtain ⟨row, hrow, col, hcol, hbyte⟩ := mem_rowState.mp hs
    obtain ⟨-, hlt'⟩ := place_lt h row (col * 2 + 1) (by omega) (by omega)
    rw [chromaBytes, mem_pair] at hbyte
    rcases hbyte with rfl | rfl
    · simp only [add_zero] at hplace
      rw [mod_eq_of_lt (by omega)] at hplace
      omega
    · simp only [add_zero] at hplace
      rw [addU, mod_add_mod, mod_eq_of_lt (by omega)] at hplace
      omega
  have hstride : 0 < a.o_img.uStride := by
    have hle := (stride_lt h).2
    omega
  have hmul : a.crop.y * a.o_img.uStride ≤ a.crop.y / 2 * a.o_img.uStride := by omega
  have hhalf := le_of_mul_le_mul_right hmul hstride
  omega

/-- The factors are those of the positions. -/
theorem mul_resizeFactor (h : a.Ordinary) (i : Nat) :
    i * a.resizeFactorY = position a.i_img.uHeight a.crop.uHeight i ∧
      i * a.resizeFactorX = position a.i_img.uWidth a.crop.uWidth i := by
  have hidx : a.idx = a.i_img.uWidth := mod_eq_of_lt h.width.lt
  have hidy : a.idy = a.i_img.uHeight := mod_eq_of_lt h.height.lt
  rw [resizeFactorY, resizeFactorX, hidx, hidy, shiftLeft_eq, shiftLeft_eq]
  exact ⟨rfl, rfl⟩

/-- A black frame of the camera, two rows into its buffer, for a video of 640x480. -/
def video (width height : Nat) : ResizeArgs :=
  { i_img := ⟨width, height, 4096, .IC_FORMAT_YCbCr420_lp, 0x1000000, 0x2000000, 8192⟩
    o_img := ⟨640, 480, 4096, .IC_FORMAT_YCbCr420_lp, 0x3000000, 0x4000000, 0⟩
    cropout := none
    luma := fun _ _ => 16
    chroma := fun _ _ => 128 }

theorem video_ordinary {width height : Nat} (hwidth : EvenSize width) (hheight : EvenSize height)
    (hstride : width ≤ 4096) : (video width height).Ordinary := by
  have hcrop : (video width height).crop = ⟨0, 0, 640, 480⟩ := rfl
  have hoffset : (video width height).i_img.uOffset % (video width height).i_img.uStride = 0 := by
    norm_num [video]
  refine ⟨by norm_num [video], by norm_num [video], rfl, rfl, hwidth, hheight, ?_,
    by norm_num [video], ?_, ?_, ?_, ?_, by norm_num [video], by norm_num [video]⟩
  · rw [hoffset, Nat.zero_add]
    exact hstride
  all_goals rw [hcrop]
  · exact ⟨by decide, by decide, by decide⟩
  · exact ⟨by decide, by decide, by decide⟩
  · norm_num [video]
  · norm_num [video]

end ResizeArgs

end OmapHal.Camera
