import OmapHal.Hwc.Device

/-!
# Tests of one layer

The predicates by which the composer classifies a layer and its buffer. A predicate on
the handle takes the buffer; where the source tests a null handle first, the layer
predicate is false without a buffer.
-/

namespace OmapHal.Hwc

variable {hwc_dev : HwcDevice} {layer : HwcLayer} {handle : NativeHandle}

/-- `is_valid_format`. -/
def is_valid_format : PixelFormat → Bool
  | .RGB_565 | .RGBX_8888 | .RGBA_8888 | .BGRA_8888 | .BGRX_8888 | .TI_NV12 | .TI_NV12_1D => true
  | _ => false

/-- `scaled`: the source crop, turned as the transform says, has another size than the
display frame. -/
def scaled (layer : HwcLayer) : Bool :=
  let w := WIDTH layer.sourceCrop
  let h := HEIGHT layer.sourceCrop
  let (w, h) := if rot90 layer.transform then (h, w) else (w, h)
  WIDTH layer.displayFrame != w || HEIGHT layer.displayFrame != h

def is_BLENDED (layer : HwcLayer) : Bool := layer.blending != HWC_BLENDING_NONE

/-- `is_RGB`. -/
def is_RGB (handle : NativeHandle) : Bool :=
  match handle.iFormat with
  | .BGRA_8888 | .BGRX_8888 | .RGB_565 => true
  | _ => false

/-- `get_format_bpp`. -/
def get_format_bpp : PixelFormat → Nat
  | .BGRA_8888 | .BGRX_8888 | .RGBX_8888 | .RGBA_8888 => 32
  | .RGB_565 => 16
  | .TI_NV12 | .TI_NV12_1D => 8
  | _ => 0

/-- `is_BGR_format`. -/
def is_BGR_format : PixelFormat → Bool
  | .RGBX_8888 | .RGBA_8888 => true
  | _ => false

def is_BGR (handle : NativeHandle) : Bool := is_BGR_format handle.iFormat

/-- `is_NV12`. -/
def is_NV12 (handle : NativeHandle) : Bool :=
  match handle.iFormat with
  | .TI_NV12 | .TI_NV12_1D => true
  | _ => false

def is_protected (handle : NativeHandle) : Bool := handle.usageProtected

def dockable (handle : NativeHandle) : Bool := handle.usageExternalDisp

/-- `is_upscaled_NV12`. -/
def is_upscaled_NV12 (hwc_dev : HwcDevice) (layer : HwcLayer) (handle : NativeHandle) : Bool :=
  if is_NV12 handle then
    let w := WIDTH layer.sourceCrop
    let h := HEIGHT layer.sourceCrop
    let (w, h) := if rot90 layer.transform then (h, w) else (w, h)
    hwc_dev.reaches_upscaled_nv12_limit (WIDTH layer.displayFrame) w ||
      hwc_dev.reaches_upscaled_nv12_limit (HEIGHT layer.displayFrame) h
  else false

def HW_ALIGN : Int := 32

/-- `ALIGN`, for an alignment that is a power of two. -/
def ALIGN (x a : Int) : Int := (x + a - 1) / a * a

/-- `mem1d`: the bytes a buffer takes in a one-dimensional TILER slot. -/
def mem1d (handle : NativeHandle) : Nat :=
  if is_NV12 handle then 0
  else
    let bpp : Int := if handle.iFormat = .RGB_565 then 2 else 4
    let stride := ALIGN handle.iWidth HW_ALIGN * bpp
    u32 (stride * handle.iHeight)

def DIV_ROUND_UP (a b : Nat) : Nat := u32 (a + b - 1) / b

/-- `can_scale`. -/
def can_scale (src_w src_h dst_w dst_h : Nat) (is_2d : Bool) (dis : DisplayInfo)
    (limits : PlatformInfo) (pclk : Nat) (handle : Option NativeHandle) : Bool :=
  let fclk := limits.fclk / 1000
  let max_xdecim := if is_2d then limits.max_xdecim_2d else limits.max_xdecim_1d
  let max_ydecim := if is_2d then limits.max_ydecim_2d else limits.max_ydecim_1d
  let min_src_w := DIV_ROUND_UP src_w max_xdecim
  let min_src_h := DIV_ROUND_UP src_h max_ydecim
  if !dis.digit && dst_w < limits.min_width then false
  -- vertical downscaling is kept well below the theoretical limit
  else if dst_h < src_h / 4 then false
  else if u32 (dst_h * limits.max_downscale) < min_src_h then false
  -- manual panels have no pixel clock and no limit from it
  else if pclk = 0 then !(dst_w < src_w / limits.max_downscale / max_xdecim)
  else if u32 (dst_w * 4) < src_w then false
  else if handle.any fun handle => get_format_bpp handle.iFormat == 32 && decide (src_w > 1280) &&
      decide (u32 (dst_w * 3) < src_w) then false
  else
    let fclk := if fclk > u32 (pclk * limits.max_downscale) then u32 (pclk * limits.max_downscale)
      else fclk
    let fclk := if src_w < limits.integer_scale_ratio_limit then fclk / pclk * pclk else fclk
    !(u32 (dst_w * fclk) < u32 (min_src_w * pclk))

/-- `can_scale_layer`. -/
def can_scale_layer (hwc_dev : HwcDevice) (layer : HwcLayer) (handle : NativeHandle) : Bool :=
  let src_w := WIDTH layer.sourceCrop
  let src_h := HEIGHT layer.sourceCrop
  let dst_w := WIDTH layer.displayFrame
  let dst_h := HEIGHT layer.displayFrame
  let (src_w, src_h) := if rot90 layer.transform then (src_h, src_w) else (src_w, src_h)
  can_scale (u32 src_w) (u32 src_h) (u32 dst_w) (u32 dst_h) (is_NV12 handle) hwc_dev.fb_dis
    hwc_dev.limits hwc_dev.fb_dis.pixel_clock (some handle)

/-- `is_valid_layer`, on a layer with a buffer. -/
def is_valid_layer (hwc_dev : HwcDevice) (layer : HwcLayer) (handle : NativeHandle) : Bool :=
  -- skip layers are handled by SurfaceFlinger
  if layer.skip then false
  else if !is_valid_format handle.iFormat then false
  -- 1D buffers: no transform, must fit in the TILER slot
  else if !is_NV12 handle &&
      (layer.transform != 0 || decide (mem1d handle > hwc_dev.limits.tiler1d_slot_size)) then false
  else can_scale_layer hwc_dev layer handle

/-- The buffer of a layer that passes `is_valid_layer`. -/
def validBuffer? (hwc_dev : HwcDevice) (layer : HwcLayer) : Option NativeHandle :=
  layer.handle.deref?.filter (is_valid_layer hwc_dev layer)

theorem validBuffer?_eq_some :
    validBuffer? hwc_dev layer = some handle ↔
      layer.handle.deref? = some handle ∧ is_valid_layer hwc_dev layer handle = true := by
  unfold validBuffer?
  rw [Option.filter_eq_some_iff]

/-- The three families of formats exclude each other. -/
theorem not_BGR_of_RGB (h : is_RGB handle) :
    is_BGR handle = false := by
  unfold is_RGB at h
  unfold is_BGR is_BGR_format
  split at h <;> simp_all

theorem is_valid_layer_format (h : is_valid_layer hwc_dev layer handle) :
    layer.skip = false ∧ is_valid_format handle.iFormat = true := by
  unfold is_valid_layer at h
  split at h
  · cases h
  · split at h
    · cases h
    · simp_all

/-- A valid layer fits into the TILER slot by itself. -/
theorem mem1d_le_of_valid (h : is_valid_layer hwc_dev layer handle) :
    mem1d handle ≤ hwc_dev.limits.tiler1d_slot_size := by
  by_cases hn : is_NV12 handle
  · unfold mem1d
    rw [if_pos hn]
    exact Nat.zero_le _
  · unfold is_valid_layer at h
    split at h
    · cases h
    · split at h
      · cases h
      · split at h
        · cases h
        · rename_i hslot
          simp only [hn, Bool.not_false, Bool.true_and, Bool.or_eq_true, bne_iff_ne, ne_eq,
            decide_eq_true_eq, not_or, not_lt] at hslot
          exact hslot.2

end OmapHal.Hwc
