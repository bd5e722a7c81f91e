import OmapHal.Hwc.Posted
import Mathlib.Logic.Function.Iterate

/-!
# Drawing buffers

What a layer asks for and what an overlay does, in the same terms: a part of a buffer, turned and
put into a window, its pixels read one way or another.
-/

namespace OmapHal.Hwc

open Function

variable {hwc_dev : HwcDevice} {layer : HwcLayer} {handle : NativeHandle} {cfg : Dss2OvlCfg}

/-! ### Orientations -/

/-- A quarter turn clockwise, and the two flips, of an offset on the screen. -/
def turn (p : Int × Int) : Int × Int := (-p.2, p.1)
def flipAcross (p : Int × Int) : Int × Int := (-p.1, p.2)
def flipOver (p : Int × Int) : Int × Int := (p.1, -p.2)

/-- The transform of a layer: the flips, then the turn. -/
def layerOrient (transform : Nat) (p : Int × Int) : Int × Int :=
  let p := if flipH transform then flipAcross p else p
  let p := if flipV transform then flipOver p else p
  if rot90 transform then turn p else p

/-- An overlay is turned by quarters, then mirrored. -/
def overlayOrient (mirror : Bool) (rotation : Nat) (p : Int × Int) : Int × Int :=
  let p := turn^[rotation] p
  if mirror then flipAcross p else p

/-- The orientation that `setup_layer` derives is that of the layer. -/
theorem overlayOrient_orientation (transform : Nat) :
    overlayOrient (orientation transform).1 (orientation transform).2 = layerOrient transform := by
  funext p
  unfold overlayOrient orientation layerOrient
  cases flipH transform <;> cases flipV transform <;> cases rot90 transform <;>
    simp [turn, flipAcross, flipOver]

theorem turn_iterate_mod (n : Nat) : turn^[n % 4] = turn^[n] := by
  have hfour : turn^[4] = id := by
    funext p
    simp [turn]
  conv_rhs => rw [← Nat.mod_add_div n 4, iterate_add, iterate_mul, hfour, iterate_id, comp_id]

/-- Combining the rotation of an overlay with that of its display. -/
theorem overlayOrient_turnedBy (cfg : Dss2OvlCfg) (rotation : Nat) :
    overlayOrient cfg.mirror (turnedBy cfg rotation) =
      turn^[rotation] ∘ overlayOrient cfg.mirror cfg.rotation := by
  funext p
  rw [overlayOrient, turnedBy, turn_iterate_mod, comp_apply, overlayOrient]
  cases cfg.mirror with
  | false =>
    simp only [Bool.false_eq_true, if_false]
    rw [Nat.add_comm, iterate_add, comp_apply]
  | true =>
    -- a mirrored turn is a turn the other way
    have hthree : Semiconj flipAcross turn^[3] turn := fun p => by simp [turn, flipAcross]
    simp only [if_true]
    rw [Nat.add_comm, iterate_add, comp_apply, iterate_mul]
    exact hthree.iterate_right rotation _

/-! ### Drawings -/

/-- How a buffer is drawn. -/
structure Drawing where
  buffer : BufferHandle
  /-- Width, height and bytes a row of the buffer, and the bits of a pixel. -/
  width : Int
  height : Int
  pitch : Int
  depth : Nat
  crop : Window
  win : Window
  /-- Where an offset in the crop window is found on the screen. -/
  orient : Int × Int → Int × Int
  /-- The pixels have a transparency that is used, and are multiplied with it. -/
  alpha : Bool
  premult : Bool
  /-- The transparency of the whole, and red and blue taken for each other. -/
  opacity : Nat
  swapped : Bool

/-- The format has an alpha channel. -/
def hasAlpha : PixelFormat → Bool
  | .RGBA_8888 | .BGRA_8888 => true
  | _ => false

/-- What a layer asks for. -/
def HwcLayer.drawing (layer : HwcLayer) (handle : NativeHandle) : Drawing where
  buffer := layer.handle
  width := handle.iWidth
  height := handle.iHeight
  pitch := ALIGN handle.iWidth HW_ALIGN * get_format_bpp handle.iFormat / 8
  depth := get_format_bpp handle.iFormat
  crop := .ofRect layer.sourceCrop
  win := .ofRect layer.displayFrame
  orient := layerOrient layer.transform
  alpha := is_BLENDED layer && hasAlpha handle.iFormat
  premult := layer.blending == HWC_BLENDING_PREMULT
  opacity := 255
  swapped := false

/-- The bits of a pixel in a colour mode. -/
def ColorMode.depth : ColorMode → Nat
  | .zero => 0
  | .RGB16 => 16
  | .RGB24U | .ARGB32 => 32
  | .NV12 => 8

/-- What an overlay does with a buffer of a format. The manager exchanges red and blue of its
overlays or not. -/
def Dss2OvlCfg.drawing (cfg : Dss2OvlCfg) (buffer : BufferHandle) (format : PixelFormat)
    (swap_rb : Bool) : Drawing where
  buffer := buffer
  width := cfg.width
  height := cfg.height
  pitch := cfg.stride
  depth := cfg.color_mode.depth
  crop := cfg.crop
  win := cfg.win
  orient := overlayOrient cfg.mirror cfg.rotation
  alpha := cfg.color_mode == .ARGB32
  premult := cfg.pre_mult_alpha
  opacity := cfg.global_alpha
  swapped := cfg.color_mode != .NV12 && swap_rb != is_BGR_format format

/-- The framebuffer, drawn as it is. -/
def HwcDevice.fbDrawing (hwc_dev : HwcDevice) : Drawing where
  buffer := .null
  width := hwc_dev.fb_width
  height := hwc_dev.fb_height
  pitch := ALIGN hwc_dev.fb_width HW_ALIGN * get_format_bpp hwc_dev.fb_format / 8
  depth := get_format_bpp hwc_dev.fb_format
  crop := ⟨0, 0, hwc_dev.fb_width, hwc_dev.fb_height⟩
  win := ⟨0, 0, hwc_dev.fb_width, hwc_dev.fb_height⟩
  orient := id
  alpha := true
  premult := true
  opacity := 255
  swapped := false

/-- A drawing, moved and turned with the primary display. -/
def HwcDevice.moved (hwc_dev : HwcDevice) (d : Drawing) : Drawing :=
  if hwc_dev.primary_transform then
    { d with win := hwc_dev.primary_m d.win, orient := turn^[hwc_dev.primary_rotation] ∘ d.orient }
  else d

/-- The colour mode of a valid format reads its pixels as they are. -/
theorem color_mode_reads {format : PixelFormat} {blended swap_rb : Bool}
    (h : is_valid_format format)
    (horder : format ≠ .TI_NV12 → format ≠ .TI_NV12_1D → swap_rb = is_BGR_format format) :
    ∃ mode, color_mode format blended = some mode ∧ mode.depth = get_format_bpp format ∧
      (mode == .ARGB32) = (blended && hasAlpha format) ∧
      (mode != .NV12 && swap_rb != is_BGR_format format) = false := by
  cases format <;> cases blended <;> simp_all [is_valid_format, color_mode, ColorMode.depth,
    get_format_bpp, hasAlpha, is_BGR_format]

/-- `setup_layer` asks the display for what the layer asks for. -/
theorem setup_layer_drawing {swap_rb : Bool} (h : is_valid_format handle.iFormat)
    (horder : is_NV12 handle = false → swap_rb = is_BGR handle) :
    (setup_layer layer handle 0).drawing layer.handle handle.iFormat swap_rb =
      layer.drawing handle := by
  obtain ⟨mode, hmode, hdepth, halpha, hswap⟩ := @color_mode_reads handle.iFormat
    (is_BLENDED layer) swap_rb h fun h1 h2 => horder (by
      unfold is_NV12
      split <;> simp_all)
  rw [Dss2OvlCfg.drawing, HwcLayer.drawing, setup_layer, setup_layer_base, hmode]
  simp only [hdepth, halpha, hswap, overlayOrient_orientation]

/-- The overlay of the framebuffer draws it as it is, where it has transparency. -/
theorem framebuffer_overlay_drawing {swap_rb : Bool} {fb_z : Int}
    (halpha : hasAlpha hwc_dev.fb_format = true)
    (hswap : swap_rb = is_BGR_format hwc_dev.fb_format) :
    (framebuffer_overlay hwc_dev .zero fb_z).cfg.drawing .null hwc_dev.fb_format swap_rb =
      hwc_dev.fbDrawing := by
  have hvalid : is_valid_format hwc_dev.fb_format := by
    revert halpha
    cases hwc_dev.fb_format <;> decide
  obtain ⟨mode, hmode, hdepth, ha, hs⟩ := @color_mode_reads hwc_dev.fb_format true swap_rb hvalid
    fun _ _ => hswap
  rw [framebuffer_overlay, Dss2OvlCfg.drawing, HwcDevice.fbDrawing, setup_layer_base, hmode]
  simp only [hdepth, ha, hs, halpha]
  rfl

theorem framebuffer_overlay_enabled (halpha : hasAlpha hwc_dev.fb_format = true) :
    (framebuffer_overlay hwc_dev .zero 0).cfg.enabled = true := by
  rw [framebuffer_overlay, setup_layer_base]
  revert halpha
  cases hwc_dev.fb_format <;> simp [hasAlpha, color_mode]

/-- The transform of the primary display moves what `crop_to_rect` leaves of an overlay. -/
theorem primaryCfg_drawing {buffer : BufferHandle} {format : PixelFormat} {swap_rb : Bool}
    {cfg' : Dss2OvlCfg}
    (h : if hwc_dev.primary_transform then crop_to_rect cfg hwc_dev.primary_region = some cfg'
      else cfg' = cfg) :
    (hwc_dev.primaryCfg cfg).drawing buffer format swap_rb =
      hwc_dev.moved (cfg'.drawing buffer format swap_rb) := by
  rw [HwcDevice.primaryCfg, HwcDevice.moved]
  split
  · next ht =>
    rw [if_pos ht] at h
    rw [adjust_primary_display_layer, h, Dss2OvlCfg.drawing, Dss2OvlCfg.drawing]
    simp only [overlayOrient_turnedBy]
  · next ht =>
    rw [if_neg ht] at h
    rw [h]

/-- The crop window, as the display runs through it, is cut in the same proportion as the
window. -/
def Dss2OvlCfg.InProportion (cfg cfg' : Dss2OvlCfg) : Prop :=
  ∀ c, ((cfg'.displayCrop id).xy (xor c (cfg.rotation.testBit 0)) -
        (cfg.displayCrop id).xy (xor c (cfg.rotation.testBit 0))) * (Axes.ofWindow cfg.win).wh c =
      ((Axes.ofWindow cfg'.win).xy c - (Axes.ofWindow cfg.win).xy c) *
        (cfg.displayCrop id).wh (xor c (cfg.rotation.testBit 0)) ∧
    (cfg'.displayCrop id).wh (xor c (cfg.rotation.testBit 0)) * (Axes.ofWindow cfg.win).wh c =
      (Axes.ofWindow cfg'.win).wh c * (cfg.displayCrop id).wh (xor c (cfg.rotation.testBit 0))

/-- Cropping changes the two windows only. -/
theorem crop_to_rect_windows {cfg' : Dss2OvlCfg} {vis : Rect}
    (h : crop_to_rect cfg vis = some cfg') :
    cfg' = { cfg with win := cfg'.win, crop := cfg'.crop } := by
  simp only [crop_to_rect, cropToRect, Option.bind_eq_bind, Option.bind_eq_some_iff] at h
  obtain ⟨a, -, b, -, hb⟩ := h
  cases hb
  rfl

end OmapHal.Hwc
