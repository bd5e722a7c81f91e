import OmapHal.Hwc.LayerChecks

/-!
# Configuring one overlay

How a layer or the framebuffer becomes an overlay configuration, and how a
configuration is cropped and moved to a display. None of the adjustments touches the
pipe, the position in the stack or the manager.
-/

namespace OmapHal.Hwc

/-- The colour mode of a format in `setup_layer_base`. -/
def color_mode (format : PixelFormat) (blended : Bool) : Option ColorMode :=
  match format with
  | .RGBA_8888 | .BGRA_8888 => some (if blended then .ARGB32 else .RGB24U)
  | .RGBX_8888 | .BGRX_8888 => some .RGB24U
  | .RGB_565 => some .RGB16
  | .TI_NV12 | .TI_NV12_1D => some .NV12
  | _ => none

/-- `setup_layer_base`; other formats leave the configuration as it was. -/
def setup_layer_base (oc : Dss2OvlCfg) (index : Int) (format : PixelFormat) (blended : Bool)
    (width height : Int) : Dss2OvlCfg :=
  match color_mode format blended with
  | none => oc
  | some mode =>
    { oc with
      color_mode := mode
      width := width
      height := height
      stride := ALIGN width HW_ALIGN * get_format_bpp format / 8
      enabled := true
      global_alpha := 255
      zorder := index
      ix := 0
      crop := { oc.crop with w := width, h := height }
      win := { oc.win with w := width, h := height } }

/-- The position and size of a rectangle. -/
def Window.ofRect (r : Rect) : Window := ⟨r.left, r.top, WIDTH r, HEIGHT r⟩

/-- The mirroring and the quarter turns that `setup_layer` derives from a transform. -/
def orientation (transform : Nat) : Bool × Nat :=
  let mirror := flipH transform
  let (mirror, rotation) := if flipV transform then (!mirror, 2) else (mirror, 0)
  let rotation := if rot90 transform then (rotation + if mirror then 3 else 1) % 4 else rotation
  (mirror, rotation)

/-- `setup_layer`, on a zeroed overlay. -/
def setup_layer (layer : HwcLayer) (handle : NativeHandle) (index : Int) : Dss2OvlCfg :=
  { setup_layer_base .zero index handle.iFormat (is_BLENDED layer) handle.iWidth handle.iHeight with
    mirror := (orientation layer.transform).1
    rotation := (orientation layer.transform).2
    pre_mult_alpha := layer.blending == HWC_BLENDING_PREMULT
    win := .ofRect layer.displayFrame
    crop := .ofRect layer.sourceCrop }

/-- The position `xy` and the size `wh` of a rectangle, by axis: `false` is horizontal. -/
structure Axes where
  xy : Bool → Int
  wh : Bool → Int

def Axes.ofWindow (w : Window) : Axes :=
  ⟨fun c => if c then w.y else w.x, fun c => if c then w.h else w.w⟩

def Axes.toWindow (a : Axes) : Window := ⟨a.xy false, a.xy true, a.wh false, a.wh true⟩

/-- What an `int` holds of a number. -/
def int32 (x : Int) : Int := (x + 2147483648) % 4294967296 - 2147483648

section

variable (i : Int → Int)

/-- `xy[c] -= (wh[c] = -wh[c])`: the same span from its other end. Of every number `i` is kept. -/
def Axes.reverse (a : Axes) (c : Bool) : Axes :=
  ⟨Function.update a.xy c (i (a.xy c - i (-a.wh c))), Function.update a.wh c (i (-a.wh c))⟩

/-- One axis of `crop_to_rect`: the crop axis `d` goes with the window axis `c`. -/
def cropAxis (lt rb : Int) (c d : Bool) (win crop : Axes) : Option (Axes × Axes) :=
  if win.wh c ≤ 0 ∨ rb ≤ lt ∨ i (win.xy c + win.wh c) ≤ lt ∨ win.xy c ≥ rb ∨ crop.wh d = 0 then
    none
  else
    let (win, crop) :=
      if win.xy c < lt then
        -- correction term
        let a := (i (i (lt - win.xy c) * crop.wh d)).tdiv (win.wh c)
        (Axes.mk (Function.update win.xy c lt)
          (Function.update win.wh c (i (win.wh c - i (lt - win.xy c)))),
         Axes.mk (Function.update crop.xy d (i (crop.xy d + a)))
          (Function.update crop.wh d (i (crop.wh d - a))))
      else (win, crop)
    let (win, crop) :=
      if i (win.xy c + win.wh c) > rb then
        (Axes.mk win.xy (Function.update win.wh c (i (rb - win.xy c))),
         Axes.mk crop.xy (Function.update crop.wh d
          ((i (crop.wh d * i (rb - win.xy c))).tdiv (win.wh c))))
      else (win, crop)
    if crop.wh d = 0 ∨ win.wh c = 0 then none else some (win, crop)

/-- The crop window in display coordinates. -/
def Dss2OvlCfg.displayCrop (cfg : Dss2OvlCfg) : Axes :=
  let swap := cfg.rotation.testBit 0
  let half := cfg.rotation.testBit 1
  let flipped := xor (!cfg.mirror) (!half)
  let crop := Axes.ofWindow cfg.crop
  let crop := if swap then crop.reverse i true else crop
  let crop := if half then crop.reverse i (!swap) else crop
  if flipped then crop.reverse i swap else crop

/-- A crop window in display coordinates, in those of the buffer. -/
def Dss2OvlCfg.bufferCrop (cfg : Dss2OvlCfg) (crop : Axes) : Axes :=
  let swap := cfg.rotation.testBit 0
  let half := cfg.rotation.testBit 1
  let flipped := xor (!cfg.mirror) (!half)
  let crop := if half then crop.reverse i (!swap) else crop
  let crop := if flipped then crop.reverse i swap else crop
  if swap then crop.reverse i true else crop

/-- `crop_to_rect` with numbers of which `i` is kept. -/
def cropToRect (cfg : Dss2OvlCfg) (vis : Rect) : Option Dss2OvlCfg := do
  let swap := cfg.rotation.testBit 0
  let (win, crop) ←
    cropAxis i vis.left vis.right false swap (.ofWindow cfg.win) (cfg.displayCrop i)
  let (win, crop) ← cropAxis i vis.top vis.bottom true (!swap) win crop
  return { cfg with win := win.toWindow, crop := (cfg.bufferCrop i crop).toWindow }

end

/-- `crop_to_rect`; nothing is written when it fails. -/
def crop_to_rect : Dss2OvlCfg → Rect → Option Dss2OvlCfg := cropToRect int32

/-- The rotation of an overlay combined with that of its display. -/
def turnedBy (cfg : Dss2OvlCfg) (rotation : Nat) : Nat :=
  (cfg.rotation + if cfg.mirror then 3 * rotation else rotation) % 4

/-- `adjust_ext_layer`. -/
def adjust_ext_layer (ext : OmapHwcExt) (cfg : Dss2OvlCfg) : Dss2OvlCfg :=
  -- crop to the clone region if mirroring
  match if ext.current.docking then some cfg else crop_to_rect cfg ext.mirror_region with
  | none => { cfg with enabled := false }
  | some cfg =>
    { cfg with
      win := ext.m cfg.win
      rotation := turnedBy cfg ext.current.rotation
      mirror := if ext.current.hflip then !cfg.mirror else cfg.mirror }

/-- `adjust_primary_display_layer`. -/
def adjust_primary_display_layer (hwc_dev : HwcDevice) (cfg : Dss2OvlCfg) : Dss2OvlCfg :=
  match crop_to_rect cfg hwc_dev.primary_region with
  | none => { cfg with enabled := false }
  | some cfg =>
    { cfg with
      win := hwc_dev.primary_m cfg.win
      rotation := turnedBy cfg hwc_dev.primary_rotation }

/-- Two configurations on the same pipe, at the same height and on the same manager. -/
structure SamePlace (c c' : Dss2OvlCfg) : Prop where
  ix : c'.ix = c.ix
  zorder : c'.zorder = c.zorder
  mgr_ix : c'.mgr_ix = c.mgr_ix

theorem SamePlace.refl (c : Dss2OvlCfg) : SamePlace c c := ⟨rfl, rfl, rfl⟩

theorem crop_to_rect_samePlace {cfg cfg' : Dss2OvlCfg} {vis : Rect}
    (h : crop_to_rect cfg vis = some cfg') : SamePlace cfg cfg' := by
  unfold crop_to_rect cropToRect at h
  simp only [Option.bind_eq_bind, Option.bind_eq_some_iff] at h
  obtain ⟨a, -, b, -, hb⟩ := h
  cases hb
  exact ⟨rfl, rfl, rfl⟩

theorem adjust_ext_layer_samePlace (ext : OmapHwcExt) (cfg : Dss2OvlCfg) :
    SamePlace cfg (adjust_ext_layer ext cfg) := by
  unfold adjust_ext_layer
  split
  · exact ⟨rfl, rfl, rfl⟩
  · rename_i cfg' h
    split at h
    · cases h
      exact ⟨rfl, rfl, rfl⟩
    · obtain ⟨hix, hz, hmgr⟩ := crop_to_rect_samePlace h
      exact ⟨hix, hz, hmgr⟩

theorem adjust_primary_display_layer_samePlace (hwc_dev : HwcDevice) (cfg : Dss2OvlCfg) :
    SamePlace cfg (adjust_primary_display_layer hwc_dev cfg) := by
  unfold adjust_primary_display_layer
  split
  · exact ⟨rfl, rfl, rfl⟩
  · rename_i cfg' h
    obtain ⟨hix, hz, hmgr⟩ := crop_to_rect_samePlace h
    exact ⟨hix, hz, hmgr⟩

/-- A layer with a valid format is placed where `setup_layer` is told. -/
theorem setup_layer_zorder {layer : HwcLayer} {handle : NativeHandle} {index : Int}
    (h : is_valid_format handle.iFormat) :
    (setup_layer layer handle index).zorder = index := by
  unfold setup_layer setup_layer_base color_mode
  unfold is_valid_format at h
  split at h <;> simp_all

/-- `setup_layer` leaves the overlay on the first manager. -/
theorem setup_layer_mgr_ix (layer : HwcLayer) (handle : NativeHandle) (index : Int) :
    (setup_layer layer handle index).mgr_ix = 0 := by
  unfold setup_layer setup_layer_base
  cases color_mode handle.iFormat (is_BLENDED layer) <;> rfl

end OmapHal.Hwc
