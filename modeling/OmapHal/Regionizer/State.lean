import OmapHal.Hwc.Layer

/-!
# Regionizer state

`rgz_t` keeps the layers of the current frame and, for each of the `RGZ_NUM_FB`
framebuffers, the layers of the frame last drawn into it. Layer arrays with a count
are lists here. The background layer is first in every non-empty one.
-/

namespace OmapHal.Regionizer

open OmapHal.Hwc

/-- Capacities of the regionizer. -/
def RGZ_MAXLAYERS : Nat := 13
def RGZ_INPUT_MAXLAYERS : Nat := RGZ_MAXLAYERS - 2
def RGZ_SUBREGIONMAX : Nat := 2 * RGZ_MAXLAYERS - 1
def RGZ_MAX_BLITS : Nat := RGZ_SUBREGIONMAX * RGZ_SUBREGIONMAX

/-- Number of framebuffers tracked. -/
abbrev RGZ_NUM_FB : Nat := 2

/-- Buffer indices that mark the background and layers with the clear hint. -/
def RGZ_BACKGROUND_BUFFIDX : Int := -2
def RGZ_CLEARHINT_BUFFIDX : Int := -1

/-- `rgz_layer_t`. -/
structure RgzLayer where
  hwc_layer : HwcLayer
  identity : Nat
  buffidx : Int
  dirty_count : Nat
  deriving DecidableEq, Repr

/-- `rgz_fb_state_t`: the first `rgz_layerno` entries of `rgz_layers`. -/
abbrev FbState := List RgzLayer

/-- `blit_hregion_t`: a band of the screen with its layers and, for each of them, the
rectangle of each subregion or the empty rectangle. -/
structure BlitHregion where
  rect : Rect
  rgz_layers : List RgzLayer
  nsubregions : Nat
  blitrects : List (List Rect)
  deriving DecidableEq, Repr

/-- `struct rgz`. -/
structure Rgz where
  hregions : List BlitHregion
  /-- `RGZ_STATE_INIT`. -/
  stateInit : Bool
  /-- `RGZ_REGION_DATA`. -/
  regionData : Bool
  cur_fb_state : FbState
  fb_state_idx : Fin RGZ_NUM_FB
  fb_states : Fin RGZ_NUM_FB → FbState
  damaged_area : Rect

/-- The all-zero rectangle, which stands for no rectangle. -/
def zeroRect : Rect := ⟨0, 0, 0, 0⟩

/-- `empty_rect`. -/
def empty_rect (r : Rect) : Bool := r.left == 0 && r.top == 0 && r.right == 0 && r.bottom == 0

theorem empty_rect_iff {r : Rect} : empty_rect r ↔ r = zeroRect := by
  cases r
  simp only [empty_rect, zeroRect, Bool.and_eq_true, beq_iff_eq, Core.Box.mk.injEq, and_assoc]

local instance neZeroFb : @NeZero Nat Zero.ofOfNat0 RGZ_NUM_FB := ⟨Nat.succ_ne_zero _⟩

/-- `rgz_release`: the zeroed state. -/
def Rgz.released : Rgz where
  hregions := []
  stateInit := false
  regionData := false
  cur_fb_state := []
  fb_state_idx := 0
  fb_states _ := []
  damaged_area := zeroRect

/-- A layer of the input list with the identity that SurfaceFlinger gives it. -/
structure InLayer where
  layer : HwcLayer
  identity : Nat
  deriving DecidableEq, Repr

/-- `bg_layer`, of the size of the screen. -/
def bg_layer (screen : ScreenGeom) : HwcLayer where
  compositionType := .framebuffer
  hintClearFb := false
  hintTripleBuffer := false
  skip := false
  handle := .null
  transform := 0
  blending := 0
  sourceCrop := zeroRect
  displayFrame := screen.rect

/-- `rgz_add_background_layer`, with its dummy handle. -/
def rgz_background_layer (screen : ScreenGeom) : RgzLayer where
  hwc_layer := { bg_layer screen with handle := .dummy }
  identity := 0
  buffidx := RGZ_BACKGROUND_BUFFIDX
  dirty_count := 0

/-- `is_NV12` and `is_OPAQUE` of the regionizer. -/
def is_NV12 (f : PixelFormat) : Bool := f == .TI_NV12 || f == .TI_NV12_PADDED
def is_OPAQUE (f : PixelFormat) : Bool := f == .RGB_565 || f == .RGBX_8888 || f == .BGRX_8888

/-- `rgz_in_valid_hwc_layer`. -/
def rgz_in_valid_hwc_layer (layer : HwcLayer) : Bool :=
  if layer.skip then false
  else match layer.handle with
    | .null => false
    | .dummy => false
    | .img _ handle =>
      if is_NV12 handle.iFormat then handle.iFormat == .TI_NV12
      else if xor (flipH layer.transform) (flipV layer.transform) then false
      else match handle.iFormat with
        | .BGRX_8888 | .RGBX_8888 | .RGB_565 | .RGBA_8888 | .BGRA_8888 => true
        | _ => false

/-- The variables of the layer loop of `rgz_in_hwccheck`. -/
structure CheckState where
  memidx : Int
  candidates : Nat
  /-- `rgz_layers[1 .. possible_blit]`. -/
  blit : List RgzLayer

/-- The body of that loop. -/
def checkLayer (s : CheckState) (l : InLayer) : CheckState :=
  if l.layer.compositionType = .framebuffer then
    if rgz_in_valid_hwc_layer l.layer ∧ s.blit.length < RGZ_INPUT_MAXLAYERS then
      { memidx := s.memidx + 1
        candidates := s.candidates + 1
        blit := s.blit ++ [⟨l.layer, l.identity, s.memidx, 0⟩] }
    else { s with candidates := s.candidates + 1 }
  else if l.layer.hintClearFb then
    if s.blit.length < RGZ_INPUT_MAXLAYERS then
      -- only the rectangle of such a layer is used
      { s with
        candidates := s.candidates + 1
        blit := s.blit ++
          [⟨{ l.layer with handle := .dummy }, l.identity, RGZ_CLEARHINT_BUFFIDX, 0⟩] }
    else { s with candidates := s.candidates + 1 }
  else s

/-- The number of overlays, whose buffers come first. -/
def overlayCount (layers : List InLayer) : Nat :=
  layers.countP fun l => l.layer.compositionType = .overlay

/-- The layer loop of `rgz_in_hwccheck`. -/
def checkLayers (layers : List InLayer) : CheckState :=
  layers.foldl checkLayer ⟨overlayCount layers, 0, []⟩

/-- The layers that `rgz_in_hwccheck` accepts for the frame, background first. -/
def acceptedLayers (screen : ScreenGeom) (layers : List InLayer) : Option FbState :=
  let s := checkLayers layers
  if s.blit.length = 0 ∨ s.blit.length ≠ s.candidates then none
  else some (rgz_background_layer screen :: s.blit)

/-- A `RGBX_8888` layer of ten by ten pixels with this identity and buffer address, its
top left corner at the point. -/
def sampleLayer (identity address : Nat) (left top : Int) : InLayer where
  layer :=
    { compositionType := .framebuffer
      hintClearFb := false
      hintTripleBuffer := false
      skip := false
      handle := .img address ⟨10, 10, .RGBX_8888, false, false⟩
      transform := 0
      blending := HWC_BLENDING_NONE
      sourceCrop := ⟨0, 0, 10, 10⟩
      displayFrame := ⟨left, top, left + 10, top + 10⟩ }
  identity := identity

/-- The second layer covers a part of the first one. -/
def overlappingLayers : List InLayer := [sampleLayer 1 100 10 10, sampleLayer 2 200 15 15]

end OmapHal.Regionizer
