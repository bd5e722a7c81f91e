import Mathlib.Algebra.Order.Floor.Defs
import Mathlib.Data.Rat.Floor
import OmapHal.Hwc.LayerChecks

/-!
# The choice of an HDMI mode

`set_best_hdmi_mode` scores the modes that a display offers and can be scaled to, and takes the
one of the highest score. Single-precision numbers appear as the rationals that they are, with
their rounding as a parameter.
-/

namespace OmapHal.Hwc

/-- `struct dsscomp_videomode`. -/
structure VideoMode where
  refresh : Nat
  xres : Nat
  yres : Nat
  pixclock : Nat
  /-- `vmode & FB_VMODE_INTERLACED`. -/
  interlaced : Bool
  /-- `vmode & ~FB_VMODE_INTERLACED`. -/
  vmode_other : Bool
  /-- `flag & FB_FLAG_RATIO_4_3`. -/
  ratio_4_3 : Bool
  /-- `flag & FB_FLAG_RATIO_16_9`. -/
  ratio_16_9 : Bool
  deriving DecidableEq, Repr

/-- The answer to `DSSCIOC_QUERY_DISPLAY`, with the list of modes. -/
structure QueryDisplay where
  dis : DisplayInfo
  x_res : Nat
  y_res : Nat
  width_in_mm : Nat
  height_in_mm : Nat
  modedb : List VideoMode
  deriving DecidableEq, Repr

/-- The single-precision arithmetic: each operation rounds its exact result. -/
structure Single where
  round : ℚ → ℚ

namespace Single

variable (fl : Single)

/-- `1.f - ASPECT_RATIO_TOLERANCE`. -/
def tolerance : ℚ := fl.round (1 - fl.round (2 / 100))

/-- `(uint32_t) (factor * size / other + 0.5)`. -/
def resize (factor : ℚ) (size : Nat) (other : ℚ) : Nat :=
  (⌊fl.round (fl.round (factor * fl.round size) / other) + 1 / 2⌋).toNat

end Single

variable (fl : Single)

/-- The largest size of the aspect ratio that fits into the screen. -/
def get_max_dimensions (orig_xres orig_yres : Nat) (xpy : ℚ)
    (scr_xres scr_yres scr_width scr_height : Nat) : Nat × Nat :=
  -- 1:1 pixel ratios if none supplied
  let (scr_width, scr_height) :=
    if scr_width = 0 ∨ scr_height = 0 then (scr_xres, scr_yres) else (scr_width, scr_height)
  let x_factor := fl.round (fl.round (fl.round orig_xres * xpy) * fl.round scr_height)
  let y_factor := fl.round (u32 (orig_yres * scr_width))
  if x_factor < fl.round (y_factor * fl.tolerance) then
    (fl.resize x_factor scr_xres y_factor, scr_yres)
  else if fl.round (x_factor * fl.tolerance) > y_factor then
    (scr_xres, fl.resize y_factor scr_yres x_factor)
  else (scr_xres, scr_yres)

/-- The value of a C condition. -/
def flag (p : Prop) [Decidable p] : Nat := if p then 1 else 0

def add_scaling_score (score xres yres refresh ext_xres ext_yres mode_xres mode_yres
    mode_refresh : Nat) : Nat :=
  let area := u32 (xres * yres)
  let ext_area := u32 (ext_xres * ext_yres)
  let mode_area := u32 (mode_xres * mode_yres)
  -- prefer to upscale, inserted behind the first bit
  let upscale := flag (ext_xres ≥ u32 (xres * 99) / 100 ∧ ext_yres ≥ u32 (yres * 99) / 100)
  let score := u32 (((score &&& 0xFFFFFFFE ||| upscale) <<< 1 : Nat)) ||| score &&& 1
  -- pick minimum scaling
  let score := u32 ((score <<< 5 : Nat)) |||
    if ext_area > area then u32 (16 * area) / ext_area else u32 (16 * ext_area) / area
  -- pick smallest leftover area
  let score := u32 ((score <<< 5 : Nat)) ||| u32 (16 * ext_area + mode_area / 2) / mode_area
  let mode_refresh := u32 (mode_refresh + flag (mode_refresh % 6 = 5))
  -- prefer same or higher frame rate
  let score := u32 ((score <<< 1 : Nat)) ||| flag (mode_refresh ≥ refresh)
  -- pick closest frame rate
  u32 ((score <<< 8 : Nat)) |||
    if mode_refresh > refresh then u32 (240 * refresh) / mode_refresh
    else u32 (240 * mode_refresh) / refresh

/-- The size of the external screen that is stored with a mode. -/
structure ExtScreen where
  width : Nat
  height : Nat
  xres : Nat
  yres : Nat
  deriving DecidableEq, Repr

section Modes

variable (limits : PlatformInfo) (ext : OmapHwcExt) (d : QueryDisplay) (xres yres : Nat) (xpy : ℚ)

def VideoMode.mode_yres (m : VideoMode) : Nat := if m.interlaced then m.yres / 2 else m.yres

/-- `ext_width` and `ext_height` for a mode. -/
def VideoMode.ext_size (m : VideoMode) : Nat × Nat :=
  if m.ratio_4_3 then (4, 3)
  else if m.ratio_16_9 then (16, 9)
  else (d.width_in_mm, d.height_in_mm)

/-- `ext_fb_xres` and `ext_fb_yres` for a mode. -/
def VideoMode.ext_fb (m : VideoMode) : Nat × Nat :=
  get_max_dimensions fl xres yres xpy m.xres m.mode_yres (m.ext_size d).1 (m.ext_size d).2

/-- The mode is not skipped. -/
def VideoMode.eligible (m : VideoMode) : Bool :=
  decide (m.xres ≠ 0 ∧ m.mode_yres ≠ 0 ∧ m.pixclock ≠ 0) && !m.vmode_other &&
    can_scale xres yres (m.ext_fb fl d xres yres xpy).1 (m.ext_fb fl d xres yres xpy).2 true d.dis
      limits (1000000000 / m.pixclock) none

/-- The mode at an index is the one used for mirroring. -/
def sameMode (i : Nat) : Prop := i = 0xFFFFFFFF - ext.mirror_mode ∧ ext.avoid_mode_change = true

instance (i : Nat) : Decidable (sameMode ext i) := inferInstanceAs (Decidable (_ ∧ _))

/-- The score of a mode that is not skipped. -/
def VideoMode.score (m : VideoMode) (i : Nat) : Nat :=
  -- CEA modes first, then the mode used for mirroring
  let score := flag (m.ratio_4_3 = true ∨ m.ratio_16_9 = true)
  let score := u32 ((score <<< 1 : Nat)) ||| flag (sameMode ext i)
  add_scaling_score score xres yres 60 (m.ext_fb fl d xres yres xpy).1
    (m.ext_fb fl d xres yres xpy).2 m.xres m.mode_yres (if m.refresh = 0 then 1 else m.refresh)

/-- The best mode so far, its score, and what `ext` holds of the screen. -/
structure ModeChoice where
  best : Option Nat
  best_score : Nat
  screen : ExtScreen
  deriving DecidableEq, Repr

/-- One turn of the loop over the modes. -/
def chooseMode (choice : ModeChoice) (mode : VideoMode × Nat) : ModeChoice :=
  let (m, i) := mode
  if m.eligible fl limits d xres yres xpy = false then choice
  else
    let score := m.score fl ext d xres yres xpy i
    if choice.best_score < score then
      ⟨some i, score, ⟨(m.ext_size d).1, (m.ext_size d).2, m.xres, m.mode_yres⟩⟩
    else choice

/-- The screen before the loop, with VGA where the display has no resolution. -/
def QueryDisplay.screen : ExtScreen where
  width := d.width_in_mm
  height := d.height_in_mm
  xres := if d.x_res = 0 ∨ d.y_res = 0 then 640 else d.x_res
  yres := if d.x_res = 0 ∨ d.y_res = 0 then 480 else d.y_res

def bestMode : ModeChoice :=
  d.modedb.zipIdx.foldl (chooseMode fl limits ext d xres yres xpy) ⟨none, 0, d.screen⟩

/-- The current timings can be kept: the display has a pixel clock, and scaling reaches it. -/
def keepsTimings : Bool :=
  let ext_fb := get_max_dimensions fl xres yres xpy d.x_res d.y_res d.width_in_mm d.height_in_mm
  decide (d.dis.pixel_clock ≠ 0) &&
    can_scale xres yres ext_fb.1 ext_fb.2 true d.dis limits d.dis.pixel_clock none

end Modes

def EINVAL : Int := 22

/-- What `set_best_hdmi_mode` leaves: its result, the mode that it picked, the mode that it sets up
the display with, and `ext`. -/
structure HdmiOutcome where
  ret : Int
  picked : Option Nat
  setup : Option Nat
  ext : OmapHwcExt
  screen : ExtScreen
  /-- `last_xres_used`, `last_yres_used` and `last_xpy`. -/
  last_used : Nat × Nat × ℚ

/-- `query` is the answer of the display, or the error of the request. -/
def set_best_hdmi_mode (limits : PlatformInfo) (ext : OmapHwcExt) (query : Except Int QueryDisplay)
    (screen : ExtScreen) (last_used : Nat × Nat × ℚ) (xres yres : Nat) (xpy : ℚ) : HdmiOutcome :=
  match query with
  | .error ret => ⟨ret, none, none, ext, screen, last_used⟩
  | .ok d =>
    if u32 (d.x_res * d.y_res) = 0 ∨ u32 (xres * yres) = 0 then
      ⟨-EINVAL, none, none, ext, screen, last_used⟩
    else
      let choice := bestMode fl limits ext d xres yres xpy
      let on_tv := d.dis.digit || ext.on_tv
      match choice.best with
      | some best =>
        -- only reconfigure on change
        let setup := if ext.last_mode ≠ 0xFFFFFFFF - best then some best else none
        ⟨0, some best, setup, { ext with last_mode := 0xFFFFFFFF - best, on_tv }, choice.screen,
          (xres, yres, xpy)⟩
      | none =>
        if keepsTimings fl limits d xres yres xpy then
          ⟨0, none, none, { ext with on_tv }, choice.screen, (xres, yres, xpy)⟩
        else ⟨-1, none, none, ext, choice.screen, last_used⟩

end OmapHal.Hwc
