import OmapHal.Hwc.Layer
import Mathlib.Logic.Function.Basic

/-!
# The composer device

The parts of `omap_hwc_device_t` that deciding, preparing and posting a frame read and
write, down to the overlay configurations handed to the display subsystem. Matrices of
single-precision numbers appear as the map of windows that `apply_transform` computes
with them.
-/

namespace OmapHal.Hwc

/-- A value stored in a `uint32_t`. -/
def u32 (x : Int) : Nat := (x % 4294967296).toNat

theorem u32_of_range {x : Int} (h0 : 0 ≤ x) (h : x < 4294967296) : (u32 x : Int) = x := by
  unfold u32
  omega

def MAX_HW_OVERLAYS : Int := 4
def NUM_NONSCALING_OVERLAYS : Int := 1

/-- `ext_transform_t`. -/
structure ExtTransform where
  rotation : Nat
  hflip : Bool
  enabled : Bool
  docking : Bool
  deriving DecidableEq, Repr

/-- The rectangles of an overlay configuration: `cfg.win` and `cfg.crop`. -/
structure Window where
  x : Int
  y : Int
  w : Int
  h : Int
  deriving DecidableEq, Repr

/-- `omap_hwc_ext_t`. -/
structure OmapHwcExt where
  mirror : ExtTransform
  dock : ExtTransform
  avoid_mode_change : Bool
  force_dock : Bool
  hdmi_state : Bool
  on_tv : Bool
  current : ExtTransform
  last : ExtTransform
  last_mode : Nat
  mirror_mode : Nat
  m : Window → Window
  mirror_region : Rect

/-- `enum bltpolicy`. -/
inductive BltPolicy where
  | disabled
  | default
  | all
  deriving DecidableEq, Repr

/-- `counts_t`. -/
structure Counts where
  possible_overlay_layers : Nat
  composited_layers : Nat
  scaled_layers : Nat
  RGB : Nat
  BGR : Nat
  NV12 : Nat
  dockable : Nat
  protectedLayers : Nat
  max_hw_overlays : Nat
  max_scaling_overlays : Nat
  mem : Nat
  deriving DecidableEq, Repr

/-- `struct dsscomp_platform_info`. -/
structure PlatformInfo where
  max_xdecim_2d : Nat
  max_ydecim_2d : Nat
  max_xdecim_1d : Nat
  max_ydecim_1d : Nat
  max_downscale : Nat
  min_width : Nat
  integer_scale_ratio_limit : Nat
  fclk : Nat
  tiler1d_slot_size : Nat
  /-- `fbmem_type == DSSCOMP_FBMEM_TILER2D`. -/
  fbmem_tiler2d : Bool
  deriving DecidableEq, Repr

/-- `struct dsscomp_display_info`: the channel and the pixel clock. -/
structure DisplayInfo where
  /-- `channel == OMAP_DSS_CHANNEL_DIGIT`. -/
  digit : Bool
  pixel_clock : Nat
  deriving DecidableEq, Repr

/-- `enum omap_color_mode`, as far as used; zero is what `memset` leaves. -/
inductive ColorMode where
  | zero
  | RGB16
  | RGB24U
  | ARGB32
  | NV12
  deriving DecidableEq, Repr

/-- `struct dss2_ovl_cfg`. -/
structure Dss2OvlCfg where
  width : Int
  height : Int
  stride : Int
  color_mode : ColorMode
  pre_mult_alpha : Bool
  global_alpha : Nat
  rotation : Nat
  mirror : Bool
  win : Window
  crop : Window
  ix : Int
  zorder : Int
  enabled : Bool
  mgr_ix : Nat
  deriving DecidableEq, Repr

/-- `enum omapdss_buffer_addressing_type`. -/
inductive BufAddr where
  | direct
  | layerIx
  | ovlIx
  | fb
  | ion
  deriving DecidableEq, Repr

/-- `struct dss2_ovl_info`. -/
structure Dss2OvlInfo where
  cfg : Dss2OvlCfg
  addressing : BufAddr
  ba : Int
  deriving DecidableEq, Repr

/-- The configuration that `memset` leaves. -/
def Dss2OvlCfg.zero : Dss2OvlCfg where
  width := 0
  height := 0
  stride := 0
  color_mode := .zero
  pre_mult_alpha := false
  global_alpha := 0
  rotation := 0
  mirror := false
  win := ⟨0, 0, 0, 0⟩
  crop := ⟨0, 0, 0, 0⟩
  ix := 0
  zorder := 0
  enabled := false
  mgr_ix := 0

def Dss2OvlInfo.zero : Dss2OvlInfo := ⟨.zero, .direct, 0⟩

/-- `struct dsscomp_setup_dispc_data`: the overlay array, of which the first `num_ovls`
entries are in use, and the managers. -/
structure SetupDispcData where
  sync_id : Nat
  ovls : Nat → Dss2OvlInfo
  num_ovls : Nat
  num_mgrs : Nat
  swap_rb : Bool

/-- The zeroed setup. -/
def SetupDispcData.zero : SetupDispcData := ⟨0, fun _ => .zero, 0, 0, false⟩

/-- `omap_hwc_device_t`, with the file-level `limits` and `sync_id`. -/
structure HwcDevice where
  limits : PlatformInfo
  sync_id : Nat
  /-- Format and size of `fb_dev->base`. -/
  fb_format : PixelFormat
  fb_width : Int
  fb_height : Int
  fb_dis : DisplayInfo
  flags_rgb_order : Bool
  flags_nv12_only : Bool
  /-- Whether a size is at least `upscaled_nv12_limit` times another. -/
  reaches_upscaled_nv12_limit : Int → Int → Bool
  on_tv : Bool
  force_sgx : Int
  ext : OmapHwcExt
  idle : Int
  primary_m : Window → Window
  primary_transform : Bool
  primary_rotation : Nat
  primary_region : Rect
  buffers : Nat → BufferHandle
  use_sgx : Bool
  swap_rb : Bool
  post2_layers : Nat
  post2_blit_buffers : Nat
  blit_num : Nat
  ext_ovls : Int
  ext_ovls_wanted : Int
  last_ext_ovls : Int
  last_int_ovls : Int
  blt_policy : BltPolicy
  dsscomp : SetupDispcData
  counts : Counts
  /-- `ion_handles`, zero for null. -/
  ion_handles : Nat → Int

end OmapHal.Hwc
