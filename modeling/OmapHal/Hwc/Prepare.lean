import OmapHal.Hwc.Overlay

/-!
# Preparing a frame

Before any pipe is set up, the composer counts what the layers need, reserves overlays
for the external display, and decides whether the display subsystem renders everything. Then
`hwc_prepare` goes on stage by stage.
-/

namespace OmapHal.Hwc

/-- `memset(num, 0, sizeof(*num))`. -/
def Counts.zero : Counts := ⟨0, 0, 0, 0, 0, 0, 0, 0, 0, 0, 0⟩

/-- One valid layer in `gather_layer_statistics`. -/
def Counts.add (num : Counts) (hwc_dev : HwcDevice) (layer : HwcLayer) (handle : NativeHandle) :
    Counts :=
  let count (b : Bool) (n : Nat) : Nat := if b then n + 1 else n
  { num with
    possible_overlay_layers := num.possible_overlay_layers + 1
    -- NV12 layers can only be rendered on scaling overlays
    scaled_layers :=
      count (scaled layer || is_NV12 handle || hwc_dev.primary_transform) num.scaled_layers
    BGR := count (is_BGR handle) num.BGR
    RGB := count (!is_BGR handle && is_RGB handle) num.RGB
    NV12 := count (!is_BGR handle && !is_RGB handle && is_NV12 handle) num.NV12
    dockable := count (Hwc.dockable handle) num.dockable
    protectedLayers := count (is_protected handle) num.protectedLayers
    mem := u32 (num.mem + mem1d handle) }

/-- One round of the loop in `gather_layer_statistics`. -/
def Counts.visit (hwc_dev : HwcDevice) (num : Counts) (layer : HwcLayer) : Counts :=
  match validBuffer? hwc_dev layer with
  | some handle => num.add hwc_dev layer handle
  | none => num

/-- The counts of a list. -/
def countLayers (hwc_dev : HwcDevice) (layers : List HwcLayer) : Counts :=
  layers.foldl (Counts.visit hwc_dev) { Counts.zero with composited_layers := layers.length }

/-- `gather_layer_statistics`; every layer starts out as a framebuffer layer. -/
def gather_layer_statistics (hwc_dev : HwcDevice) (layers : List HwcLayer) :
    HwcDevice × List HwcLayer :=
  ({ hwc_dev with counts := countLayers hwc_dev layers },
    layers.map fun layer => { layer with compositionType := .framebuffer })

/-- What the first part of `decide_supported_cloning` settles. -/
structure CloningPlan where
  ext_ovls : Int
  max_hw_overlays : Nat
  nonscaling_ovls : Int
  current : ExtTransform

/-- The three cases of `decide_supported_cloning`: docking, mirroring, neither. -/
def chooseCloning (hwc_dev : HwcDevice) : CloningPlan :=
  let ext := hwc_dev.ext
  let docks := hwc_dev.counts.dockable != 0 || ext.force_dock
  if ext.dock.enabled && !(ext.mirror.enabled && !docks) then
    -- reserve just a video pipeline for HDMI if docking
    let ext_ovls : Int := if docks then 1 else 0
    { ext_ovls := ext_ovls
      max_hw_overlays := u32 (MAX_HW_OVERLAYS - max ext_ovls hwc_dev.last_ext_ovls)
      nonscaling_ovls := NUM_NONSCALING_OVERLAYS
      -- the mirroring transform, if docking is switched on while mirroring
      current := if ext.mirror.enabled then { ext.mirror with docking := true } else ext.dock }
  else if ext.mirror.enabled then
    -- manage from half the pipelines
    { ext_ovls := MAX_HW_OVERLAYS - MAX_HW_OVERLAYS / 2
      max_hw_overlays := u32 (MAX_HW_OVERLAYS / 2)
      nonscaling_ovls := NUM_NONSCALING_OVERLAYS / 2
      current := ext.mirror }
  else
    { ext_ovls := 0
      max_hw_overlays := u32 (MAX_HW_OVERLAYS - hwc_dev.last_ext_ovls)
      nonscaling_ovls := NUM_NONSCALING_OVERLAYS
      current := { ext.current with enabled := false } }

/-- `decide_supported_cloning`. -/
def decide_supported_cloning (hwc_dev : HwcDevice) : HwcDevice :=
  let num := hwc_dev.counts
  let plan := chooseCloning hwc_dev
  -- the overlays may still be in use by the internal display in this frame
  let ext_ovls := min (MAX_HW_OVERLAYS - hwc_dev.last_int_ovls) plan.ext_ovls
  let max_hw_overlays :=
    if num.protectedLayers = 0 ∧ ext_ovls ≠ 0 ∧ plan.current.enabled ∧ ¬plan.current.docking then
      u32 ext_ovls
    else plan.max_hw_overlays
  -- without its own resolution the framebuffer does not use the GFX pipe
  let (max_hw_overlays, max_scaling_overlays) :=
    if hwc_dev.primary_transform then
      (u32 (max_hw_overlays - NUM_NONSCALING_OVERLAYS),
       u32 (max_hw_overlays - NUM_NONSCALING_OVERLAYS))
    else (max_hw_overlays, u32 (max_hw_overlays - plan.nonscaling_ovls))
  { hwc_dev with
    counts :=
      { num with max_hw_overlays := max_hw_overlays, max_scaling_overlays := max_scaling_overlays }
    ext := { hwc_dev.ext with current := plan.current }
    ext_ovls_wanted := plan.ext_ovls
    ext_ovls := ext_ovls }

/-- `can_dss_render_all`. -/
def can_dss_render_all (hwc_dev : HwcDevice) : Bool :=
  let ext := hwc_dev.ext
  let num := hwc_dev.counts
  let on_tv := hwc_dev.on_tv || (ext.on_tv && ext.current.enabled)
  let tform := ext.current.enabled && (ext.current.rotation != 0 || ext.current.hflip)
  hwc_dev.force_sgx == 0 &&
    num.possible_overlay_layers != 0 &&
    decide (num.possible_overlay_layers ≤ num.max_hw_overlays) &&
    num.possible_overlay_layers == num.composited_layers &&
    decide (num.scaled_layers ≤ num.max_scaling_overlays) &&
    decide (num.NV12 ≤ num.max_scaling_overlays) &&
    decide (num.mem ≤ hwc_dev.limits.tiler1d_slot_size) &&
    -- non-NV12 transformed layers cannot be cloned
    (!tform || num.NV12 == num.possible_overlay_layers || (num.NV12 != 0 && ext.current.docking)) &&
    -- HDMI cannot display BGR
    (num.BGR == 0 || (num.RGB == 0 && !on_tv) || !hwc_dev.flags_rgb_order) &&
    (!hwc_dev.flags_nv12_only || (num.BGR == 0 && num.RGB == 0))

/-- The layer is shown on the external display as well. -/
def cloning (hwc_dev : HwcDevice) (handle : NativeHandle) : Bool :=
  hwc_dev.ext.current.enabled && (!hwc_dev.ext.current.docking || dockable handle)

/-- `can_dss_render_layer`, on a layer with a buffer. -/
def can_dss_render_layer (hwc_dev : HwcDevice) (layer : HwcLayer) (handle : NativeHandle) : Bool :=
  let ext := hwc_dev.ext
  let on_tv := hwc_dev.on_tv || (ext.on_tv && cloning hwc_dev handle)
  let tform := cloning hwc_dev handle && (ext.current.rotation != 0 || ext.current.hflip)
  is_valid_layer hwc_dev layer handle &&
    -- cannot rotate non-NV12 layers on external display
    (!tform || is_NV12 handle) &&
    -- skip non-NV12 layers if also using SGX (if nv12_only flag is set)
    (!hwc_dev.flags_nv12_only || (!hwc_dev.use_sgx || is_NV12 handle)) &&
    -- make sure RGB ordering is consistent (if rgb_order flag is set)
    (!(if hwc_dev.swap_rb then is_RGB handle else is_BGR handle) || !hwc_dev.flags_rgb_order) &&
    -- TV can only render RGB
    !(on_tv && is_BGR handle)

/-!
## Preparing a frame

`hwc_prepare`, stage by stage: choose the compositor, try to blit everything, give
overlays to layers, blit what is left, place the framebuffer, clone for the external
display. What the kernel, SurfaceFlinger and the blitter answer during one call is a
parameter.
-/

/-- A mode that `set_best_hdmi_mode` has set up. -/
structure HdmiMode where
  last_mode : Nat
  /-- `d.dis.channel == OMAP_DSS_CHANNEL_DIGIT`. -/
  digit : Bool
  deriving DecidableEq, Repr

/-- The answers to one call of `hwc_prepare`. -/
structure PrepareEnv where
  /-- What SurfaceFlinger and the regionizer make of the list in `blit_layers`: nothing,
  or the number of blits and the buffers they use. -/
  blits : List HwcLayer → Option (Nat × List BufferHandle)
  /-- The resolution or pixel ratio of an overlay asks for another HDMI mode. -/
  hdmi_mode_differs : OmapHwcExt → Dss2OvlCfg → Bool
  /-- `set_best_hdmi_mode`. -/
  best_hdmi_mode : Option HdmiMode
  /-- `set_ext_matrix`. -/
  ext_matrix : OmapHwcExt → Rect → Window → Window
  /-- Width, height and `rowbytes` of the dock image. -/
  dock_width : Int
  dock_height : Int
  dock_rowbytes : Int

/-- The choice of the compositor, "phase 3 logic". -/
def choose_compositor (hwc_dev : HwcDevice) : HwcDevice :=
  let all := can_dss_render_all hwc_dev
  { hwc_dev with
    use_sgx := !all
    swap_rb := if all then hwc_dev.counts.BGR != 0 else is_BGR_format hwc_dev.fb_format }

/-- `blit_reset`. -/
def blit_reset (hwc_dev : HwcDevice) : HwcDevice :=
  { hwc_dev with blit_num := 0, post2_blit_buffers := 0 }

/-- What `blit_layers` leaves of a layer. -/
def markBlitted (layer : HwcLayer) : HwcLayer :=
  { layer with
    compositionType := .overlay
    hintTripleBuffer := layer.hintTripleBuffer && layer.compositionType == .overlay
    hintClearFb := false }

/-- `blit_layers`. -/
def blit_layers (env : PrepareEnv) (hwc_dev : HwcDevice) (list : Option (List HwcLayer))
    (bufoff : Nat) : Option (HwcDevice × List HwcLayer) :=
  match list with
  | none => none
  | some layers =>
    if hwc_dev.ext.mirror.enabled then none
    else
      match env.blits layers with
      | none => none
      | some (blit_num, hndls) =>
        some ({ hwc_dev with
            blit_num := blit_num
            post2_blit_buffers := hndls.length
            buffers := fun i =>
              if bufoff ≤ i ∧ i < bufoff + hndls.length then hndls.getD (i - bufoff) .null
              else hwc_dev.buffers i },
          layers.map markBlitted)

/-- The locals of the loop that gives overlays to layers, and the layers it has visited. -/
structure Pipes where
  ovls : Nat → Dss2OvlInfo
  num_ovls : Nat
  buffers : Nat → BufferHandle
  mem_used : Nat
  z : Int
  fb_z : Int
  scaled_gfx : Bool
  ix_docking : Int
  visited : List HwcLayer
  /-- Which layer of the list an overlay was set up from; the code keeps no such record. -/
  source : Nat → Nat

/-- The loop's beginning; the first overlay is left to a framebuffer. -/
def Pipes.start (hwc_dev : HwcDevice) (needs_fb : Bool) : Pipes where
  ovls _ := .zero
  num_ovls := if needs_fb then 1 else 0
  buffers := hwc_dev.buffers
  mem_used := 0
  z := 0
  fb_z := -1
  scaled_gfx := false
  ix_docking := -1
  visited := []
  source _ := 0

/-- The condition under which a layer is rendered via an overlay. -/
def takes_overlay (hwc_dev : HwcDevice) (p : Pipes) (layer : HwcLayer) (handle : NativeHandle) :
    Bool :=
  decide (p.num_ovls < hwc_dev.counts.max_hw_overlays) &&
    can_dss_render_layer hwc_dev layer handle &&
    (hwc_dev.force_sgx == 0 ||
      -- render protected and dockable layers via DSS
      is_protected handle ||
      is_upscaled_NV12 hwc_dev layer handle ||
      (hwc_dev.ext.current.docking && hwc_dev.ext.current.enabled && dockable handle)) &&
    decide (u32 (p.mem_used + mem1d handle) ≤ hwc_dev.limits.tiler1d_slot_size) &&
    -- no transparent overlay in the middle of the framebuffer stack
    !(is_BLENDED layer && decide (p.fb_z ≥ 0))

/-- Change the configuration of one overlay. -/
def editCfg (ovls : Nat → Dss2OvlInfo) (k : Nat) (f : Dss2OvlCfg → Dss2OvlCfg) :
    Nat → Dss2OvlInfo :=
  Function.update ovls k { ovls k with cfg := f (ovls k).cfg }

def setIx (ix : Int) (cfg : Dss2OvlCfg) : Dss2OvlCfg := { cfg with ix := ix }

def lowerZ (cfg : Dss2OvlCfg) : Dss2OvlCfg := { cfg with zorder := cfg.zorder - 1 }

/-- `display_area`. -/
def display_area (o : Dss2OvlInfo) : Int := o.cfg.win.w * o.cfg.win.h

/-- Render a layer via the next overlay. -/
def Pipes.add_overlay (hwc_dev : HwcDevice) (p : Pipes) (layer : HwcLayer) (handle : NativeHandle) :
    Pipes :=
  let n := p.num_ovls
  let cfg := setIx (n + hwc_dev.primary_transform.toNat) (setup_layer layer handle p.z)
  let ovls := Function.update p.ovls n ⟨cfg, .layerIx, n⟩
  let scales := scaled layer || is_NV12 handle
  -- ensure the GFX layer is never scaled
  let (ovls, scaled_gfx) :=
    if n = 0 ∧ ¬hwc_dev.primary_transform then (ovls, scales)
    else if p.scaled_gfx && !scales then (editCfg (editCfg ovls n (setIx 0)) 0 (setIx n), false)
    else (ovls, p.scaled_gfx)
  { ovls := ovls
    num_ovls := n + 1
    buffers := Function.update p.buffers n layer.handle
    mem_used := u32 (p.mem_used + mem1d handle)
    z := p.z + 1
    fb_z := p.fb_z
    scaled_gfx := scaled_gfx
    -- remember the largest dockable layer
    ix_docking :=
      if dockable handle ∧ (p.ix_docking < 0 ∨
          display_area (ovls n) > display_area (ovls p.ix_docking.toNat)) then n
      else p.ix_docking
    visited := p.visited ++ [{ layer with
      compositionType := .overlay
      hintTripleBuffer := true
      -- clear the framebuffer above all opaque layers if rendering via SGX
      hintClearFb := layer.hintClearFb || (hwc_dev.use_sgx && !is_BLENDED layer) }]
    source := Function.update p.source n p.visited.length }

/-- `n` rounds of lowering the overlay behind the framebuffer. -/
def lower_overlays : Nat → (Nat → Dss2OvlInfo) → Int → (Nat → Dss2OvlInfo) × Int
  | 0, ovls, fb_z => (ovls, fb_z)
  | n + 1, ovls, fb_z => lower_overlays n (editCfg ovls (1 + fb_z).toNat lowerZ) (fb_z + 1)

/-- Leave a layer to the framebuffer. -/
def Pipes.leave (hwc_dev : HwcDevice) (p : Pipes) (layer : HwcLayer) : Pipes :=
  if hwc_dev.use_sgx then
    if p.fb_z < 0 then
      { p with fb_z := p.z, z := p.z + 1, visited := p.visited ++ [layer] }
    else
      -- move fb z-order up (by lowering dss layers), `while (fb_z < z - 1)`
      let (ovls, fb_z) := lower_overlays (p.z - 1 - p.fb_z).toNat p.ovls p.fb_z
      { p with ovls := ovls, fb_z := fb_z, visited := p.visited ++ [layer] }
  else { p with visited := p.visited ++ [layer] }

/-- One layer of the list. -/
def Pipes.visit (hwc_dev : HwcDevice) (p : Pipes) (layer : HwcLayer) : Pipes :=
  match layer.handle.deref?.filter (takes_overlay hwc_dev p layer) with
  | some handle => p.add_overlay hwc_dev layer handle
  | none => p.leave hwc_dev layer

/-- The loop over the list. -/
def setup_pipes (hwc_dev : HwcDevice) (needs_fb : Bool) (layers : List HwcLayer) : Pipes :=
  layers.foldl (Pipes.visit hwc_dev) (.start hwc_dev needs_fb)

/-- A frame between the stages of `hwc_prepare`. -/
structure Frame where
  hwc_dev : HwcDevice
  list : Option (List HwcLayer)
  needs_fb : Bool
  z : Int
  fb_z : Int
  ix_docking : Int
  /-- Which layer an overlay was set up from, and which layers were given to the blitter. -/
  source : Nat → Nat
  blitted : Nat → Bool

def HwcDevice.setDsscomp (hwc_dev : HwcDevice) (ovls : Nat → Dss2OvlInfo) (num_ovls : Nat) :
    HwcDevice :=
  { hwc_dev with dsscomp := { hwc_dev.dsscomp with ovls := ovls, num_ovls := num_ovls } }

/-- Everything is blitted: no layer has an overlay. -/
def blitFrame (hwc_dev : HwcDevice) (layers : List HwcLayer) : Frame where
  hwc_dev := { hwc_dev with use_sgx := false, swap_rb := false }.setDsscomp (fun _ => .zero) 1
  list := some layers
  needs_fb := true
  z := 0
  fb_z := -1
  ix_docking := -1
  source _ := 0
  blitted i := decide (i < layers.length)

/-- The overlays given out by the loop; a scaled GFX layer gets a VID pipe at its end. -/
def overlayFrame (hwc_dev : HwcDevice) (list : Option (List HwcLayer)) : Frame :=
  let p := setup_pipes hwc_dev hwc_dev.use_sgx (list.getD [])
  { hwc_dev := { hwc_dev with buffers := p.buffers }.setDsscomp
      (if p.scaled_gfx then editCfg p.ovls 0 (setIx p.num_ovls) else p.ovls) p.num_ovls
    list := list.map fun _ => p.visited
    needs_fb := hwc_dev.use_sgx
    z := p.z
    fb_z := p.fb_z
    ix_docking := p.ix_docking
    source := p.source
    blitted _ := false }

/-- Both ways of using overlays: `BLTPOLICY_ALL` tries to blit everything first. -/
def setup_overlays (env : PrepareEnv) (hwc_dev : HwcDevice) (list : Option (List HwcLayer)) :
    Frame :=
  if hwc_dev.blt_policy = .all then
    match blit_layers env hwc_dev list 0 with
    | some (hwc_dev, layers) => blitFrame hwc_dev layers
    | none => overlayFrame hwc_dev list
  else overlayFrame hwc_dev list

/-- `BLTPOLICY_DEFAULT` blits the layers that have no overlay. -/
def blit_rest (env : PrepareEnv) (f : Frame) : Frame :=
  if f.hwc_dev.blt_policy = .default ∧ f.hwc_dev.use_sgx then
    match blit_layers env f.hwc_dev f.list
        (if f.hwc_dev.dsscomp.num_ovls = 1 then 0 else f.hwc_dev.dsscomp.num_ovls) with
    | some (hwc_dev, layers) =>
      { f with
        hwc_dev := { hwc_dev with use_sgx := false }
        list := some layers
        blitted := fun i => (f.list.getD [])[i]?.any fun layer =>
          layer.compositionType != .overlay }
    | none => f
  else f

/-- The overlay of the framebuffer. -/
def framebuffer_overlay (hwc_dev : HwcDevice) (o : Dss2OvlInfo) (fb_z : Int) : Dss2OvlInfo where
  cfg :=
    { setup_layer_base o.cfg fb_z hwc_dev.fb_format true hwc_dev.fb_width hwc_dev.fb_height with
    pre_mult_alpha := true
    ix := hwc_dev.primary_transform.toNat }
  addressing := .layerIx
  ba := 0

/-- Set up the framebuffer, above everything else if it has no place yet. -/
def setup_framebuffer (f : Frame) : Frame :=
  if f.needs_fb then
    let fb_z := if f.fb_z < 0 then f.z else f.fb_z
    let dsscomp := f.hwc_dev.dsscomp
    let ovls := Function.update dsscomp.ovls 0 (framebuffer_overlay f.hwc_dev (dsscomp.ovls 0) fb_z)
    { f with
      hwc_dev := { f.hwc_dev with
        buffers := if f.hwc_dev.use_sgx then Function.update f.hwc_dev.buffers 0 .null
          else f.hwc_dev.buffers }.setDsscomp ovls dsscomp.num_ovls
      z := if f.fb_z < 0 then f.z + 1 else f.z
      fb_z := fb_z }
  else f

/-- `clone_layer`, unless all overlays are in use. -/
def clone_layer (hwc_dev : HwcDevice) (ix : Nat) : Option HwcDevice :=
  let dsscomp := hwc_dev.dsscomp
  if (dsscomp.num_ovls : Int) ≥ MAX_HW_OVERLAYS then none
  else
    let ext_ovl_ix : Int := dsscomp.num_ovls - hwc_dev.post2_layers
    let o := dsscomp.ovls ix
    let handle := hwc_dev.ion_handles (hwc_dev.sync_id % 2)
    let cfg := { o.cfg with
      -- reserve overlays at end for other display
      ix := MAX_HW_OVERLAYS - 1 - ext_ovl_ix
      mgr_ix := 1
      -- use distinct z values
      zorder := o.cfg.zorder + hwc_dev.post2_layers }
    let o : Dss2OvlInfo :=
      if ix = 0 ∧ handle ≠ 0 ∧ hwc_dev.use_sgx then
        ⟨adjust_ext_layer hwc_dev.ext cfg, .ion, handle⟩
      else ⟨adjust_ext_layer hwc_dev.ext cfg, .ovlIx, ix⟩
    some (hwc_dev.setDsscomp (Function.update dsscomp.ovls dsscomp.num_ovls o)
      (dsscomp.num_ovls + 1))

/-- The effect of a mode set up by `set_best_hdmi_mode`. -/
def OmapHwcExt.withMode (ext : OmapHwcExt) (mode : HdmiMode) : OmapHwcExt :=
  { ext with last_mode := mode.last_mode, on_tv := ext.on_tv || mode.digit }

/-- The rectangle that a window covers. -/
def Window.toRect (w : Window) : Rect := ⟨w.x, w.y, w.x + w.w, w.y + w.h⟩

/-- `clone_external_layer`, and whether it succeeds. -/
def clone_external_layer (env : PrepareEnv) (hwc_dev : HwcDevice) (ix : Nat) : HwcDevice × Bool :=
  let cfg := (hwc_dev.dsscomp.ovls ix).cfg
  -- adjust the HDMI mode to the resolution
  let ext := if env.hdmi_mode_differs hwc_dev.ext cfg then
      env.best_hdmi_mode.map hwc_dev.ext.withMode
    else some hwc_dev.ext
  match ext with
  | none =>
    ({ hwc_dev with ext := { hwc_dev.ext with
        current := { hwc_dev.ext.current with enabled := false } } }, false)
  | some ext =>
    let hwc_dev := { hwc_dev with ext := { ext with m := env.ext_matrix ext cfg.win.toRect } }
    match clone_layer hwc_dev ix with
    | none => (hwc_dev, false)
    | some hwc_dev => (hwc_dev, true)

/-- `setup_mirroring`, unless it fails. -/
def setup_mirroring (env : PrepareEnv) (hwc_dev : HwcDevice) : Option HwcDevice :=
  match env.best_hdmi_mode with
  | none => none
  | some mode =>
    let ext := hwc_dev.ext.withMode mode
    some { hwc_dev with ext := { ext with m := env.ext_matrix ext ext.mirror_region } }

/-- Clone the layers from `ix` on, up to the first failure. -/
def clone_layers : Nat → Nat → HwcDevice → HwcDevice
  | 0, _, hwc_dev => hwc_dev
  | n + 1, ix, hwc_dev =>
    match clone_layer hwc_dev ix with
    | none => hwc_dev
    | some hwc_dev => clone_layers n (ix + 1) hwc_dev

/-- The overlays reserved for the external display are to be used in this frame. -/
def clones_now (hwc_dev : HwcDevice) : Bool :=
  hwc_dev.ext.current.enabled &&
    ((hwc_dev.counts.protectedLayers == 0 && hwc_dev.ext_ovls != 0) ||
      (hwc_dev.ext_ovls_wanted != 0 && decide (hwc_dev.ext_ovls ≥ hwc_dev.ext_ovls_wanted)))

/-- The overlay that shows the dock image. -/
def dock_image_overlay (env : PrepareEnv) (o : Dss2OvlInfo) : Dss2OvlInfo :=
  { o with cfg :=
      { setup_layer_base o.cfg 0 .BGRA_8888 true env.dock_width env.dock_height with
        stride := env.dock_rowbytes } }

/-- Clone the largest dockable layer, at its own height. -/
def clone_docked_layer (env : PrepareEnv) (hwc_dev : HwcDevice) (ix_docking : Nat) (z : Int) :
    HwcDevice :=
  match clone_external_layer env hwc_dev ix_docking with
  | (d, true) =>
    d.setDsscomp (editCfg d.dsscomp.ovls hwc_dev.dsscomp.num_ovls fun cfg =>
    { cfg with zorder := z })
      d.dsscomp.num_ovls
  | (d, false) => d

/-- Show the dock image. -/
def clone_dock_image (env : PrepareEnv) (hwc_dev : HwcDevice) : HwcDevice :=
  let ix := hwc_dev.dsscomp.num_ovls
  let ovls := Function.update hwc_dev.dsscomp.ovls ix
    (dock_image_overlay env (hwc_dev.dsscomp.ovls ix))
  match clone_external_layer env (hwc_dev.setDsscomp ovls ix) ix with
  | (d, true) =>
    d.setDsscomp (Function.update d.dsscomp.ovls ix
      { d.dsscomp.ovls ix with addressing := .fb, ba := 0 }) d.dsscomp.num_ovls
  | (d, false) => d

/-- Mirror all layers, after resetting the mode if it was one for docking. -/
def mirror_layers (env : PrepareEnv) (hwc_dev : HwcDevice) : HwcDevice :=
  match if hwc_dev.ext.last.docking then setup_mirroring env hwc_dev else some hwc_dev with
  | none => hwc_dev
  | some d => clone_layers d.post2_layers 0 d

/-- Give overlays to the external display. -/
def clone_for_external (env : PrepareEnv) (f : Frame) : HwcDevice :=
  let hwc_dev := { f.hwc_dev with post2_layers := f.hwc_dev.dsscomp.num_ovls }
  if clones_now hwc_dev then
    if hwc_dev.ext.current.docking ∧ f.ix_docking ≥ 0 then
      clone_docked_layer env hwc_dev f.ix_docking.toNat f.z
    else if hwc_dev.ext.current.docking ∧ hwc_dev.ext.force_dock then clone_dock_image env hwc_dev
    else if ¬hwc_dev.ext.current.docking then mirror_layers env hwc_dev
    else hwc_dev
  else hwc_dev

/-- Apply the transform of the primary display to its overlays. -/
def transform_primary (hwc_dev : HwcDevice) : HwcDevice :=
  if hwc_dev.primary_transform then
    hwc_dev.setDsscomp (fun i =>
      let o := hwc_dev.dsscomp.ovls i
      if i < hwc_dev.dsscomp.num_ovls ∧ o.cfg.mgr_ix = 0 then
        { o with cfg := adjust_primary_display_layer hwc_dev o.cfg }
      else o) hwc_dev.dsscomp.num_ovls
  else hwc_dev

/-- The end of `hwc_prepare`: managers, the overlays used externally, and nothing at all
while the mode of the display is being changed. -/
def finish_setup (hwc_dev : HwcDevice) : HwcDevice :=
  let ext := { hwc_dev.ext with last := hwc_dev.ext.current }
  let external := ext.current.enabled || hwc_dev.last_ext_ovls != 0
  let dsscomp := hwc_dev.dsscomp
  { hwc_dev with
    ext := ext
    ext_ovls := if external then dsscomp.num_ovls - hwc_dev.post2_layers else hwc_dev.ext_ovls
    dsscomp := { dsscomp with
      swap_rb := hwc_dev.swap_rb
      num_mgrs := if external then 2 else 1
      num_ovls := if ext.last_mode = 0 ∧ hwc_dev.on_tv then 0 else dsscomp.num_ovls } }

/-- The device with the counts of a list, its setup cleared. -/
def counted (hwc_dev : HwcDevice) (list : Option (List HwcLayer)) : HwcDevice :=
  (gather_layer_statistics { hwc_dev with
    dsscomp := { SetupDispcData.zero with sync_id := hwc_dev.sync_id }
    sync_id := hwc_dev.sync_id + 1 } (list.getD [])).1

/-- The device when the overlays of the external display are reserved. -/
def decided (hwc_dev : HwcDevice) (list : Option (List HwcLayer)) : HwcDevice :=
  decide_supported_cloning (counted hwc_dev list)

/-- The device when the loop begins, and the list. -/
def begin_frame (hwc_dev : HwcDevice) (list : Option (List HwcLayer)) :
    HwcDevice × Option (List HwcLayer) :=
  (blit_reset (choose_compositor (decided hwc_dev list)),
    list.map fun layers => (gather_layer_statistics hwc_dev layers).2)

/-- The frame when every overlay of the internal display is set up. -/
def internal_frame (env : PrepareEnv) (hwc_dev : HwcDevice) (list : Option (List HwcLayer)) :
    Frame :=
  let (hwc_dev, list) := begin_frame hwc_dev list
  setup_framebuffer (blit_rest env (setup_overlays env hwc_dev list))

/-- `hwc_prepare` on its first display: the device and the list it leaves. -/
def hwc_prepare (env : PrepareEnv) (hwc_dev : HwcDevice) (list : Option (List HwcLayer)) :
    HwcDevice × Option (List HwcLayer) :=
  let f := internal_frame env hwc_dev list
  (finish_setup (transform_primary (clone_for_external env f)), f.list)

end OmapHal.Hwc
