import OmapHal.Hwc.Prepare

/-!
# Runs of the composer

The calls that change a composer: `hwc_prepare`, `hwc_set`, the uevents of the external
display and the idle timeout of the event thread. A session also records the setup that
`Post2` took last. Every call holds the device's lock, so a run is a list of calls.
-/

namespace OmapHal.Hwc

/-- The answers to one call of `hwc_set`. -/
structure SetEnv where
  /-- `dpy && sur`; without them the screen is being turned off. -/
  shows : Bool
  /-- `eglSwapBuffers`. -/
  swaps : Bool
  /-- `Post2` returns zero. -/
  posts : Bool
  deriving DecidableEq, Repr

/-- The buffers and buffer indices without the null entry of the framebuffer. -/
def fix_up_buffers (hwc_dev : HwcDevice) : HwcDevice :=
  let nbufs := hwc_dev.post2_layers + hwc_dev.post2_blit_buffers - 1
  if hwc_dev.post2_blit_buffers ≠ 0 ∧ hwc_dev.post2_layers > 1 then
    { hwc_dev with
      buffers := fun i => if i < nbufs then hwc_dev.buffers (i + 1) else hwc_dev.buffers i
      dsscomp := { hwc_dev.dsscomp with
        ovls := fun j =>
          if 1 ≤ j ∧ j < hwc_dev.post2_layers then { hwc_dev.dsscomp.ovls j with ba := j }
          else hwc_dev.dsscomp.ovls j } }
  else hwc_dev

/-- `hwc_set` passes the frame to `Post2`. -/
def reaches_post2 (env : SetEnv) (hwc_dev : HwcDevice) : Bool :=
  env.shows && (!hwc_dev.use_sgx || env.swaps)

/-- The overlay counts that `hwc_set` keeps for the next frame. -/
def record_ovls (hwc_dev : HwcDevice) : HwcDevice :=
  { hwc_dev with
    last_ext_ovls := hwc_dev.ext_ovls
    last_int_ovls := hwc_dev.post2_layers }

/-- `hwc_set`: the device it leaves and what it posted, if `Post2` took it. -/
def hwc_set (env : SetEnv) (hwc_dev : HwcDevice) : HwcDevice × Option SetupDispcData :=
  if reaches_post2 env hwc_dev then
    let hwc_dev := fix_up_buffers { hwc_dev with
      force_sgx := if hwc_dev.force_sgx > 0 then hwc_dev.force_sgx - 1 else hwc_dev.force_sgx }
    (record_ovls hwc_dev, if env.posts then some hwc_dev.dsscomp else none)
  else if env.shows then
    -- `eglSwapBuffers` failed
    (hwc_dev, none)
  else (record_ovls hwc_dev, none)

/-- What properties, drivers and the kernel answer to `handle_hotplug`. -/
structure HotplugEnv where
  docking_enabled : Bool
  mirroring_enabled : Bool
  avoid_mode_change : Bool
  docking_transform : Nat
  mirroring_transform : Nat
  best_hdmi_mode : Option HdmiMode
  ext_matrix : OmapHwcExt → Rect → Window → Window
  /-- Handles that `allocate_tiler2d_buffers` gets. -/
  tiler2d_buffers : Nat → Int
  /-- The display that `DSSCIOC_QUERY_DISPLAY` describes, and its matrix. -/
  display : DisplayInfo
  lcd_w : Int
  lcd_h : Int
  primary_matrix : Window → Window

/-- `set_primary_display_transform_matrix`. -/
def set_primary_display_transform_matrix (env : HotplugEnv) (hwc_dev : HwcDevice) : HwcDevice :=
  { hwc_dev with
    fb_dis := env.display
    primary_region := ⟨0, 0, hwc_dev.fb_width, hwc_dev.fb_height⟩
    primary_rotation :=
      (xor (decide (env.lcd_w > env.lcd_h)) (decide (hwc_dev.fb_width > hwc_dev.fb_height))).toNat
    primary_transform := env.lcd_w != hwc_dev.fb_width || env.lcd_h != hwc_dev.fb_height
    primary_m := env.primary_matrix }

/-- Rotation and flip from a property value. -/
def ExtTransform.ofProperty (value : Nat) (enabled docking : Bool) : ExtTransform :=
  ⟨value % 4, value.testBit 2, enabled, docking⟩

/-- The settings of an external display that is there. -/
def connected_ext (env : HotplugEnv) (ext : OmapHwcExt) : OmapHwcExt :=
  let dock := ExtTransform.ofProperty env.docking_transform env.docking_enabled true
  let mirror := ExtTransform.ofProperty env.mirroring_transform env.mirroring_enabled false
  -- restrict to docking with no transform
  let (dock, mirror) :=
    if ext.force_dock then
      ({ dock with rotation := 0, hflip := false }, { mirror with enabled := false })
    else (dock, mirror)
  let ext := { ext with
    dock := dock
    mirror := mirror
    avoid_mode_change := env.avoid_mode_change }
  -- select the best mode for mirroring
  if mirror.enabled then
    match env.best_hdmi_mode with
    | none =>
      { ext with current := mirror, mirror_mode := 0, mirror := { mirror with enabled := false } }
    | some mode =>
      let ext := { ext with current := mirror }.withMode mode
      { ext with mirror_mode := mode.last_mode, m := env.ext_matrix ext ext.mirror_region }
  else ext

/-- `handle_hotplug`. -/
def handle_hotplug (env : HotplugEnv) (hwc_dev : HwcDevice) : HwcDevice :=
  let ext := hwc_dev.ext
  if hwc_dev.on_tv then
    -- the primary display is HDMI: no cloning or docking
    if ext.hdmi_state then
      let ext := match env.best_hdmi_mode with
        | none => ext
        | some mode => ext.withMode mode
      set_primary_display_transform_matrix env { hwc_dev with ext := ext }
    else { hwc_dev with ext := { ext with last_mode := 0 } }
  else
    let backup (ext : OmapHwcExt) :=
      decide (ext.mirror.rotation ≠ 0) && !hwc_dev.limits.fbmem_tiler2d
    if ext.hdmi_state then
      let ext := connected_ext env ext
      { hwc_dev with
        ext := ext
        ion_handles :=
          if backup ext ∧ hwc_dev.ion_handles 0 = 0 ∧ hwc_dev.ion_handles 1 = 0 then
            env.tiler2d_buffers
          else hwc_dev.ion_handles }
    else
      { hwc_dev with
        ext := { ext with
          dock := { ext.dock with enabled := false }
          mirror := { ext.mirror with enabled := false }
          last_mode := 0 }
        ion_handles := if backup ext then fun _ => 0 else hwc_dev.ion_handles }

/-- The timeout of the event thread. -/
def idle_timeout (hwc_dev : HwcDevice) : HwcDevice :=
  if hwc_dev.idle ≠ 0 ∧ hwc_dev.last_int_ovls > 1 ∧ hwc_dev.force_sgx = 0 then
    { hwc_dev with force_sgx := 2 }
  else hwc_dev

/-- One call into the composer. -/
inductive Event where
  /-- A call without displays does nothing. -/
  | idleCall
  | prepare (env : PrepareEnv) (list : Option (List HwcLayer))
  | set (env : SetEnv)
  | dockSwitch (state : Bool) (env : HotplugEnv)
  | hdmiSwitch (state : Bool) (env : HotplugEnv)
  | timeout

/-- A device and the setup that the display subsystem took last. -/
structure Session where
  dev : HwcDevice
  committed : SetupDispcData

/-- The effect of one call. -/
def Session.step (s : Session) : Event → Session
  | .idleCall => s
  | .prepare env list => { s with dev := (hwc_prepare env s.dev list).1 }
  | .set env =>
    let (dev, posted) := hwc_set env s.dev
    ⟨dev, posted.getD s.committed⟩
  | .dockSwitch state env =>
    { s with dev :=
    handle_hotplug env { s.dev with ext := { s.dev.ext with force_dock := state } } }
  | .hdmiSwitch state env =>
    { s with dev :=
    handle_hotplug env { s.dev with ext := { s.dev.ext with hdmi_state := state } } }
  | .timeout => { s with dev := idle_timeout s.dev }

/-- The effect of a list of calls. -/
def Session.run (s : Session) (events : List Event) : Session := events.foldl Session.step s

/-- A device as `hwc_device_open` leaves it before its first hotplug: zeroed, on a
framebuffer that the display subsystem can show. -/
structure HwcDevice.Opened (hwc_dev : HwcDevice) : Prop where
  fb_format : is_valid_format hwc_dev.fb_format = true
  mirror : hwc_dev.ext.mirror = ⟨0, false, false, false⟩
  dock : hwc_dev.ext.dock = ⟨0, false, false, false⟩
  current : hwc_dev.ext.current = ⟨0, false, false, false⟩
  last : hwc_dev.ext.last = ⟨0, false, false, false⟩
  force_sgx : hwc_dev.force_sgx = 0
  post2_layers : hwc_dev.post2_layers = 0
  ext_ovls : hwc_dev.ext_ovls = 0
  ext_ovls_wanted : hwc_dev.ext_ovls_wanted = 0
  last_ext_ovls : hwc_dev.last_ext_ovls = 0
  last_int_ovls : hwc_dev.last_int_ovls = 0
  dsscomp : hwc_dev.dsscomp = .zero

/-- The beginning of a session: nothing is on the screen. -/
def Session.start (hwc_dev : HwcDevice) : Session := ⟨hwc_dev, .zero⟩

/-- A composer on a screen of 40 by 40 pixels whose TILER slot has room for one layer of ten by
ten pixels. -/
def sampleDevice : HwcDevice where
  limits := ⟨1, 1, 1, 1, 4, 2, 0, 0, 2000, false⟩
  sync_id := 0
  fb_format := .RGBA_8888
  fb_width := 40
  fb_height := 40
  fb_dis := ⟨false, 0⟩
  flags_rgb_order := false
  flags_nv12_only := false
  reaches_upscaled_nv12_limit _ _ := false
  on_tv := false
  force_sgx := 0
  ext :=
    { mirror := ⟨0, false, false, false⟩, dock := ⟨0, false, false, false⟩,
      avoid_mode_change := false, force_dock := false, hdmi_state := false, on_tv := false,
      current := ⟨0, false, false, false⟩, last := ⟨0, false, false, false⟩, last_mode := 0,
      mirror_mode := 0, m := id, mirror_region := ⟨0, 0, 0, 0⟩ }
  idle := 0
  primary_m := id
  primary_transform := false
  primary_rotation := 0
  primary_region := ⟨0, 0, 0, 0⟩
  buffers _ := .null
  use_sgx := false
  swap_rb := false
  post2_layers := 0
  post2_blit_buffers := 0
  blit_num := 0
  ext_ovls := 0
  ext_ovls_wanted := 0
  last_ext_ovls := 0
  last_int_ovls := 0
  blt_policy := .default
  dsscomp := .zero
  counts := .zero
  ion_handles _ := 0

theorem sampleDevice_opened : sampleDevice.Opened :=
  ⟨rfl, rfl, rfl, rfl, rfl, rfl, rfl, rfl, rfl, rfl, rfl, rfl⟩

/-- Answers without blits, for a display that needs no other mode. -/
def sampleAnswers : PrepareEnv where
  blits _ := none
  hdmi_mode_differs _ _ := false
  best_hdmi_mode := none
  ext_matrix _ _ := id
  dock_width := 0
  dock_height := 0
  dock_rowbytes := 0

end OmapHal.Hwc
