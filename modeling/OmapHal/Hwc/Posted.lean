import OmapHal.Hwc.Assignment

/-!
# What becomes of an overlay

The loop sets up each overlay from one layer. What follows moves an overlay to another pipe or
height, crops it and turns it with its display, or switches it off.
-/

namespace OmapHal.Hwc

open OmapHal.Core List Nat Function

variable {env : PrepareEnv} {hwc_dev : HwcDevice} {list : Option (List HwcLayer)}
  {layers done before : List HwcLayer} {layer : HwcLayer} {handle : NativeHandle} {p : Pipes}
  {cfg : Dss2OvlCfg} {needs_fb : Bool} {k : Nat}

/-! ### Configurations without their places -/

/-- The configuration without its pipe and its height. -/
def Dss2OvlCfg.unplaced (cfg : Dss2OvlCfg) : Dss2OvlCfg := { cfg with ix := 0, zorder := 0 }

/-- The overlay without its pipe and its height. -/
def Dss2OvlInfo.unplaced (o : Dss2OvlInfo) : Dss2OvlInfo := { o with cfg := o.cfg.unplaced }

theorem crop_to_rect_unplaced (cfg : Dss2OvlCfg) (vis : Rect) :
    crop_to_rect cfg.unplaced vis = (crop_to_rect cfg vis).map Dss2OvlCfg.unplaced := by
  simp only [crop_to_rect, cropToRect, Option.bind_eq_bind, Option.map_bind]
  refine Option.bind_congr fun a _ => ?_
  rw [comp_apply, Option.map_bind]
  rfl

/-- The configuration as the transform of the primary display leaves it. -/
def HwcDevice.primaryCfg (hwc_dev : HwcDevice) (cfg : Dss2OvlCfg) : Dss2OvlCfg :=
  if hwc_dev.primary_transform then adjust_primary_display_layer hwc_dev cfg else cfg

theorem primaryCfg_unplaced (hwc_dev : HwcDevice) (cfg : Dss2OvlCfg) :
    (hwc_dev.primaryCfg cfg).unplaced = hwc_dev.primaryCfg cfg.unplaced := by
  rw [HwcDevice.primaryCfg, HwcDevice.primaryCfg]
  split
  · rw [adjust_primary_display_layer, adjust_primary_display_layer, crop_to_rect_unplaced]
    cases crop_to_rect cfg hwc_dev.primary_region <;> rfl
  · rfl

theorem primaryCfg_samePlace (hwc_dev : HwcDevice) (cfg : Dss2OvlCfg) :
    SamePlace cfg (hwc_dev.primaryCfg cfg) := by
  rw [HwcDevice.primaryCfg]
  split
  · exact adjust_primary_display_layer_samePlace hwc_dev cfg
  · exact .refl cfg

/-- Cropping does not switch an overlay on or off. -/
theorem crop_to_rect_enabled {cfg' : Dss2OvlCfg} {vis : Rect}
    (h : crop_to_rect cfg vis = some cfg') :
    cfg'.enabled = cfg.enabled := by
  simp only [crop_to_rect, cropToRect, Option.bind_eq_bind, Option.bind_eq_some_iff] at h
  obtain ⟨a, -, b, -, hb⟩ := h
  cases hb
  rfl

/-- An overlay is switched off where nothing of it is left on the primary display. -/
theorem primaryCfg_enabled_iff : (hwc_dev.primaryCfg cfg).enabled = true ↔ cfg.enabled = true ∧
    ¬(hwc_dev.primary_transform = true ∧ crop_to_rect cfg hwc_dev.primary_region = none) := by
  rw [HwcDevice.primaryCfg]
  split
  · next ht =>
    rw [adjust_primary_display_layer]
    cases hcrop : crop_to_rect cfg hwc_dev.primary_region with
    | none => simp [ht]
    | some cfg' => simp [crop_to_rect_enabled hcrop]
  · next ht => simp [ht]

/-- The height that a layer is given does not matter for the rest. -/
theorem setup_layer_unplaced (layer : HwcLayer) (handle : NativeHandle) (index : Int) :
    (setup_layer layer handle index).unplaced = (setup_layer layer handle 0).unplaced := by
  rw [setup_layer, setup_layer, setup_layer_base, setup_layer_base]
  cases color_mode handle.iFormat (is_BLENDED layer) <;> rfl

theorem setup_layer_enabled (h : is_valid_format handle.iFormat) :
    (setup_layer layer handle 0).enabled = true := by
  unfold setup_layer setup_layer_base color_mode
  unfold is_valid_format at h
  split at h <;> simp_all

/-! ### What an overlay is set up from -/

/-- The overlay `k` is set up from the layer behind those of `before`. -/
structure Pipes.SetUp (hwc_dev : HwcDevice) (needs_fb : Bool) (k : Nat) (before : List HwcLayer)
    (layer : HwcLayer) (handle : NativeHandle) (p : Pipes) : Prop where
  source : p.source k = before.length
  deref : layer.handle.deref? = some handle
  takes : takes_overlay hwc_dev (setup_pipes hwc_dev needs_fb before) layer handle = true
  buffer : p.buffers k = layer.handle
  ovl : (p.ovls k).unplaced = ⟨(setup_layer layer handle 0).unplaced, .layerIx, k⟩

/-- Each overlay but the framebuffer's is set up from a layer that was visited. -/
def Pipes.Shows (hwc_dev : HwcDevice) (needs_fb : Bool) (done : List HwcLayer) (p : Pipes) :
    Prop :=
  ∀ k, needs_fb.toNat ≤ k → k < p.num_ovls → ∃ before layer handle, before ++ [layer] <+: done ∧
    p.SetUp hwc_dev needs_fb k before layer handle

theorem Pipes.Shows.add_overlay (h : p.Shows hwc_dev needs_fb done)
    (hlen : p.visited.length = done.length) (hp : p = setup_pipes hwc_dev needs_fb done)
    (hd : layer.handle.deref? = some handle) (ht : takes_overlay hwc_dev p layer handle) :
    (p.add_overlay hwc_dev layer handle).Shows hwc_dev needs_fb (done ++ [layer]) := by
  intro k hk hk'
  have hinfo := @add_overlay_info hwc_dev p layer handle _ Dss2OvlInfo.unplaced
    (fun _ _ => rfl) k
  have hsrc : (p.add_overlay hwc_dev layer handle).source k =
      update p.source p.num_ovls p.visited.length k := rfl
  have hbuf : (p.add_overlay hwc_dev layer handle).buffers k =
      update p.buffers p.num_ovls layer.handle k := rfl
  by_cases hkn : k = p.num_ovls
  · refine ⟨done, layer, handle, prefix_rfl, ?_, hd, hp ▸ ht, ?_, ?_⟩
    · rw [hsrc, hkn, update_self, hlen]
    · rw [hbuf, hkn, update_self]
    · rw [hinfo, if_pos hkn, hkn]
      show Dss2OvlInfo.mk (setup_layer layer handle p.z).unplaced _ _ = _
      rw [setup_layer_unplaced]
  · have hlt : k < p.num_ovls + 1 := hk'
    obtain ⟨before, l, hndl, hpre, hs, hdl, htl, hb, ho⟩ := h k hk (by omega)
    refine ⟨before, l, hndl, hpre.trans (prefix_append done [layer]), ?_, hdl, htl, ?_, ?_⟩
    · rw [hsrc, update_of_ne hkn, hs]
    · rw [hbuf, update_of_ne hkn, hb]
    · rw [hinfo, if_neg hkn, ho]

theorem Pipes.Shows.leave (h : p.Shows hwc_dev needs_fb done) :
    (p.leave hwc_dev layer).Shows hwc_dev needs_fb (done ++ [layer]) := by
  intro k hk hk'
  rw [leave_num_ovls] at hk'
  have hinfo := @leave_info hwc_dev p layer _ Dss2OvlInfo.unplaced (fun _ => rfl) k
  obtain ⟨before, l, hndl, hpre, hs, hdl, htl, hb, ho⟩ := h k hk hk'
  exact ⟨before, l, hndl, hpre.trans (prefix_append done [layer]), by rw [leave_source, hs], hdl,
    htl, by rw [leave_buffers, hb], by rw [hinfo, ho]⟩

theorem setup_pipes_shows (hwc_dev : HwcDevice) (needs_fb : Bool) (layers : List HwcLayer) :
    (setup_pipes hwc_dev needs_fb layers).Shows hwc_dev needs_fb layers := by
  suffices h : (setup_pipes hwc_dev needs_fb layers).visited.length = layers.length ∧
      (setup_pipes hwc_dev needs_fb layers).Shows hwc_dev needs_fb layers from h.2
  rw [setup_pipes]
  refine (foldl_consumed (P := fun done (p : Pipes) => p = setup_pipes hwc_dev needs_fb done ∧
    p.visited.length = done.length ∧ p.Shows hwc_dev needs_fb done) ⟨rfl, rfl, ?_⟩ ?_).2
  · intro k hk hk'
    cases needs_fb with
    | true => exact absurd hk' (not_lt.mpr hk)
    | false => exact absurd hk' (not_lt_zero k)
  · rintro done layer p ⟨hp, hlen, hshows⟩
    have hnext : p.visit hwc_dev layer = setup_pipes hwc_dev needs_fb (done ++ [layer]) := by
      rw [setup_pipes, foldl_append, foldl_cons, foldl_nil, hp, setup_pipes]
    refine ⟨hnext, ?_⟩
    rcases visit_cases hwc_dev p layer with ⟨handle, hd, ht, he⟩ | ⟨-, he⟩
    · rw [he]
      refine ⟨?_, hshows.add_overlay hlen hp hd ht⟩
      rw [length_append, ← hlen]
      exact length_append
    · rw [he]
      exact ⟨by rw [leave_visited, length_append, length_append, hlen], hshows.leave⟩

/-- A layer that takes an overlay has one that is set up from it. -/
theorem setup_pipes_taken (hwc_dev : HwcDevice) (needs_fb : Bool) (layers : List HwcLayer) :
    ∀ before layer handle, before ++ [layer] <+: layers → layer.handle.deref? = some handle →
      takes_overlay hwc_dev (setup_pipes hwc_dev needs_fb before) layer handle →
      ∃ k, needs_fb.toNat ≤ k ∧ k < (setup_pipes hwc_dev needs_fb layers).num_ovls ∧
        (setup_pipes hwc_dev needs_fb layers).source k = before.length := by
  suffices h : needs_fb.toNat ≤ (setup_pipes hwc_dev needs_fb layers).num_ovls ∧
      (setup_pipes hwc_dev needs_fb layers).visited.length = layers.length ∧
      ∀ before layer handle, before ++ [layer] <+: layers → layer.handle.deref? = some handle →
        takes_overlay hwc_dev (setup_pipes hwc_dev needs_fb before) layer handle →
        ∃ k, needs_fb.toNat ≤ k ∧ k < (setup_pipes hwc_dev needs_fb layers).num_ovls ∧
          (setup_pipes hwc_dev needs_fb layers).source k = before.length from h.2.2
  induction layers using reverseRecOn with
  | nil =>
    refine ⟨?_, rfl, fun before layer _ hpre => ?_⟩
    · cases needs_fb <;> exact le_rfl
    · exact absurd (prefix_nil.mp hpre) (by simp)
  | append_singleton layers a ih =>
    obtain ⟨hle, hlen, htaken⟩ := ih
    have hnext : setup_pipes hwc_dev needs_fb (layers ++ [a]) =
        (setup_pipes hwc_dev needs_fb layers).visit hwc_dev a := by
      rw [setup_pipes, foldl_append, foldl_cons, foldl_nil, setup_pipes]
    rw [hnext]
    rcases visit_cases hwc_dev (setup_pipes hwc_dev needs_fb layers) a with
      ⟨hndl, -, -, he⟩ | ⟨hno, he⟩
    · rw [he]
      refine ⟨le_succ_of_le hle, ?_, fun before layer handle hpre hd ht => ?_⟩
      · rw [length_append, ← hlen]
        exact length_append
      · have hsrc : ((setup_pipes hwc_dev needs_fb layers).add_overlay hwc_dev a hndl).source =
            update (setup_pipes hwc_dev needs_fb layers).source
              (setup_pipes hwc_dev needs_fb layers).num_ovls
              (setup_pipes hwc_dev needs_fb layers).visited.length := rfl
        rw [hsrc]
        rcases prefix_concat_iff.mp hpre with heq | hpre
        · refine ⟨_, hle, lt_succ_self _, ?_⟩
          rw [update_self, hlen, (append_inj' heq rfl).1]
        · obtain ⟨k, hk, hk', hs⟩ := htaken before layer handle hpre hd ht
          exact ⟨k, hk, lt_succ_of_lt hk', by rw [update_of_ne (Nat.ne_of_lt hk'), hs]⟩
    · rw [he, leave_num_ovls, leave_source, leave_visited]
      refine ⟨hle, by rw [length_append, length_append, hlen],
        fun before layer handle hpre hd ht => ?_⟩
      rcases prefix_concat_iff.mp hpre with heq | hpre
      · obtain ⟨rfl, hl⟩ := append_inj' heq rfl
        obtain rfl : layer = a := by simpa using hl
        rw [hno handle hd] at ht
        cases ht
      · exact htaken before layer handle hpre hd ht

/-- The first overlay is left to the framebuffer. -/
theorem setup_pipes_first (hwc_dev : HwcDevice) (layers : List HwcLayer) :
    ((setup_pipes hwc_dev true layers).ovls 0).unplaced = .zero := by
  suffices h : 1 ≤ (setup_pipes hwc_dev true layers).num_ovls ∧
      ((setup_pipes hwc_dev true layers).ovls 0).unplaced = .zero from h.2
  rw [setup_pipes]
  refine foldl_invariant (P := fun p : Pipes => 1 ≤ p.num_ovls ∧ (p.ovls 0).unplaced = .zero)
    ⟨le_rfl, rfl⟩ ?_
  rintro p layer ⟨hnum, hzero⟩
  rcases visit_cases hwc_dev p layer with ⟨handle, -, -, he⟩ | ⟨-, he⟩
  · rw [he]
    refine ⟨le_succ_of_le hnum, ?_⟩
    rw [@add_overlay_info hwc_dev p layer handle _ Dss2OvlInfo.unplaced (fun _ _ => rfl) 0,
      if_neg (Nat.ne_of_lt hnum), hzero]
  · rw [he, leave_num_ovls]
    refine ⟨hnum, ?_⟩
    rw [@leave_info hwc_dev p layer _ Dss2OvlInfo.unplaced (fun _ => rfl) 0, hzero]

theorem framebuffer_overlay_unplaced (hwc_dev : HwcDevice) (o : Dss2OvlInfo) (fb_z : Int) :
    (framebuffer_overlay hwc_dev o fb_z).unplaced =
      (framebuffer_overlay hwc_dev o.unplaced 0).unplaced := by
  rw [framebuffer_overlay, framebuffer_overlay, setup_layer_base, setup_layer_base]
  cases color_mode hwc_dev.fb_format true <;> rfl

/-! ### The frame that is posted -/

/-- The loop gives an overlay to the layer. -/
def TakesOverlay (hwc_dev : HwcDevice) (list : Option (List HwcLayer)) (layer : HwcLayer)
    (handle : NativeHandle) : Prop :=
  ∃ before, before ++ [layer] <+: (begin_frame hwc_dev list).2.getD [] ∧
    layer.handle.deref? = some handle ∧
    takes_overlay (begin_frame hwc_dev list).1 (setup_pipes (begin_frame hwc_dev list).1
      (begin_frame hwc_dev list).1.use_sgx before) layer handle = true

theorem internal_frame_placed (h : hwc_dev.Steady) (env : PrepareEnv)
    (list : Option (List HwcLayer)) : ∃ n tail, InternalFrame (begin_frame hwc_dev list).1
      (begin_frame hwc_dev list).2 n tail (internal_frame env hwc_dev list) :=
  setup_overlays_placed env (begin_frame hwc_dev list).1 (begin_frame hwc_dev list).2 h.fb_format

theorem transform_primary_ovls {d : HwcDevice} (hk : k < d.dsscomp.num_ovls)
    (hmgr : (d.dsscomp.ovls k).cfg.mgr_ix = 0) : (transform_primary d).dsscomp.ovls k =
      { d.dsscomp.ovls k with cfg := d.primaryCfg (d.dsscomp.ovls k).cfg } := by
  rw [HwcDevice.primaryCfg, transform_primary]
  split
  · exact if_pos ⟨hk, hmgr⟩
  · rfl

/-- The overlays of the internal display stay in their places. -/
theorem prepare_ovls (h : hwc_dev.Steady) (env : PrepareEnv) (list : Option (List HwcLayer))
    (hk : k < (internal_frame env hwc_dev list).hwc_dev.dsscomp.num_ovls) :
    (hwc_prepare env hwc_dev list).1.dsscomp.ovls k =
      { (internal_frame env hwc_dev list).hwc_dev.dsscomp.ovls k with
        cfg := hwc_dev.primaryCfg
          ((internal_frame env hwc_dev list).hwc_dev.dsscomp.ovls k).cfg } := by
  obtain ⟨n, tail, hint⟩ := internal_frame_placed h env list
  obtain ⟨c, ⟨⟨ext, ovls, -, hd⟩, hlow, -⟩, -, -⟩ := clone_for_external_fits h env hint
  have hmgr := hint.placed.mgr_ix k (hint.follows.num_ovls ▸ hk)
  have hcfg : (clone_for_external env (internal_frame env hwc_dev list)).primaryCfg =
      hwc_dev.primaryCfg := by
    have htransform : (internal_frame env hwc_dev list).hwc_dev.primary_transform =
        hwc_dev.primary_transform := hint.follows.primary_transform
    have hadjust : adjust_primary_display_layer (internal_frame env hwc_dev list).hwc_dev =
        adjust_primary_display_layer hwc_dev := hint.follows.adjust
    funext cfg
    rw [hd, HwcDevice.primaryCfg, HwcDevice.primaryCfg, ← htransform, ← hadjust]
    rfl
  have hnum : k < (clone_for_external env
      (internal_frame env hwc_dev list)).dsscomp.num_ovls := by
    rw [hd]
    exact Nat.lt_add_right c hk
  have hkeep := hlow k hk
  have hovl := transform_primary_ovls hnum (by rw [hkeep]; exact hmgr)
  rw [hcfg, hkeep] at hovl
  exact hovl

/-- Where the primary display is a TV nothing is cloned. -/
theorem not_clones_now_of_tv (h : hwc_dev.Steady) (htv : hwc_dev.on_tv = true) :
    clones_now (decided hwc_dev list) = false := by
  obtain ⟨hm, hd⟩ := h.tv htv
  have halone : chooseCloning (counted hwc_dev list) = _ := chooseCloning_alone hd hm
  have hoff : (decided hwc_dev list).ext.current.enabled = false :=
    congrArg (fun plan => plan.current.enabled) halone
  rw [clones_now, hoff, Bool.false_and]

/-- Nothing is posted while a TV has no mode. -/
theorem prepare_num_ovls (h : hwc_dev.Steady) (env : PrepareEnv) (list : Option (List HwcLayer)) :
    ∃ c, (hwc_prepare env hwc_dev list).1.dsscomp.num_ovls =
      if hwc_dev.on_tv ∧ hwc_dev.ext.last_mode = 0 then 0
      else (internal_frame env hwc_dev list).hwc_dev.dsscomp.num_ovls + c := by
  obtain ⟨n, tail, hint⟩ := internal_frame_placed h env list
  obtain ⟨c, ⟨⟨ext, ovls, -, hd⟩, -, -⟩, -, -⟩ := clone_for_external_fits h env hint
  have hkeep : ∀ x : HwcDevice, (finish_setup (transform_primary x)).dsscomp.num_ovls =
      if x.ext.last_mode = 0 ∧ x.on_tv then 0 else x.dsscomp.num_ovls := by
    intro x
    rw [transform_primary]
    split <;> rfl
  have htv : (clone_for_external env (internal_frame env hwc_dev list)).on_tv = hwc_dev.on_tv := by
    rw [hd]
    exact hint.follows.on_tv
  have hnum : (clone_for_external env (internal_frame env hwc_dev list)).dsscomp.num_ovls =
      (internal_frame env hwc_dev list).hwc_dev.dsscomp.num_ovls + c := by
    rw [hd]
    rfl
  have hprep : (hwc_prepare env hwc_dev list).1 = finish_setup (transform_primary
      (clone_for_external env (internal_frame env hwc_dev list))) := rfl
  refine ⟨c, ?_⟩
  rw [hprep, hkeep, hnum, htv]
  cases hon : hwc_dev.on_tv with
  | false => rw [if_neg fun hc => Bool.false_ne_true hc.2, if_neg fun hc => Bool.false_ne_true hc.1]
  | true =>
    have hidle : clones_now (internal_frame env hwc_dev list).hwc_dev = false :=
      (clones_now_follows hint.follows).trans (not_clones_now_of_tv h hon)
    have hmode : (clone_for_external env (internal_frame env hwc_dev list)).ext.last_mode =
        hwc_dev.ext.last_mode := by
      have hext : (internal_frame env hwc_dev list).hwc_dev.ext.last_mode =
          (begin_frame hwc_dev list).1.ext.last_mode :=
        congrArg OmapHwcExt.last_mode hint.follows.ext
      rw [clone_for_external, if_neg]
      · exact hext
      · exact fun hc => Bool.false_ne_true (hidle.symm.trans hc)
    rw [hmode]
    simp only [and_comm]

/-- What clones and the transform of the display leave alone. -/
theorem prepare_keeps (h : hwc_dev.Steady) (env : PrepareEnv) (list : Option (List HwcLayer)) :
    (hwc_prepare env hwc_dev list).1.use_sgx = (internal_frame env hwc_dev list).hwc_dev.use_sgx ∧
      (hwc_prepare env hwc_dev list).1.buffers =
        (internal_frame env hwc_dev list).hwc_dev.buffers ∧
      (hwc_prepare env hwc_dev list).1.dsscomp.swap_rb =
        (internal_frame env hwc_dev list).hwc_dev.swap_rb ∧
      (hwc_prepare env hwc_dev list).1.fb_format = hwc_dev.fb_format := by
  obtain ⟨n, tail, hint⟩ := internal_frame_placed h env list
  obtain ⟨c, ⟨⟨ext, ovls, -, hrest⟩, -, -⟩, -, -⟩ := clone_for_external_fits h env hint
  have hfb : (internal_frame env hwc_dev list).hwc_dev.fb_format = hwc_dev.fb_format :=
    hint.follows.fb_format
  have hkeep : ∀ x : HwcDevice, (finish_setup (transform_primary x)).use_sgx = x.use_sgx ∧
      (finish_setup (transform_primary x)).buffers = x.buffers ∧
      (finish_setup (transform_primary x)).dsscomp.swap_rb = x.swap_rb ∧
      (finish_setup (transform_primary x)).fb_format = x.fb_format := by
    intro x
    rw [transform_primary]
    split <;> exact ⟨rfl, rfl, rfl, rfl⟩
  obtain ⟨hsgx, hbuf, hswap, hformat⟩ :=
    hkeep (clone_for_external env (internal_frame env hwc_dev list))
  have hclone : (clone_for_external env (internal_frame env hwc_dev list)).use_sgx =
        (internal_frame env hwc_dev list).hwc_dev.use_sgx ∧
      (clone_for_external env (internal_frame env hwc_dev list)).buffers =
        (internal_frame env hwc_dev list).hwc_dev.buffers ∧
      (clone_for_external env (internal_frame env hwc_dev list)).swap_rb =
        (internal_frame env hwc_dev list).hwc_dev.swap_rb ∧
      (clone_for_external env (internal_frame env hwc_dev list)).fb_format =
        (internal_frame env hwc_dev list).hwc_dev.fb_format := by
    rw [hrest]
    exact ⟨rfl, rfl, rfl, rfl⟩
  exact ⟨hsgx.trans hclone.1, hbuf.trans hclone.2.1, hswap.trans hclone.2.2.1,
    hformat.trans (hclone.2.2.2.trans hfb)⟩

end OmapHal.Hwc
