import OmapHal.Hwc.Counting
import OmapHal.Hwc.Places

/-!
# The overlays of the internal display

The frame before anything is cloned: it is blitted as a whole, or its overlays are those
of the loop with the framebuffer at the place that was left free.
-/

namespace OmapHal.Hwc

open OmapHal.Core Nat Bool Function

variable {env : PrepareEnv} {hwc_dev : HwcDevice} {p : Pipes} {f : Frame} {layer : HwcLayer}
  {handle : NativeHandle} {layers done : List HwcLayer} {list : Option (List HwcLayer)} {s k : Nat}

/-- The layer can be rendered by an overlay and needs a scaling one. -/
def rendersScaled (hwc_dev : HwcDevice) (layer : HwcLayer) : Bool :=
  layer.handle.deref?.any fun handle =>
    can_dss_render_layer hwc_dev layer handle && scales layer handle

/-- How many overlays there can be, and that they all are on the internal display. -/
structure Pipes.Bounded (hwc_dev : HwcDevice) (s : Nat) (done : List HwcLayer) (p : Pipes) :
    Prop where
  mgr_ix : ∀ k, (p.ovls k).cfg.mgr_ix = 0
  count : p.num_ovls ≤ max s hwc_dev.counts.max_hw_overlays
  scaling : p.scaled_gfx = true → p.num_ovls ≤ done.countP (rendersScaled hwc_dev)
  docking : p.ix_docking < 0 ∨ p.ix_docking < p.num_ovls

theorem bounded_start (hwc_dev : HwcDevice) (needs_fb : Bool) :
    (Pipes.start hwc_dev needs_fb).Bounded hwc_dev needs_fb.toNat [] := by
  unfold Pipes.start
  cases needs_fb
  · exact ⟨fun _ => rfl, zero_le _, fun h => (false_ne_true h).elim, .inl (by simp)⟩
  · exact ⟨fun _ => rfl, le_max_left .., fun h => (false_ne_true h).elim, .inl (by simp)⟩

theorem add_overlay_ix_docking (hwc_dev : HwcDevice) (p : Pipes) (layer : HwcLayer)
    (handle : NativeHandle) :
    (p.add_overlay hwc_dev layer handle).ix_docking = p.num_ovls ∨
      (p.add_overlay hwc_dev layer handle).ix_docking = p.ix_docking :=
  ite_eq_or_eq ..

theorem Pipes.Bounded.add_overlay (h : p.Bounded hwc_dev s done)
    (hd : layer.handle.deref? = some handle) (ht : takes_overlay hwc_dev p layer handle) :
    (p.add_overlay hwc_dev layer handle).Bounded hwc_dev s (done ++ [layer]) := by
  obtain ⟨hm, hc, hsc, hdk⟩ := h
  obtain ⟨hlt, hrender, -⟩ := takes_overlay_iff.mp ht
  refine ⟨fun k => ?_, ?_, fun hsg => ?_, ?_⟩
  · rw [add_overlay_cfg (f := Dss2OvlCfg.mgr_ix) (fun _ _ => rfl)]
    split
    · exact setup_layer_mgr_ix ..
    · exact hm k
  · exact le_max_of_le_right hlt
  · have hscales : scales layer handle ∧ (p.num_ovls = 0 ∨ p.scaled_gfx) := by
      rw [add_overlay_scaled_gfx] at hsg
      split at hsg
      · rename_i h0
        exact ⟨hsg, .inl h0.1⟩
      · rw [and_eq_true] at hsg
        exact ⟨hsg.2, .inr hsg.1⟩
    have hthis : rendersScaled hwc_dev layer := by
      unfold rendersScaled
      rw [hd, Option.any_some, hrender, hscales.1]
      rfl
    rw [List.countP_append, List.countP_singleton, if_pos hthis]
    show p.num_ovls + 1 ≤ _
    rcases hscales.2 with h0 | hsg'
    · omega
    · exact Nat.add_le_add_right (hsc hsg') 1
  · show _ ∨ _ < ((p.num_ovls + 1 : Nat) : Int)
    rcases add_overlay_ix_docking hwc_dev p layer handle with h | h <;> omega

theorem Pipes.Bounded.leave (h : p.Bounded hwc_dev s done) :
    (p.leave hwc_dev layer).Bounded hwc_dev s (done ++ [layer]) := by
  obtain ⟨hm, hc, hsc, hdk⟩ := h
  refine ⟨fun k => ?_, ?_, fun hsg => ?_, ?_⟩
  · rw [leave_cfg (f := Dss2OvlCfg.mgr_ix) fun _ => rfl]
    exact hm k
  · rwa [leave_num_ovls]
  · rw [leave_scaled_gfx] at hsg
    rw [leave_num_ovls, List.countP_append]
    exact le_add_right_of_le (hsc hsg)
  · rwa [leave_num_ovls, leave_ix_docking]

/-- All invariants of the loop. -/
structure Pipes.Inv (hwc_dev : HwcDevice) (s : Nat) (done : List HwcLayer) (p : Pipes) : Prop where
  stacked : p.Stacked s
  indexed : p.Indexed hwc_dev s
  bounded : p.Bounded hwc_dev s done

theorem setup_pipes_inv (hwc_dev : HwcDevice) (layers : List HwcLayer) :
    (setup_pipes hwc_dev hwc_dev.use_sgx layers).Inv hwc_dev hwc_dev.use_sgx.toNat layers := by
  unfold setup_pipes
  refine foldl_consumed (P := fun done (p : Pipes) => p.Inv hwc_dev hwc_dev.use_sgx.toNat done) ?_
    ?_
  · exact ⟨stacked_start .., indexed_start .., bounded_start ..⟩
  · rintro done layer p ⟨hs, hi, hb⟩
    rcases visit_cases hwc_dev p layer with ⟨handle, hd, ht, he⟩ | ⟨-, he⟩
    · rw [he]
      exact ⟨hs.add_overlay (takes_overlay_format ht), hi.add_overlay, hb.add_overlay hd ht⟩
    · rw [he]
      exact ⟨hs.leave rfl, hi.leave, hb.leave⟩

/-- A blit changes only what the device knows about blits. -/
theorem blit_layers_dev {bufoff : Nat} {d : HwcDevice}
    (h : blit_layers env hwc_dev list bufoff = some (d, layers)) :
    ∃ num bufs buffers, d =
      { hwc_dev with blit_num := num, post2_blit_buffers := bufs, buffers := buffers } := by
  unfold blit_layers at h
  split at h
  · cases h
  · split at h
    · cases h
    · split at h
      · cases h
      · cases h
        exact ⟨_, _, _, rfl⟩

/-- Blitting the rest leaves the overlays alone. -/
theorem blit_rest_eq (env : PrepareEnv) (f : Frame) :
    ∃ sgx num bufs buffers list blitted, blit_rest env f =
      { f with
        hwc_dev := { f.hwc_dev with
          use_sgx := sgx, blit_num := num, post2_blit_buffers := bufs, buffers := buffers }
        list := list
        blitted := blitted } := by
  unfold blit_rest
  split
  · split
    · rename_i hb
      obtain ⟨num, bufs, buffers, rfl⟩ := blit_layers_dev hb
      exact ⟨_, _, _, _, _, _, rfl⟩
    · exact ⟨_, _, _, _, _, _, rfl⟩
  · exact ⟨_, _, _, _, _, _, rfl⟩

/-- The first `n` overlays, all on the internal display: they use the first pipes from
`pt` on, but the first overlay may be on the pipe after those of the others (`tail`). -/
structure Placed (pt : Nat) (tail : Bool) (n : Nat) (ovls : Nat → Dss2OvlInfo) : Prop where
  mgr_ix : ∀ k < n, (ovls k).cfg.mgr_ix = 0
  zorder : ∀ j k, j < n → k < n → (ovls j).cfg.zorder = (ovls k).cfg.zorder → j = k
  distinct : ∀ j k, j < n → k < n → (ovls j).cfg.ix = (ovls k).cfg.ix → j = k
  range : ∀ k < n, 0 ≤ (ovls k).cfg.ix ∧ (ovls k).cfg.ix < n + pt + tail.toNat
  last : tail = true → pt = 0 ∧ 0 < n ∧ (ovls 0).cfg.ix = n

/-- The overlays of the loop and a framebuffer at the place left free. -/
theorem Pipes.Inv.placed_framebuffer (h : p.Inv hwc_dev 1 done) {o : Dss2OvlInfo}
    (hz : o.cfg.zorder = if p.fb_z < 0 then p.z else p.fb_z) (hm : o.cfg.mgr_ix = 0)
    (hix : o.cfg.ix = hwc_dev.primary_transform.toNat) :
    Placed hwc_dev.primary_transform.toNat false p.num_ovls (Function.update p.ovls 0 o) := by
  obtain ⟨⟨hstart, hfb, htop, hzs⟩, ⟨hd, hr, -, -, -⟩, ⟨hmgr, -, -, -⟩⟩ := h
  have hO : ∀ k, update p.ovls 0 o k = if k = 0 then o else p.ovls k := fun k =>
    update_apply ..
  have hz0 : ∀ k, 1 ≤ k → k < p.num_ovls → (p.ovls k).cfg.zorder ≠ o.cfg.zorder := by
    intro k hk hk' he
    rw [hzs k hk hk', hz] at he
    split at he <;> split at he <;> split at htop <;> omega
  have hinj : ∀ j k, 1 ≤ j → j < p.num_ovls → 1 ≤ k → k < p.num_ovls →
      (p.ovls j).cfg.zorder = (p.ovls k).cfg.zorder → j = k := by
    intro j k hj hj' hk hk' he
    rw [hzs j hj hj', hzs k hk hk'] at he
    split at he <;> split at he <;> omega
  refine ⟨fun k hk => ?_, fun j k hj hk he => ?_, fun j k hj hk he => ?_, fun k hk => ?_,
    fun hc => (false_ne_true hc).elim⟩
  · rw [hO]
    split
    · exact hm
    · exact hmgr k
  · rw [hO, hO] at he
    split at he
    · split at he
      · omega
      · exact absurd he.symm (hz0 k (by omega) hk)
    · split at he
      · exact absurd he (hz0 j (by omega) hj)
      · exact hinj j k (by omega) hj (by omega) hk he
  · rw [hO, hO] at he
    split at he
    · split at he
      · omega
      · have := hr k (by omega) hk
        omega
    · split at he
      · have := hr j (by omega) hj
        omega
      · exact hd j k (by omega) hj (by omega) hk he
  · rw [hO, toNat_false]
    split
    · omega
    · have := hr k (by omega) hk
      omega

/-- The overlays of the loop without a framebuffer. -/
theorem Pipes.Inv.placed_alone (h : p.Inv hwc_dev 0 done) :
    Placed hwc_dev.primary_transform.toNat p.scaled_gfx p.num_ovls
      (if p.scaled_gfx then editCfg p.ovls 0 (setIx p.num_ovls) else p.ovls) := by
  obtain ⟨⟨hstart, hfb, htop, hzs⟩, ⟨hd, hr, ho, hg, -⟩, ⟨hmgr, -, -, -⟩⟩ := h
  have hinj : ∀ j k, j < p.num_ovls → k < p.num_ovls →
      (p.ovls j).cfg.zorder = (p.ovls k).cfg.zorder → j = k := by
    intro j k hj hk he
    rw [hzs j (zero_le _) hj, hzs k (zero_le _) hk] at he
    split at he <;> split at he <;> omega
  cases hsg : p.scaled_gfx with
  | false =>
    refine ⟨fun k _ => hmgr k, hinj, fun j k hj hk => hd j k (zero_le _) hj (zero_le _) hk,
      fun k hk => ?_, fun hc => (false_ne_true hc).elim⟩
    have := hr k (zero_le _) hk
    simp only [false_eq_true, if_false, toNat_false]
    omega
  | true =>
    obtain ⟨-, hpt, hpos⟩ := hg hsg
    have hO : ∀ k, editCfg p.ovls 0 (setIx p.num_ovls) k =
        if k = 0 then ⟨setIx p.num_ovls (p.ovls 0).cfg, (p.ovls 0).addressing, (p.ovls 0).ba⟩
        else p.ovls k := fun k => update_apply ..
    have hix : ∀ k < p.num_ovls, (editCfg p.ovls 0 (setIx p.num_ovls) k).cfg.ix =
        if k = 0 then (p.num_ovls : Int) else k := by
      intro k hk
      rw [hO]
      split
      · rfl
      · rw [ho hsg k (zero_le _) hk, hpt]
        exact Int.add_zero _
    have hother : ∀ k, (editCfg p.ovls 0 (setIx p.num_ovls) k).cfg.zorder = (p.ovls k).cfg.zorder ∧
        (editCfg p.ovls 0 (setIx p.num_ovls) k).cfg.mgr_ix = (p.ovls k).cfg.mgr_ix := by
      intro k
      rw [hO]
      split
      · rename_i h0
        rw [h0]
        exact ⟨rfl, rfl⟩
      · exact ⟨rfl, rfl⟩
    simp only [if_true]
    refine ⟨fun k _ => ?_, fun j k hj hk he => ?_, fun j k hj hk he => ?_, fun k hk => ?_,
      fun _ => ?_⟩
    · rw [(hother k).2]
      exact hmgr k
    · rw [(hother j).1, (hother k).1] at he
      exact hinj j k hj hk he
    · rw [hix j hj, hix k hk] at he
      split at he <;> split at he <;> omega
    · rw [hix k hk, hpt, toNat_true, toNat_false]
      split <;> omega
    · exact ⟨by rw [hpt]; rfl, hpos, by rw [hix 0 hpos, if_pos rfl]⟩

theorem framebuffer_overlay_zorder (h : is_valid_format hwc_dev.fb_format) (o : Dss2OvlInfo)
    (fb_z : Int) : (framebuffer_overlay hwc_dev o fb_z).cfg.zorder = fb_z := by
  unfold framebuffer_overlay setup_layer_base color_mode
  unfold is_valid_format at h
  split at h <;> simp_all

theorem framebuffer_overlay_mgr_ix (hwc_dev : HwcDevice) (o : Dss2OvlInfo) (fb_z : Int) :
    (framebuffer_overlay hwc_dev o fb_z).cfg.mgr_ix = o.cfg.mgr_ix := by
  unfold framebuffer_overlay setup_layer_base
  cases color_mode hwc_dev.fb_format true <;> rfl

/-- The loop's pipes for a list. -/
def pipesOf (hwc_dev : HwcDevice) (list : Option (List HwcLayer)) : Pipes :=
  setup_pipes hwc_dev hwc_dev.use_sgx (list.getD [])

/-- What the stages after the loop leave of the frame. -/
structure Frame.Follows (hwc_dev : HwcDevice) (n : Nat) (f : Frame) : Prop where
  num_ovls : f.hwc_dev.dsscomp.num_ovls = n
  ext : f.hwc_dev.ext = hwc_dev.ext
  counts : f.hwc_dev.counts = hwc_dev.counts
  primary_transform : f.hwc_dev.primary_transform = hwc_dev.primary_transform
  ext_ovls : f.hwc_dev.ext_ovls = hwc_dev.ext_ovls
  ext_ovls_wanted : f.hwc_dev.ext_ovls_wanted = hwc_dev.ext_ovls_wanted
  last_ext_ovls : f.hwc_dev.last_ext_ovls = hwc_dev.last_ext_ovls
  last_int_ovls : f.hwc_dev.last_int_ovls = hwc_dev.last_int_ovls
  on_tv : f.hwc_dev.on_tv = hwc_dev.on_tv
  fb_format : f.hwc_dev.fb_format = hwc_dev.fb_format
  adjust : adjust_primary_display_layer f.hwc_dev = adjust_primary_display_layer hwc_dev

/-- The frame of a list that is not blitted as a whole. -/
theorem overlayFrame_placed (env : PrepareEnv) (list : Option (List HwcLayer))
    (hfb : is_valid_format hwc_dev.fb_format) :
    Frame.Follows hwc_dev (pipesOf hwc_dev list).num_ovls
      (setup_framebuffer (blit_rest env (overlayFrame hwc_dev list))) ∧
    Placed hwc_dev.primary_transform.toNat (pipesOf hwc_dev list).scaled_gfx
      (pipesOf hwc_dev list).num_ovls
      (setup_framebuffer (blit_rest env (overlayFrame hwc_dev list))).hwc_dev.dsscomp.ovls ∧
    (setup_framebuffer (blit_rest env (overlayFrame hwc_dev list))).ix_docking =
      (pipesOf hwc_dev list).ix_docking := by
  obtain ⟨sgx, num, bufs, buffers, list', blitted, he⟩ :=
    blit_rest_eq env (overlayFrame hwc_dev list)
  have hinv : (pipesOf hwc_dev list).Inv hwc_dev hwc_dev.use_sgx.toNat (list.getD []) :=
    setup_pipes_inv hwc_dev (list.getD [])
  rw [he]
  cases hsgx : hwc_dev.use_sgx with
  | false =>
    have hf : (overlayFrame hwc_dev list).needs_fb = false := hsgx
    unfold setup_framebuffer
    simp only [hf, false_eq_true, if_false]
    refine ⟨⟨rfl, rfl, rfl, rfl, rfl, rfl, rfl, rfl, rfl, rfl, rfl⟩, ?_, rfl⟩
    rw [hsgx] at hinv
    exact hinv.placed_alone
  | true =>
    have hf : (overlayFrame hwc_dev list).needs_fb := hsgx
    unfold setup_framebuffer
    simp only [hf, if_true]
    refine ⟨⟨rfl, rfl, rfl, rfl, rfl, rfl, rfl, rfl, rfl, rfl, rfl⟩, ?_, rfl⟩
    rw [hsgx] at hinv
    have hgfx : (pipesOf hwc_dev list).scaled_gfx = false := by
      by_contra hc
      exact Nat.one_ne_zero (hinv.indexed.gfx (by simpa using hc)).1
    have hovls : (overlayFrame hwc_dev list).hwc_dev.dsscomp.ovls =
      (pipesOf hwc_dev list).ovls := by
      show (if (pipesOf hwc_dev list).scaled_gfx then _ else _) = _
      rw [hgfx]
      rfl
    rw [hgfx]
    show Placed _ _ _ (update (overlayFrame hwc_dev list).hwc_dev.dsscomp.ovls 0 _)
    rw [hovls]
    exact hinv.placed_framebuffer (framebuffer_overlay_zorder hfb ..)
      ((framebuffer_overlay_mgr_ix ..).trans (hinv.bounded.mgr_ix 0)) rfl

end OmapHal.Hwc
