import OmapHal.Hwc.Pipes

/-!
# Places of the overlays

Invariants of the loop over the layers: where each overlay stands in the stack, with the
framebuffer's place left free, and which pipe it uses. An overlay keeps everything else
as `setup_layer` wrote it.
-/

namespace OmapHal.Hwc

open Function

variable {hwc_dev : HwcDevice} {p : Pipes} {layer : HwcLayer} {handle : NativeHandle} {s k : Nat}
  {β : Type}

/-- What does not depend on the pipe is as it was written. -/
theorem add_overlay_info {f : Dss2OvlInfo → β}
    (hf : ∀ ix o, f { o with cfg := setIx ix o.cfg } = f o) (k : Nat) :
    f ((p.add_overlay hwc_dev layer handle).ovls k) =
      if k = p.num_ovls then f ⟨setup_layer layer handle p.z, .layerIx, p.num_ovls⟩
      else f (p.ovls k) := by
  have hnew : ∀ k, f (update p.ovls p.num_ovls
      ⟨newCfg hwc_dev p layer handle, .layerIx, p.num_ovls⟩ k) =
      if k = p.num_ovls then f ⟨setup_layer layer handle p.z, .layerIx, p.num_ovls⟩
      else f (p.ovls k) := by
    intro k
    by_cases hk : k = p.num_ovls
    · subst hk
      rw [update_self, if_pos rfl]
      exact hf _ ⟨setup_layer layer handle p.z, .layerIx, p.num_ovls⟩
    · rw [update_of_ne hk, if_neg hk]
  have hedit : ∀ (ovls : Nat → Dss2OvlInfo) (j : Nat) (ix : Int) (k : Nat),
      f (editCfg ovls j (setIx ix) k) = f (ovls k) := by
    intro ovls j ix k
    by_cases hk : k = j
    · subst hk
      rw [editCfg_apply_self]
      exact hf _ _
    · rw [editCfg_apply_of_ne hk]
  rw [add_overlay_ovls]
  split
  · rw [hedit, hedit, hnew]
  · exact hnew k

/-- What does not depend on the pipe is as `setup_layer` wrote it. -/
theorem add_overlay_cfg {f : Dss2OvlCfg → β} (hf : ∀ ix cfg, f (setIx ix cfg) = f cfg) (k : Nat) :
    f ((p.add_overlay hwc_dev layer handle).ovls k).cfg =
      if k = p.num_ovls then f (setup_layer layer handle p.z) else f (p.ovls k).cfg :=
  add_overlay_info (f := fun o => f o.cfg) (fun ix o => hf ix o.cfg) k

/-- What does not depend on the height survives leaving a layer. -/
theorem leave_info {f : Dss2OvlInfo → β} (hf : ∀ o, f { o with cfg := lowerZ o.cfg } = f o)
    (k : Nat) : f ((p.leave hwc_dev layer).ovls k) = f (p.ovls k) := by
  rw [leave_ovls]
  split
  · exact hf _
  · rfl

theorem leave_cfg {f : Dss2OvlCfg → β} (hf : ∀ cfg, f (lowerZ cfg) = f cfg) (k : Nat) :
    f ((p.leave hwc_dev layer).ovls k).cfg = f (p.ovls k).cfg :=
  leave_info (f := fun o => f o.cfg) (fun o => hf o.cfg) k

/-- The pipe of each overlay after an addition. -/
theorem add_overlay_ix (k : Nat) :
    ((p.add_overlay hwc_dev layer handle).ovls k).cfg.ix =
      if exchanges hwc_dev p layer handle then
        if k = 0 then (p.num_ovls : Int) else if k = p.num_ovls then 0 else (p.ovls k).cfg.ix
      else if k = p.num_ovls then (p.num_ovls : Int) + hwc_dev.primary_transform.toNat
      else (p.ovls k).cfg.ix := by
  have hnew : ∀ k, (update p.ovls p.num_ovls
      ⟨newCfg hwc_dev p layer handle, .layerIx, p.num_ovls⟩ k).cfg.ix =
      if k = p.num_ovls then (p.num_ovls : Int) + hwc_dev.primary_transform.toNat
      else (p.ovls k).cfg.ix := by
    intro k
    by_cases hk : k = p.num_ovls
    · subst hk
      rw [update_self, if_pos rfl]
      rfl
    · rw [update_of_ne hk, if_neg hk]
  rw [add_overlay_ovls]
  split
  · by_cases hk : k = 0
    · subst hk
      rw [editCfg_apply_self, if_pos rfl]
      rfl
    · rw [editCfg_apply_of_ne hk, if_neg hk]
      by_cases hn : k = p.num_ovls
      · subst hn
        rw [editCfg_apply_self, if_pos rfl]
        rfl
      · rw [editCfg_apply_of_ne hn, hnew, if_neg hn, if_neg hn]
  · exact hnew k

/-! ### Heights -/

/-- The overlays from `s` on stand in their order, with a place for the framebuffer once
it has one. -/
structure Pipes.Stacked (s : Nat) (p : Pipes) : Prop where
  start : s ≤ p.num_ovls
  fb : p.fb_z = -1 ∨ (s = 1 ∧ 0 ≤ p.fb_z ∧ p.fb_z < p.z)
  top : p.z = p.num_ovls - s + if 0 ≤ p.fb_z then 1 else 0
  zorder : ∀ k, s ≤ k → k < p.num_ovls →
    (p.ovls k).cfg.zorder = k - s + if 0 ≤ p.fb_z ∧ p.fb_z < k then 1 else 0

theorem stacked_start (hwc_dev : HwcDevice) (needs_fb : Bool) :
    (Pipes.start hwc_dev needs_fb).Stacked needs_fb.toNat := by
  unfold Pipes.start
  cases needs_fb with
  | true => exact ⟨by simp, Or.inl rfl, by simp, fun k h h' => by simp at h h'; omega⟩
  | false => exact ⟨by simp, Or.inl rfl, by simp, fun k h h' => by simp at h'⟩

theorem Pipes.Stacked.add_overlay (h : p.Stacked s) (hf : is_valid_format handle.iFormat) :
    (p.add_overlay hwc_dev layer handle).Stacked s := by
  obtain ⟨hstart, hfb, htop, hz⟩ := h
  refine ⟨Nat.le_succ_of_le hstart, ?_, ?_, ?_⟩
  · show p.fb_z = -1 ∨ (s = 1 ∧ 0 ≤ p.fb_z ∧ p.fb_z < p.z + 1)
    omega
  · show p.z + 1 = ((p.num_ovls + 1 : Nat) : Int) - s + if 0 ≤ p.fb_z then 1 else 0
    omega
  · intro k hs hk
    rw [add_overlay_cfg (f := Dss2OvlCfg.zorder) (fun _ _ => rfl)]
    show _ = (k : Int) - s + if 0 ≤ p.fb_z ∧ p.fb_z < k then 1 else 0
    by_cases hn : k = p.num_ovls
    · rw [if_pos hn, setup_layer_zorder hf]
      split at htop <;> split <;> omega
    · have hlt : k < p.num_ovls := by
        have hk' : k < p.num_ovls + 1 := hk
        omega
      rw [if_neg hn]
      exact hz k hs hlt

theorem Pipes.Stacked.leave (h : p.Stacked s) (hs : s = hwc_dev.use_sgx.toNat) :
    (p.leave hwc_dev layer).Stacked s := by
  obtain ⟨hstart, hfb, htop, hz⟩ := h
  have hfbz := leave_fb_z hwc_dev p layer
  have hlz := leave_z hwc_dev p layer
  cases hsgx : hwc_dev.use_sgx with
  | false =>
    rw [hsgx] at hs hfbz hlz
    simp only [Bool.false_eq_true, if_false, false_and] at hfbz hlz
    refine ⟨by rwa [leave_num_ovls], ?_, ?_, ?_⟩
    · rwa [hfbz, hlz]
    · rwa [hfbz, hlz, leave_num_ovls]
    · intro k hk hk'
      rw [leave_num_ovls] at hk'
      rw [leave_ovls, if_neg (by simp [hsgx]), hfbz]
      exact hz k hk hk'
  | true =>
    rw [hsgx] at hs hfbz hlz
    simp only [if_true, true_and] at hfbz hlz
    have hs1 : s = 1 := hs
    refine ⟨by rwa [leave_num_ovls], ?_, ?_, ?_⟩
    · rw [hfbz, hlz]
      split <;> omega
    · rw [hfbz, hlz, leave_num_ovls]
      split at htop <;> split <;> omega
    · intro k hk hk'
      rw [leave_num_ovls] at hk'
      have hzk := hz k hk hk'
      rw [leave_ovls, hfbz]
      by_cases hneg : p.fb_z < 0
      · rw [if_neg (by omega), if_pos hneg]
        rw [if_neg (by omega)] at htop hzk
        rw [if_neg (by omega)]
        exact hzk
      · rw [if_neg hneg]
        rw [if_pos (by omega)] at htop
        by_cases hlow : p.fb_z < k
        · rw [if_pos ⟨hsgx, by omega, hlow, by omega⟩, if_neg (by omega)]
          rw [if_pos ⟨by omega, hlow⟩] at hzk
          show (p.ovls k).cfg.zorder - 1 = _
          omega
        · rw [if_neg fun h => hlow h.2.2.1, if_neg (by omega)]
          rw [if_neg fun h => hlow h.2] at hzk
          exact hzk

/-! ### Pipes -/

/-- The overlays from `s` on use different pipes, the first ones there are. -/
structure Pipes.Indexed (hwc_dev : HwcDevice) (s : Nat) (p : Pipes) : Prop where
  distinct : ∀ j k, s ≤ j → j < p.num_ovls → s ≤ k → k < p.num_ovls →
    (p.ovls j).cfg.ix = (p.ovls k).cfg.ix → j = k
  range : ∀ k, s ≤ k → k < p.num_ovls → s + hwc_dev.primary_transform.toNat ≤ (p.ovls k).cfg.ix ∧
    (p.ovls k).cfg.ix < p.num_ovls + hwc_dev.primary_transform.toNat
  inOrder : p.scaled_gfx = true → ∀ k, s ≤ k → k < p.num_ovls →
    (p.ovls k).cfg.ix = k + hwc_dev.primary_transform.toNat
  gfx : p.scaled_gfx = true → s = 0 ∧ hwc_dev.primary_transform = false ∧ 0 < p.num_ovls
  start : s ≤ p.num_ovls

theorem indexed_start (hwc_dev : HwcDevice) (needs_fb : Bool) :
    (Pipes.start hwc_dev needs_fb).Indexed hwc_dev needs_fb.toNat := by
  unfold Pipes.start
  cases needs_fb <;> constructor <;> simp <;> omega

theorem Pipes.Indexed.add_overlay (h : p.Indexed hwc_dev s) :
    (p.add_overlay hwc_dev layer handle).Indexed hwc_dev s := by
  obtain ⟨hd, hr, ho, hg, hstart⟩ := h
  have hnum : (p.add_overlay hwc_dev layer handle).num_ovls = p.num_ovls + 1 := rfl
  by_cases hx : exchanges hwc_dev p layer handle
  · obtain ⟨hs0, hpt, hpos⟩ := hg hx.2.1
    have hix : ∀ k, s ≤ k → k < p.num_ovls + 1 →
        ((p.add_overlay hwc_dev layer handle).ovls k).cfg.ix =
          if k = 0 then (p.num_ovls : Int) else if k = p.num_ovls then 0 else k := by
      intro k hk hk'
      rw [add_overlay_ix, if_pos hx]
      by_cases h0 : k = 0
      · rw [if_pos h0, if_pos h0]
      · rw [if_neg h0, if_neg h0]
        by_cases hn : k = p.num_ovls
        · rw [if_pos hn, if_pos hn]
        · rw [if_neg hn, if_neg hn, ho hx.2.1 k hk (by omega), hpt]
          exact Int.add_zero _
    have hgfx : (p.add_overlay hwc_dev layer handle).scaled_gfx = false := by
      rw [add_overlay_scaled_gfx, if_neg hx.1, hx.2.2, Bool.and_false]
    refine ⟨?_, ?_, ?_, ?_, Nat.le_succ_of_le hstart⟩
    · intro j k hj hj' hk hk' he
      rw [hnum] at hj' hk'
      rw [hix j hj hj', hix k hk hk'] at he
      split at he <;> split at he <;> omega
    · intro k hk hk'
      rw [hnum] at hk' ⊢
      rw [hix k hk hk', hpt, hs0]
      simp only [Bool.toNat_false]
      split
      · omega
      · split <;> omega
    · rw [hgfx]
      intro hc
      cases hc
    · rw [hgfx]
      intro hc
      cases hc
  · have hix : ∀ k, ((p.add_overlay hwc_dev layer handle).ovls k).cfg.ix =
        if k = p.num_ovls then (p.num_ovls : Int) + hwc_dev.primary_transform.toNat
        else (p.ovls k).cfg.ix := by
      intro k
      rw [add_overlay_ix, if_neg hx]
    have hold : (p.add_overlay hwc_dev layer handle).scaled_gfx →
        ∀ k, s ≤ k → k < p.num_ovls → (p.ovls k).cfg.ix = k + hwc_dev.primary_transform.toNat := by
      intro hsg k hk hk'
      rw [add_overlay_scaled_gfx] at hsg
      split at hsg
      · omega
      · exact ho (Bool.and_eq_true _ _ ▸ hsg).1 k hk hk'
    refine ⟨?_, ?_, ?_, ?_, Nat.le_succ_of_le hstart⟩
    · intro j k hj hj' hk hk' he
      rw [hnum] at hj' hk'
      rw [hix, hix] at he
      by_cases hjn : j = p.num_ovls
      · by_cases hkn : k = p.num_ovls
        · omega
        · have := (hr k hk (by omega)).2
          rw [if_pos hjn, if_neg hkn] at he
          omega
      · by_cases hkn : k = p.num_ovls
        · have := (hr j hj (by omega)).2
          rw [if_neg hjn, if_pos hkn] at he
          omega
        · rw [if_neg hjn, if_neg hkn] at he
          exact hd j k hj (by omega) hk (by omega) he
    · intro k hk hk'
      rw [hnum] at hk' ⊢
      rw [hix]
      by_cases hkn : k = p.num_ovls
      · rw [if_pos hkn]
        omega
      · have := hr k hk (by omega)
        rw [if_neg hkn]
        omega
    · intro hsg k hk hk'
      rw [hnum] at hk'
      rw [hix]
      by_cases hkn : k = p.num_ovls
      · rw [if_pos hkn, hkn]
      · rw [if_neg hkn]
        exact hold hsg k hk (by omega)
    · intro hsg
      rw [add_overlay_scaled_gfx] at hsg
      split at hsg
      · rename_i h0
        exact ⟨by omega, h0.2, Nat.succ_pos _⟩
      · obtain ⟨h1, h2, -⟩ := hg (Bool.and_eq_true _ _ ▸ hsg).1
        exact ⟨h1, h2, Nat.succ_pos _⟩

theorem Pipes.Indexed.leave (h : p.Indexed hwc_dev s) :
    (p.leave hwc_dev layer).Indexed hwc_dev s := by
  obtain ⟨hd, hr, ho, hg, hstart⟩ := h
  have hix : ∀ k, ((p.leave hwc_dev layer).ovls k).cfg.ix = (p.ovls k).cfg.ix :=
    leave_cfg (f := Dss2OvlCfg.ix) fun _ => rfl
  constructor
  all_goals simp only [leave_num_ovls, leave_scaled_gfx, hix]
  all_goals assumption

end OmapHal.Hwc
