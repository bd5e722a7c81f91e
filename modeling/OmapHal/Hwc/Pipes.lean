import OmapHal.Core.Run
import OmapHal.Hwc.Prepare

/-!
# The loop that gives overlays to layers

What one layer does to the pipes, and what holds of them after any list: the heights of
the overlays leave exactly the place of the framebuffer free, and the pipe indices count
up except where the GFX pipe has been exchanged.
-/

namespace OmapHal.Hwc

open OmapHal.Core

variable {hwc_dev : HwcDevice} {p : Pipes} {layer : HwcLayer} {handle : NativeHandle} {k : Nat}

/-- A layer is given an overlay, or it is left. -/
theorem visit_cases (hwc_dev : HwcDevice) (p : Pipes) (layer : HwcLayer) :
    (∃ handle, layer.handle.deref? = some handle ∧ takes_overlay hwc_dev p layer handle ∧
      p.visit hwc_dev layer = p.add_overlay hwc_dev layer handle) ∨
    ((∀ handle, layer.handle.deref? = some handle → takes_overlay hwc_dev p layer handle = false) ∧
      p.visit hwc_dev layer = p.leave hwc_dev layer) := by
  unfold Pipes.visit
  cases h : layer.handle.deref?.filter (takes_overlay hwc_dev p layer) with
  | some handle =>
    obtain ⟨hd, ht⟩ := Option.filter_eq_some_iff.mp h
    exact .inl ⟨handle, hd, ht, rfl⟩
  | none =>
    refine .inr ⟨fun handle hd => ?_, rfl⟩
    rw [hd] at h
    simpa using h

/-- What it takes to be given an overlay. -/
theorem takes_overlay_iff :
    takes_overlay hwc_dev p layer handle ↔
      p.num_ovls < hwc_dev.counts.max_hw_overlays ∧
      can_dss_render_layer hwc_dev layer handle ∧
      (hwc_dev.force_sgx = 0 ∨ is_protected handle ∨
        is_upscaled_NV12 hwc_dev layer handle ∨
        (hwc_dev.ext.current.docking ∧ hwc_dev.ext.current.enabled ∧
          dockable handle)) ∧
      u32 (p.mem_used + mem1d handle) ≤ hwc_dev.limits.tiler1d_slot_size ∧
      (is_BLENDED layer → p.fb_z < 0) := by
  unfold takes_overlay
  simp only [Bool.and_eq_true, Bool.or_eq_true, decide_eq_true_eq, beq_iff_eq, Bool.not_eq_true',
    Bool.and_eq_false_iff, decide_eq_false_iff_not, ge_iff_le, not_le]
  constructor
  · rintro ⟨⟨⟨⟨h1, h2⟩, h3⟩, h4⟩, h5⟩
    refine ⟨h1, h2, ?_, h4, fun hb => h5.resolve_left (by simp [hb])⟩
    rcases h3 with ((h3 | h3) | h3) | h3
    · exact .inl h3
    · exact .inr (.inl h3)
    · exact .inr (.inr (.inl h3))
    · exact .inr (.inr (.inr ⟨h3.1.1, h3.1.2, h3.2⟩))
  · rintro ⟨h1, h2, h3, h4, h5⟩
    refine ⟨⟨⟨⟨h1, h2⟩, ?_⟩, h4⟩, ?_⟩
    · rcases h3 with h3 | h3 | h3 | ⟨h3, h3', h3''⟩
      · exact .inl (.inl (.inl h3))
      · exact .inl (.inl (.inr h3))
      · exact .inl (.inr h3)
      · exact .inr ⟨⟨h3, h3'⟩, h3''⟩
    · by_cases hb : is_BLENDED layer
      · exact .inr (h5 hb)
      · exact .inl (by simpa using hb)

theorem can_dss_render_layer_valid (h : can_dss_render_layer hwc_dev layer handle) :
    is_valid_layer hwc_dev layer handle = true := by
  unfold can_dss_render_layer at h
  simp only [Bool.and_eq_true] at h
  exact h.1.1.1.1

theorem takes_overlay_format (h : takes_overlay hwc_dev p layer handle) :
    is_valid_format handle.iFormat = true :=
  (is_valid_layer_format (can_dss_render_layer_valid (takes_overlay_iff.mp h).2.1)).2

/-! ### Editing overlays -/

@[simp] theorem editCfg_apply_of_ne {ovls : Nat → Dss2OvlInfo} {f : Dss2OvlCfg → Dss2OvlCfg}
    {j : Nat}
    (h : k ≠ j) : editCfg ovls j f k = ovls k := Function.update_of_ne h ..

@[simp] theorem editCfg_apply_self (ovls : Nat → Dss2OvlInfo) (f : Dss2OvlCfg → Dss2OvlCfg) :
    editCfg ovls k f k = { ovls k with cfg := f (ovls k).cfg } := Function.update_self ..

/-- Lowering the overlays from a framebuffer up to a new one. -/
theorem lower_overlays_eq (n : Nat) (ovls : Nat → Dss2OvlInfo) {fb_z : Int} (h : 0 ≤ fb_z) :
    lower_overlays n ovls fb_z =
      (fun k : Nat => if fb_z < k ∧ (k : Int) ≤ fb_z + n then
          { ovls k with cfg := lowerZ (ovls k).cfg } else ovls k,
        fb_z + n) := by
  induction n generalizing ovls fb_z with
  | zero =>
    refine Prod.ext (funext fun k => ?_) (by simp [lower_overlays])
    exact (if_neg (by omega)).symm
  | succ n ih =>
    rw [lower_overlays, ih _ (by omega)]
    refine Prod.ext (funext fun k => ?_) (by push_cast; omega)
    by_cases hk : k = (1 + fb_z).toNat
    · subst hk
      simp only [editCfg_apply_self]
      rw [if_neg (by omega), if_pos (by omega)]
    · simp only [editCfg_apply_of_ne hk]
      by_cases hr : fb_z + 1 < (k : Int) ∧ (k : Int) ≤ fb_z + 1 + n
      · rw [if_pos hr, if_pos (by omega)]
      · rw [if_neg hr, if_neg (by omega)]

/-! ### Leaving a layer -/

@[simp] theorem leave_num_ovls : (p.leave hwc_dev layer).num_ovls = p.num_ovls := by
  unfold Pipes.leave
  split
  · split <;> rfl
  · rfl

@[simp] theorem leave_scaled_gfx : (p.leave hwc_dev layer).scaled_gfx = p.scaled_gfx := by
  unfold Pipes.leave
  split
  · split <;> rfl
  · rfl

@[simp] theorem leave_ix_docking : (p.leave hwc_dev layer).ix_docking = p.ix_docking := by
  unfold Pipes.leave
  split
  · split <;> rfl
  · rfl

@[simp] theorem leave_source : (p.leave hwc_dev layer).source = p.source := by
  unfold Pipes.leave
  split
  · split <;> rfl
  · rfl

@[simp] theorem leave_buffers : (p.leave hwc_dev layer).buffers = p.buffers := by
  unfold Pipes.leave
  split
  · split <;> rfl
  · rfl

@[simp] theorem leave_visited : (p.leave hwc_dev layer).visited = p.visited ++ [layer] := by
  unfold Pipes.leave
  split
  · split <;> rfl
  · rfl

/-- Leaving a layer at most lowers overlays. -/
theorem leave_ovls (k : Nat) :
    (p.leave hwc_dev layer).ovls k =
      if hwc_dev.use_sgx ∧ 0 ≤ p.fb_z ∧ p.fb_z < k ∧ (k : Int) ≤ p.z - 1 then
        { p.ovls k with cfg := lowerZ (p.ovls k).cfg }
      else p.ovls k := by
  unfold Pipes.leave
  by_cases hs : hwc_dev.use_sgx
  · rw [if_pos hs]
    by_cases hf : p.fb_z < 0
    · rw [if_pos hf]
      exact (if_neg (by omega)).symm
    · rw [if_neg hf, lower_overlays_eq _ _ (by omega)]
      simp only [hs, true_and]
      by_cases hr : p.fb_z < k ∧ (k : Int) ≤ p.z - 1
      · rw [if_pos (by omega), if_pos (by omega)]
      · rw [if_neg (by omega), if_neg (by omega)]
  · rw [if_neg hs]
    exact (if_neg fun h => hs h.1).symm

/-- The framebuffer's place after a layer is left: the first one free, or just below the
top. -/
theorem leave_fb_z (hwc_dev : HwcDevice) (p : Pipes) (layer : HwcLayer) :
    (p.leave hwc_dev layer).fb_z =
      if hwc_dev.use_sgx then (if p.fb_z < 0 then p.z else max p.fb_z (p.z - 1)) else p.fb_z := by
  unfold Pipes.leave
  by_cases hs : hwc_dev.use_sgx
  · rw [if_pos hs, if_pos hs]
    by_cases hf : p.fb_z < 0
    · rw [if_pos hf, if_pos hf]
    · rw [if_neg hf, if_neg hf, lower_overlays_eq _ _ (by omega)]
      show p.fb_z + ((p.z - 1 - p.fb_z).toNat : Int) = max p.fb_z (p.z - 1)
      omega
  · rw [if_neg hs, if_neg hs]

theorem leave_z (hwc_dev : HwcDevice) (p : Pipes) (layer : HwcLayer) :
    (p.leave hwc_dev layer).z = if hwc_dev.use_sgx ∧ p.fb_z < 0 then p.z + 1 else p.z := by
  unfold Pipes.leave
  by_cases hs : hwc_dev.use_sgx
  · rw [if_pos hs]
    by_cases hf : p.fb_z < 0
    · rw [if_pos hf, if_pos ⟨hs, hf⟩]
    · rw [if_neg hf, if_neg fun h => hf h.2]
  · rw [if_neg hs, if_neg fun h => hs h.1]

/-! ### Adding an overlay -/

/-- The configuration of a new overlay before pipes are exchanged. -/
def newCfg (hwc_dev : HwcDevice) (p : Pipes) (layer : HwcLayer) (handle : NativeHandle) :
    Dss2OvlCfg :=
  setIx (p.num_ovls + hwc_dev.primary_transform.toNat) (setup_layer layer handle p.z)

/-- The layer's content needs a pipe that scales. -/
def scales (layer : HwcLayer) (handle : NativeHandle) : Bool := scaled layer || is_NV12 handle

/-- The new overlay takes the GFX pipe from a scaled layer. -/
def exchanges (hwc_dev : HwcDevice) (p : Pipes) (layer : HwcLayer) (handle : NativeHandle) : Prop :=
  ¬(p.num_ovls = 0 ∧ hwc_dev.primary_transform = false) ∧ p.scaled_gfx = true ∧
    scales layer handle = false

instance : Decidable (exchanges hwc_dev p layer handle) := by
  unfold exchanges
  infer_instance

/-- An addition changes at most the pipe of the others. -/
theorem add_overlay_ovls (k : Nat) :
    (p.add_overlay hwc_dev layer handle).ovls k =
      if exchanges hwc_dev p layer handle then
        editCfg (editCfg (Function.update p.ovls p.num_ovls
          ⟨newCfg hwc_dev p layer handle, .layerIx, p.num_ovls⟩) p.num_ovls (setIx 0)) 0
          (setIx p.num_ovls) k
      else Function.update p.ovls p.num_ovls
        ⟨newCfg hwc_dev p layer handle, .layerIx, p.num_ovls⟩ k := by
  unfold Pipes.add_overlay exchanges scales newCfg
  by_cases h0 : p.num_ovls = 0 ∧ hwc_dev.primary_transform = false
  · simp [h0]
  · have h0' : ¬(p.num_ovls = 0 ∧ ¬hwc_dev.primary_transform) := by simpa using h0
    simp only [if_neg h0', h0, not_false_eq_true, true_and]
    by_cases hx : p.scaled_gfx ∧ (scaled layer || is_NV12 handle) = false
    · rw [if_pos (by simp only [hx, Bool.not_false, Bool.and_self]), if_pos hx]
    · rw [if_neg hx, if_neg]
      simpa using hx

theorem add_overlay_scaled_gfx :
    (p.add_overlay hwc_dev layer handle).scaled_gfx =
      if p.num_ovls = 0 ∧ hwc_dev.primary_transform = false then scales layer handle
      else p.scaled_gfx && scales layer handle := by
  unfold Pipes.add_overlay scales
  by_cases h0 : p.num_ovls = 0 ∧ hwc_dev.primary_transform = false
  · simp [h0]
  · have h0' : ¬(p.num_ovls = 0 ∧ ¬hwc_dev.primary_transform) := by simpa using h0
    simp only [if_neg h0', if_neg h0]
    cases p.scaled_gfx <;> cases (scaled layer || is_NV12 handle) <;> rfl

end OmapHal.Hwc
