import OmapHal.Hwc.Internal

/-!
# The overlays of the external display

What cloning adds to a frame: overlays on the second manager, on pipes counted down from
the last one, behind the overlays of the internal display in the array.
-/

namespace OmapHal.Hwc

open Function Nat

variable {env : PrepareEnv} {hwc_dev d : HwcDevice} {f : Frame} {n c ix : Nat}

/-- Settings that cloning does not touch. -/
structure SameSettings (ext ext' : OmapHwcExt) : Prop where
  mirror : ext'.mirror = ext.mirror
  dock : ext'.dock = ext.dock
  force_dock : ext'.force_dock = ext.force_dock
  hdmi_state : ext'.hdmi_state = ext.hdmi_state

theorem SameSettings.refl (ext : OmapHwcExt) : SameSettings ext ext := ⟨rfl, rfl, rfl, rfl⟩

/-- An overlay of the external display at position `j` behind `n` internal ones. -/
structure ClonedAt (n j : Nat) (o : Dss2OvlInfo) : Prop where
  ix : o.cfg.ix = 3 - (j : Int)
  mgr_ix : o.cfg.mgr_ix = 1

/-- `clone_layer` adds one overlay behind the others. -/
theorem clone_layer_spec (hwc_dev : HwcDevice) (hn : hwc_dev.dsscomp.num_ovls < 4)
    (hp : hwc_dev.post2_layers ≤ hwc_dev.dsscomp.num_ovls) (ix : Nat) :
    ∃ o, clone_layer hwc_dev ix = some (hwc_dev.setDsscomp
        (update hwc_dev.dsscomp.ovls hwc_dev.dsscomp.num_ovls o) (hwc_dev.dsscomp.num_ovls + 1)) ∧
      ClonedAt hwc_dev.post2_layers (hwc_dev.dsscomp.num_ovls - hwc_dev.post2_layers) o ∧
      o.cfg.zorder = (hwc_dev.dsscomp.ovls ix).cfg.zorder + hwc_dev.post2_layers := by
  unfold clone_layer MAX_HW_OVERLAYS
  rw [if_neg (by omega)]
  refine ⟨_, rfl, ?_, ?_⟩
  all_goals
    generalize hcfg : Dss2OvlCfg.mk _ _ _ _ _ _ _ _ _ _ _ _ _ _ = cfg
    have hsame := adjust_ext_layer_samePlace hwc_dev.ext cfg
  · refine ⟨?_, ?_⟩
    · have h : (adjust_ext_layer hwc_dev.ext cfg).ix =
          3 - ((hwc_dev.dsscomp.num_ovls - hwc_dev.post2_layers : Nat) : Int) := by
        rw [hsame.ix, ← hcfg]
        show (4 : Int) - 1 - (hwc_dev.dsscomp.num_ovls - hwc_dev.post2_layers) = _
        omega
      split <;> exact h
    · have h : (adjust_ext_layer hwc_dev.ext cfg).mgr_ix = 1 := by
        rw [hsame.mgr_ix, ← hcfg]
      split <;> exact h
  · have h : (adjust_ext_layer hwc_dev.ext cfg).zorder =
        (hwc_dev.dsscomp.ovls ix).cfg.zorder + hwc_dev.post2_layers := by
      rw [hsame.zorder, ← hcfg]
    split <;> exact h

/-- Cloning one overlay after the other, while there are overlays left. -/
theorem clone_layers_spec (rounds ix : Nat) (hwc_dev : HwcDevice)
    (hn : hwc_dev.dsscomp.num_ovls + rounds ≤ 4)
    (hp : hwc_dev.post2_layers ≤ hwc_dev.dsscomp.num_ovls)
    (hix : ix + rounds ≤ hwc_dev.dsscomp.num_ovls) :
    ∃ ovls, clone_layers rounds ix hwc_dev =
        hwc_dev.setDsscomp ovls (hwc_dev.dsscomp.num_ovls + rounds) ∧
      (∀ k < hwc_dev.dsscomp.num_ovls, ovls k = hwc_dev.dsscomp.ovls k) ∧
      ∀ j < rounds, ClonedAt hwc_dev.post2_layers
          (hwc_dev.dsscomp.num_ovls + j - hwc_dev.post2_layers)
          (ovls (hwc_dev.dsscomp.num_ovls + j)) ∧
        (ovls (hwc_dev.dsscomp.num_ovls + j)).cfg.zorder =
          (hwc_dev.dsscomp.ovls (ix + j)).cfg.zorder + hwc_dev.post2_layers := by
  induction rounds generalizing ix hwc_dev with
  | zero =>
      exact ⟨hwc_dev.dsscomp.ovls, rfl, fun _ _ => rfl, fun j hj => absurd hj (not_lt_zero j)⟩
  | succ rounds ih =>
    obtain ⟨o, he, hplace, hzo⟩ := clone_layer_spec _ (by omega) hp ix
    rw [clone_layers, he]
    obtain ⟨ovls, he', hlow, hhigh⟩ := ih (ix + 1) (hwc_dev.setDsscomp
      (update hwc_dev.dsscomp.ovls hwc_dev.dsscomp.num_ovls o)
      (hwc_dev.dsscomp.num_ovls + 1)) (by show _ + 1 + _ ≤ 4; omega)
      (by show hwc_dev.post2_layers ≤ _ + 1; omega) (by show _ ≤ _ + 1; omega)
    have hfirst : ovls hwc_dev.dsscomp.num_ovls = o :=
      (hlow _ (lt_succ_self _)).trans (update_self ..)
    refine ⟨ovls, ?_, fun k hk => ?_, fun j hj => ?_⟩
    · show clone_layers rounds (ix + 1) _ = _
      rw [he']
      show hwc_dev.setDsscomp ovls (hwc_dev.dsscomp.num_ovls + 1 + rounds) = _
      rw [Nat.add_assoc, Nat.add_comm 1]
    · rw [hlow k (lt_succ_of_lt hk)]
      exact update_of_ne (Nat.ne_of_lt hk) ..
    · cases j with
      | zero =>
        rw [Nat.add_zero, hfirst]
        exact ⟨hplace, hzo⟩
      | succ j =>
        obtain ⟨h1, h2⟩ := hhigh j (lt_of_succ_lt_succ hj)
        have hidx : hwc_dev.dsscomp.num_ovls + 1 + j = hwc_dev.dsscomp.num_ovls +
          (j + 1) := by omega
        have hne : ix + 1 + j ≠ hwc_dev.dsscomp.num_ovls := by omega
        have hsrc : ix + 1 + j = ix + (j + 1) := by omega
        refine ⟨?_, ?_⟩
        · rw [← hidx]
          exact h1
        · rw [← hidx]
          refine h2.trans ?_
          show (update hwc_dev.dsscomp.ovls hwc_dev.dsscomp.num_ovls o
            (ix + 1 + j)).cfg.zorder + _ = _
          rw [update_of_ne hne, hsrc]
          rfl

/-- `clone_external_layer` adds one overlay, or fails without adding any. -/
theorem clone_external_layer_spec (env : PrepareEnv) (hwc_dev : HwcDevice)
    (hn : hwc_dev.dsscomp.num_ovls < 4)
    (hp : hwc_dev.post2_layers ≤ hwc_dev.dsscomp.num_ovls) (ix : Nat) :
    (∃ ext o, clone_external_layer env hwc_dev ix =
        ({ hwc_dev with ext := ext }.setDsscomp
          (update hwc_dev.dsscomp.ovls hwc_dev.dsscomp.num_ovls o)
          (hwc_dev.dsscomp.num_ovls + 1), true) ∧
      SameSettings hwc_dev.ext ext ∧
      ClonedAt hwc_dev.post2_layers (hwc_dev.dsscomp.num_ovls - hwc_dev.post2_layers) o) ∨
    ∃ ext, clone_external_layer env hwc_dev ix = ({ hwc_dev with ext := ext }, false) ∧
      SameSettings hwc_dev.ext ext := by
  unfold clone_external_layer
  simp only
  generalize hext : (if env.hdmi_mode_differs hwc_dev.ext (hwc_dev.dsscomp.ovls ix).cfg then
    env.best_hdmi_mode.map hwc_dev.ext.withMode else some hwc_dev.ext) = ext
  cases ext with
  | none => exact .inr ⟨_, rfl, ⟨rfl, rfl, rfl, rfl⟩⟩
  | some ext =>
    have hsame : SameSettings hwc_dev.ext ext := by
      split at hext
      · obtain ⟨mode, -, rfl⟩ := Option.map_eq_some_iff.mp hext
        exact ⟨rfl, rfl, rfl, rfl⟩
      · cases hext
        exact .refl _
    let ext' := { ext with m := env.ext_matrix ext (hwc_dev.dsscomp.ovls ix).cfg.win.toRect }
    obtain ⟨o, he, hplace, -⟩ :=
      clone_layer_spec { hwc_dev with ext := ext' } hn hp ix
    refine .inl ⟨ext', o, ?_, ?_, hplace⟩
    · dsimp only [ext'] at he
      simp only [he]
      rfl
    · exact { hsame with }

/-- The device `d` is `hwc_dev` with `c` overlays of the external display added. -/
structure Extended (hwc_dev : HwcDevice) (c : Nat) (d : HwcDevice) : Prop where
  rest : ∃ ext ovls, SameSettings hwc_dev.ext ext ∧ d =
    { hwc_dev with ext := ext }.setDsscomp ovls (hwc_dev.dsscomp.num_ovls + c)
  low : ∀ k < hwc_dev.dsscomp.num_ovls, d.dsscomp.ovls k = hwc_dev.dsscomp.ovls k
  high : ∀ j < c, ClonedAt hwc_dev.dsscomp.num_ovls j
    (d.dsscomp.ovls (hwc_dev.dsscomp.num_ovls + j))

/-- Nothing is added. -/
theorem extended_zero {ext : OmapHwcExt} (h : SameSettings hwc_dev.ext ext) :
    Extended hwc_dev 0 { hwc_dev with ext := ext } :=
  ⟨⟨ext, hwc_dev.dsscomp.ovls, h, rfl⟩, fun _ _ => rfl, fun j hj => absurd hj (not_lt_zero j)⟩

/-- One overlay is added. -/
theorem extended_one (hwc_dev : HwcDevice) {ext : OmapHwcExt}
    (h : SameSettings hwc_dev.ext ext) {ovls : Nat → Dss2OvlInfo}
    (hlow : ∀ k < hwc_dev.dsscomp.num_ovls, ovls k = hwc_dev.dsscomp.ovls k)
    (ho : ClonedAt hwc_dev.dsscomp.num_ovls 0 (ovls hwc_dev.dsscomp.num_ovls)) :
    Extended hwc_dev 1
      ({ hwc_dev with ext := ext }.setDsscomp ovls (hwc_dev.dsscomp.num_ovls + 1)) := by
  refine ⟨⟨ext, ovls, h, rfl⟩, hlow, fun j hj => ?_⟩
  obtain rfl : j = 0 := by omega
  exact ho

/-- A docked layer adds one overlay or none. -/
theorem clone_docked_layer_spec (hn : hwc_dev.dsscomp.num_ovls < 4)
    (hp : hwc_dev.post2_layers = hwc_dev.dsscomp.num_ovls) (ix : Nat) (z : Int) :
    ∃ c ≤ 1, Extended hwc_dev c (clone_docked_layer env hwc_dev ix z) := by
  unfold clone_docked_layer
  rcases clone_external_layer_spec env hwc_dev hn hp.le ix with ⟨ext, o, he, hs, ho⟩ | ⟨ext, he, hs⟩
  · rw [he]
    rw [hp, Nat.sub_self] at ho
    have ho' : ClonedAt hwc_dev.dsscomp.num_ovls 0 (update hwc_dev.dsscomp.ovls
        hwc_dev.dsscomp.num_ovls o hwc_dev.dsscomp.num_ovls) := by
      rwa [update_self]
    refine ⟨1, le_rfl, extended_one hwc_dev hs (fun k hk => ?_) ?_⟩
    · rw [editCfg_apply_of_ne (Nat.ne_of_lt hk)]
      exact update_of_ne (Nat.ne_of_lt hk) ..
    · rw [editCfg_apply_self]
      exact ⟨ho'.ix, ho'.mgr_ix⟩
  · rw [he]
    exact ⟨0, zero_le 1, extended_zero hs⟩

/-- The dock image adds one overlay or none. -/
theorem clone_dock_image_spec (hn : hwc_dev.dsscomp.num_ovls < 4)
    (hp : hwc_dev.post2_layers = hwc_dev.dsscomp.num_ovls) :
    ∃ c ≤ 1, Extended hwc_dev c (clone_dock_image env hwc_dev) := by
  unfold clone_dock_image
  simp only
  generalize hd : hwc_dev.setDsscomp (update hwc_dev.dsscomp.ovls hwc_dev.dsscomp.num_ovls
    (dock_image_overlay env (hwc_dev.dsscomp.ovls hwc_dev.dsscomp.num_ovls)))
    hwc_dev.dsscomp.num_ovls = d
  have hnum : d.dsscomp.num_ovls = hwc_dev.dsscomp.num_ovls := by rw [← hd]; rfl
  have hovls : ∀ k < hwc_dev.dsscomp.num_ovls, d.dsscomp.ovls k = hwc_dev.dsscomp.ovls k := by
    intro k hk
    rw [← hd]
    exact update_of_ne (Nat.ne_of_lt hk) ..
  have hpd : d.post2_layers = d.dsscomp.num_ovls := by rw [hnum, ← hd]; exact hp
  rcases clone_external_layer_spec env d (hnum ▸ hn) hpd.le
    hwc_dev.dsscomp.num_ovls with ⟨ext, o, he, hs, ho⟩ | ⟨ext, he, hs⟩
  · rw [he]
    rw [hpd, Nat.sub_self, hnum] at ho
    have ho' : ClonedAt hwc_dev.dsscomp.num_ovls 0 (update d.dsscomp.ovls
        d.dsscomp.num_ovls o hwc_dev.dsscomp.num_ovls) := by
      rwa [hnum, update_self]
    refine ⟨1, le_rfl, ?_⟩
    rw [← hd] at hs ho' ⊢
    refine extended_one hwc_dev hs (fun k hk => ?_) ?_
    · rw [update_of_ne (Nat.ne_of_lt hk)]
      refine (update_of_ne (Nat.ne_of_lt hk) ..).trans ?_
      exact update_of_ne (Nat.ne_of_lt hk) ..
    · rw [update_self]
      exact ⟨ho'.ix, ho'.mgr_ix⟩
  · rw [he]
    refine ⟨0, zero_le 1, ⟨ext, d.dsscomp.ovls, ?_, ?_⟩, hovls,
      fun j hj => absurd hj (not_lt_zero j)⟩
    · rw [← hd] at hs
      exact hs
    · rw [← hd]
      rfl

/-- Mirroring need not set a mode up first, or can. -/
def mirrorReady (env : PrepareEnv) (hwc_dev : HwcDevice) : Prop :=
  hwc_dev.ext.last.docking = true → env.best_hdmi_mode.isSome = true

/-- Mirroring adds an overlay for each one there is, unless its mode cannot be set up. -/
theorem mirror_layers_spec (env : PrepareEnv)
    (hn : hwc_dev.dsscomp.num_ovls + hwc_dev.dsscomp.num_ovls ≤ 4)
    (hp : hwc_dev.post2_layers = hwc_dev.dsscomp.num_ovls) :
    (mirrorReady env hwc_dev ∧
      Extended hwc_dev hwc_dev.dsscomp.num_ovls (mirror_layers env hwc_dev) ∧
      ∀ j < hwc_dev.dsscomp.num_ovls,
        ((mirror_layers env hwc_dev).dsscomp.ovls (hwc_dev.dsscomp.num_ovls + j)).cfg.zorder =
          (hwc_dev.dsscomp.ovls j).cfg.zorder + hwc_dev.dsscomp.num_ovls) ∨
    (¬mirrorReady env hwc_dev ∧ mirror_layers env hwc_dev = hwc_dev) := by
  have hmode : (∃ ext, SameSettings hwc_dev.ext ext ∧ mirrorReady env hwc_dev ∧
      mirror_layers env hwc_dev =
        clone_layers hwc_dev.dsscomp.num_ovls 0 { hwc_dev with ext := ext }) ∨
      (¬mirrorReady env hwc_dev ∧ mirror_layers env hwc_dev = hwc_dev) := by
    have hrounds : ∀ ext, clone_layers hwc_dev.post2_layers 0 { hwc_dev with ext := ext } =
        clone_layers hwc_dev.dsscomp.num_ovls 0 { hwc_dev with ext := ext } := fun ext =>
      congrArg (fun n => clone_layers n 0 { hwc_dev with ext := ext }) hp
    unfold mirror_layers mirrorReady setup_mirroring
    by_cases hl : hwc_dev.ext.last.docking
    · rw [if_pos hl]
      cases env.best_hdmi_mode with
      | none => exact .inr ⟨fun h => Bool.false_ne_true (h hl), rfl⟩
      | some mode =>
        let ext := hwc_dev.ext.withMode mode
        exact .inl ⟨{ ext with m := env.ext_matrix ext ext.mirror_region },
          ⟨rfl, rfl, rfl, rfl⟩, fun _ => rfl, hrounds _⟩
    · rw [if_neg hl]
      exact .inl ⟨hwc_dev.ext, .refl _, fun h => absurd h hl, hrounds _⟩
  rcases hmode with ⟨ext, hs, hready, he⟩ | h
  · refine .inl ⟨hready, ?_⟩
    obtain ⟨ovls, he', hlow, hhigh⟩ := clone_layers_spec hwc_dev.dsscomp.num_ovls 0
      { hwc_dev with ext := ext } hn hp.le (Nat.zero_add _).le
    rw [he, he']
    refine ⟨⟨⟨ext, ovls, hs, rfl⟩, hlow, fun j hj => ?_⟩, fun j hj => ?_⟩
    · obtain ⟨h1, -⟩ := hhigh j hj
      have hidx : hwc_dev.dsscomp.num_ovls + j - hwc_dev.post2_layers = j := by omega
      exact ⟨h1.ix.trans (congrArg (fun n : Nat => (3 : Int) - n) hidx), h1.mgr_ix⟩
    · obtain ⟨-, h2⟩ := hhigh j hj
      have hz : (0 + j) = j := Nat.zero_add j
      exact h2.trans (by rw [hz]; exact congrArg (_ + ·) (congrArg Nat.cast hp))
  · exact .inr h

/-- The overlays that a frame gets on the external display. -/
inductive CloneCase (env : PrepareEnv) (hwc_dev : HwcDevice) (c : Nat) (d : HwcDevice) : Prop
  | none (count : c = 0)
      (idle : ¬(clones_now hwc_dev = true ∧ hwc_dev.ext.current.docking = false ∧
        mirrorReady env hwc_dev))
  | docked (now : clones_now hwc_dev = true) (docking : hwc_dev.ext.current.docking = true)
      (count : c = 1)
  | mirrored (now : clones_now hwc_dev = true) (docking : hwc_dev.ext.current.docking = false)
      (ready : mirrorReady env hwc_dev) (count : c = hwc_dev.dsscomp.num_ovls)
      (zorder : ∀ j < c, (d.dsscomp.ovls (hwc_dev.dsscomp.num_ovls + j)).cfg.zorder =
        (hwc_dev.dsscomp.ovls j).cfg.zorder + hwc_dev.dsscomp.num_ovls)

/-- Cloning adds nothing, one docked overlay, or one overlay for each internal one. -/
theorem clone_for_external_cases (env : PrepareEnv) (f : Frame)
    (hp : f.hwc_dev = hwc_dev)
    (hdock : clones_now hwc_dev → hwc_dev.ext.current.docking →
      hwc_dev.dsscomp.num_ovls < 4)
    (hmirror : clones_now hwc_dev → hwc_dev.ext.current.docking = false →
      hwc_dev.dsscomp.num_ovls + hwc_dev.dsscomp.num_ovls ≤ 4) :
    ∃ c, Extended { hwc_dev with post2_layers := hwc_dev.dsscomp.num_ovls } c
        (clone_for_external env f) ∧
      CloneCase env { hwc_dev with post2_layers := hwc_dev.dsscomp.num_ovls } c
        (clone_for_external env f) := by
  subst hp
  unfold clone_for_external
  simp only
  generalize hd : { f.hwc_dev with post2_layers := f.hwc_dev.dsscomp.num_ovls } = d
  have hext : f.hwc_dev.ext = d.ext := by rw [← hd]
  rw [hext]
  have hpost : d.post2_layers = d.dsscomp.num_ovls := by rw [← hd]
  have hdock' : clones_now d → d.ext.current.docking → d.dsscomp.num_ovls < 4 := by
    rw [← hd]
    exact hdock
  have hmirror' : clones_now d → d.ext.current.docking = false →
      d.dsscomp.num_ovls + d.dsscomp.num_ovls ≤ 4 := by
    rw [← hd]
    exact hmirror
  have hnone : Extended d 0 d := extended_zero (.refl _)
  by_cases hnow : clones_now d
  · rw [if_pos hnow]
    by_cases hdk : d.ext.current.docking
    · have hidle : ¬(clones_now d ∧ d.ext.current.docking = false ∧ mirrorReady env d) :=
        fun h => Bool.false_ne_true (h.2.1.symm.trans hdk)
      have hone : ∀ {d' : HwcDevice}, (∃ c ≤ 1, Extended d c d') →
          ∃ c, Extended d c d' ∧ CloneCase env d c d' := by
        rintro d' ⟨c, hc, hext⟩
        rcases le_one_iff_eq_zero_or_eq_one.mp hc with rfl | rfl
        · exact ⟨0, hext, .none rfl hidle⟩
        · exact ⟨1, hext, .docked hnow hdk rfl⟩
      by_cases hix : f.ix_docking ≥ 0
      · rw [if_pos ⟨hdk, hix⟩]
        exact hone (clone_docked_layer_spec (hdock' hnow hdk) hpost ..)
      · rw [if_neg fun h => hix h.2]
        by_cases hfd : d.ext.force_dock
        · rw [if_pos ⟨hdk, hfd⟩]
          exact hone (clone_dock_image_spec (hdock' hnow hdk) hpost)
        · rw [if_neg fun h => hfd h.2, if_neg (not_not.mpr hdk)]
          exact ⟨0, hnone, .none rfl hidle⟩
    · have hdk' : d.ext.current.docking = false := by simpa using hdk
      rw [if_neg fun h => hdk h.1, if_neg fun h => hdk h.1, if_pos hdk]
      rcases mirror_layers_spec env (hmirror' hnow hdk') hpost with
        ⟨hready, hext, hz⟩ | ⟨hready, he⟩
      · exact ⟨_, hext, .mirrored hnow hdk' hready rfl hz⟩
      · rw [he]
        exact ⟨0, hnone, .none rfl fun h => hready h.2.2⟩
  · rw [if_neg hnow]
    exact ⟨0, hnone, .none rfl fun h => hnow h.1⟩

end OmapHal.Hwc
