import Mathlib.Data.List.Basic
import OmapHal.Hwc.Session
import OmapHal.Hwc.Rendered

/-!
# Pipe assignment

Every call keeps what holds of a device between frames, so it holds in every session. From there on,
when the overlays that `hwc_prepare` sets up use different pipes and different z-orders.
-/

namespace OmapHal.Hwc

open List Nat

section Sessions

variable {hwc_dev : HwcDevice} {s : Session}

theorem HwcDevice.Opened.steady (h : hwc_dev.Opened) : hwc_dev.Steady := by
  obtain ⟨hfb, hm, hd, -, -, -, hp, ho, -, he, hi, -⟩ := h
  refine ⟨hfb, ?_, ?_, ?_, ?_, ?_, ?_, ?_⟩
  · rw [hm]
  · rw [hd]
    exact fun hc => (Bool.false_ne_true hc).elim
  · rw [hm, hd]
    exact fun _ => ⟨rfl, rfl⟩
  · rw [he]
    exact ⟨le_rfl, by decide⟩
  · rw [hi]
    exact ⟨le_rfl, by decide⟩
  · rw [ho]
    exact ⟨le_rfl, by decide⟩
  · rw [hp]
    exact zero_le 4

theorem fix_up_buffers_steady (h : hwc_dev.Steady) : (fix_up_buffers hwc_dev).Steady := by
  rw [fix_up_buffers]
  split
  · exact h.congr rfl rfl rfl rfl rfl rfl h.ext_ovls h.post2_layers
  · exact h

/-- The counts of this frame become those of the last one. -/
theorem record_ovls_steady (h : hwc_dev.Steady) : (record_ovls hwc_dev).Steady :=
  { h with
    last_ext := h.ext_ovls
    last_int := ⟨Int.natCast_nonneg _, Int.ofNat_le.mpr h.post2_layers⟩ }

theorem hwc_set_steady (h : hwc_dev.Steady) (env : SetEnv) : (hwc_set env hwc_dev).1.Steady := by
  rw [hwc_set]
  split
  · refine record_ovls_steady (fix_up_buffers_steady ?_)
    exact h.congr rfl rfl rfl rfl rfl rfl h.ext_ovls h.post2_layers
  · split
    · exact h
    · exact record_ovls_steady h

/-- The transforms of a connected display mark mirroring and docking apart. -/
theorem connected_ext_docking (env : HotplugEnv) (ext : OmapHwcExt) :
    (connected_ext env ext).mirror.docking = false ∧
      (connected_ext env ext).dock.docking = true := by
  rw [connected_ext]
  cases ext.force_dock with
  | true => exact ⟨rfl, rfl⟩
  | false =>
    cases env.mirroring_enabled with
    | false => exact ⟨rfl, rfl⟩
    | true =>
      cases env.best_hdmi_mode with
      | none => exact ⟨rfl, rfl⟩
      | some mode => exact ⟨rfl, rfl⟩

theorem handle_hotplug_steady (h : hwc_dev.Steady) (env : HotplugEnv) :
    (handle_hotplug env hwc_dev).Steady := by
  rw [handle_hotplug]
  cases htv : hwc_dev.on_tv with
  | true =>
    rw [if_pos rfl]
    have hoff := h.tv htv
    split
    · cases env.best_hdmi_mode with
      | none =>
        exact { h with tv := fun _ => hoff }
      | some mode =>
        exact { h with tv := fun _ => hoff }
    · exact { h with tv := fun _ => hoff }
  | false =>
    rw [if_neg Bool.false_ne_true]
    split
    · obtain ⟨hm, hd⟩ := connected_ext_docking env hwc_dev.ext
      exact { h with
        mirror_docking := hm
        dock_docking := fun _ => hd
        tv := fun hc => (Bool.false_ne_true hc).elim }
    · exact { h with
        dock_docking := fun hc => (Bool.false_ne_true hc).elim
        tv := fun hc => (Bool.false_ne_true hc).elim }

theorem idle_timeout_steady (h : hwc_dev.Steady) : (idle_timeout hwc_dev).Steady := by
  rw [idle_timeout]
  split
  · exact h.congr rfl rfl rfl rfl rfl rfl h.ext_ovls h.post2_layers
  · exact h

/-- Every call keeps the device steady. -/
theorem step_steady (h : s.dev.Steady) (e : Event) : (s.step e).dev.Steady := by
  have hswitch : ∀ ext : OmapHwcExt, ext.mirror = s.dev.ext.mirror → ext.dock = s.dev.ext.dock →
      HwcDevice.Steady { s.dev with ext := ext } := by
    intro ext hm hd
    exact h.congr rfl hm hd rfl rfl rfl h.ext_ovls h.post2_layers
  cases e with
  | idleCall => exact h
  | prepare env list =>
    obtain ⟨n, c, tail, hout, -, -⟩ := hwc_prepare_outcome h env list
    exact hout.steady
  | set env => exact hwc_set_steady h env
  | dockSwitch state env =>
    exact handle_hotplug_steady (hswitch { s.dev.ext with force_dock := state } rfl rfl) env
  | hdmiSwitch state env =>
    exact handle_hotplug_steady (hswitch { s.dev.ext with hdmi_state := state } rfl rfl) env
  | timeout => exact idle_timeout_steady h

theorem run_steady (h : s.dev.Steady) (events : List Event) : (s.run events).dev.Steady := by
  induction events generalizing s with
  | nil => exact h
  | cons e events ih => exact ih (step_steady h e)

/-- The device is steady after any calls on an opened one. -/
theorem steady_of_opened (h : hwc_dev.Opened) (events : List Event) :
    ((Session.start hwc_dev).run events).dev.Steady :=
  run_steady h.steady events

end Sessions

/-!
## Pipe assignment

When the overlays that `hwc_prepare` sets up use different pipes and different z-orders. Two
scaled layers that are mirrored without SGX do not: the overlay on the GFX pipe is moved to the
pipe behind the others, which is that of a clone.
-/

section Assignment

open OmapHal.Core

variable {env : PrepareEnv} {hwc_dev d r : HwcDevice} {list : Option (List HwcLayer)}
  {n c : Nat} {tail : Bool}

/-- The overlays that are set up fit the hardware, and no two have the same pipe, or the same
z-order on the same manager. -/
structure PipesDistinct (r : HwcDevice) : Prop where
  count : (r.dsscomp.num_ovls : Int) ≤ MAX_HW_OVERLAYS
  ix : ∀ j k, j < r.dsscomp.num_ovls → k < r.dsscomp.num_ovls →
    (r.dsscomp.ovls j).cfg.ix = (r.dsscomp.ovls k).cfg.ix → j = k
  zorder : ∀ j k, j < r.dsscomp.num_ovls → k < r.dsscomp.num_ovls →
    (r.dsscomp.ovls j).cfg.mgr_ix = (r.dsscomp.ovls k).cfg.mgr_ix →
    (r.dsscomp.ovls j).cfg.zorder = (r.dsscomp.ovls k).cfg.zorder → j = k

/-- Two layers that both need a scaling pipe are mirrored, and SGX has no part in the frame. -/
structure MirrorsTwoScaled (env : PrepareEnv) (hwc_dev : HwcDevice)
    (list : Option (List HwcLayer)) : Prop where
  mirror : hwc_dev.ext.mirror.enabled = true
  undocked : ¬(hwc_dev.ext.dock.enabled = true ∧ docks (counted hwc_dev list) = true)
  /-- The pipes of the clones are free. -/
  last_int_ovls : hwc_dev.last_int_ovls ≤ 2
  primary_transform : hwc_dev.primary_transform = false
  ready : mirrorReady env hwc_dev
  rendered : can_dss_render_all (decided hwc_dev list) = true
  layers : ∃ l₁ l₂, list = some [l₁, l₂] ∧ rendersScaled (begin_frame hwc_dev list).1 l₁ = true ∧
    rendersScaled (begin_frame hwc_dev list).1 l₂ = true

/-- The overlay on the pipe behind the internal ones meets a clone if no pipe is free between the
two displays. -/
theorem Outcome.pipesDistinct_iff (h : Outcome hwc_dev d n c tail r) :
    PipesDistinct r ↔ ¬(tail ∧ 0 < c ∧ n + c = 4 ∧ r.dsscomp.num_ovls ≠ 0) := by
  have hboth := h.fits.both
  have hnum : r.dsscomp.num_ovls = n + c ∨ r.dsscomp.num_ovls = 0 := h.num_ovls.imp_right And.left
  constructor
  · rintro hp ⟨htail, hc, hfull, hne⟩
    have hnum : r.dsscomp.num_ovls = n + c := hnum.resolve_right hne
    obtain ⟨-, hn, hix⟩ := h.internal.last htail
    have hclone := (h.external (c - 1) (by omega)).ix
    have hsame : (r.dsscomp.ovls 0).cfg.ix = (r.dsscomp.ovls (n + (c - 1))).cfg.ix := by
      rw [hix, hclone]
      omega
    have hz := hp.ix 0 (n + (c - 1)) (by omega) (by omega) hsame
    omega
  · intro hno
    have hclone : ∀ k, n ≤ k → k < n + c → (r.dsscomp.ovls k).cfg.ix = 3 - ((k - n : Nat) : Int) ∧
        (r.dsscomp.ovls k).cfg.mgr_ix = 1 := by
      intro k hk hk'
      have hat := h.external (k - n) (by omega)
      rw [Nat.add_sub_cancel' hk] at hat
      exact ⟨hat.ix, hat.mgr_ix⟩
    have hbelow : r.dsscomp.num_ovls ≠ 0 → ∀ j k, j < n → n ≤ k → k < n + c →
        (r.dsscomp.ovls j).cfg.ix ≠ (r.dsscomp.ovls k).cfg.ix := by
      intro hne j k hj hk hk'
      have hrange := (h.internal.range j hj).2
      have hix := (hclone k hk hk').1
      cases tail with
      | false =>
        rw [Bool.toNat_false] at hrange
        omega
      | true =>
        obtain ⟨hpt, -⟩ := h.internal.last rfl
        have hroom : n + c ≠ 4 := fun hfull => hno ⟨rfl, by omega, hfull, hne⟩
        rw [hpt, Bool.toNat_true] at hrange
        omega
    refine ⟨?_, fun j k hj hk he => ?_, fun j k hj hk hm he => ?_⟩
    · rw [MAX_HW_OVERLAYS]
      omega
    · have hne : r.dsscomp.num_ovls ≠ 0 := by omega
      rw [hnum.resolve_right hne] at hj hk
      rcases lt_or_ge j n with hjn | hjn <;> rcases lt_or_ge k n with hkn | hkn
      · exact h.internal.distinct j k hjn hkn he
      · exact absurd he (hbelow hne j k hjn hkn hk)
      · exact absurd he.symm (hbelow hne k j hkn hjn hj)
      · rw [(hclone j hjn hj).1, (hclone k hkn hk).1] at he
        omega
    · have hne : r.dsscomp.num_ovls ≠ 0 := by omega
      rw [hnum.resolve_right hne] at hj hk
      rcases lt_or_ge j n with hjn | hjn <;> rcases lt_or_ge k n with hkn | hkn
      · exact h.internal.zorder j k hjn hkn he
      · rw [h.internal.mgr_ix j hjn, (hclone k hkn hk).2] at hm
        cases hm
      · rw [h.internal.mgr_ix k hkn, (hclone j hjn hj).2] at hm
        cases hm
      · have hz := h.zorder (j - n) (k - n) (by omega) (by omega)
        rw [Nat.add_sub_cancel' hjn, Nat.add_sub_cancel' hkn] at hz
        have := hz he
        omega

/-- What the decision to render everything says about the list. -/
structure RendersAll (hwc_dev : HwcDevice) (list : Option (List HwcLayer)) : Prop where
  force_sgx : hwc_dev.force_sgx = 0
  count : (list.getD []).length ≤ (decided hwc_dev list).counts.max_hw_overlays
  scaling : (list.getD []).countP (rendersScaled (begin_frame hwc_dev list).1) ≤
    (decided hwc_dev list).counts.max_scaling_overlays
  mem : validMem (begin_frame hwc_dev list).1 (list.getD []) ≤
    hwc_dev.limits.tiler1d_slot_size

theorem rendersAll_of_can_dss_render_all (h : can_dss_render_all (decided hwc_dev list)) :
    RendersAll hwc_dev list := by
  have hcounts : (counted hwc_dev list).counts =
      tally (counted hwc_dev list) (list.getD []).length (list.getD []) :=
    countLayers_eq (counted hwc_dev list) (list.getD [])
  have hscaled : (list.getD []).countP (rendersScaled (begin_frame hwc_dev list).1) ≤
      (counted hwc_dev list).counts.scaled_layers := by
    rw [hcounts]
    refine countP_mono_left fun layer _ hl => ?_
    obtain ⟨handle, hd, hr⟩ := (Option.any_eq_true _ _).mp hl
    rw [Bool.and_eq_true] at hr
    have hvalid : is_valid_layer (begin_frame hwc_dev list).1 layer handle :=
      can_dss_render_layer_valid hr.1
    have hv : validBuffer? (counted hwc_dev list) layer = some handle :=
      validBuffer?_eq_some.mpr ⟨hd, hvalid⟩
    have hs : (scaled layer || is_NV12 handle) := hr.2
    rw [hv, Option.any_some]
    show (scaled layer || is_NV12 handle || _)
    rw [hs]
    rfl
  rw [can_dss_render_all] at h
  simp only [Bool.and_eq_true, beq_iff_eq, decide_eq_true_eq] at h
  obtain ⟨⟨⟨⟨⟨⟨⟨⟨⟨hforce, -⟩, hhw⟩, hall⟩, hsc⟩, -⟩, hmem⟩, -⟩, -⟩, -⟩ := h
  have htotal : (decided hwc_dev list).counts.composited_layers = (list.getD []).length :=
    congrArg Counts.composited_layers hcounts
  have hbytes : (decided hwc_dev list).counts.mem =
      validMem (begin_frame hwc_dev list).1 (list.getD []) := congrArg Counts.mem hcounts
  refine ⟨hforce, ?_, hscaled.trans hsc, ?_⟩
  · rw [← htotal, ← hall]
    exact hhw
  · rw [← hbytes]
    exact hmem

/-- The list of the frame needs the same pipes as the one that is passed in. -/
theorem countP_begin_frame (d : HwcDevice) :
    ((begin_frame hwc_dev list).2.getD []).countP (rendersScaled d) =
      (list.getD []).countP (rendersScaled d) := by
  cases list with
  | none => rfl
  | some layers => exact countP_map ..

/-- Two valid layers that fit into the TILER slot together. -/
theorem memFits_pair {l₁ l₂ : HwcLayer} (h₁ : renders d l₁)
    (h : validMem d [l₁, l₂] ≤ d.limits.tiler1d_slot_size) : MemFits d [l₁, l₂] := by
  obtain ⟨handle, hd, hr⟩ := (Option.any_eq_true _ _).mp h₁
  have hvalid := can_dss_render_layer_valid hr
  have hone : validMem d [l₁] = u32 ((0 : Nat) + mem1d handle) :=
    @validMem_append_of_valid d l₁ handle [] hd hvalid
  have hle := mem1d_le_of_valid hvalid
  intro part hp
  rcases prefix_concat_iff.mp (show part <+: [l₁] ++ [l₂] from hp) with rfl | hp
  · exact h
  · rcases prefix_concat_iff.mp (show part <+: [] ++ [l₁] from hp) with rfl | hp
    · refine hone.trans_le (le_trans ?_ hle)
      rw [u32]
      omega
    · rw [prefix_nil.mp hp]
      exact zero_le _

section Clash

variable {f : Frame} {x : HwcDevice}

/-- SGX is left out exactly if the DSS can render all layers. -/
theorem not_sgx_iff : (begin_frame hwc_dev list).1.use_sgx = false ↔
    can_dss_render_all (decided hwc_dev list) = true := by
  have hsgx : (begin_frame hwc_dev list).1.use_sgx =
      !can_dss_render_all (decided hwc_dev list) := rfl
  rw [hsgx, Bool.not_eq_false']

/-- A clash of pipes is one of two scaled layers that are mirrored. -/
theorem mirrorsTwoScaled_of_clash (h : hwc_dev.Steady)
    (hout : Outcome hwc_dev (decided hwc_dev list) n c tail r)
    (hint : InternalFrame (begin_frame hwc_dev list).1 (begin_frame hwc_dev list).2 n tail f)
    (hcase : CloneCase env { f.hwc_dev with post2_layers := n } c x) (htail : tail)
    (hc : 0 < c) (hfull : n + c = 4) : MirrorsTwoScaled env hwc_dev list := by
  obtain ⟨hsgx, hscaled⟩ := hint.scaling htail
  have hrender := not_sgx_iff.mp hsgx
  rw [countP_begin_frame] at hscaled
  obtain ⟨hforce, hcount, hscaling, hmem⟩ := rendersAll_of_can_dss_render_all hrender
  obtain ⟨hpt, -⟩ := hout.internal.last htail
  have hres := hout.fits.reserved
  have hext : f.hwc_dev.ext = (decided hwc_dev list).ext := hint.follows.ext
  have hpt' : (counted hwc_dev list).primary_transform.toNat = 0 := hpt
  have hdecide := decide_cases (counted_steady h list)
  change CloningCase (counted hwc_dev list) (decided hwc_dev list) at hdecide
  rcases hdecide with ⟨hcur, hw, ho, hhw, hsc⟩ | ⟨hen, hun, hcur, hw, ho, hhw, hsc⟩ |
    ⟨hcur, hw, ho, hhw, hsc⟩
  · -- docking leaves two scaling pipes, which are too few for three layers
    have hlast := h.last_ext
    have hlast' : (counted hwc_dev list).last_ext_ovls = hwc_dev.last_ext_ovls := rfl
    rcases hcase with ⟨hc0, -⟩ | ⟨-, -, hc1⟩ | ⟨-, hdk, -⟩
    · omega
    · omega
    · rw [show ({ f.hwc_dev with post2_layers := n } : HwcDevice).ext = (decided hwc_dev list).ext
        from hext, hcur] at hdk
      cases hdk
  · obtain ⟨hcn, hready⟩ : c = n ∧ mirrorReady env hwc_dev := by
      rcases hcase with ⟨hc0, -⟩ | ⟨-, hdk, -⟩ | ⟨-, -, hready, hcn, -⟩
      · omega
      · rw [show ({ f.hwc_dev with post2_layers := n } : HwcDevice).ext = (decided hwc_dev list).ext
          from hext, hcur, (counted_steady h list).mirror_docking] at hdk
        cases hdk
      · refine ⟨hcn.trans hint.follows.num_ovls, fun hl => hready ?_⟩
        exact (congrArg (fun ext => ext.last.docking) hext).trans hl
    have hint_ovls : (counted hwc_dev list).last_int_ovls = hwc_dev.last_int_ovls := rfl
    have hmax : (decided hwc_dev list).counts.max_hw_overlays = 2 := by
      split at hhw <;> omega
    have hle := countP_le_length (p := rendersScaled (begin_frame hwc_dev list).1)
      (l := list.getD [])
    have hlen : (list.getD []).length = 2 := by omega
    have hall := countP_eq_length.mp
      (show (list.getD []).countP (rendersScaled (begin_frame hwc_dev list).1) = _ by omega)
    refine ⟨hen, hun, by omega, ?_, hready, hrender, ?_⟩
    · cases hp : hwc_dev.primary_transform with
      | false => rfl
      | true =>
        rw [hp] at hpt
        cases hpt
    · cases list with
      | none => cases hlen
      | some layers =>
        obtain ⟨l₁, l₂, rfl⟩ := length_eq_two.mp hlen
        exact ⟨l₁, l₂, rfl, hall l₁ mem_cons_self,
          hall l₂ (mem_cons_of_mem l₁ mem_cons_self)⟩
  · omega

/-- Two scaled layers that are mirrored clash. -/
theorem clash_of_mirrorsTwoScaled (h : hwc_dev.Steady)
    (hint : InternalFrame (begin_frame hwc_dev list).1 (begin_frame hwc_dev list).2 n tail f)
    (hcase : CloneCase env { f.hwc_dev with post2_layers := n } c x)
    (hm : MirrorsTwoScaled env hwc_dev list) : tail ∧ n = 2 ∧ c = 2 := by
  obtain ⟨hen, hun, hlast, hpt, hready, hrender, l₁, l₂, rfl, hl₁, hl₂⟩ := hm
  obtain ⟨hforce, -, -, hmem⟩ := rendersAll_of_can_dss_render_all hrender
  have hsteady := counted_steady h (some [l₁, l₂])
  have hext : f.hwc_dev.ext = (decided hwc_dev (some [l₁, l₂])).ext := hint.follows.ext
  have hcurrent : (decided hwc_dev (some [l₁, l₂])).ext.current = hwc_dev.ext.mirror :=
    congrArg CloningPlan.current (@chooseCloning_mirroring (counted hwc_dev _) hen hun)
  have hdecide := decide_cases hsteady
  change CloningCase (counted hwc_dev (some [l₁, l₂])) (decided hwc_dev (some [l₁, l₂]))
    at hdecide
  obtain ⟨hwanted, hovls, hhw⟩ : (decided hwc_dev (some [l₁, l₂])).ext_ovls_wanted = 2 ∧
      (decided hwc_dev (some [l₁, l₂])).ext_ovls = 2 ∧
      (decided hwc_dev (some [l₁, l₂])).counts.max_hw_overlays = 2 := by
    have hpt' : (counted hwc_dev (some [l₁, l₂])).primary_transform.toNat = 0 :=
      congrArg Bool.toNat hpt
    have hlast' : (counted hwc_dev (some [l₁, l₂])).last_int_ovls ≤ 2 := hlast
    rcases hdecide with ⟨hcur, -⟩ | ⟨-, -, -, hw, ho, hhw, -⟩ | ⟨hcur, -⟩
    · rw [hcurrent, h.mirror_docking] at hcur
      cases hcur
    · refine ⟨hw, by omega, ?_⟩
      split at hhw <;> omega
    · rw [hcurrent, hen] at hcur
      cases hcur
  -- both layers have an overlay, and the first one is on the GFX pipe
  have hsgx := not_sgx_iff.mpr hrender
  obtain ⟨hn, htail⟩ := hint.mirroring hen
  rw [pipesOf, hsgx] at hn htail
  have hls : ∀ l ∈ (begin_frame hwc_dev (some [l₁, l₂])).2.getD [],
      rendersScaled (begin_frame hwc_dev (some [l₁, l₂])).1 l :=
    forall_mem_cons.mpr ⟨hl₁, forall_mem_singleton.mpr hl₂⟩
  have hrenders : ∀ l ∈ (begin_frame hwc_dev (some [l₁, l₂])).2.getD [],
      renders (begin_frame hwc_dev (some [l₁, l₂])).1 l := fun l hl =>
    renders_of_rendersScaled (hls l hl)
  have hfull := @full_of_renders (begin_frame hwc_dev (some [l₁, l₂])).1
    ((begin_frame hwc_dev (some [l₁, l₂])).2.getD []) hforce hhw.ge hrenders
    (memFits_pair (hrenders _ mem_cons_self) hmem)
  obtain rfl : n = 2 := hn.trans hfull.num_ovls
  refine ⟨htail.trans (hfull.gfx hpt (cons_ne_nil _ _) hls), rfl, ?_⟩
  rcases hcase with ⟨-, hidle⟩ | ⟨-, hdk, -⟩ | ⟨-, -, -, hcn, -⟩
  · refine absurd ⟨?_, ?_, fun hl => hready ?_⟩ hidle
    · refine (clones_now_follows hint.follows).trans (clones_now_iff.mpr ⟨?_, Or.inr ⟨?_, ?_⟩⟩)
      · show (decided hwc_dev (some [l₁, l₂])).ext.current.enabled
        rw [hcurrent]
        exact hen
      · show (decided hwc_dev (some [l₁, l₂])).ext_ovls_wanted ≠ 0
        rw [hwanted]
        decide
      · show (decided hwc_dev (some [l₁, l₂])).ext_ovls ≥
          (decided hwc_dev (some [l₁, l₂])).ext_ovls_wanted
        rw [hwanted, hovls]
    · show f.hwc_dev.ext.current.docking = false
      rw [hext, hcurrent]
      exact h.mirror_docking
    · exact (congrArg (fun ext => ext.last.docking) hext).symm.trans hl
  · rw [show ({ f.hwc_dev with post2_layers := 2 } : HwcDevice).ext =
      (decided hwc_dev (some [l₁, l₂])).ext from hext, hcurrent, h.mirror_docking] at hdk
    cases hdk
  · exact hcn.trans hint.follows.num_ovls

/-- Pipes clash exactly where two scaled layers are mirrored. -/
theorem pipesDistinct_of_outcome (h : hwc_dev.Steady)
    (hout : Outcome hwc_dev (decided hwc_dev list) n c tail r)
    (hint : InternalFrame (begin_frame hwc_dev list).1 (begin_frame hwc_dev list).2 n tail f)
    (hcase : CloneCase env { f.hwc_dev with post2_layers := n } c x) :
    PipesDistinct r ↔ ¬MirrorsTwoScaled env hwc_dev list := by
  rw [hout.pipesDistinct_iff, not_iff_not]
  constructor
  · rintro ⟨htail, hc, hfull, -⟩
    exact mirrorsTwoScaled_of_clash h hout hint hcase htail hc hfull
  · intro hm
    obtain ⟨htail, hn, hc⟩ := clash_of_mirrorsTwoScaled h hint hcase hm
    refine ⟨htail, by omega, by omega, ?_⟩
    rcases hout.num_ovls with hnum | ⟨-, htv⟩
    · omega
    · have hoff := (h.tv htv).1
      rw [hm.mirror] at hoff
      cases hoff

end Clash

/-- In every session on an opened device, and for every list and every answer of the kernel and
the blitter: the overlays that `hwc_prepare` sets up are distinct exactly if it does not mirror
two scaled layers without SGX. -/
theorem pipes_distinct_iff {hwc_dev : HwcDevice} (h : hwc_dev.Opened) (events : List Event)
    (env : PrepareEnv) (list : Option (List HwcLayer)) :
    PipesDistinct (hwc_prepare env ((Session.start hwc_dev).run events).dev list).1 ↔
      ¬MirrorsTwoScaled env ((Session.start hwc_dev).run events).dev list := by
  have hsteady := steady_of_opened h events
  obtain ⟨n, c, tail, hout, hint, hcase⟩ := hwc_prepare_outcome hsteady env list
  exact pipesDistinct_of_outcome hsteady hout hint hcase

/-- A display is connected and mirroring is on. -/
def sampleHotplug : HotplugEnv where
  docking_enabled := false
  mirroring_enabled := true
  avoid_mode_change := false
  docking_transform := 0
  mirroring_transform := 0
  best_hdmi_mode := some ⟨1, false⟩
  ext_matrix _ _ := id
  tiler2d_buffers _ := 0
  display := ⟨false, 0⟩
  lcd_w := 40
  lcd_h := 40
  primary_matrix := id

/-- A layer of ten by five pixels, shown at twice its size. -/
def scaledLayer (address : Nat) (top : Int) : HwcLayer where
  compositionType := .framebuffer
  hintClearFb := false
  hintTripleBuffer := false
  skip := false
  handle := .img address ⟨10, 5, .RGBX_8888, false, false⟩
  transform := 0
  blending := HWC_BLENDING_NONE
  sourceCrop := ⟨0, 0, 10, 5⟩
  displayFrame := ⟨0, top, 20, top + 10⟩

/-- A device that was just opened, with one scaled layer. -/
theorem pipes_distinct_iff_sample :
    PipesDistinct (hwc_prepare sampleAnswers
      ((Session.start sampleDevice).run [.timeout]).dev (some [scaledLayer 100 0])).1 ↔
        ¬MirrorsTwoScaled sampleAnswers ((Session.start sampleDevice).run [.timeout]).dev
          (some [scaledLayer 100 0]) :=
  pipes_distinct_iff sampleDevice_opened [.timeout] sampleAnswers (some [scaledLayer 100 0])

/-- Two scaled layers on a mirrored display: the first overlay and the clone of the second one are
both on pipe 2. -/
theorem mirrored_pair_not_distinct : ¬PipesDistinct (hwc_prepare sampleAnswers
    ((Session.start sampleDevice).run [.hdmiSwitch true sampleHotplug]).dev
      (some [scaledLayer 100 0, scaledLayer 200 20])).1 := by
  intro h
  have hsame := h.ix 0 3 (by decide) (by decide) rfl
  cases hsame

end Assignment

end OmapHal.Hwc
