import OmapHal.Hwc.Cloning

/-!
# What a prepared frame uses

The overlays of both displays when `hwc_prepare` returns: how many there are, and that
they fit beside those the other display used in the last frame.
-/

namespace OmapHal.Hwc

open Bool

variable {env : PrepareEnv} {hwc_dev d : HwcDevice} {list : Option (List HwcLayer)} {f : Frame}
  {n c : Nat} {tail : Bool}

/-- The frame of the internal display. -/
structure InternalFrame (hwc_dev : HwcDevice) (list : Option (List HwcLayer)) (n : Nat)
    (tail : Bool)
    (f : Frame) : Prop where
  follows : f.Follows hwc_dev n
  placed : Placed hwc_dev.primary_transform.toNat tail n f.hwc_dev.dsscomp.ovls
  count : n ≤ max 1 hwc_dev.counts.max_hw_overlays
  scaling : tail = true → hwc_dev.use_sgx = false ∧
    n ≤ (list.getD []).countP (rendersScaled hwc_dev)
  mirroring : hwc_dev.ext.mirror.enabled = true →
    n = (pipesOf hwc_dev list).num_ovls ∧ tail = (pipesOf hwc_dev list).scaled_gfx

/-- A list that is blitted as a whole only has the framebuffer's overlay. -/
theorem blitFrame_placed {layers : List HwcLayer} (hfb : is_valid_format hwc_dev.fb_format)
    (hb : blit_layers env hwc_dev list 0 = some (d, layers)) :
    InternalFrame hwc_dev list 1 false
    (setup_framebuffer (blit_rest env (blitFrame d layers))) := by
  have hm : hwc_dev.ext.mirror.enabled = false := by
    unfold blit_layers at hb
    split at hb
    · cases hb
    · by_contra hc
      rw [if_pos (by simpa using hc)] at hb
      cases hb
  obtain ⟨num, bufs, buffers, rfl⟩ := blit_layers_dev hb
  obtain ⟨sgx, num', bufs', buffers', list', blitted, he⟩ := blit_rest_eq env (blitFrame _ layers)
  rw [he]
  have hz := framebuffer_overlay_zorder hfb .zero 0
  have hmgr := framebuffer_overlay_mgr_ix hwc_dev .zero 0
  have hone : ∀ j k : Nat, j < 1 → k < 1 → j = k := by omega
  refine ⟨⟨rfl, rfl, rfl, rfl, rfl, rfl, rfl, rfl, rfl, rfl, rfl⟩, ⟨?_, ?_, ?_, ?_, ?_⟩, ?_, ?_, ?_⟩
  · intro k hk
    obtain rfl : k = 0 := by omega
    exact hmgr
  · exact fun j k hj hk _ => hone j k hj hk
  · exact fun j k hj hk _ => hone j k hj hk
  · intro k hk
    obtain rfl : k = 0 := by omega
    show 0 ≤ (hwc_dev.primary_transform.toNat : Int) ∧ (hwc_dev.primary_transform.toNat : Int) < _
    rw [toNat_false]
    omega
  · exact fun hc => (false_ne_true hc).elim
  · exact le_max_left ..
  · exact fun hc => (false_ne_true hc).elim
  · exact fun hc => (false_ne_true (hm.symm.trans hc)).elim

/-- The frame of the internal display, however it is composed. -/
theorem setup_overlays_placed (env : PrepareEnv) (hwc_dev : HwcDevice)
    (list : Option (List HwcLayer)) (hfb : is_valid_format hwc_dev.fb_format) :
    ∃ n tail, InternalFrame hwc_dev list n tail
      (setup_framebuffer (blit_rest env (setup_overlays env hwc_dev list))) := by
  have hoverlay : ∃ n tail, InternalFrame hwc_dev list n tail
      (setup_framebuffer (blit_rest env (overlayFrame hwc_dev list))) := by
    obtain ⟨hfollows, hplaced, -⟩ := overlayFrame_placed env list hfb
    have hinv : (pipesOf hwc_dev list).Inv hwc_dev hwc_dev.use_sgx.toNat (list.getD []) :=
      setup_pipes_inv hwc_dev (list.getD [])
    refine ⟨_, _, hfollows, hplaced, ?_, fun hs => ⟨?_, hinv.bounded.scaling hs⟩, fun _ =>
      ⟨rfl, rfl⟩⟩
    · refine hinv.bounded.count.trans (max_le_max_right _ ?_)
      cases hwc_dev.use_sgx
      · exact Nat.zero_le 1
      · exact le_rfl
    · have h0 := (hinv.indexed.gfx hs).1
      cases hsgx : hwc_dev.use_sgx with
      | false => rfl
      | true =>
        rw [hsgx] at h0
        exact absurd h0 Nat.one_ne_zero
  unfold setup_overlays
  split
  · split
    · rename_i hb
      exact ⟨1, false, blitFrame_placed hfb hb⟩
    · exact hoverlay
  · exact hoverlay

/-- The overlays of both displays fit together and beside those of the last frame, and the
external ones are among those reserved by the decision `d`. -/
structure Fits (hwc_dev d : HwcDevice) (n c pt : Nat) : Prop where
  both : n + pt + c ≤ 4
  internal : (n : Int) + hwc_dev.last_ext_ovls ≤ 4
  external : (c : Int) + hwc_dev.last_int_ovls ≤ 4
  reserved : (c : Int) ≤ d.ext_ovls
  reserved_le : d.ext_ovls ≤ 2

theorem clones_now_iff :
    clones_now d ↔ d.ext.current.enabled ∧
      ((d.counts.protectedLayers = 0 ∧ d.ext_ovls ≠ 0) ∨
        (d.ext_ovls_wanted ≠ 0 ∧ d.ext_ovls ≥ d.ext_ovls_wanted)) := by
  unfold clones_now
  simp only [and_eq_true, or_eq_true, beq_iff_eq, bne_iff_ne, decide_eq_true_eq]

/-- The overlays that the external display may get leave room for the internal ones. -/
theorem fits_of_cases (h : hwc_dev.Steady) (hd : d = decide_supported_cloning hwc_dev)
    (hn : n ≤ max 1 d.counts.max_hw_overlays)
    (hc : c = 0 ∨ (clones_now d ∧ d.ext.current.docking ∧ c = 1) ∨
      (clones_now d ∧ d.ext.current.docking = false ∧ c = n)) :
    Fits hwc_dev d n c hwc_dev.primary_transform.toNat := by
  have hcase := decide_cases h
  obtain ⟨-, hmd, -, -, he, hi, -, -⟩ := h
  have hprot : d.counts.protectedLayers = hwc_dev.counts.protectedLayers := by rw [hd]; rfl
  have hpt : hwc_dev.primary_transform.toNat ≤ 1 := toNat_le _
  rw [← hd] at hcase
  simp only [clones_now_iff] at hc
  rcases hcase with ⟨hcur, hw, ho, hhw, hsc⟩ | ⟨hen, hun, hcur, hw, ho, hhw, hsc⟩ |
    ⟨hcur, hw, ho, hhw, hsc⟩
  · have hc1 : c = 0 ∨ (d.ext_ovls ≥ 1 ∧ d.ext_ovls_wanted = 1 ∧ c = 1) := by
      rcases hc with hc | ⟨⟨-, hc⟩, -, hc'⟩ | ⟨-, hc, -⟩
      · exact .inl hc
      · exact .inr ⟨by omega, by omega, hc'⟩
      · rw [hcur] at hc
        cases hc
    constructor <;> omega
  · have hc1 : c = 0 ∨ (d.ext_ovls ≥ 1 ∧ c = n ∧
        (d.counts.protectedLayers = 0 ∨ d.ext_ovls = 2)) := by
      rcases hc with hc | ⟨-, hc, -⟩ | ⟨⟨-, hc⟩, -, hc'⟩
      · exact .inl hc
      · rw [hcur, hmd] at hc
        cases hc
      · exact .inr ⟨by omega, hc', by omega⟩
    rw [hprot] at hc1
    split at hhw <;> constructor <;> omega
  · have hc0 : c = 0 := by
      rcases hc with hc | ⟨⟨hc, -⟩, -⟩ | ⟨⟨hc, -⟩, -⟩
      · exact hc
      · rw [hcur] at hc
        cases hc
      · rw [hcur] at hc
        cases hc
    constructor <;> omega

/-- Overlays at the same places are placed the same way. -/
theorem Placed.congr {pt : Nat} {ovls ovls' : Nat → Dss2OvlInfo} (h : Placed pt tail n ovls)
    (hs : ∀ k < n, SamePlace (ovls k).cfg (ovls' k).cfg) : Placed pt tail n ovls' := by
  obtain ⟨hm, hz, hd, hr, hl⟩ := h
  refine ⟨fun k hk => ?_, fun j k hj hk he => ?_, fun j k hj hk he => ?_, fun k hk => ?_,
    fun ht => ?_⟩
  · rw [(hs k hk).mgr_ix]
    exact hm k hk
  · rw [(hs j hj).zorder, (hs k hk).zorder] at he
    exact hz j k hj hk he
  · rw [(hs j hj).ix, (hs k hk).ix] at he
    exact hd j k hj hk he
  · rw [(hs k hk).ix]
    exact hr k hk
  · obtain ⟨h1, h2, h3⟩ := hl ht
    exact ⟨h1, h2, (hs 0 h2).ix.trans h3⟩

/-- The transform of the primary display leaves every overlay in its place. -/
theorem transform_primary_eq (hwc_dev : HwcDevice) :
    ∃ ovls, transform_primary hwc_dev = hwc_dev.setDsscomp ovls hwc_dev.dsscomp.num_ovls ∧
      ∀ k, SamePlace (hwc_dev.dsscomp.ovls k).cfg (ovls k).cfg := by
  unfold transform_primary
  split
  · refine ⟨_, rfl, fun k => ?_⟩
    show SamePlace _ (if _ then _ else _ : Dss2OvlInfo).cfg
    split
    · exact adjust_primary_display_layer_samePlace ..
    · exact .refl _
  · exact ⟨hwc_dev.dsscomp.ovls, rfl, fun _ => .refl _⟩

/-- What `hwc_prepare` leaves when the internal display has `n` overlays and the external
one has `c`. -/
structure Outcome (hwc_dev d : HwcDevice) (n c : Nat) (tail : Bool) (r : HwcDevice) : Prop where
  fits : Fits hwc_dev d n c hwc_dev.primary_transform.toNat
  internal : Placed hwc_dev.primary_transform.toNat tail n r.dsscomp.ovls
  external : ∀ j < c, ClonedAt n j (r.dsscomp.ovls (n + j))
  zorder : ∀ i j, i < c → j < c →
    (r.dsscomp.ovls (n + i)).cfg.zorder = (r.dsscomp.ovls (n + j)).cfg.zorder → i = j
  num_ovls : r.dsscomp.num_ovls = n + c ∨ (r.dsscomp.num_ovls = 0 ∧ hwc_dev.on_tv = true)
  post2_layers : r.post2_layers = n
  ext_ovls : (c : Int) ≤ r.ext_ovls ∧ r.ext_ovls ≤ 2
  steady : r.Steady

theorem counted_steady (h : hwc_dev.Steady) (list : Option (List HwcLayer)) :
    (counted hwc_dev list).Steady :=
  h.congr rfl rfl rfl rfl rfl rfl h.ext_ovls h.post2_layers

/-- Whether there are clones only depends on what was decided. -/
theorem clones_now_follows (h : f.Follows hwc_dev n) :
    clones_now f.hwc_dev = clones_now hwc_dev := by
  unfold clones_now
  rw [h.ext, h.counts, h.ext_ovls, h.ext_ovls_wanted]

/-- The end of `hwc_prepare` only adds the managers and the count of external overlays. -/
theorem finish_setup_outcome {x : HwcDevice} (hx : x.post2_layers = n)
    (hnum : x.dsscomp.num_ovls = n + c) (hres : (c : Int) ≤ x.ext_ovls) (hres' : x.ext_ovls ≤ 2) :
    ((finish_setup x).dsscomp.num_ovls = n + c ∨
      ((finish_setup x).dsscomp.num_ovls = 0 ∧ x.on_tv)) ∧
    (c : Int) ≤ (finish_setup x).ext_ovls ∧ (finish_setup x).ext_ovls ≤ 2 := by
  unfold finish_setup
  refine ⟨?_, ?_⟩
  · by_cases hdrop : x.ext.last_mode = 0 ∧ x.on_tv
    · exact .inr ⟨if_pos hdrop, hdrop.2⟩
    · exact .inl ((if_neg hdrop).trans hnum)
  · show (c : Int) ≤ (if _ then _ else _) ∧ (if _ then _ else _) ≤ (2 : Int)
    split
    · show (c : Int) ≤ (x.dsscomp.num_ovls : Int) - x.post2_layers ∧
        (x.dsscomp.num_ovls : Int) - x.post2_layers ≤ 2
      omega
    · exact ⟨hres, hres'⟩

/-- The external display gets its overlays beside those of an internal frame. -/
theorem clone_for_external_fits (h : hwc_dev.Steady) (env : PrepareEnv)
    (hint : InternalFrame (begin_frame hwc_dev list).1 (begin_frame hwc_dev list).2 n tail f) :
    ∃ c, Extended { f.hwc_dev with post2_layers := n } c (clone_for_external env f) ∧
      CloneCase env { f.hwc_dev with post2_layers := n } c (clone_for_external env f) ∧
      Fits hwc_dev (decided hwc_dev list) n c hwc_dev.primary_transform.toNat := by
  have hnow : clones_now f.hwc_dev = clones_now (decided hwc_dev list) :=
    (clones_now_follows hint.follows).trans rfl
  have hcur : f.hwc_dev.ext = (decided hwc_dev list).ext := hint.follows.ext
  have hfits := fun c hc => fits_of_cases (c := c) (counted_steady h list)
    (rfl : decided hwc_dev list = decide_supported_cloning (counted hwc_dev list)) hint.count hc
  have hn : f.hwc_dev.dsscomp.num_ovls = n := hint.follows.num_ovls
  obtain ⟨c, hext, hcase⟩ := clone_for_external_cases env f rfl
    (fun hc hd => by
      have := (hfits 1 (.inr (.inl ⟨hnow ▸ hc, hcur ▸ hd, rfl⟩))).both
      omega)
    (fun hc hd => by
      have := (hfits n (.inr (.inr ⟨hnow ▸ hc, hcur ▸ hd, rfl⟩))).both
      omega)
  rw [hn] at hext hcase
  refine ⟨c, hext, hcase, ?_⟩
  have hc : c = 0 ∨ (clones_now (decided hwc_dev list) ∧
      (decided hwc_dev list).ext.current.docking ∧ c = 1) ∨
      (clones_now (decided hwc_dev list) ∧
        (decided hwc_dev list).ext.current.docking = false ∧ c = n) := by
    rw [← hnow, ← hcur]
    rcases hcase with ⟨hc, -⟩ | ⟨hnw, hdk, hc⟩ | ⟨hnw, hdk, -, hc, -⟩
    · exact .inl hc
    · exact .inr (.inl ⟨hnw, hdk, hc⟩)
    · exact .inr (.inr ⟨hnw, hdk, hc.trans hn⟩)
  obtain ⟨h1, h2, h3, h4, h5⟩ := hfits c hc
  exact ⟨h1, h2, h3, h4, h5⟩

/-- The frame after `hwc_prepare` on a steady device. -/
theorem hwc_prepare_outcome (h : hwc_dev.Steady) (env : PrepareEnv)
    (list : Option (List HwcLayer)) :
    ∃ n c tail, Outcome hwc_dev (decided hwc_dev list) n c tail (hwc_prepare env hwc_dev list).1 ∧
      InternalFrame (begin_frame hwc_dev list).1 (begin_frame hwc_dev list).2 n tail
        (internal_frame env hwc_dev list) ∧
      CloneCase env { (internal_frame env hwc_dev list).hwc_dev with post2_layers := n } c
        (clone_for_external env (internal_frame env hwc_dev list)) := by
  obtain ⟨n, tail, hint⟩ := setup_overlays_placed env (begin_frame hwc_dev list).1
    (begin_frame hwc_dev list).2 h.fb_format
  have hprep : hwc_prepare env hwc_dev list =
      (finish_setup (transform_primary (clone_for_external env (internal_frame env hwc_dev list))),
        (internal_frame env hwc_dev list).list) := rfl
  change InternalFrame _ _ n tail (internal_frame env hwc_dev list) at hint
  generalize hf : internal_frame env hwc_dev list = f at *
  obtain ⟨c, hext, hcase, hfit⟩ := clone_for_external_fits h env hint
  obtain ⟨hfollows, hplaced, hcount, hscaling, hmirroring⟩ := hint
  have hcur : f.hwc_dev.ext = (decided hwc_dev list).ext := hfollows.ext
  have hn : f.hwc_dev.dsscomp.num_ovls = n := hfollows.num_ovls
  refine ⟨n, c, tail, ?_, ⟨hfollows, hplaced, hcount, hscaling, hmirroring⟩, hcase⟩
  obtain ⟨⟨ext, ovls, hsame, hx⟩, hlow, hhigh⟩ := hext
  obtain ⟨ovls', ht, hplace⟩ := transform_primary_eq (clone_for_external env f)
  have hplaces : ∀ k, SamePlace ((clone_for_external env f).dsscomp.ovls k).cfg
      ((hwc_prepare env hwc_dev list).1.dsscomp.ovls k).cfg := by
    intro k
    rw [hprep]
    show SamePlace _ ((transform_primary (clone_for_external env f)).dsscomp.ovls k).cfg
    rw [ht]
    exact hplace k
  have hy : transform_primary (clone_for_external env f) =
      ({ f.hwc_dev with post2_layers := n, ext := ext }.setDsscomp ovls' (n + c)) := by
    rw [ht, hx]
    show HwcDevice.setDsscomp _ ovls' (f.hwc_dev.dsscomp.num_ovls + c) = _
    rw [hn]
    rfl
  have hbase : f.hwc_dev.ext_ovls = (decided hwc_dev list).ext_ovls := hfollows.ext_ovls
  obtain ⟨hnum, hovls⟩ := finish_setup_outcome (x := transform_primary (clone_for_external env f))
    (n := n) (c := c) (by rw [hy]; rfl) (by rw [hy]; rfl)
    (by rw [hy]; exact hbase ▸ hfit.reserved) (by rw [hy]; exact hbase ▸ hfit.reserved_le)
  have htv : (transform_primary (clone_for_external env f)).on_tv = hwc_dev.on_tv := by
    rw [hy]
    exact hfollows.on_tv
  refine ⟨hfit, ?_, fun j hj => ?_, fun i j hi hj he => ?_, ?_, ?_, ?_, ?_⟩
  · refine Placed.congr (hplaced.congr fun k hk => ?_) fun k _ => hplaces k
    rw [hlow k (show k < f.hwc_dev.dsscomp.num_ovls by omega)]
    exact .refl _
  · have hc : ClonedAt n j ((clone_for_external env f).dsscomp.ovls (n + j)) := hn ▸ hhigh j hj
    exact ⟨(hplaces _).ix.trans hc.ix, (hplaces _).mgr_ix.trans hc.mgr_ix⟩
  · rw [(hplaces _).zorder, (hplaces _).zorder] at he
    rcases hcase with ⟨hc, -⟩ | ⟨-, -, hc⟩ | ⟨-, -, -, hc, hz⟩
    · omega
    · omega
    · have hzn : ∀ j < c, ((clone_for_external env f).dsscomp.ovls (n + j)).cfg.zorder =
          (f.hwc_dev.dsscomp.ovls j).cfg.zorder + f.hwc_dev.dsscomp.num_ovls := hn ▸ hz
      have hcn : c = n := hc.trans hn
      rw [hzn i hi, hzn j hj] at he
      exact hplaced.zorder i j (by omega) (by omega) (by omega)
  · rw [hprep]
    rwa [htv] at hnum
  · rw [hprep]
    show (transform_primary (clone_for_external env f)).post2_layers = n
    rw [hy]
    rfl
  · rw [hprep]
    exact hovls
  · rw [hprep]
    have hmir : f.hwc_dev.ext.mirror = hwc_dev.ext.mirror := by rw [hcur]; rfl
    have hdock : f.hwc_dev.ext.dock = hwc_dev.ext.dock := by rw [hcur]; rfl
    have hlayers : n ≤ 4 := by
      have := hfit.both
      omega
    have hends : 0 ≤ (finish_setup (transform_primary (clone_for_external env f))).ext_ovls ∧
        (finish_setup (transform_primary (clone_for_external env f))).ext_ovls ≤ 2 :=
      ⟨le_trans (Int.natCast_nonneg c) hovls.1, hovls.2⟩
    rw [hy] at hends ⊢
    exact h.congr hfollows.fb_format (hsame.mirror.trans hmir) (hsame.dock.trans hdock)
      hfollows.on_tv hfollows.last_ext_ovls hfollows.last_int_ovls hends hlayers

end OmapHal.Hwc
