import OmapHal.Hwc.Stacking

/-!
# What the display shows with SGX

The overlays of a prepared frame in the order of their z-orders, with the framebuffer where the
loop left its place: together they show the list.
-/

namespace OmapHal.Hwc

open OmapHal.Core List

variable {M : Type*} [Monoid M]

/-! ### The frame -/

section Frame

variable {env : PrepareEnv} {hwc_dev : HwcDevice} {list : Option (List HwcLayer)} {k : Nat}

/-- A frame that SGX composes is the one of the loop, with the framebuffer put in. -/
theorem internal_frame_of_sgx (h : (internal_frame env hwc_dev list).hwc_dev.use_sgx) :
    (begin_frame hwc_dev list).1.use_sgx ∧
      internal_frame env hwc_dev list = setup_framebuffer
        (overlayFrame (begin_frame hwc_dev list).1 (begin_frame hwc_dev list).2) := by
  have hframe : internal_frame env hwc_dev list = setup_framebuffer (blit_rest env
      (setup_overlays env (begin_frame hwc_dev list).1 (begin_frame hwc_dev list).2)) := rfl
  obtain ⟨hall, hsgx⟩ : ¬BlitsAll env hwc_dev list ∧
      (begin_frame hwc_dev list).1.use_sgx := by
    cases internal_frame_cases env hwc_dev list with
    | blits _ _ _ _ hoff =>
      rw [hoff] at h
      cases h
    | overlays hall _ _ _ hon => exact ⟨hall, hon.symm.trans h⟩
    | rest _ _ _ _ _ hoff =>
      rw [hoff] at h
      cases h
  refine ⟨hsgx, ?_⟩
  have hsetup : setup_overlays env (begin_frame hwc_dev list).1 (begin_frame hwc_dev list).2 =
      overlayFrame (begin_frame hwc_dev list).1 (begin_frame hwc_dev list).2 :=
    setup_overlays_eq hall
  rw [hframe, hsetup] at h
  rw [hframe, hsetup]
  congr 1
  rw [(setup_framebuffer_sameLayers _).use_sgx, blit_rest] at h
  rw [blit_rest]
  split
  · next hp =>
    rw [if_pos hp] at h
    cases hb : blit_layers env
        (overlayFrame (begin_frame hwc_dev list).1 (begin_frame hwc_dev list).2).hwc_dev
        (overlayFrame (begin_frame hwc_dev list).1 (begin_frame hwc_dev list).2).list _ with
    | none => rfl
    | some x =>
      rw [hb] at h
      cases h
  · rfl

/-- The overlays from below the framebuffer to above it. -/
def displayOrder (n low : Nat) : List Nat :=
  List.range' 1 (low - 1) ++ 0 :: List.range' low (n - low)

theorem displayOrder_perm {n low : Nat} (hlow : 1 ≤ low) (hn : low ≤ n) :
    (displayOrder n low).Perm (List.range n) := by
  have hsplit := @List.range'_append_1 1 (low - 1) (n - low)
  rw [Nat.add_sub_cancel' hlow] at hsplit
  have hlen : low - 1 + (n - low) = n - 1 := by omega
  have hrange : range n = 0 :: range' 1 (n - 1) := by
    obtain ⟨m, rfl⟩ : ∃ m, n = m + 1 := ⟨n - 1, by omega⟩
    rw [range_eq_range', range'_succ, Nat.add_sub_cancel]
  rw [displayOrder, hrange, ← hlen, ← hsplit]
  exact perm_middle

/-- Overlays with z-orders that leave the first one's free are in the order of these. -/
theorem displayOrder_pairwise {n low : Nat} {zorder : Nat → Int} (hlow : 1 ≤ low)
    (hn : low ≤ n) (hfb : zorder 0 = low - 1)
    (hz : ∀ k, 1 ≤ k → k < n → zorder k = if k < low then (k : Int) - 1 else k) :
    (displayOrder n low).Pairwise fun j k => zorder j ≤ zorder k := by
  have hrange : ∀ a b, 1 ≤ a → a + b ≤ n →
      (range' a b).Pairwise fun j k => zorder j ≤ zorder k := by
    intro a b ha hb
    refine Pairwise.imp_of_mem (fun {j k} hj hk hlt => ?_) pairwise_lt_range'
    rw [mem_range'_1] at hj hk
    rw [hz _ (by omega) (by omega), hz _ (by omega) (by omega)]
    split <;> split <;> omega
  rw [displayOrder, pairwise_append]
  refine ⟨hrange 1 (low - 1) le_rfl (by omega), ?_, fun j hj k hk => ?_⟩
  · refine pairwise_cons.mpr ⟨fun k hk => ?_, hrange low (n - low) hlow (by omega)⟩
    rw [mem_range'_1] at hk
    rw [hfb, hz k (by omega) (by omega), if_neg (by omega)]
    omega
  · rw [mem_range'_1] at hj
    rw [hz j (by omega) (by omega), if_pos (by omega)]
    rcases mem_cons.mp hk with rfl | hk
    · rw [hfb]
      omega
    · rw [mem_range'_1] at hk
      rw [hz k (by omega) (by omega), if_neg (by omega)]
      omega

/-- The display has one order for overlays whose z-orders differ. -/
theorem internalOverlays_eq {d : SetupDispcData} {order : List Nat}
    (hperm : order.Perm ((List.range d.num_ovls).filter fun k => (d.ovls k).cfg.mgr_ix = 0))
    (hsorted : order.Pairwise fun j k => (d.ovls j).cfg.zorder ≤ (d.ovls k).cfg.zorder)
    (hdistinct : ∀ j ∈ order, ∀ k ∈ order, (d.ovls j).cfg.zorder = (d.ovls k).cfg.zorder → j = k) :
    d.internalOverlays = order := by
  have hperm' : d.internalOverlays.Perm order :=
    (mergeSort_perm _ _).trans hperm.symm
  have hsorted' : d.internalOverlays.Pairwise fun j k =>
      (d.ovls j).cfg.zorder ≤ (d.ovls k).cfg.zorder := by
    have h := @List.pairwise_mergeSort _
      (fun j k => decide ((d.ovls j).cfg.zorder ≤ (d.ovls k).cfg.zorder))
      (fun a b c hab hbc => decide_eq_true (le_trans (of_decide_eq_true hab)
        (of_decide_eq_true hbc)))
      (fun a b => by simpa using le_total _ _)
      ((range d.num_ovls).filter fun k => (d.ovls k).cfg.mgr_ix = 0)
    exact h.imp of_decide_eq_true
  apply hperm'.eq_of_pairwise _ hsorted' hsorted
  intro j k hj hk hjk hkj
  exact hdistinct j (hperm'.subset hj) k hk (le_antisymm hjk hkj)

/-- The overlays of the internal display when those of the external one are on another manager. -/
theorem filter_internal {d : SetupDispcData} {n c : Nat} (hnum : d.num_ovls = n + c)
    (hint : ∀ k < n, (d.ovls k).cfg.mgr_ix = 0) (hext : ∀ j < c, (d.ovls (n + j)).cfg.mgr_ix = 1) :
    ((List.range d.num_ovls).filter fun k => (d.ovls k).cfg.mgr_ix = 0) = List.range n := by
  rw [hnum, range_add, filter_append, filter_eq_self.mpr, filter_eq_nil_iff.mpr, append_nil]
  · intro k hk
    obtain ⟨j, hj, rfl⟩ := mem_map.mp hk
    rw [hext j (mem_range.mp hj)]
    simp
  · intro k hk
    exact decide_eq_true (hint k (mem_range.mp hk))

/-- The loop of a frame that SGX composes, and what the display shows of it. -/
theorem prepare_sgx (h : hwc_dev.Steady) (env : PrepareEnv) (list : Option (List HwcLayer))
    (hsgx : (hwc_prepare env hwc_dev list).1.use_sgx) :
    (begin_frame hwc_dev list).1.use_sgx ∧ internal_frame env hwc_dev list =
      setup_framebuffer (overlayFrame (begin_frame hwc_dev list).1 (begin_frame hwc_dev list).2) :=
  internal_frame_of_sgx ((prepare_keeps h env list).1.symm.trans hsgx)

/-- The pipes of a frame that SGX composes. -/
def sgxPipes (hwc_dev : HwcDevice) (list : Option (List HwcLayer)) : Pipes :=
  setup_pipes (begin_frame hwc_dev list).1 true ((begin_frame hwc_dev list).2.getD [])

/-- A frame that SGX composes has the overlays of the loop behind the framebuffer's. -/
structure SgxFrame (hwc_dev : HwcDevice) (p : Pipes) (list : Option (List HwcLayer)) (f : Frame) :
    Prop where
  layers : f.list = list.map fun _ => p.visited
  num_ovls : f.hwc_dev.dsscomp.num_ovls = p.num_ovls
  buffers : ∀ k, f.hwc_dev.buffers k = if k = 0 then .null else p.buffers k
  ovls : ∀ k, k ≠ 0 → f.hwc_dev.dsscomp.ovls k = p.ovls k
  fb_z : (f.hwc_dev.dsscomp.ovls 0).cfg.zorder = if p.fb_z < 0 then p.z else p.fb_z
  fb : (f.hwc_dev.dsscomp.ovls 0).unplaced = (framebuffer_overlay hwc_dev .zero 0).unplaced
  swap_rb : f.hwc_dev.swap_rb = hwc_dev.swap_rb

theorem setup_framebuffer_sgxFrame {hwc_dev : HwcDevice} {p : Pipes} {list : Option (List HwcLayer)}
    (hp : setup_pipes hwc_dev true (list.getD []) = p) (hsgx : hwc_dev.use_sgx)
    (hfb : is_valid_format hwc_dev.fb_format) (hgfx : p.scaled_gfx = false) :
    SgxFrame hwc_dev p list (setup_framebuffer (overlayFrame hwc_dev list)) := by
  have hframe : overlayFrame hwc_dev list =
      { hwc_dev := { hwc_dev with buffers := p.buffers }.setDsscomp p.ovls p.num_ovls
        list := list.map fun _ => p.visited
        needs_fb := true
        z := p.z
        fb_z := p.fb_z
        ix_docking := p.ix_docking
        source := p.source
        blitted := fun _ => false } := by
    rw [overlayFrame, hsgx, hp, hgfx]
    rfl
  have hfirst := setup_pipes_first hwc_dev (list.getD [])
  rw [hp] at hfirst
  rw [hframe, setup_framebuffer, if_pos rfl]
  have hon : (HwcDevice.setDsscomp { hwc_dev with buffers := p.buffers } p.ovls
      p.num_ovls).use_sgx := hsgx
  refine ⟨rfl, rfl, fun k => ?_, fun k hk => ?_, ?_, ?_, rfl⟩
  · simp only [if_pos hon]
    exact Function.update_apply ..
  · exact Function.update_of_ne hk ..
  · exact framebuffer_overlay_zorder hfb ..
  · have hunplaced := framebuffer_overlay_unplaced hwc_dev (p.ovls 0)
      (if p.fb_z < 0 then p.z else p.fb_z)
    rw [hfirst] at hunplaced
    exact hunplaced

/-- The frame of a call after which SGX composes. -/
theorem prepare_sgxFrame (h : hwc_dev.Steady) (env : PrepareEnv) (list : Option (List HwcLayer))
    (hsgx : (hwc_prepare env hwc_dev list).1.use_sgx) :
    (begin_frame hwc_dev list).1.use_sgx = true ∧
      SgxFrame (begin_frame hwc_dev list).1 (sgxPipes hwc_dev list) (begin_frame hwc_dev list).2
        (internal_frame env hwc_dev list) := by
  obtain ⟨hbegin, hframe⟩ := prepare_sgx h env list hsgx
  have hinv := setup_pipes_inv (begin_frame hwc_dev list).1 ((begin_frame hwc_dev list).2.getD [])
  rw [hbegin] at hinv
  change (sgxPipes hwc_dev list).Inv _ 1 _ at hinv
  have hgfx : (sgxPipes hwc_dev list).scaled_gfx = false := by
    by_contra hc
    exact Nat.one_ne_zero (hinv.indexed.gfx (by simpa using hc)).1
  exact ⟨hbegin, hframe ▸ setup_framebuffer_sgxFrame (p := sgxPipes hwc_dev list) rfl hbegin
    (show is_valid_format (begin_frame hwc_dev list).1.fb_format = true from h.fb_format) hgfx⟩

/-- The display shows the overlays of the loop with the framebuffer in the place left for it. -/
theorem internalOverlays_of_sgx (h : hwc_dev.Steady) (env : PrepareEnv)
    (list : Option (List HwcLayer)) (hsgx : (hwc_prepare env hwc_dev list).1.use_sgx)
    (hovls : (hwc_prepare env hwc_dev list).1.dsscomp.num_ovls ≠ 0) :
    1 ≤ (sgxPipes hwc_dev list).fbAbove ∧
      (sgxPipes hwc_dev list).fbAbove ≤ (sgxPipes hwc_dev list).num_ovls ∧
      (hwc_prepare env hwc_dev list).1.dsscomp.internalOverlays =
        displayOrder (sgxPipes hwc_dev list).num_ovls (sgxPipes hwc_dev list).fbAbove := by
  obtain ⟨hbegin, -, hnum, -, hfovls, hfbz, -, -⟩ := prepare_sgxFrame h env list hsgx
  obtain ⟨n, c, tail, hout, hint, -⟩ := hwc_prepare_outcome h env list
  have hinv := setup_pipes_inv (begin_frame hwc_dev list).1 ((begin_frame hwc_dev list).2.getD [])
  rw [hbegin] at hinv
  change (sgxPipes hwc_dev list).Inv _ 1 _ at hinv
  have hn : (sgxPipes hwc_dev list).num_ovls = n := hnum.symm.trans hint.follows.num_ovls
  have hplace : ∀ k, k < (sgxPipes hwc_dev list).num_ovls →
      SamePlace ((internal_frame env hwc_dev list).hwc_dev.dsscomp.ovls k).cfg
        ((hwc_prepare env hwc_dev list).1.dsscomp.ovls k).cfg := by
    intro k hk
    rw [prepare_ovls h env list (hnum ▸ hk)]
    exact primaryCfg_samePlace hwc_dev _
  obtain ⟨hstart, hfb, htop, hz⟩ := hinv.stacked
  have hlow : 1 ≤ (sgxPipes hwc_dev list).fbAbove ∧
      (sgxPipes hwc_dev list).fbAbove ≤ (sgxPipes hwc_dev list).num_ovls := by
    rw [Pipes.fbAbove]
    split at htop <;> split <;> omega
  -- the z-orders of the overlays from the loop and of the framebuffer
  have hz0 : ((hwc_prepare env hwc_dev list).1.dsscomp.ovls 0).cfg.zorder =
      (sgxPipes hwc_dev list).fbAbove - 1 := by
    rw [(hplace 0 (by omega)).zorder, hfbz, Pipes.fbAbove]
    split at htop <;> split <;> omega
  have hzk : ∀ k, 1 ≤ k → k < (sgxPipes hwc_dev list).num_ovls →
      ((hwc_prepare env hwc_dev list).1.dsscomp.ovls k).cfg.zorder =
        if k < (sgxPipes hwc_dev list).fbAbove then (k : Int) - 1 else k := by
    intro k hk hk'
    rw [(hplace k hk').zorder, hfovls k (by omega), hz k hk hk', Pipes.fbAbove]
    by_cases hneg : (sgxPipes hwc_dev list).fb_z < 0
    · rw [if_pos hneg, if_neg (by omega), if_pos hk']
      omega
    · rw [if_neg hneg]
      split <;> split <;> omega
  have hmgr : ∀ k < (sgxPipes hwc_dev list).num_ovls,
      ((hwc_prepare env hwc_dev list).1.dsscomp.ovls k).cfg.mgr_ix = 0 :=
    fun k hk => hout.internal.mgr_ix k (hn ▸ hk)
  have hcount : (hwc_prepare env hwc_dev list).1.dsscomp.num_ovls =
      (sgxPipes hwc_dev list).num_ovls + c :=
    hn ▸ hout.num_ovls.resolve_right fun hzero => hovls hzero.1
  have hfilter := filter_internal hcount hmgr fun j hj => hn ▸ (hout.external j hj).mgr_ix
  have hperm := displayOrder_perm hlow.1 hlow.2
  refine ⟨hlow.1, hlow.2, internalOverlays_eq (hfilter.symm ▸ hperm)
    (displayOrder_pairwise hlow.1 hlow.2 hz0 hzk) fun j hj k hk => ?_⟩
  exact hout.internal.zorder j k (hn ▸ mem_range.mp (hperm.subset hj))
    (hn ▸ mem_range.mp (hperm.subset hk))

end Frame

/-! ### The display -/

section Display

variable {hwc_dev : HwcDevice} {list : Option (List HwcLayer)} {layers : List HwcLayer}

/-- The pictures of layers whose composition is not decided yet. -/
def Pictures.begun (pics : Pictures M layers) :
    Pictures M (layers.map fun layer => { layer with compositionType := .framebuffer }) where
  content := pics.content
  outside := by
    intro i layer p hi hp
    rw [List.getElem?_map] at hi
    obtain ⟨layer', hi', rfl⟩ := Option.map_eq_some_iff.mp hi
    exact pics.outside i layer' p hi' hp
  hides := by
    intro i layer p hi hb hp
    rw [List.getElem?_map] at hi
    obtain ⟨layer', hi', rfl⟩ := Option.map_eq_some_iff.mp hi
    exact pics.hides i layer' p hi' hb hp

theorem sgxPipes_stack (pics : Pictures M (list.getD [])) (pixel : Int × Int)
    (hsgx : (begin_frame hwc_dev list).1.use_sgx) :
    (sgxPipes hwc_dev list).Stack (fun i => pics.content i pixel) pixel
      (begin_frame hwc_dev list).1
      ((list.getD []).map fun layer => { layer with compositionType := .framebuffer }) := by
  rw [sgxPipes, begin_frame_list]
  apply setup_pipes_stack pics.begun hsgx
  intro layer hl
  obtain ⟨layer', -, rfl⟩ := mem_map.mp hl
  rfl

/-- The overlays below the framebuffer, the framebuffer and the overlays above it. -/
theorem stack_displayOrder {p : Pipes} {content : Nat → M} {pixel : Int × Int} (canvas : M)
    (hcanvas : drawFramebuffer content pixel p.visited = canvas) (hlow : 1 ≤ p.fbAbove) :
    stack ((displayOrder p.num_ovls p.fbAbove).map (overlayContent canvas content p.source)) =
      (p.planes content pixel).shown := by
  have hmap : ∀ a b, 1 ≤ a → (range' a b).map (overlayContent canvas content p.source) =
      (range' a b).map fun k => content (p.source k) := by
    intro a b ha
    refine map_congr_left fun k hk => ?_
    rw [mem_range'_1] at hk
    exact if_neg (by omega)
  rw [displayOrder, map_append, map_cons, hmap 1 _ le_rfl, hmap _ _ hlow,
    ← singleton_append, ← append_assoc, stack_append, stack_concat]
  show _ = p.shown content p.fbAbove p.num_ovls *
    (drawFramebuffer content pixel p.visited * p.shown content 1 p.fbAbove)
  rw [hcanvas]
  rfl

/-- What the display shows of each pixel of the framebuffer is what painting all layers from the
bottom to the top puts there. -/
def KeepsStacking (env : PrepareEnv) (hwc_dev : HwcDevice) (list : Option (List HwcLayer))
    (scr : Screen M hwc_dev (list.getD [])) : Prop :=
  ∀ pixel ∈ hwc_dev.fbRect, scr.display
      (fun p => drawFramebuffer (fun i => scr.content i p) p
        ((hwc_prepare env hwc_dev list).2.getD []))
      (hwc_prepare env hwc_dev list).1 (scr.place pixel) =
    stack ((List.range (list.getD []).length).map fun i => scr.content i pixel)

/-- With SGX the overlays take red and blue as the framebuffer has them. -/
theorem begin_frame_swap_rb (h : (begin_frame hwc_dev list).1.use_sgx = true) :
    (begin_frame hwc_dev list).1.swap_rb = is_BGR_format hwc_dev.fb_format := by
  have hall : can_dss_render_all (decided hwc_dev list) = false := by
    have hnot : (!can_dss_render_all (decided hwc_dev list)) = true := h
    simpa using hnot
  show (if can_dss_render_all (decided hwc_dev list) then _ else _) = _
  rw [hall]
  rfl

/-- The display can show the overlays as the layers ask for: the framebuffer has transparency, the
order of red and blue is kept or happens to agree, and the transform of the primary display leaves
the framebuffer whole and of each layer what is to be seen, cut in proportion. -/
structure Showable (hwc_dev : HwcDevice) (list : Option (List HwcLayer)) : Prop where
  alpha : hasAlpha hwc_dev.fb_format = true
  order : hwc_dev.flags_rgb_order = false → ∀ layer handle, TakesOverlay hwc_dev list layer handle →
    is_NV12 handle = false → is_BGR handle = is_BGR_format hwc_dev.fb_format
  uncut : hwc_dev.primary_transform = true → crop_to_rect
      (framebuffer_overlay hwc_dev .zero 0).cfg.unplaced hwc_dev.primary_region =
    some (framebuffer_overlay hwc_dev .zero 0).cfg.unplaced
  seen : hwc_dev.primary_transform = true → ∀ layer handle, TakesOverlay hwc_dev list layer handle →
    match crop_to_rect (setup_layer layer handle 0) hwc_dev.primary_region with
    | some cfg => (setup_layer layer handle 0).InProportion cfg ∧
        ∀ pixel ∈ hwc_dev.fbRect, pixel ∈ cfg.win.toRect ↔ pixel ∈ layer.displayFrame
    | none => ∀ pixel ∈ hwc_dev.fbRect, pixel ∉ layer.displayFrame

/-- A layer with an overlay has red and blue as the framebuffer does. -/
theorem Showable.sameOrder {layer : HwcLayer} {handle : NativeHandle} (h : Showable hwc_dev list)
    (htakes : TakesOverlay hwc_dev list layer handle) (hnv12 : is_NV12 handle = false)
    (hsgx : (begin_frame hwc_dev list).1.use_sgx = true) :
    is_BGR_format hwc_dev.fb_format = is_BGR handle := by
  cases hflag : hwc_dev.flags_rgb_order with
  | false => exact (h.order hflag layer handle htakes hnv12).symm
  | true =>
    obtain ⟨before, -, hd, ht⟩ := htakes
    have hvalid := takes_overlay_format ht
    have hrender := (takes_overlay_iff.mp ht).2.1
    have hflag' : (begin_frame hwc_dev list).1.flags_rgb_order = true := hflag
    rw [can_dss_render_layer, begin_frame_swap_rb hsgx, hflag'] at hrender
    simp only [Bool.and_eq_true, Bool.not_true, Bool.or_false] at hrender
    have horder := hrender.1.2
    unfold is_BGR is_RGB at *
    unfold is_NV12 at hnv12
    unfold is_valid_format at hvalid
    revert horder hnv12 hvalid
    cases is_BGR_format hwc_dev.fb_format <;> cases handle.iFormat <;> decide

section

variable {env : PrepareEnv} {canvas : Int × Int → M} {pixel : Int × Int} {k : Nat}

/-- A posted overlay, without its place. -/
theorem prepare_unplaced (h : hwc_dev.Steady) (env : PrepareEnv) (list : Option (List HwcLayer))
    {cfg : Dss2OvlCfg} {ba : Int}
    (hk : k < (internal_frame env hwc_dev list).hwc_dev.dsscomp.num_ovls)
    (ho : ((internal_frame env hwc_dev list).hwc_dev.dsscomp.ovls k).unplaced =
      ⟨cfg.unplaced, .layerIx, ba⟩) :
    ((hwc_prepare env hwc_dev list).1.dsscomp.ovls k).unplaced =
      ⟨hwc_dev.primaryCfg cfg.unplaced, .layerIx, ba⟩ := by
  rw [prepare_ovls h env list hk]
  have hcfg : ((internal_frame env hwc_dev list).hwc_dev.dsscomp.ovls k).cfg.unplaced =
      cfg.unplaced := congrArg Dss2OvlInfo.cfg ho
  have haddressing : ((internal_frame env hwc_dev list).hwc_dev.dsscomp.ovls k).addressing =
      .layerIx := congrArg Dss2OvlInfo.addressing ho
  have hba : ((internal_frame env hwc_dev list).hwc_dev.dsscomp.ovls k).ba = ba :=
    congrArg Dss2OvlInfo.ba ho
  rw [Dss2OvlInfo.unplaced, haddressing, hba]
  show Dss2OvlInfo.mk (hwc_dev.primaryCfg _).unplaced _ _ = _
  rw [primaryCfg_unplaced, hcfg]

/-- The first overlay shows the framebuffer. -/
theorem overlayShows_framebuffer (h : hwc_dev.Steady) (env : PrepareEnv)
    (scr : Screen M hwc_dev (list.getD []))
    (hsgx : (hwc_prepare env hwc_dev list).1.use_sgx) (hshow : Showable hwc_dev list)
    (hnum : 0 < (sgxPipes hwc_dev list).num_ovls) (hp : pixel ∈ hwc_dev.fbRect) :
    scr.overlayShows canvas (hwc_prepare env hwc_dev list).1 (scr.place pixel) 0 =
      canvas pixel := by
  obtain ⟨hbegin, hframe⟩ := prepare_sgxFrame h env list hsgx
  obtain ⟨-, hbuffers, hswap, hformat⟩ := prepare_keeps h env list
  rw [hframe.swap_rb, begin_frame_swap_rb hbegin] at hswap
  have ho : ((hwc_prepare env hwc_dev list).1.dsscomp.ovls 0).unplaced =
      ⟨hwc_dev.primaryCfg (framebuffer_overlay hwc_dev .zero 0).cfg.unplaced, .layerIx, 0⟩ :=
    prepare_unplaced h env list (hframe.num_ovls ▸ hnum) hframe.fb
  have hcut : hwc_dev.primary_transform = true → crop_to_rect
      (framebuffer_overlay hwc_dev .zero 0).cfg.unplaced hwc_dev.primary_region =
        some (framebuffer_overlay hwc_dev .zero 0).cfg.unplaced := hshow.uncut
  have hdrawing : (framebuffer_overlay hwc_dev .zero 0).cfg.unplaced.drawing .null
      hwc_dev.fb_format (is_BGR_format hwc_dev.fb_format) = hwc_dev.fbDrawing :=
    framebuffer_overlay_drawing hshow.alpha rfl
  have hnull : (hwc_prepare env hwc_dev list).1.buffers (0 : Int).toNat = .null := by
    rw [hbuffers, hframe.buffers]
    rfl
  have hon : (hwc_dev.primaryCfg (framebuffer_overlay hwc_dev .zero 0).cfg.unplaced).enabled :=
    primaryCfg_enabled_iff.mpr ⟨framebuffer_overlay_enabled hshow.alpha, fun ⟨ht, hc⟩ => by
      rw [hcut ht] at hc
      cases hc⟩
  have hkept : if hwc_dev.primary_transform then crop_to_rect
      (framebuffer_overlay hwc_dev .zero 0).cfg.unplaced hwc_dev.primary_region =
        some (framebuffer_overlay hwc_dev .zero 0).cfg.unplaced
      else (framebuffer_overlay hwc_dev .zero 0).cfg.unplaced =
        (framebuffer_overlay hwc_dev .zero 0).cfg.unplaced := by
    split
    · next ht => exact hcut ht
    · rfl
  rw [scr.overlayShows_of_unplaced canvas ho, if_pos hon, hnull, hswap, hformat]
  show scr.shows canvas ((hwc_dev.primaryCfg _).drawing .null hwc_dev.fb_format _) _ = _
  rw [primaryCfg_drawing hkept, scr.shows_moved canvas _ hp, hdrawing, Screen.shows]
  exact (if_pos rfl).trans (scr.whole canvas pixel hp)

theorem toRect_ofRect (r : Rect) : (Window.ofRect r).toRect = r := by
  cases r
  simp [Window.ofRect, Window.toRect, WIDTH, HEIGHT]

theorem setup_layer_win (layer : HwcLayer) (handle : NativeHandle) (index : Int) :
    (setup_layer layer handle index).win.toRect = layer.displayFrame :=
  toRect_ofRect layer.displayFrame

/-- Every other overlay shows the layer it was set up from. -/
theorem overlayShows_layer (h : hwc_dev.Steady) (env : PrepareEnv)
    (scr : Screen M hwc_dev (list.getD []))
    (hsgx : (hwc_prepare env hwc_dev list).1.use_sgx) (hshow : Showable hwc_dev list)
    (hk : 1 ≤ k) (hk' : k < (sgxPipes hwc_dev list).num_ovls) (hp : pixel ∈ hwc_dev.fbRect) :
    scr.overlayShows canvas (hwc_prepare env hwc_dev list).1 (scr.place pixel) k =
      scr.content ((sgxPipes hwc_dev list).source k) pixel := by
  obtain ⟨hbegin, hframe⟩ := prepare_sgxFrame h env list hsgx
  obtain ⟨-, hbuffers, hswap, hformat⟩ := prepare_keeps h env list
  rw [hframe.swap_rb, begin_frame_swap_rb hbegin] at hswap
  obtain ⟨before, layer, handle, hpre, hset⟩ := setup_pipes_shows (begin_frame hwc_dev list).1 true
    ((begin_frame hwc_dev list).2.getD []) k hk hk'
  obtain ⟨hsource, hd, htakes, hbuffer, hovl⟩ := hset
  have htaken : TakesOverlay hwc_dev list layer handle := ⟨before, hpre, hd, by rwa [hbegin]⟩
  have hvalid := takes_overlay_format htakes
  -- the layer of the list that the overlay was set up from
  have hat : ∃ l, (list.getD [])[before.length]? = some l ∧ l.handle.deref? = some handle ∧
      l.drawing handle = layer.drawing handle ∧ l.displayFrame = layer.displayFrame := by
    have hget : ((begin_frame hwc_dev list).2.getD [])[before.length]? = some layer := by
      obtain ⟨rest, hrest⟩ := hpre
      rw [← hrest, append_assoc, getElem?_append_right le_rfl, Nat.sub_self]
      rfl
    rw [begin_frame_list, getElem?_map, Option.map_eq_some_iff] at hget
    obtain ⟨l, hl, rfl⟩ := hget
    exact ⟨l, hl, hd, rfl, rfl⟩
  obtain ⟨l, hl, hld, hldraw, hlframe⟩ := hat
  have hset : ((internal_frame env hwc_dev list).hwc_dev.dsscomp.ovls k).unplaced =
      ⟨(setup_layer layer handle 0).unplaced, .layerIx, k⟩ := by
    rw [hframe.ovls k (by omega)]
    exact hovl
  have ho := prepare_unplaced h env list (hframe.num_ovls ▸ hk') hset
  have himg : (hwc_prepare env hwc_dev list).1.buffers (k : Int).toNat = layer.handle := by
    rw [hbuffers, Int.toNat_natCast, hframe.buffers, if_neg (by omega)]
    exact hbuffer
  have hformat' : layer.handle.formatOr hwc_dev.fb_format = handle.iFormat := by
    rw [BufferHandle.formatOr, hd]
    rfl
  have hnonnull : layer.handle ≠ .null := by
    intro hc
    rw [hc] at hd
    cases hd
  have hsource' : (sgxPipes hwc_dev list).source k = before.length := hsource
  rw [scr.overlayShows_of_unplaced canvas ho, himg, hformat, hformat', hswap, hsource']
  have hdrawing : (setup_layer layer handle 0).drawing layer.handle handle.iFormat
      (is_BGR_format hwc_dev.fb_format) = layer.drawing handle :=
    setup_layer_drawing hvalid fun hnv12 => hshow.sameOrder htaken hnv12 hbegin
  have hpicture : scr.draw (layer.drawing handle) pixel = scr.content before.length pixel := by
    rw [← hldraw, scr.drawn _ l handle pixel hl hld]
  -- what is left of the layer's setup when the transform has cropped it
  have hkept : ∀ cfg : Dss2OvlCfg, (if hwc_dev.primary_transform then crop_to_rect
        (setup_layer layer handle 0).unplaced hwc_dev.primary_region = some cfg.unplaced
      else cfg.unplaced = (setup_layer layer handle 0).unplaced) →
      scr.draw (cfg.drawing layer.handle handle.iFormat (is_BGR_format hwc_dev.fb_format)) pixel =
        scr.content before.length pixel →
      (if (hwc_dev.primaryCfg (setup_layer layer handle 0).unplaced).enabled then
        scr.shows canvas ((hwc_dev.primaryCfg (setup_layer layer handle 0).unplaced).drawing
          layer.handle handle.iFormat (is_BGR_format hwc_dev.fb_format)) (scr.place pixel)
        else 1) = scr.content before.length pixel := by
    intro cfg hcut hshown
    have hon : (hwc_dev.primaryCfg (setup_layer layer handle 0).unplaced).enabled :=
      primaryCfg_enabled_iff.mpr ⟨setup_layer_enabled hvalid, fun ⟨ht, hc⟩ => by
        rw [if_pos ht, hc] at hcut
        cases hcut⟩
    rw [if_pos hon, primaryCfg_drawing hcut, scr.shows_moved canvas _ hp, Screen.shows]
    exact (if_neg hnonnull).trans hshown
  cases ht : hwc_dev.primary_transform with
  | false =>
    refine hkept (setup_layer layer handle 0) ?_ (by rw [hdrawing, hpicture])
    rw [if_neg (by simp [ht])]
  | true =>
    have hseen := hshow.seen ht layer handle htaken
    cases hcut : crop_to_rect (setup_layer layer handle 0) hwc_dev.primary_region with
    | none =>
      rw [hcut] at hseen
      rw [if_neg, scr.outside _ l pixel hl (hlframe ▸ hseen pixel hp)]
      rw [primaryCfg_enabled_iff, crop_to_rect_unplaced, hcut]
      exact fun hc => hc.2 ⟨ht, rfl⟩
    | some cfg =>
      rw [hcut] at hseen
      obtain ⟨hproportion, hwindow⟩ := hseen
      refine hkept cfg (by rw [if_pos ht, crop_to_rect_unplaced, hcut, Option.map_some]) ?_
      by_cases hin : pixel ∈ layer.displayFrame
      · rw [scr.cut _ cfg _ _ _ pixel (crop_to_rect_windows hcut) hproportion
          (by rw [setup_layer_win]; exact hin) ((hwindow pixel hp).mpr hin), hdrawing, hpicture]
      · rw [scr.clipped _ pixel fun hc => hin ((hwindow pixel hp).mp hc),
          scr.outside _ l pixel hl (hlframe ▸ hin)]

end

/-- A frame that SGX composes keeps the stacking. -/
theorem keepsStacking_of_steady (h : hwc_dev.Steady) (env : PrepareEnv)
    (scr : Screen M hwc_dev (list.getD []))
    (hsgx : (hwc_prepare env hwc_dev list).1.use_sgx)
    (hovls : (hwc_prepare env hwc_dev list).1.dsscomp.num_ovls ≠ 0)
    (hshow : Showable hwc_dev list) : KeepsStacking env hwc_dev list scr := by
  intro pixel hp
  obtain ⟨hbegin, hframe⟩ := prepare_sgxFrame h env list hsgx
  obtain ⟨hlow, hle, horder⟩ := internalOverlays_of_sgx h env list hsgx hovls
  have hstack := sgxPipes_stack scr.toPictures pixel hbegin
  have hdraw : drawFramebuffer (fun i => scr.content i pixel) pixel
      (sgxPipes hwc_dev list).visited = drawFramebuffer (fun i => scr.content i pixel) pixel
        ((hwc_prepare env hwc_dev list).2.getD []) := by
    have hlist : (hwc_prepare env hwc_dev list).2 =
        (begin_frame hwc_dev list).2.map fun _ => (sgxPipes hwc_dev list).visited := hframe.layers
    rw [hlist]
    cases list with
    | none => rfl
    | some layers => rfl
  have hshown := hstack.composed.shown
  rw [length_map] at hshown
  rw [Screen.display, horder, ← hshown, ← stack_displayOrder _ hdraw hlow]
  congr 1
  refine map_congr_left fun k hk => ?_
  have hk' := mem_range.mp ((displayOrder_perm hlow hle).subset hk)
  rw [overlayContent]
  split
  · next hzero =>
    rw [hzero]
    exact overlayShows_framebuffer h env scr hsgx hshow (by omega) hp
  · exact overlayShows_layer h env scr hsgx hshow (by omega) hk' hp

/-- A rectangle filled with a colour. -/
def filled (r : Rect) (colour : Nat) (p : Int × Int) : Function.End Nat :=
  if p ∈ r then fun _ => colour else 1

theorem hides_filled {r : Rect} {colour : Nat} {p : Int × Int} (hp : p ∈ r) :
    Hides (filled r colour p) := by
  have hfilled : filled r colour p = (fun _ => colour : Nat → Nat) := if_pos hp
  intro b
  funext n
  show filled r colour p (b n) = filled r colour p n
  rw [hfilled]

/-- Every layer shows the address of its buffer. -/
def plainContent (layers : List HwcLayer) (i : Nat) (p : Int × Int) : Function.End Nat :=
  match layers[i]? with
  | some layer => filled layer.displayFrame layer.handle.address p
  | none => 1

theorem plainContent_eq {i : Nat} {layer : HwcLayer} (hi : layers[i]? = some layer)
    (p : Int × Int) :
    plainContent layers i p = filled layer.displayFrame layer.handle.address p := by
  rw [plainContent, hi]

/-- What is seen of them on a display without a transform, or with one that changes nothing. -/
def plainScreen (hwc_dev : HwcDevice) (layers : List HwcLayer)
    (h : ∀ d, hwc_dev.moved d = d) : Screen (Function.End Nat) hwc_dev layers where
  content := plainContent layers
  outside i layer p hi hp := (plainContent_eq hi p).trans (if_neg hp)
  hides i layer p hi _ hp := plainContent_eq hi p ▸ hides_filled hp
  draw d := filled d.win.toRect d.buffer.address
  scan canvas _ p := canvas p
  place := id
  drawn i layer handle p hi _ := by
    have hwin : (layer.drawing handle).win.toRect = layer.displayFrame :=
      toRect_ofRect layer.displayFrame
    rw [hwin, plainContent_eq hi]
    rfl
  clipped _ _ hp := if_neg hp
  cut cfg cfg' buffer format swap_rb p _ _ hp hp' := (if_pos hp').trans (if_pos hp).symm
  whole _ _ _ := rfl
  moves d _ _ := by rw [h d, id]
  moves_canvas _ _ _ _ := rfl

/-- A layer that only SGX can render. -/
def rotatedLayer (address : Nat) (top : Int) : HwcLayer :=
  { scaledLayer address top with
    transform := 1
    handle := .img address ⟨10, 5, .BGRX_8888, false, false⟩ }

/-- A device that keeps the order of red and blue. -/
def orderedDevice : HwcDevice := { sampleDevice with flags_rgb_order := true }

/-- A device whose display has a transform, though one that changes nothing. -/
def movedDevice : HwcDevice :=
  { orderedDevice with primary_transform := true, primary_region := ⟨0, 0, 40, 40⟩ }

/-- A layer of one pixel, shown in twenty by twenty pixels of which ten columns are on the
screen. -/
def cutLayer : HwcLayer :=
  { scaledLayer 200 0 with sourceCrop := ⟨0, 0, 1, 1⟩, displayFrame := ⟨30, 0, 50, 20⟩ }

end Display

end OmapHal.Hwc
