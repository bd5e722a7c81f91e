import OmapHal.Hwc.Posted
import OmapHal.Hwc.Blitting

/-!
# Every layer is shown

Which mechanism shows a layer after `hwc_prepare`: an overlay of its own, a blit, or SGX. The
decision to render everything counts what the loop tests layer by layer; the two differ for some
layers, which then are not shown at all.
-/

namespace OmapHal.Hwc

open OmapHal.Core List Nat Bool Function Option

variable {env : PrepareEnv} {hwc_dev d : HwcDevice} {list : Option (List HwcLayer)}
  {layers done : List HwcLayer} {layer : HwcLayer} {handle : NativeHandle} {p : Pipes} {f : Frame}
  {s i k : Nat}

/-! ### The mechanisms -/

/-- A layer of the list that `hwc_prepare` leaves. -/
def layerAt (env : PrepareEnv) (hwc_dev : HwcDevice) (list : Option (List HwcLayer)) (i : Nat) :
    Option HwcLayer := ((hwc_prepare env hwc_dev list).2.getD [])[i]?

/-- The overlay is among those that are posted, and switched on. -/
def HwcDevice.Programmed (hwc_dev : HwcDevice) (k : Nat) : Prop :=
  k < hwc_dev.dsscomp.num_ovls ∧ (hwc_dev.dsscomp.ovls k).cfg.enabled = true

/-- The layer is `HWC_OVERLAY`, and an overlay of the internal display that is set up from it is
programmed. -/
def OnOverlay (env : PrepareEnv) (hwc_dev : HwcDevice) (list : Option (List HwcLayer)) (i : Nat) :
    Prop :=
  ∃ layer k, layerAt env hwc_dev list i = some layer ∧ layer.compositionType = .overlay ∧
    (internal_frame env hwc_dev list).needs_fb.toNat ≤ k ∧
    k < (hwc_prepare env hwc_dev list).1.post2_layers ∧
    (internal_frame env hwc_dev list).source k = i ∧ (hwc_prepare env hwc_dev list).1.Programmed k

/-- The layer is blitted. -/
def Blitted (env : PrepareEnv) (hwc_dev : HwcDevice) (list : Option (List HwcLayer)) (i : Nat) :
    Prop := (internal_frame env hwc_dev list).blitted i = true

/-- The layer is `HWC_FRAMEBUFFER`, and SGX composes. -/
def LeftToSgx (env : PrepareEnv) (hwc_dev : HwcDevice) (list : Option (List HwcLayer)) (i : Nat) :
    Prop :=
  (∃ layer, layerAt env hwc_dev list i = some layer ∧ layer.compositionType = .framebuffer) ∧
    (hwc_prepare env hwc_dev list).1.use_sgx = true

/-- Exactly one mechanism shows the layer. -/
def ShownOnce (env : PrepareEnv) (hwc_dev : HwcDevice) (list : Option (List HwcLayer)) (i : Nat) :
    Prop :=
  (OnOverlay env hwc_dev list i ∧ ¬Blitted env hwc_dev list i ∧ ¬LeftToSgx env hwc_dev list i) ∨
  (¬OnOverlay env hwc_dev list i ∧ Blitted env hwc_dev list i ∧ ¬LeftToSgx env hwc_dev list i) ∨
  (¬OnOverlay env hwc_dev list i ∧ ¬Blitted env hwc_dev list i ∧ LeftToSgx env hwc_dev list i)

/-- `BLTPOLICY_ALL` blits the list as a whole. -/
def BlitsAll (env : PrepareEnv) (hwc_dev : HwcDevice) (list : Option (List HwcLayer)) : Prop :=
  hwc_dev.blt_policy = .all ∧ hwc_dev.ext.mirror.enabled = false ∧
    ((begin_frame hwc_dev list).2.bind env.blits).isSome = true

/-- No layer is lost. -/
structure KeepsLayers (env : PrepareEnv) (hwc_dev : HwcDevice) (list : Option (List HwcLayer)) :
    Prop where
  shown : ∀ i layer, (list.getD [])[i]? = some layer → layer.skip = false →
    ShownOnce env hwc_dev list i
  /-- Where the display subsystem renders everything, every layer meets the conditions of the
  loop when it is visited. -/
  rendered : can_dss_render_all (decided hwc_dev list) = true → ¬BlitsAll env hwc_dev list →
    ∀ done layer, done ++ [layer] <+: (begin_frame hwc_dev list).2.getD [] →
      ∃ handle, layer.handle.deref? = some handle ∧
        takes_overlay (begin_frame hwc_dev list).1
          (setup_pipes (begin_frame hwc_dev list).1 false done) layer handle = true

/-- `can_dss_render_layer` refuses the layer, although its buffer was counted as one that can be
rendered: a TV would show BGR, or a clone would turn another format than NV12. -/
def refused (hwc_dev : HwcDevice) (layer : HwcLayer) : Bool :=
  layer.handle.deref?.any fun handle =>
    ((hwc_dev.on_tv || (hwc_dev.ext.on_tv && cloning hwc_dev handle)) && is_BGR handle) ||
      (cloning hwc_dev handle &&
        (hwc_dev.ext.current.rotation != 0 || hwc_dev.ext.current.hflip) && !is_NV12 handle)

/-- The display subsystem is to render everything, but refuses a layer, or has no room in the
TILER slot on the way. -/
structure Loses (env : PrepareEnv) (hwc_dev : HwcDevice) (list : Option (List HwcLayer)) :
    Prop where
  rendered : can_dss_render_all (decided hwc_dev list) = true
  unblitted : ¬BlitsAll env hwc_dev list
  lost : (∃ layer ∈ list.getD [], refused (decided hwc_dev list) layer = true) ∨
    ∃ part, part <+: list.getD [] ∧
      hwc_dev.limits.tiler1d_slot_size < validMem (decided hwc_dev list) part

/-- A layer takes an overlay that shows nothing: the TV has no mode yet, so that nothing is posted,
or the overlay is switched off as `crop_to_rect` leaves nothing of it on the primary display. -/
structure Drops (env : PrepareEnv) (hwc_dev : HwcDevice) (list : Option (List HwcLayer)) :
    Prop where
  unblitted : ¬BlitsAll env hwc_dev list
  dropped : ∃ layer handle, TakesOverlay hwc_dev list layer handle ∧
    ((hwc_dev.on_tv = true ∧ hwc_dev.ext.last_mode = 0) ∨
      (hwc_dev.primary_transform = true ∧
        crop_to_rect (setup_layer layer handle 0) hwc_dev.primary_region = none))

/-! ### What the loop leaves -/

/-- Each overlay is set up from one layer, and each overlay layer has one. -/
structure Pipes.Sourced (s : Nat) (done : List HwcLayer) (p : Pipes) : Prop where
  visited : p.visited.length = done.length
  source : ∀ k, s ≤ k → k < p.num_ovls → ∃ layer, p.visited[p.source k]? = some layer ∧
    layer.compositionType = .overlay
  overlay : ∀ i layer, p.visited[i]? = some layer → layer.compositionType = .overlay →
    ∃ k, s ≤ k ∧ k < p.num_ovls ∧ p.source k = i

theorem sourced_start (hwc_dev : HwcDevice) (needs_fb : Bool) :
    (Pipes.start hwc_dev needs_fb).Sourced needs_fb.toNat [] := by
  refine ⟨rfl, fun k hk hk' => ?_, fun i layer hi => ?_⟩
  · cases needs_fb with
    | true => exact absurd hk' (not_lt.mpr hk)
    | false => exact absurd hk' (not_lt_zero k)
  · cases hi

theorem Pipes.Sourced.add_overlay (h : p.Sourced s done) (hs : s ≤ p.num_ovls) :
    (p.add_overlay hwc_dev layer handle).Sourced s (done ++ [layer]) := by
  obtain ⟨hlen, hsrc, hovl⟩ := h
  have hnum : (p.add_overlay hwc_dev layer handle).num_ovls = p.num_ovls + 1 := rfl
  have hnew : (p.add_overlay hwc_dev layer handle).source =
    update p.source p.num_ovls p.visited.length := rfl
  obtain ⟨shown, hvis, hshown⟩ : ∃ shown : HwcLayer,
      (p.add_overlay hwc_dev layer handle).visited = p.visited ++ [shown] ∧
        shown.compositionType = .overlay := ⟨_, rfl, rfl⟩
  refine ⟨?_, fun k hk hk' => ?_, fun i l hi hl => ?_⟩
  · rw [hvis, length_append, length_append, hlen]
    rfl
  · rw [hnum] at hk'
    rw [hnew, hvis]
    by_cases hkn : k = p.num_ovls
    · rw [hkn, update_self, getElem?_concat_length]
      exact ⟨shown, rfl, hshown⟩
    · obtain ⟨l, hl, hlo⟩ := hsrc k hk (by omega)
      rw [update_of_ne hkn]
      exact ⟨l, List.getElem?_append_left (List.getElem?_eq_some_iff.mp hl).1 ▸ hl, hlo⟩
  · rw [hnum, hnew]
    rw [hvis] at hi
    by_cases hlt : i < p.visited.length
    · rw [getElem?_append_left hlt] at hi
      obtain ⟨k, hk, hk', hki⟩ := hovl i l hi hl
      exact ⟨k, hk, by omega, by rw [update_of_ne (by omega), hki]⟩
    · have hi' := (List.getElem?_eq_some_iff.mp hi).1
      rw [length_append, length_singleton] at hi'
      exact ⟨p.num_ovls, hs, by omega, by rw [update_self]; omega⟩

theorem Pipes.Sourced.leave (h : p.Sourced s done) (hfb : layer.compositionType = .framebuffer) :
    (p.leave hwc_dev layer).Sourced s (done ++ [layer]) := by
  obtain ⟨hlen, hsrc, hovl⟩ := h
  refine ⟨?_, fun k hk hk' => ?_, fun i l hi hl => ?_⟩
  · rw [leave_visited, length_append, length_append, hlen]
  · rw [leave_num_ovls] at hk'
    rw [leave_source, leave_visited]
    obtain ⟨l, hl, hlo⟩ := hsrc k hk hk'
    exact ⟨l, List.getElem?_append_left (List.getElem?_eq_some_iff.mp hl).1 ▸ hl, hlo⟩
  · rw [leave_num_ovls, leave_source]
    rw [leave_visited] at hi
    by_cases hlt : i < p.visited.length
    · rw [getElem?_append_left hlt] at hi
      exact hovl i l hi hl
    · rw [getElem?_append_right (not_lt.mp hlt)] at hi
      have hmem := mem_singleton.mp (mem_of_getElem? hi)
      rw [hmem, hfb] at hl
      cases hl

theorem setup_pipes_sourced (hfb : ∀ l ∈ layers, l.compositionType = .framebuffer) :
    (setup_pipes hwc_dev hwc_dev.use_sgx layers).Sourced hwc_dev.use_sgx.toNat layers := by
  suffices h : layers <+: layers →
      (setup_pipes hwc_dev hwc_dev.use_sgx layers).Sourced hwc_dev.use_sgx.toNat layers ∧
        hwc_dev.use_sgx.toNat ≤ (setup_pipes hwc_dev hwc_dev.use_sgx layers).num_ovls from
    (h prefix_rfl).1
  unfold setup_pipes
  refine foldl_consumed (P := fun done (p : Pipes) => done <+: layers →
    p.Sourced hwc_dev.use_sgx.toNat done ∧ hwc_dev.use_sgx.toNat ≤ p.num_ovls) ?_ ?_
  · refine fun _ => ⟨sourced_start hwc_dev hwc_dev.use_sgx, ?_⟩
    cases hwc_dev.use_sgx <;> exact le_rfl
  · intro done layer p ih hpre
    obtain ⟨hsourced, hle⟩ := ih ((prefix_append done [layer]).trans hpre)
    rcases visit_cases hwc_dev p layer with ⟨handle, -, -, he⟩ | ⟨-, he⟩
    · rw [he]
      exact ⟨hsourced.add_overlay hle, le_succ_of_le hle⟩
    · rw [he]
      have hmem := hpre.subset (mem_append_right done (mem_singleton_self layer))
      exact ⟨hsourced.leave (hfb layer hmem), by rwa [leave_num_ovls]⟩

/-! ### The frame -/

theorem blit_layers_isSome_iff {bufoff : Nat} :
    (blit_layers env hwc_dev list bufoff).isSome ↔
      hwc_dev.ext.mirror.enabled = false ∧ (list.bind env.blits).isSome = true := by
  cases list with
  | none => simp [blit_layers]
  | some layers =>
    rw [bind_some]
    unfold blit_layers
    cases hwc_dev.ext.mirror.enabled with
    | true => simp
    | false => cases h : env.blits layers <;> simp [h]

/-- A blit marks every layer, and leaves the compositor and the overlays. -/
theorem blit_layers_list {bufoff : Nat}
    (h : blit_layers env hwc_dev list bufoff = some (d, layers)) :
    layers = (list.getD []).map markBlitted ∧ d.dsscomp = hwc_dev.dsscomp := by
  unfold blit_layers at h
  split at h
  · cases h
  · split at h
    · cases h
    · split at h
      · cases h
      · cases h
        exact ⟨rfl, rfl⟩

/-- What the overlay of the framebuffer leaves alone. -/
structure SameLayers (f f' : Frame) : Prop where
  list : f'.list = f.list
  source : f'.source = f.source
  blitted : f'.blitted = f.blitted
  needs_fb : f'.needs_fb = f.needs_fb
  use_sgx : f'.hwc_dev.use_sgx = f.hwc_dev.use_sgx
  num_ovls : f'.hwc_dev.dsscomp.num_ovls = f.hwc_dev.dsscomp.num_ovls
  ovls : ∀ k, f.needs_fb.toNat ≤ k → f'.hwc_dev.dsscomp.ovls k = f.hwc_dev.dsscomp.ovls k

theorem setup_framebuffer_sameLayers (f : Frame) : SameLayers f (setup_framebuffer f) := by
  rw [setup_framebuffer]
  split
  · next hfb =>
    refine ⟨rfl, rfl, rfl, rfl, rfl, rfl, fun k hk => update_of_ne ?_ ..⟩
    rw [hfb] at hk
    exact Nat.ne_of_gt hk
  · exact ⟨rfl, rfl, rfl, rfl, rfl, rfl, fun _ _ => rfl⟩

/-- The overlays of the frame, before anything is blitted. -/
def framePipes (hwc_dev : HwcDevice) (list : Option (List HwcLayer)) : Pipes :=
  pipesOf (begin_frame hwc_dev list).1 (begin_frame hwc_dev list).2

/-- The overlays of the frame are those of the loop, apart from their pipes. -/
structure LoopFrame (hwc_dev : HwcDevice) (list : Option (List HwcLayer)) (f : Frame) : Prop where
  source : f.source = (framePipes hwc_dev list).source
  num_ovls : f.hwc_dev.dsscomp.num_ovls = (framePipes hwc_dev list).num_ovls
  needs_fb : f.needs_fb = (begin_frame hwc_dev list).1.use_sgx
  ovls : ∀ k, f.needs_fb.toNat ≤ k →
    (f.hwc_dev.dsscomp.ovls k).unplaced = ((framePipes hwc_dev list).ovls k).unplaced

/-- The three ways in which the layers of a frame are shown. -/
inductive FrameCase (env : PrepareEnv) (hwc_dev : HwcDevice) (list : Option (List HwcLayer))
    (f : Frame) : Prop
  | blits (all : BlitsAll env hwc_dev list)
      (marked : f.list = some (((begin_frame hwc_dev list).2.getD []).map markBlitted))
      (blitted : f.blitted = fun i => decide (i < ((begin_frame hwc_dev list).2.getD []).length))
      (overlays : f.hwc_dev.dsscomp.num_ovls = f.needs_fb.toNat)
      (use_sgx : f.hwc_dev.use_sgx = false)
  | overlays (all : ¬BlitsAll env hwc_dev list) (loop : LoopFrame hwc_dev list f)
      (visited : f.list.getD [] = (framePipes hwc_dev list).visited)
      (blitted : f.blitted = fun _ => false)
      (use_sgx : f.hwc_dev.use_sgx = (begin_frame hwc_dev list).1.use_sgx)
  | rest (all : ¬BlitsAll env hwc_dev list) (loop : LoopFrame hwc_dev list f)
      (marked : f.list = some ((framePipes hwc_dev list).visited.map markBlitted))
      (blitted : f.blitted = fun i => (framePipes hwc_dev list).visited[i]?.any fun layer =>
        layer.compositionType != .overlay)
      (sgx : (begin_frame hwc_dev list).1.use_sgx = true)
      (use_sgx : f.hwc_dev.use_sgx = false)

theorem overlayFrame_loop (hwc_dev : HwcDevice) (list : Option (List HwcLayer)) :
    LoopFrame hwc_dev list
      (overlayFrame (begin_frame hwc_dev list).1 (begin_frame hwc_dev list).2) := by
  refine ⟨rfl, rfl, rfl, fun k _ => ?_⟩
  show ((if (framePipes hwc_dev list).scaled_gfx then _ else _ : Nat → Dss2OvlInfo) k).unplaced = _
  split
  · by_cases hk : k = 0
    · rw [hk, editCfg_apply_self]
      rfl
    · rw [editCfg_apply_of_ne hk]
      rfl
  · rfl

theorem overlayFrame_list (hwc_dev : HwcDevice) (list : Option (List HwcLayer)) :
    (overlayFrame hwc_dev list).list.getD [] = (pipesOf hwc_dev list).visited := by
  cases list with
  | none => rfl
  | some layers => rfl

/-- A list that is not blitted as a whole gets its overlays from the loop. -/
theorem setup_overlays_eq (h : ¬(hwc_dev.blt_policy = .all ∧ hwc_dev.ext.mirror.enabled = false ∧
    (list.bind env.blits).isSome)) :
    setup_overlays env hwc_dev list = overlayFrame hwc_dev list := by
  rw [setup_overlays]
  split
  · next hp =>
    cases hb : blit_layers env hwc_dev list 0 with
    | none => rfl
    | some x => exact absurd ⟨hp, blit_layers_isSome_iff.mp (isSome_of_eq_some hb)⟩ h
  · rfl

theorem LoopFrame.congr {f' : Frame} (h : LoopFrame hwc_dev list f) (hs : SameLayers f f') :
    LoopFrame hwc_dev list f' := by
  refine ⟨hs.source.trans h.source, hs.num_ovls.trans h.num_ovls, hs.needs_fb.trans h.needs_fb,
    fun k hk => ?_⟩
  rw [hs.needs_fb] at hk
  rw [hs.ovls k hk, h.ovls k hk]

theorem FrameCase.congr {f' : Frame} (h : FrameCase env hwc_dev list f) (hs : SameLayers f f') :
    FrameCase env hwc_dev list f' := by
  cases h with
  | blits all marked blitted overlays use_sgx =>
    exact .blits all (hs.list.trans marked) (hs.blitted.trans blitted)
      (by rw [hs.num_ovls, hs.needs_fb, overlays]) (hs.use_sgx.trans use_sgx)
  | overlays all loop visited blitted use_sgx =>
    exact .overlays all (loop.congr hs) (hs.list ▸ visited) (hs.blitted.trans blitted)
      (hs.use_sgx.trans use_sgx)
  | rest all loop marked blitted sgx use_sgx =>
    exact .rest all (loop.congr hs) (hs.list.trans marked) (hs.blitted.trans blitted) sgx
      (hs.use_sgx.trans use_sgx)

/-- A list that is blitted as a whole. -/
theorem frameCase_of_blitsAll (h : BlitsAll env hwc_dev list) : FrameCase env hwc_dev list
    (blit_rest env
      (setup_overlays env (begin_frame hwc_dev list).1 (begin_frame hwc_dev list).2)) := by
  obtain ⟨hp, hm, hb⟩ := h
  obtain ⟨⟨d, layers⟩, hd⟩ := isSome_iff_exists.mp
    ((@blit_layers_isSome_iff env (begin_frame hwc_dev list).1 (begin_frame hwc_dev list).2
      0).mpr ⟨hm, hb⟩)
  obtain ⟨num, bufs, buffers, hdev⟩ := blit_layers_dev hd
  obtain ⟨hmarked, -⟩ := blit_layers_list hd
  have hpolicy : (begin_frame hwc_dev list).1.blt_policy = .all := hp
  have hkept : (blitFrame d layers).hwc_dev.blt_policy ≠ .default := by
    have hall : (blitFrame d layers).hwc_dev.blt_policy = .all := by
      rw [hdev]
      exact hp
    rw [hall]
    exact fun hc => by cases hc
  have hsetup : setup_overlays env (begin_frame hwc_dev list).1 (begin_frame hwc_dev list).2 =
      blitFrame d layers := by
    rw [setup_overlays, if_pos hpolicy, hd]
  rw [hsetup, blit_rest, if_neg fun hc => hkept hc.1]
  refine .blits ⟨hp, hm, hb⟩ ?_ ?_ rfl rfl
  · rw [← hmarked]
    rfl
  · have hlen : layers.length = ((begin_frame hwc_dev list).2.getD []).length := by
      rw [hmarked, length_map]
    rw [← hlen]
    rfl

/-- Any other list. -/
theorem frameCase_of_overlays (h : ¬BlitsAll env hwc_dev list) : FrameCase env hwc_dev list
    (blit_rest env
      (setup_overlays env (begin_frame hwc_dev list).1 (begin_frame hwc_dev list).2)) := by
  have hsetup : setup_overlays env (begin_frame hwc_dev list).1 (begin_frame hwc_dev list).2 =
      overlayFrame (begin_frame hwc_dev list).1 (begin_frame hwc_dev list).2 := setup_overlays_eq h
  have hvisited : (overlayFrame (begin_frame hwc_dev list).1
      (begin_frame hwc_dev list).2).list.getD [] = (framePipes hwc_dev list).visited :=
    overlayFrame_list (begin_frame hwc_dev list).1 (begin_frame hwc_dev list).2
  have hloop := overlayFrame_loop hwc_dev list
  rw [hsetup, blit_rest]
  split
  · next hp =>
    cases hd : blit_layers env
        (overlayFrame (begin_frame hwc_dev list).1 (begin_frame hwc_dev list).2).hwc_dev
        (overlayFrame (begin_frame hwc_dev list).1 (begin_frame hwc_dev list).2).list _ with
    | none => exact .overlays h hloop hvisited rfl rfl
    | some x =>
      obtain ⟨d, layers⟩ := x
      obtain ⟨hmarked, hdsscomp⟩ := blit_layers_list hd
      refine .rest h ⟨rfl, ?_, rfl, fun k hk => ?_⟩ ?_ ?_ hp.2 rfl
      · exact congrArg SetupDispcData.num_ovls hdsscomp
      · have hovls := hloop.ovls k hk
        rw [← hovls]
        exact congrArg (fun dsscomp : SetupDispcData => (dsscomp.ovls k).unplaced) hdsscomp
      · rw [← hvisited, ← hmarked]
      · rw [← hvisited]
  · exact .overlays h hloop hvisited rfl rfl

theorem internal_frame_cases (env : PrepareEnv) (hwc_dev : HwcDevice)
    (list : Option (List HwcLayer)) :
    FrameCase env hwc_dev list (internal_frame env hwc_dev list) := by
  refine FrameCase.congr ?_ (setup_framebuffer_sameLayers _)
  by_cases hall : BlitsAll env hwc_dev list
  · exact frameCase_of_blitsAll hall
  · exact frameCase_of_overlays hall

/-! ### Which mechanism shows a layer -/

theorem prepare_use_sgx (env : PrepareEnv) (hwc_dev : HwcDevice) (list : Option (List HwcLayer)) :
    (hwc_prepare env hwc_dev list).1.use_sgx = (internal_frame env hwc_dev list).hwc_dev.use_sgx :=
  congrArg BlitPost.use_sgx (hwc_prepare_blitPost env hwc_dev list)

theorem prepare_post2_layers (env : PrepareEnv) (hwc_dev : HwcDevice)
    (list : Option (List HwcLayer)) : (hwc_prepare env hwc_dev list).1.post2_layers =
      (internal_frame env hwc_dev list).hwc_dev.dsscomp.num_ovls :=
  congrArg BlitPost.post2_layers (hwc_prepare_blitPost env hwc_dev list)

theorem begin_frame_list : (begin_frame hwc_dev list).2.getD [] =
    (list.getD []).map fun layer => { layer with compositionType := .framebuffer } := by
  cases list with
  | none => rfl
  | some layers => rfl

theorem framePipes_sourced (hwc_dev : HwcDevice) (list : Option (List HwcLayer)) :
    (framePipes hwc_dev list).Sourced (begin_frame hwc_dev list).1.use_sgx.toNat
      ((begin_frame hwc_dev list).2.getD []) := by
  refine setup_pipes_sourced fun l hl => ?_
  rw [begin_frame_list] at hl
  obtain ⟨l', -, rfl⟩ := mem_map.mp hl
  rfl

theorem length_visited (hwc_dev : HwcDevice) (list : Option (List HwcLayer)) :
    (framePipes hwc_dev list).visited.length = (list.getD []).length := by
  rw [(framePipes_sourced hwc_dev list).visited, begin_frame_list, length_map]

/-- Unless the whole list is blitted, the overlays of the frame are those of the loop. -/
theorem loopFrame_of_not_blitsAll (h : ¬BlitsAll env hwc_dev list) :
    LoopFrame hwc_dev list (internal_frame env hwc_dev list) := by
  cases internal_frame_cases env hwc_dev list with
  | blits all => exact absurd all h
  | overlays _ loop => exact loop
  | rest _ loop => exact loop

/-- When an overlay that is set up from a layer is programmed. -/
theorem programmed_iff (h : hwc_dev.Steady) (hall : ¬BlitsAll env hwc_dev list)
    {before : List HwcLayer} (hk : (begin_frame hwc_dev list).1.use_sgx.toNat ≤ k)
    (hk' : k < (framePipes hwc_dev list).num_ovls)
    (hset : (framePipes hwc_dev list).SetUp (begin_frame hwc_dev list).1
      (begin_frame hwc_dev list).1.use_sgx k before layer handle) :
    (hwc_prepare env hwc_dev list).1.Programmed k ↔
      ¬(hwc_dev.on_tv = true ∧ hwc_dev.ext.last_mode = 0) ∧
        ¬(hwc_dev.primary_transform = true ∧
          crop_to_rect (setup_layer layer handle 0) hwc_dev.primary_region = none) := by
  obtain ⟨-, hnum, hfb, hovls⟩ := loopFrame_of_not_blitsAll hall
  obtain ⟨c, hposted⟩ := prepare_num_ovls h env list
  have hovl := prepare_ovls h env list (k := k) (hnum.symm ▸ hk')
  have hsetup := hovls k (hfb.symm ▸ hk)
  rw [hset.ovl] at hsetup
  -- the configuration is the one of `setup_layer`, apart from its place
  have hcfg : ((internal_frame env hwc_dev list).hwc_dev.dsscomp.ovls k).cfg.unplaced =
      (setup_layer layer handle 0).unplaced := congrArg Dss2OvlInfo.cfg hsetup
  have henabled : ((hwc_prepare env hwc_dev list).1.dsscomp.ovls k).cfg.enabled =
      (hwc_dev.primaryCfg (setup_layer layer handle 0).unplaced).enabled := by
    rw [hovl, ← hcfg, ← primaryCfg_unplaced]
    rfl
  have hon : (setup_layer layer handle 0).unplaced.enabled = true :=
    setup_layer_enabled (takes_overlay_format hset.takes)
  rw [HwcDevice.Programmed, henabled, primaryCfg_enabled_iff, crop_to_rect_unplaced,
    Option.map_eq_none_iff, hposted, hnum, and_iff_right hon]
  refine and_congr_left fun _ => ?_
  by_cases htv : hwc_dev.on_tv = true ∧ hwc_dev.ext.last_mode = 0
  · simp [htv]
  · rw [if_neg htv]
    exact iff_of_true (Nat.lt_add_right c hk') htv

/-- The mechanisms in terms of the loop: a layer that it left is shown by a blit or by SGX. -/
theorem shownOnce_iff (hi : i < (list.getD []).length) : ShownOnce env hwc_dev list i ↔
    BlitsAll env hwc_dev list ∨ ∃ layer, (framePipes hwc_dev list).visited[i]? = some layer ∧
      if layer.compositionType = .overlay then
        ∃ k, (begin_frame hwc_dev list).1.use_sgx.toNat ≤ k ∧
          k < (framePipes hwc_dev list).num_ovls ∧ (framePipes hwc_dev list).source k = i ∧
          (hwc_prepare env hwc_dev list).1.Programmed k
      else (begin_frame hwc_dev list).1.use_sgx = true := by
  obtain ⟨-, hsource, -⟩ := framePipes_sourced hwc_dev list
  have hlen := length_visited hwc_dev list
  obtain ⟨v, hv⟩ : ∃ v, (framePipes hwc_dev list).visited[i]? = some v :=
    ⟨_, getElem?_eq_getElem (hlen ▸ hi)⟩
  rw [ShownOnce, OnOverlay, Blitted, LeftToSgx, layerAt, prepare_use_sgx, prepare_post2_layers]
  have hlist : (hwc_prepare env hwc_dev list).2 = (internal_frame env hwc_dev list).list := rfl
  rw [hlist, hv]
  simp only [Option.some.injEq, exists_eq_left']
  generalize (hwc_prepare env hwc_dev list).1.Programmed = programmed
  cases internal_frame_cases env hwc_dev list with
  | blits all marked blitted overlays use_sgx =>
    refine iff_of_true (.inr (.inl ⟨?_, ?_, ?_⟩)) (.inl all)
    · rintro ⟨-, k, -, -, hk, hk', -⟩
      omega
    · rw [blitted]
      refine decide_eq_true ?_
      rwa [begin_frame_list, length_map]
    · rintro ⟨-, hsgx⟩
      rw [use_sgx] at hsgx
      cases hsgx
  | overlays all loop visited blitted use_sgx =>
    rw [visited, blitted, loop.source, loop.num_ovls, loop.needs_fb, use_sgx, hv, or_iff_right all]
    cases hov : v.compositionType with
    | overlay => simp [hov]
    | framebuffer => simp [hov]
  | rest all loop marked blitted sgx use_sgx =>
    have hmarked : ((framePipes hwc_dev list).visited.map markBlitted)[i]? =
        some (markBlitted v) := by
      rw [getElem?_map, hv]
      rfl
    have hblitted : (internal_frame env hwc_dev list).blitted i =
        (v.compositionType != .overlay) := by
      have hi := congrFun blitted i
      rw [hv] at hi
      exact hi
    have htype : (markBlitted v).compositionType = .overlay := rfl
    rw [marked, getD_some, hblitted, loop.source, loop.num_ovls, loop.needs_fb, use_sgx, hmarked,
      or_iff_right all]
    rw [sgx] at hsource ⊢
    cases hov : v.compositionType with
    | overlay => simp [htype]
    | framebuffer =>
      -- no overlay is set up from a layer that was left
      have hleft : ∀ k, 1 ≤ k → k < (framePipes hwc_dev list).num_ovls →
          (framePipes hwc_dev list).source k ≠ i := by
        intro k hk hk' hki
        obtain ⟨l, hl, hlo⟩ := hsource k hk hk'
        rw [hki, hv] at hl
        cases hl
        rw [hov] at hlo
        cases hlo
      simp only [reduceCtorEq, if_false, iff_true]
      refine .inr (.inl ⟨?_, rfl, fun hc => hc.2.elim⟩)
      rintro ⟨l, k, -, -, hk, hk', hki, -⟩
      exact hleft k hk hk' hki

/-! ### What is refused -/

/-- A count that is zero. -/
theorem not_of_validCount {q : HwcLayer → NativeHandle → Bool}
    (h : validCount hwc_dev q layers = 0) (hl : layer ∈ layers)
    (hv : validBuffer? hwc_dev layer = some handle) : q layer handle = false := by
  have hno := countP_eq_zero.mp h layer hl
  rw [hv, any_some] at hno
  simpa using hno

/-- What the decision to render everything says about a layer. -/
structure CountedIn (hwc_dev : HwcDevice) (list : Option (List HwcLayer)) (layer : HwcLayer)
    (handle : NativeHandle) : Prop where
  deref : layer.handle.deref? = some handle
  valid : is_valid_layer hwc_dev layer handle = true
  order : hwc_dev.flags_rgb_order = true →
    (if (decided hwc_dev list).counts.BGR != 0 then is_RGB handle else is_BGR handle) = false

theorem countedIn_of_can_dss_render_all (h : can_dss_render_all (decided hwc_dev list))
    (hl : layer ∈ list.getD []) : ∃ handle, CountedIn hwc_dev list layer handle := by
  have hcounts : (counted hwc_dev list).counts =
      tally (counted hwc_dev list) (list.getD []).length (list.getD []) :=
    countLayers_eq (counted hwc_dev list) (list.getD [])
  have hpossible : (decided hwc_dev list).counts.possible_overlay_layers =
      validCount (counted hwc_dev list) (fun _ _ => true) (list.getD []) :=
    congrArg Counts.possible_overlay_layers hcounts
  have htotal : (decided hwc_dev list).counts.composited_layers = (list.getD []).length :=
    congrArg Counts.composited_layers hcounts
  have hBGR : (decided hwc_dev list).counts.BGR =
      validCount (counted hwc_dev list) (fun _ h => is_BGR h) (list.getD []) :=
    congrArg Counts.BGR hcounts
  have hRGB : (decided hwc_dev list).counts.RGB =
      validCount (counted hwc_dev list) (fun _ h => !is_BGR h && is_RGB h) (list.getD []) :=
    congrArg Counts.RGB hcounts
  rw [can_dss_render_all] at h
  simp only [and_eq_true, or_eq_true, beq_iff_eq, decide_eq_true_eq,
    not_eq_true'] at h
  obtain ⟨⟨⟨⟨⟨⟨⟨⟨⟨-, -⟩, -⟩, hall⟩, -⟩, -⟩, -⟩, -⟩, horder⟩, -⟩ := h
  have hvalid : (validBuffer? (counted hwc_dev list) layer).isSome := by
    have hcount : (list.getD []).countP (fun layer =>
        (validBuffer? (counted hwc_dev list) layer).any fun _ => true) = (list.getD []).length :=
      hpossible.symm.trans (hall.trans htotal)
    have hany := countP_eq_length.mp hcount layer hl
    obtain ⟨handle, hv, -⟩ := (any_eq_true _ _).mp hany
    exact isSome_of_eq_some hv
  obtain ⟨handle, hv⟩ := isSome_iff_exists.mp hvalid
  obtain ⟨hd, hok⟩ := validBuffer?_eq_some.mp hv
  refine ⟨handle, hd, hok, fun hflag => ?_⟩
  have hflag' : (decided hwc_dev list).flags_rgb_order := hflag
  rw [hflag'] at horder
  rcases horder with (h0 | ⟨h0, -⟩) | hc
  · rw [h0, if_neg (by decide)]
    exact not_of_validCount (hBGR.symm.trans h0) hl hv
  · have hno := not_of_validCount (hRGB.symm.trans h0) hl hv
    split
    · cases hr : is_RGB handle with
      | false => rfl
      | true =>
        rw [not_BGR_of_RGB hr, hr] at hno
        cases hno
    · next hb =>
      have hb0 : (decided hwc_dev list).counts.BGR = 0 := by simpa using hb
      exact not_of_validCount (hBGR.symm.trans hb0) hl hv
  · cases hc

/-- Where everything is to be rendered, the loop tests a layer for what is refused. -/
theorem renders_iff (h : can_dss_render_all (decided hwc_dev list))
    (hl : layer ∈ list.getD []) : renders (begin_frame hwc_dev list).1 layer ↔
      refused (decided hwc_dev list) layer = false := by
  obtain ⟨handle, hd, hvalid, horder⟩ := countedIn_of_can_dss_render_all h hl
  have hsgx := not_sgx_iff.mpr h
  have hswap : (begin_frame hwc_dev list).1.swap_rb =
      ((decided hwc_dev list).counts.BGR != 0) := if_pos h
  rw [renders, refused, hd, any_some, any_some, can_dss_render_layer, hsgx, hswap]
  have hok : is_valid_layer (begin_frame hwc_dev list).1 layer handle := hvalid
  have hclone : cloning (begin_frame hwc_dev list).1 handle =
      cloning (decided hwc_dev list) handle := rfl
  have hext : (begin_frame hwc_dev list).1.ext = (decided hwc_dev list).ext := rfl
  have htv : (begin_frame hwc_dev list).1.on_tv = (decided hwc_dev list).on_tv := rfl
  have hflags : (begin_frame hwc_dev list).1.flags_rgb_order = hwc_dev.flags_rgb_order := rfl
  have hordered : (!(if (decided hwc_dev list).counts.BGR != 0 then is_RGB handle
      else is_BGR handle) || !hwc_dev.flags_rgb_order) := by
    cases hflag : hwc_dev.flags_rgb_order with
    | false => exact Bool.or_true _
    | true =>
      rw [horder hflag]
      rfl
  rw [hok, hclone, hext, htv, hflags, hordered, Bool.not_false, Bool.true_or, Bool.or_true]
  generalize (cloning (decided hwc_dev list) handle && _) = turns
  generalize (_ && is_BGR handle) = tv
  generalize is_NV12 handle = nv12
  cases turns <;> cases tv <;> cases nv12 <;> simp

/-- The TILER bytes do not depend on who composes a layer. -/
theorem validMem_begin_frame (layers : List HwcLayer) :
    validMem hwc_dev (layers.map fun layer => { layer with compositionType := .framebuffer }) =
      validMem hwc_dev layers := by
  rw [validMem, foldl_map]
  rfl

theorem memFits_iff : MemFits (begin_frame hwc_dev list).1 ((begin_frame hwc_dev list).2.getD []) ↔
    ∀ part, part <+: list.getD [] →
      validMem (decided hwc_dev list) part ≤ hwc_dev.limits.tiler1d_slot_size := by
  have hdev : ∀ part, validMem (begin_frame hwc_dev list).1 part =
      validMem (decided hwc_dev list) part := fun _ => rfl
  rw [MemFits, begin_frame_list]
  constructor
  · intro h part hp
    have hle := h _ (hp.map fun layer => { layer with compositionType := .framebuffer })
    rw [hdev, validMem_begin_frame] at hle
    exact hle
  · intro h part hp
    obtain ⟨part', hp', rfl⟩ := prefix_map_iff.mp hp
    rw [hdev, validMem_begin_frame]
    exact h part' hp'

/-- Where everything is to be rendered, the conditions of the decision but the refusals hold. -/
theorem full_of_rendered (h : can_dss_render_all (decided hwc_dev list))
    (hno : ∀ layer ∈ list.getD [], refused (decided hwc_dev list) layer = false)
    (hmem : ∀ part, part <+: list.getD [] →
      validMem (decided hwc_dev list) part ≤ hwc_dev.limits.tiler1d_slot_size)
    (hdone : done <+: (begin_frame hwc_dev list).2.getD []) :
    (setup_pipes (begin_frame hwc_dev list).1 false done).Full (begin_frame hwc_dev list).1
      done := by
  obtain ⟨hforce, hcount, -, -⟩ := rendersAll_of_can_dss_render_all h
  have hlen := hdone.length_le
  rw [begin_frame_list, length_map] at hlen
  refine full_of_renders hforce (hlen.trans hcount) (fun l hl => ?_) fun part hp =>
    memFits_iff.mpr hmem part (hp.trans hdone)
  have hl' := hdone.subset hl
  rw [begin_frame_list] at hl'
  obtain ⟨layer, hlayer, rfl⟩ := mem_map.mp hl'
  exact (renders_iff h hlayer).mpr (hno layer hlayer)

/-- Where everything is to be rendered, it is if the loop refuses nothing. -/
theorem overlays_iff (h : can_dss_render_all (decided hwc_dev list)) :
    (∀ layer ∈ (framePipes hwc_dev list).visited, layer.compositionType = .overlay) ↔
      (∀ layer ∈ list.getD [], refused (decided hwc_dev list) layer = false) ∧
        ∀ part, part <+: list.getD [] →
          validMem (decided hwc_dev list) part ≤ hwc_dev.limits.tiler1d_slot_size := by
  have hsgx := not_sgx_iff.mpr h
  rw [framePipes, pipesOf, hsgx]
  constructor
  · intro hall
    have hfb : ∀ l ∈ (begin_frame hwc_dev list).2.getD [], l.compositionType = .framebuffer := by
      intro l hl
      rw [begin_frame_list] at hl
      obtain ⟨l', -, rfl⟩ := mem_map.mp hl
      rfl
    obtain ⟨hrenders, hmem⟩ := renders_of_overlays hfb hall
    rw [begin_frame_list] at hrenders
    exact ⟨fun layer hl => (renders_iff h hl).mp (hrenders
      { layer with compositionType := .framebuffer } (mem_map.mpr ⟨layer, hl, rfl⟩)),
      memFits_iff.mp hmem⟩
  · rintro ⟨hno, hmem⟩
    exact (full_of_rendered h hno hmem prefix_rfl).overlays

theorem not_loses_iff (h : can_dss_render_all (decided hwc_dev list))
    (hall : ¬BlitsAll env hwc_dev list) : ¬Loses env hwc_dev list ↔
      (∀ layer ∈ list.getD [], refused (decided hwc_dev list) layer = false) ∧
        ∀ part, part <+: list.getD [] →
          validMem (decided hwc_dev list) part ≤ hwc_dev.limits.tiler1d_slot_size := by
  constructor
  · intro hno
    refine ⟨fun layer hl => ?_, fun part hp => ?_⟩
    · by_contra hr
      exact hno ⟨h, hall, .inl ⟨layer, hl, by simpa using hr⟩⟩
    · by_contra hlt
      exact hno ⟨h, hall, .inr ⟨part, hp, not_le.mp hlt⟩⟩
  · rintro ⟨hno, hmem⟩ ⟨-, -, ⟨layer, hl, hr⟩ | ⟨part, hp, hlt⟩⟩
    · rw [hno layer hl] at hr
      cases hr
    · exact absurd (hmem part hp) (not_le.mpr hlt)

/-! ### What is dropped -/

/-- Where nothing is dropped, every overlay that is set up from a layer is programmed. -/
theorem programmed_of_not_drops (h : hwc_dev.Steady) (hall : ¬BlitsAll env hwc_dev list)
    (hno : ¬Drops env hwc_dev list) (hk : (begin_frame hwc_dev list).1.use_sgx.toNat ≤ k)
    (hk' : k < (framePipes hwc_dev list).num_ovls) :
    (hwc_prepare env hwc_dev list).1.Programmed k := by
  obtain ⟨before, layer, handle, hpre, hset⟩ := setup_pipes_shows (begin_frame hwc_dev list).1
    (begin_frame hwc_dev list).1.use_sgx ((begin_frame hwc_dev list).2.getD []) k hk hk'
  have htakes : TakesOverlay hwc_dev list layer handle := ⟨before, hpre, hset.deref, hset.takes⟩
  exact (programmed_iff h hall hk hk' hset).mpr
    ⟨fun hc => hno ⟨hall, layer, handle, htakes, .inl hc⟩,
    fun hc => hno ⟨hall, layer, handle, htakes, .inr hc⟩⟩

/-- A layer that is dropped is not shown. -/
theorem not_shownOnce_of_drops (h : hwc_dev.Steady) (hdrops : Drops env hwc_dev list) :
    ∃ i layer, (list.getD [])[i]? = some layer ∧ layer.skip = false ∧
      ¬ShownOnce env hwc_dev list i := by
  obtain ⟨hall, layer, handle, ⟨before, hpre, hd, ht⟩, hwhy⟩ := hdrops
  have hvalid := can_dss_render_layer_valid (takes_overlay_iff.mp ht).2.1
  have hat : ((begin_frame hwc_dev list).2.getD [])[before.length]? = some layer := by
    obtain ⟨rest, hrest⟩ := hpre
    rw [← hrest, append_assoc, getElem?_append_right le_rfl, Nat.sub_self]
    rfl
  rw [begin_frame_list, getElem?_map, Option.map_eq_some_iff] at hat
  obtain ⟨l, hl, rfl⟩ := hat
  have hi := (List.getElem?_eq_some_iff.mp hl).1
  refine ⟨before.length, l, hl, (is_valid_layer_format hvalid).1, fun hshown => ?_⟩
  -- the loop has visited the layer as one with an overlay
  obtain ⟨k, hk, hk', hki⟩ := setup_pipes_taken _ _ _ before _ handle hpre hd ht
  obtain ⟨v, hv, hov⟩ := (framePipes_sourced hwc_dev list).source k hk hk'
  have hsrc : (framePipes hwc_dev list).source k = before.length := hki
  rw [hsrc] at hv
  rcases (shownOnce_iff hi).mp hshown with hc | ⟨v', hv', hshown⟩
  · exact hall hc
  obtain rfl : v = v' := Option.some.inj (hv.symm.trans hv')
  rw [if_pos hov] at hshown
  obtain ⟨j, hj, hj', hji, hprogrammed⟩ := hshown
  obtain ⟨before', layer', handle', hpre', hset⟩ := setup_pipes_shows
    (begin_frame hwc_dev list).1 _ ((begin_frame hwc_dev list).2.getD []) j hj hj'
  have hlen : before'.length = before.length := hset.source.symm.trans hji
  have hlen' : (before' ++ [layer']).length =
      (before ++ [{ l with compositionType := .framebuffer }]).length := by
    rw [length_append, length_append, hlen]
    rfl
  obtain ⟨-, hlayer⟩ := append_inj
    ((prefix_of_prefix_length_le hpre' hpre hlen'.le).eq_of_length hlen') hlen
  obtain rfl : layer' = { l with compositionType := .framebuffer } := by simpa using hlayer
  obtain rfl : handle' = handle := Option.some.inj (hset.deref.symm.trans hd)
  obtain ⟨htv, hcrop⟩ := (programmed_iff h hall hj hj' hset).mp hprogrammed
  exact hwhy.elim htv hcrop

/-- Where everything is to be rendered, a layer that is shown has an overlay. -/
theorem overlay_of_shownOnce (hr : can_dss_render_all (decided hwc_dev list))
    (hall : ¬BlitsAll env hwc_dev list) {v : HwcLayer} {i : Nat}
    (hv : (framePipes hwc_dev list).visited[i]? = some v) (hshown : ShownOnce env hwc_dev list i) :
    v.compositionType = .overlay := by
  have hsgx := not_sgx_iff.mpr hr
  have hi := (List.getElem?_eq_some_iff.mp hv).1
  rw [length_visited] at hi
  rcases (shownOnce_iff hi).mp hshown with hc | ⟨v', hv', hshown⟩
  · exact absurd hc hall
  · obtain rfl : v = v' := Option.some.inj (hv.symm.trans hv')
    split at hshown
    · assumption
    · rw [hsgx] at hshown
      cases hshown

theorem keepsLayers_iff_of_steady (h : hwc_dev.Steady) (env : PrepareEnv)
    (list : Option (List HwcLayer)) :
    KeepsLayers env hwc_dev list ↔ ¬Loses env hwc_dev list ∧ ¬Drops env hwc_dev list := by
  have hlen := length_visited hwc_dev list
  constructor
  · rintro ⟨hshown, -⟩
    refine ⟨fun hloses => ?_, fun hdrops => ?_⟩
    · have hr := hloses.rendered
      refine (not_loses_iff hr hloses.unblitted).mpr ((overlays_iff hr).mp fun v hv => ?_) hloses
      obtain ⟨i, hi⟩ := mem_iff_getElem?.mp hv
      have hlt := (List.getElem?_eq_some_iff.mp hi).1
      rw [hlen] at hlt
      have hlayer := getElem?_eq_getElem hlt
      obtain ⟨handle, -, hvalid, -⟩ :=
        countedIn_of_can_dss_render_all hr (mem_of_getElem? hlayer)
      exact overlay_of_shownOnce hr hloses.unblitted hi
        (hshown i _ hlayer (is_valid_layer_format hvalid).1)
    · obtain ⟨i, layer, hl, hskip, hno⟩ := not_shownOnce_of_drops h hdrops
      exact hno (hshown i layer hl hskip)
  · rintro ⟨hno, hkept⟩
    refine ⟨fun i layer hi _ => ?_, fun hr hall done layer hpre => ?_⟩
    · have hlt := (List.getElem?_eq_some_iff.mp hi).1
      rw [shownOnce_iff hlt]
      by_cases hall : BlitsAll env hwc_dev list
      · exact .inl hall
      · have hv := getElem?_eq_getElem (hlen ▸ hlt)
        refine .inr ⟨_, hv, ?_⟩
        split
        · next hov =>
          obtain ⟨k, hk, hk', hki⟩ := (framePipes_sourced hwc_dev list).overlay i _ hv hov
          exact ⟨k, hk, hk', hki, programmed_of_not_drops h hall hkept hk hk'⟩
        · next hleft =>
          show (!can_dss_render_all (decided hwc_dev list))
          cases hr : can_dss_render_all (decided hwc_dev list) with
          | false => rfl
          | true =>
            exact absurd ((overlays_iff hr).mpr ((not_loses_iff hr hall).mp hno) _
              (mem_of_getElem? hv)) hleft
    · obtain ⟨hrefused, hmem⟩ := (not_loses_iff hr hall).mp hno
      obtain ⟨hforce, hcount, -, -⟩ := rendersAll_of_can_dss_render_all hr
      have hfull := full_of_rendered hr hrefused hmem ((prefix_append done [layer]).trans hpre)
      have hlt : done.length < (list.getD []).length := by
        have hle := hpre.length_le
        rw [length_append, length_singleton, begin_frame_list, length_map] at hle
        omega
      have hl := hpre.subset (mem_append_right done (mem_singleton_self layer))
      rw [begin_frame_list] at hl
      obtain ⟨l, hl', rfl⟩ := mem_map.mp hl
      have hrenders := (renders_iff hr hl').mpr (hrefused l hl')
      obtain ⟨handle, hd, hrender⟩ := (any_eq_true _ _).mp hrenders
      exact ⟨handle, hd, hfull.takes hforce (hlt.trans_le hcount) hd hrender
        (memFits_iff.mpr hmem _ hpre)⟩

/-- For every list in every state that calls of the composer reach, and every answer of the kernel
and the blitter: no layer is lost exactly if the display subsystem is not to render everything
while it refuses a layer, and no layer takes an overlay that shows nothing. -/
theorem keeps_layers_iff {hwc_dev : HwcDevice} (h : hwc_dev.Opened) (events : List Event)
    (env : PrepareEnv) (list : Option (List HwcLayer)) :
    KeepsLayers env ((Session.start hwc_dev).run events).dev list ↔
      ¬Loses env ((Session.start hwc_dev).run events).dev list ∧
        ¬Drops env ((Session.start hwc_dev).run events).dev list :=
  keepsLayers_iff_of_steady (steady_of_opened h events) env list

/-- A device that was just opened prepares a list of two layers. -/
theorem keeps_layers_sample :
    let list := some [scaledLayer 100 0, scaledLayer 200 20]
    KeepsLayers sampleAnswers ((Session.start sampleDevice).run []).dev list ↔
      ¬Loses sampleAnswers ((Session.start sampleDevice).run []).dev list ∧
        ¬Drops sampleAnswers ((Session.start sampleDevice).run []).dev list :=
  keeps_layers_iff sampleDevice_opened [] sampleAnswers _

/-- The sample device on a TV, with `debug.hwc.rgb_order` off. -/
def sampleTv : HwcDevice := { sampleDevice with on_tv := true }

/-- The display subsystem is to render the layer, and the loop leaves it. -/
theorem bgr_layer_on_tv_lost : ¬KeepsLayers sampleAnswers
    ((Session.start sampleTv).run [.hdmiSwitch true sampleHotplug]).dev
    (some [scaledLayer 100 0]) := by
  intro h
  have hshown := h.shown 0 (scaledLayer 100 0) rfl rfl
  rcases hshown with ⟨⟨l, k, -, -, hk, hk', -⟩, -⟩ | ⟨-, hb, -⟩ | ⟨-, -, -, hsgx⟩
  · have hnone : (hwc_prepare sampleAnswers
        ((Session.start sampleTv).run [.hdmiSwitch true sampleHotplug]).dev
        (some [scaledLayer 100 0])).1.post2_layers = 0 := rfl
    omega
  · cases hb
  · cases hsgx

end OmapHal.Hwc
