import OmapHal.Regionizer.RegionOutput

/-!
# What painting leaves on the screen

`rgz_out_bvcmd_paint` clears the screen and draws every layer, bottom first, in its
display frame. At one pixel each layer is a step on the value behind it.
-/

namespace OmapHal.Regionizer

open List

section Painting

open OmapHal.Hwc OmapHal.Core

variable {V : Type} {M : Blender V} {params : OutParams} {screen : ScreenGeom} {rgz : Rgz}
  {p : Int × Int} {l : RgzLayer} {P : BvCommands} {c : Rect} {d : V}

/-- What a layer that is drawn for a cell does to a pixel. -/
def layerInk (M : Blender V) (params : OutParams) (c : Rect) (p : Int × Int) (l : RgzLayer) :
    Ink V :=
  match l.hwc_layer.handle.deref? with
  | none => .put M.clear
  | some handle =>
    if !params.noblend && l.hwc_layer.blending == HWC_BLENDING_PREMULT then
      .blend (layerValue M params l handle c p)
    else .put (layerValue M params l handle c p)

/-- What painting a layer does to a pixel. -/
def paintStep (M : Blender V) (params : OutParams) (p : Int × Int) (d : V) (l : RgzLayer) : V :=
  if l.buffidx = RGZ_CLEARHINT_BUFFIDX then
    if p ∈ clipRect params.screen l.hwc_layer.displayFrame then M.clear else d
  else if p ∈ l.hwc_layer.displayFrame then
    (layerInk M params l.hwc_layer.displayFrame p l).apply M.srcOver d
  else d

/-- The blit of a layer. -/
def paintEntry (params : OutParams) (l : RgzLayer) : BltEntry :=
  if l.buffidx = RGZ_CLEARHINT_BUFFIDX then
    rgz_out_clrdst params (clipRect params.screen l.hwc_layer.displayFrame) .zero
  else
    match l.hwc_layer.handle.deref? with
    | none => .zero
    | some handle => rgz_hwc_layer_blit params l handle .zero

/-- Clipping again changes nothing. -/
theorem clipRect_clipRect (r : Rect) : clipRect screen (clipRect screen r) = clipRect screen r := by
  have hmin : ∀ (a : Nat) (b : Int), minUnsigned a (minUnsigned a b) = minUnsigned a b := by
    intro a b
    simp only [minUnsigned]
    split <;> split <;> omega
  have hmax : ∀ a : Int, max 0 (max 0 a) = max 0 a := fun a => by omega
  simp only [clipRect, hmin, hmax]

/-- At a pixel of the screen the blit of a layer is its step. -/
theorem execute_paintEntry (hl : l.FromList) (hps : p ∈ params.screen.rect) (fb : Int × Int → V) :
    execute M (paintEntry params l) fb p = paintStep M params p (fb p) l := by
  rcases hl with ⟨hidx, hvalid⟩ | ⟨hidx, -⟩
  · have hne : l.buffidx ≠ RGZ_CLEARHINT_BUFFIDX := fun h => absurd (h ▸ hidx) (by decide)
    obtain ⟨handle, hh, -⟩ := of_rgz_in_valid_hwc_layer hvalid
    have hdrawn : drawnRect l.hwc_layer l.hwc_layer.displayFrame = l.hwc_layer.displayFrame :=
      ite_self _
    have hclip : (p ∈ l.hwc_layer.displayFrame ∧
        p ∈ clipRect params.screen l.hwc_layer.displayFrame) ↔ p ∈ l.hwc_layer.displayFrame :=
      and_iff_left_of_imp fun hp => mem_clipRect hps hp
    rw [paintEntry, paintStep, if_neg hne, if_neg hne, layerInk, hh]
    dsimp only
    rw [rgz_hwc_layer_blit]
    split
    · rw [execute_blend, hdrawn]
      simp only [hclip]
      rfl
    · rw [execute_copy, hdrawn]
      simp only [hclip]
      rfl
  · rw [paintEntry, paintStep, if_pos hidx, if_pos hidx, execute_clrdst, clipRect_clipRect]
    simp only [and_self]

/-- The blits of all layers at a pixel of the screen. -/
theorem run_map_paintEntry {ls : List RgzLayer} (hls : ∀ l ∈ ls, l.FromList)
    (hps : p ∈ params.screen.rect) (fb : Int × Int → V) :
    run M (ls.map (paintEntry params)) fb p = ls.foldl (paintStep M params p) (fb p) := by
  induction ls generalizing fb with
  | nil => rfl
  | cons l ls ih =>
    have hrest := ih (fun l' hl' => hls l' (mem_cons_of_mem l hl'))
      (execute M (paintEntry params l) fb)
    rw [execute_paintEntry (hls l mem_cons_self) hps] at hrest
    exact hrest

/-- In a pool with room the loop appends the blit of every layer. -/
theorem foldlM_paintLayer {ls : List RgzLayer} (hls : ∀ l ∈ ls, l.FromList) {blts : Blts}
    (hlen : blts.length + ls.length ≤ RGZ_MAX_BLITS) :
    ls.foldlM (fun blts l => paintLayer params l blts) blts =
      .ok (blts ++ ls.map (paintEntry params)) := by
  induction ls generalizing blts with
  | nil =>
    rw [map_nil, append_nil]
    rfl
  | cons l ls ih =>
    rw [length_cons] at hlen
    have hlayer : paintLayer params l blts = .ok (blts ++ [paintEntry params l]) := by
      have hemit : ∀ fill, emit fill blts = blts ++ [fill .zero] := fun fill => if_pos (by omega)
      rcases hls l mem_cons_self with ⟨hidx, hvalid⟩ | ⟨hidx, -⟩
      · have hne : l.buffidx ≠ RGZ_CLEARHINT_BUFFIDX := fun h => absurd (h ▸ hidx) (by decide)
        obtain ⟨handle, hh, -⟩ := of_rgz_in_valid_hwc_layer hvalid
        rw [paintLayer, paintEntry, if_neg hne, if_neg hne, hh]
        dsimp only
        rw [hemit]
      · rw [paintLayer, paintEntry, if_pos hidx, if_pos hidx, hemit]
    have hroom : (blts ++ [paintEntry params l]).length + ls.length ≤ RGZ_MAX_BLITS := by
      rw [length_append, length_singleton]
      omega
    have hrest := ih (fun l' hl' => hls l' (mem_cons_of_mem l hl')) hroom
    rw [foldlM_cons, hlayer]
    refine hrest.trans ?_
    rw [map_cons, append_assoc, singleton_append]

/-- The blits that `rgz_out_bvcmd_paint` generates. -/
def paintingBlits (params : OutParams) (rgz : Rgz) : Blts :=
  rgz_out_clrdst params params.screen.rect .zero :: rgz.cur_fb_state.tail.map (paintEntry params)

/-- They leave room in the pool. -/
theorem Checked.length_paintingBlits (hc : Checked screen rgz) :
    (paintingBlits params rgz).length < RGZ_MAX_BLITS := by
  have hlen := hc.length
  have hmax : RGZ_INPUT_MAXLAYERS + 1 < RGZ_MAX_BLITS := by decide
  rw [paintingBlits, length_cons, length_map]
  omega

/-- Painting a checked frame succeeds, with one blit for each layer behind the first one. -/
theorem Checked.rgz_out_bvcmd_paint_ok (params : OutParams) (hc : Checked screen rgz) :
    ∃ out_hndls, rgz_out_bvcmd_paint params rgz =
      .ok ⟨updateLast (rgz_set_async false) (paintingBlits params rgz), out_hndls⟩ := by
  have hroom : (paintingBlits params rgz).length < RGZ_MAX_BLITS := hc.length_paintingBlits
  have hblts : paintBlts params rgz = .ok (paintingBlits params rgz) := by
    rw [paintBlts]
    refine foldlM_paintLayer hc.fromList ?_
    rw [paintingBlits, length_cons, length_map] at hroom
    have hone : (emit (rgz_out_clrdst params params.screen.rect) []).length = 1 := rfl
    omega
  rw [rgz_out_bvcmd_paint, hblts]
  exact ⟨_, if_neg (by omega)⟩

/-- Painting a checked frame succeeds, and leaves at every pixel of the screen the value
of all steps. -/
theorem Checked.rgz_out_bvcmd_paint_eq (hc : Checked params.screen rgz) :
    ∃ P, rgz_out_bvcmd_paint params rgz = .ok P ∧
      ∀ (V : Type) (M : Blender V) (fb : Int × Int → V) (p : Int × Int), p ∈ params.screen.rect →
        run M P.cmdp fb p = rgz.cur_fb_state.tail.foldl (paintStep M params p) M.clear := by
  obtain ⟨out_hndls, hpaint⟩ := hc.rgz_out_bvcmd_paint_ok params
  refine ⟨_, hpaint, fun V M fb p hps => ?_⟩
  have hclear : run M [rgz_out_clrdst params params.screen.rect .zero] fb p = M.clear :=
    draws_clrdst.run hps hps fb
  rw [run_updateLast (execute_rgz_set_async false), paintingBlits, ← singleton_append,
    run_append, run_map_paintEntry hc.fromList hps, hclear]

end Painting

/-!
## The emitted commands

The array that a `BVCMD` operation hands out holds the generated blits, each of them once and in
the order in which they were generated, only that the last one is made sync. Blits that do not fit
into the pool make the operation fail.
-/

section Commands

open OmapHal.Hwc OmapHal.Core

variable {params : OutParams} {screen : ScreenGeom} {layers : List InLayer} {rgz rgz' : Rgz}
  {R : BvCommands} {es : Blts}

/-- The commands are these blits, and `cmdlen` is their number. -/
def BvCommands.Holds (R : BvCommands) (es : Blts) : Prop :=
  R.cmdp = updateLast (rgz_set_async false) es ∧ R.cmdp.length = es.length

theorem finishBlts_holds {blts : Blts} {out_hndls : List BufferHandle}
    (h : finishBlts blts out_hndls = .ok R) : R.Holds blts ∧ blts.length < RGZ_MAX_BLITS := by
  rw [finishBlts] at h
  split at h
  · cases h
  · next hroom =>
    rw [← Except.ok.inj h]
    exact ⟨⟨rfl, length_updateLast _ _⟩, not_le.mp hroom⟩

/-- The commands of the regions are the blits of the frame. -/
theorem Checked.holds_frameBlits (hc : Checked params.screen rgz)
    (hR : rgz_out_region params (rgz.withRegions params.screen) = .ok R) :
    ∃ es, frameBlits params (rgz.withRegions params.screen) = .ok es ∧ R.Holds es := by
  rw [rgz_out_region, regionBlts_withRegions] at hR
  cases hblts : (rgz.withRegions params.screen).hregions.foldlM
      (fun blts h => hregionBlts params rgz.damaged_area h blts) [] with
  | error stop =>
    rw [hblts] at hR
    cases hR
  | ok blts =>
    rw [hblts] at hR
    obtain ⟨hholds, hroom⟩ := finishBlts_holds hR
    exact ⟨blts, (hc.appends_regions params).of_nil hblts hroom, hholds⟩

/-- Blits that use up the pool make the operation fail. -/
theorem Checked.rgz_out_region_full (hc : Checked params.screen rgz)
    (hes : frameBlits params (rgz.withRegions params.screen) = .ok es)
    (hfull : RGZ_MAX_BLITS ≤ es.length) :
    rgz_out_region params (rgz.withRegions params.screen) = .error .failed := by
  have happends := hc.appends_regions params
  rw [hes] at happends
  obtain ⟨blts, hblts, hlen⟩ := happends.full hfull
  rw [rgz_out_region, regionBlts_withRegions, hblts]
  exact if_pos (Nat.le_of_eq hlen.symm)

/-- For an accepted layer list, both operations emit all the blits that they generate if they
report success, and report none if the pool is used up. -/
theorem commands_hold_all_blits (h : rgz_in_hwccheck params.screen layers rgz = some rgz') :
    (∀ R, rgz_out_bvcmd_paint params rgz' = .ok R → R.Holds (paintingBlits params rgz')) ∧
      (paintingBlits params rgz').length < RGZ_MAX_BLITS ∧
      ∀ r, rgz_in_hwc params.screen rgz' = some r →
        (∀ R, rgz_out_region params r = .ok R → ∃ es, frameBlits params r = .ok es ∧ R.Holds es) ∧
        ∀ es, frameBlits params r = .ok es → RGZ_MAX_BLITS ≤ es.length →
          rgz_out_region params r = .error .failed := by
  have hc := checked_of_rgz_in_hwccheck h
  refine ⟨fun R hR => ?_, hc.length_paintingBlits, fun r hr => ?_⟩
  · obtain ⟨out_hndls, hpaint⟩ := hc.rgz_out_bvcmd_paint_ok params
    rw [hpaint] at hR
    rw [← Except.ok.inj hR]
    exact ⟨rfl, length_updateLast _ _⟩
  · obtain ⟨-, -, rfl⟩ := rgz_in_hwc_eq_some.mp hr
    exact ⟨fun R hR => hc.holds_frameBlits hR, fun es hes hfull => hc.rgz_out_region_full hes hfull⟩

/-- Two opaque layers that overlap, with nothing painted before. -/
theorem commands_hold_all_blits_overlapping :
    ∃ rgz', rgz_in_hwccheck ⟨40, 40⟩ overlappingLayers Rgz.released = some rgz' ∧
      ∀ R, rgz_out_bvcmd_paint ⟨⟨40, 40⟩, .RGBA24, 160, false⟩ rgz' = .ok R →
        R.Holds (paintingBlits ⟨⟨40, 40⟩, .RGBA24, 160, false⟩ rgz') :=
  ⟨_, rfl, (@commands_hold_all_blits ⟨⟨40, 40⟩, .RGBA24, 160, false⟩ overlappingLayers
    Rgz.released _ rfl).1⟩

end Commands

end OmapHal.Regionizer
