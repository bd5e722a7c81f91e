import OmapHal.Regionizer.Generation

/-!
# The blits of all regions

What `rgz_out_region` generates for the cells of a checked frame, one band after the other.
-/

namespace OmapHal.Regionizer

open OmapHal.Hwc OmapHal.Core List

/-- The blits that `rgz_hwc_subregion_blit` generates. -/
def subregionBlits (params : OutParams) (hregion : BlitHregion) (damaged_area : Rect)
    (sidx : Nat) : Except Stop Blts := do
  let (_, bottom) ← get_layer_ops hregion sidx
  match bottom with
  | none => .error .failed
  | some lix =>
    if subregionDirty hregion sidx lix damaged_area then
      .ok (cellBlits params (hregion.blitrect lix sidx)
        (buffersOf ((lix :: opsAfter hregion sidx lix).filterMap fun l => hregion.rgz_layers[l]?)))
    else .ok []

/-- The blits of a horizontal region. -/
def bandBlits (params : OutParams) (damaged_area : Rect) (hregion : BlitHregion) :
    Except Stop Blts :=
  if hregion.rgz_layers = [] then .error .failed
  else gather (fun s => subregionBlits params hregion damaged_area s)
    (List.range hregion.nsubregions)

/-- The blits of all horizontal regions. -/
def frameBlits (params : OutParams) (rgz : Rgz) : Except Stop Blts :=
  gather (fun h => bandBlits params rgz.damaged_area h) rgz.hregions

section Cells

variable {params : OutParams} {screen : ScreenGeom} {rgz : Rgz} {b q : Int × Int} {l : RgzLayer}
  {s : Nat} {us : List Nat} {vs : List RgzLayer}

/-- A valid layer has a buffer, and only NV12 is flipped in one direction. -/
theorem of_rgz_in_valid_hwc_layer {layer : HwcLayer} (h : rgz_in_valid_hwc_layer layer) :
    ∃ handle, layer.handle.deref? = some handle ∧ (is_NV12 handle.iFormat ∨
      rgz_get_flip_flags layer.transform = ⟨false, false⟩) := by
  rw [rgz_in_valid_hwc_layer] at h
  split at h
  · cases h
  · split at h
    · cases h
    · cases h
    · rename_i address handle hh
      refine ⟨handle, by rw [hh]; rfl, ?_⟩
      split at h
      · rename_i hn
        exact .inl hn
      · split at h
        · cases h
        · rename_i hx
          refine .inr ?_
          rw [rgz_get_flip_flags]
          cases hf : flipH layer.transform <;> cases hv : flipV layer.transform
          · rfl
          · rw [hf, hv] at hx
            exact absurd rfl hx
          · rw [hf, hv] at hx
            exact absurd rfl hx
          · rfl

/-- Every layer of a checked frame is a mark or has a buffer. -/
theorem Checked.isMark_or_hasBuffer (hc : Checked screen rgz) (hl : l ∈ rgz.cur_fb_state) :
    l.IsMark ∨ l.HasBuffer := by
  obtain ⟨bg, ls, hcur, hbg⟩ := hc.background
  have hfirst := hc.wellFormed.1
  have htail := hc.fromList
  rw [hcur] at hl hfirst htail
  rcases mem_cons.mp hl with rfl | hl
  · exact .inl ⟨.inl (hfirst l rfl), by rw [hbg]; rfl⟩
  · rcases htail l hl with ⟨hidx, hvalid⟩ | ⟨hidx, hdummy⟩
    · obtain ⟨handle, hh, -⟩ := of_rgz_in_valid_hwc_layer hvalid
      exact .inr ⟨hidx, handle, hh⟩
    · exact .inl ⟨.inr hidx, by rw [hdummy]; rfl⟩

/-- A layer that does not end the operations is blended and has a buffer that is not
opaque. -/
theorem of_endsOps_eq_false {layer : HwcLayer} (h : endsOps layer = some false) :
    layer.blending = HWC_BLENDING_PREMULT ∧
      ∃ handle, layer.handle.deref? = some handle ∧ is_OPAQUE handle.iFormat = false := by
  rw [endsOps] at h
  split at h
  · cases h
  · rename_i hb
    obtain ⟨handle, hh, ho⟩ := Option.map_eq_some_iff.mp h
    exact ⟨not_not.mp hb, handle, hh, ho⟩

/-- A layer that is drawn in a cell is drawn in the whole cell. -/
theorem blitrect_of_drawn (hq : (bandPieces screen rgz b)[s]? = some q) {j : Nat}
    (hj : j ∈ drawn (hregionOf screen rgz b) s) :
    (hregionOf screen rgz b).blitrect j s = ⟨q.1, b.1, q.2, b.2⟩ := by
  have hcell : (subregionRects screen rgz.damaged_area (hregionRect screen rgz b)
      (hregionLayers rgz.cur_fb_state (hregionRect screen rgz b)))[s]? =
        some ⟨q.1, b.1, q.2, b.2⟩ := by
    rw [subregionRects, getElem?_map]
    exact congrArg (Option.map _) hq
  rw [drawn, drawnBelow, mem_filter, mem_range, Bool.not_eq_true'] at hj
  obtain ⟨hlt, hne⟩ := hj
  have hrect : (hregionOf screen rgz b).blitrect j s = _ :=
    blitrect_rgz_gen_blitregions (getElem?_eq_getElem hlt) hcell
  rw [hrect] at hne ⊢
  split
  · rfl
  · rename_i hm
    rw [if_neg hm, empty_rect_iff.mpr rfl] at hne
    cases hne

/-- What stands above the bottom layer of a walk has a buffer and is blended. -/
theorem Checked.of_walk (hc : Checked screen rgz) {us : List Nat} {j : Nat} {rest : List Nat}
    (hus : walk (hregionOf screen rgz b).endsAt (drawn (hregionOf screen rgz b) s).reverse =
      some us) (hrev : us.reverse = j :: rest) {i : Nat} (hi : i ∈ rest) {y : RgzLayer}
    (hy : (hregionOf screen rgz b).rgz_layers[i]? = some y) :
    y.HasBuffer ∧ endsOps y.hwc_layer = some false := by
  have hsplit : us = rest.reverse ++ [j] := by
    rw [← reverse_reverse us, hrev, reverse_cons]
  rw [hsplit] at hus
  have hends := walk_init hus (mem_reverse.mpr hi)
  rw [BlitHregion.endsAt, hy] at hends
  refine ⟨?_, hends⟩
  obtain ⟨-, handle, hh, -⟩ := of_endsOps_eq_false hends
  have hmem : y ∈ rgz.cur_fb_state := (mem_filter.mp (mem_of_getElem? hy)).1
  rcases hc.isMark_or_hasBuffer hmem with ⟨-, hnone⟩ | hbuf
  · rw [hh] at hnone
    cases hnone
  · exact hbuf

/-- Where every element has an image, the images are a list. -/
theorem exists_map_some {α β : Type} {f : α → Option β} {as : List α}
    (h : ∀ a ∈ as, ∃ x, f a = some x) : ∃ xs : List β, as.map f = xs.map some := by
  induction as with
  | nil => exact ⟨[], rfl⟩
  | cons a as ih =>
    obtain ⟨x, hx⟩ := h a mem_cons_self
    obtain ⟨xs, hxs⟩ := ih fun a' ha' => h a' (mem_cons_of_mem a ha')
    exact ⟨x :: xs, by rw [map_cons, hx, hxs, map_cons]⟩

/-- The blits of a cell where the walk over its layers ends. -/
theorem subregionBlits_eq (params : OutParams) (hq : (bandPieces screen rgz b)[s]? = some q)
    (hus : walk (hregionOf screen rgz b).endsAt (drawn (hregionOf screen rgz b) s).reverse =
      some us)
    (hvs : us.map (fun l => (hregionOf screen rgz b).rgz_layers[l]?) = vs.map some) :
    subregionBlits params (hregionOf screen rgz b) rgz.damaged_area s =
      match us.reverse with
      | [] => .error .failed
      | lix :: _ =>
        if subregionDirty (hregionOf screen rgz b) s lix rgz.damaged_area then
          .ok (cellBlits params ⟨q.1, b.1, q.2, b.2⟩ (buffersOf vs.reverse))
        else .ok [] := by
  rw [subregionBlits, get_layer_ops_eq, hus]
  cases hrev : us.reverse with
  | nil =>
    rw [reverse_eq_nil_iff.mp hrev]
    rfl
  | cons lix rest =>
    obtain ⟨pre, hdrawn⟩ := drawn_eq_of_walk hus
    rw [hrev] at hdrawn
    have hbottom : us.getLast? = some lix := by rw [← head?_reverse, hrev, head?_cons]
    obtain ⟨-, hafter, -, -⟩ := of_drawn_eq hdrawn
    have hrect := blitrect_of_drawn hq (j := lix)
      (hdrawn ▸ mem_append_right pre mem_cons_self)
    have hlayers : (lix :: rest).filterMap (fun l => (hregionOf screen rgz b).rgz_layers[l]?) =
        vs.reverse := by
      have hmap := congrArg reverse hvs
      rw [← map_reverse, ← map_reverse, hrev] at hmap
      have hsome := congrArg (filterMap id) hmap
      rwa [filterMap_map, filterMap_map, Function.id_comp, Function.id_comp,
        filterMap_some] at hsome
    dsimp only [bind, Except.bind]
    rw [hbottom]
    dsimp only
    rw [hrect, hafter, hlayers]

/-- The blits of a cell are what its operations append. -/
theorem Checked.appends_subregion_blit (hc : Checked screen rgz)
    (hq : (bandPieces screen rgz b)[s]? = some q) :
    AppendsBlits (subregionBlits params (hregionOf screen rgz b) rgz.damaged_area s)
      (rgz_hwc_subregion_blit params (hregionOf screen rgz b) rgz.damaged_area s) := by
  have hops := @get_layer_ops_eq (hregionOf screen rgz b) s
  have hprog : ∀ blts, rgz_hwc_subregion_blit params (hregionOf screen rgz b) rgz.damaged_area s
      blts = _ := fun _ => rfl
  cases hus : walk (hregionOf screen rgz b).endsAt (drawn (hregionOf screen rgz b) s).reverse with
  | none =>
    rw [hus] at hops
    have hgen : subregionBlits params (hregionOf screen rgz b) rgz.damaged_area s =
        .error .fault := by
      rw [subregionBlits, hops]
      rfl
    have hprog : rgz_hwc_subregion_blit params (hregionOf screen rgz b) rgz.damaged_area s =
        fun _ => .error .fault := by
      funext blts
      rw [rgz_hwc_subregion_blit, hops]
      rfl
    rw [hgen, hprog]
    exact Appends.error
  | some us =>
    rw [hus] at hops
    dsimp only at hops
    obtain ⟨vs, hvs⟩ : ∃ vs : List RgzLayer,
        us.map (fun l => (hregionOf screen rgz b).rgz_layers[l]?) = vs.map some := by
      refine exists_map_some fun l hl => ⟨_, getElem?_eq_getElem (?_ : l < _)⟩
      have hmem := mem_reverse.mp ((prefix_of_walk hus).subset hl)
      exact mem_range.mp (mem_filter.mp hmem).1
    rw [subregionBlits_eq params hq hus hvs]
    cases hrev : us.reverse with
    | nil =>
      have hprog : rgz_hwc_subregion_blit params (hregionOf screen rgz b) rgz.damaged_area s =
          fun _ => .error .failed := by
        funext blts
        rw [rgz_hwc_subregion_blit, hops, reverse_eq_nil_iff.mp hrev]
        rfl
      rw [hprog]
      exact Appends.error
    | cons lix rest =>
      obtain ⟨pre, hdrawn⟩ := drawn_eq_of_walk hus
      rw [hrev] at hdrawn
      have hbottom : us.getLast? = some lix := by
        rw [← head?_reverse, hrev, head?_cons]
      have hlen : us.length = (lix :: rest).length := by rw [← hrev, length_reverse]
      dsimp only
      cases hsub : subregionDirty (hregionOf screen rgz b) s lix rgz.damaged_area with
      | false =>
        have hprog : rgz_hwc_subregion_blit params (hregionOf screen rgz b) rgz.damaged_area s =
            fun blts => .ok blts := by
          funext blts
          rw [rgz_hwc_subregion_blit, hops, hbottom]
          exact if_neg (by rw [hsub]; exact Bool.false_ne_true)
        rw [hprog, if_neg Bool.false_ne_true]
        exact Appends.nil
      | true =>
        have hprog : rgz_hwc_subregion_blit params (hregionOf screen rgz b) rgz.damaged_area s =
            subregionOps params (hregionOf screen rgz b) s (lix :: rest).length lix := by
          funext blts
          rw [rgz_hwc_subregion_blit, hops, hbottom, hlen]
          exact if_pos hsub
        -- the layers at these indices, bottom first
        have hrevs : (lix :: rest).map (fun j => (hregionOf screen rgz b).rgz_layers[j]?) =
            vs.reverse.map some := by
          rw [← hrev, map_reverse, hvs, map_reverse]
        rw [hprog, if_pos rfl]
        cases hxs : vs.reverse with
        | nil =>
          rw [hxs] at hrevs
          cases hrevs
        | cons x xs =>
          rw [hxs] at hrevs
          obtain ⟨hx, hrest⟩ := cons.inj hrevs
          dsimp only at hx
          refine appends_subregionOps hdrawn (fun j hj => blitrect_of_drawn hq ?_) hrevs
            (hc.isMark_or_hasBuffer (mem_filter.mp (mem_of_getElem? hx)).1) ?_
          · rw [hdrawn]
            exact mem_append_right _ hj
          · intro y hy
            have hin : some y ∈ rest.map fun j => (hregionOf screen rgz b).rgz_layers[j]? := by
              rw [hrest]
              exact mem_map_of_mem hy
            obtain ⟨i, hi, hyi⟩ := mem_map.mp hin
            exact (hc.of_walk hus hrev hi hyi).1

/-- The subregions of a band are its pieces. -/
theorem nsubregions_hregionOf :
    (hregionOf screen rgz b).nsubregions = (bandPieces screen rgz b).length := by
  simp only [hregionOf, rgz_gen_blitregions, subregionRects, length_map, bandPieces]

/-- The blits of a band are what its subregions append. -/
theorem Checked.appends_hregionBlts (hc : Checked screen rgz) :
    AppendsBlits (bandBlits params rgz.damaged_area (hregionOf screen rgz b))
      (hregionBlts params rgz.damaged_area (hregionOf screen rgz b)) := by
  rw [bandBlits]
  split
  · next hnil =>
    have hprog : hregionBlts params rgz.damaged_area (hregionOf screen rgz b) =
        fun _ => .error .failed := by
      funext blts
      exact if_pos hnil
    rw [hprog]
    exact Appends.error
  · next hnil =>
    have hprog : hregionBlts params rgz.damaged_area (hregionOf screen rgz b) = fun blts =>
        (range (hregionOf screen rgz b).nsubregions).foldlM (fun blts s =>
          rgz_hwc_subregion_blit params (hregionOf screen rgz b) rgz.damaged_area s blts)
          blts := by
      funext blts
      exact if_neg hnil
    rw [hprog]
    refine Appends.foldlM fun s hs => ?_
    rw [mem_range, nsubregions_hregionOf] at hs
    exact hc.appends_subregion_blit (getElem?_eq_getElem hs)

/-- The blits of a frame are what its bands append. -/
theorem Checked.appends_regions (params : OutParams) (hc : Checked screen rgz) :
    AppendsBlits (frameBlits params (rgz.withRegions screen)) fun blts =>
      (rgz.withRegions screen).hregions.foldlM
        (fun blts h => hregionBlts params rgz.damaged_area h blts) blts := by
  refine Appends.foldlM fun h hh => ?_
  obtain ⟨b, -, rfl⟩ := mem_map.mp hh
  exact hc.appends_hregionBlts

end Cells

end OmapHal.Regionizer
