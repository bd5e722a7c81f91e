import OmapHal.Regionizer.PaintOutput

/-!
# Regions without errors

A band on the screen and its cells are covered by the background. A band outside of it has the
layers that reach it only, and its cells those of the layers that reach them too; a band or a cell
that none reaches makes the output fail. So does a blended layer with the clear hint that is seen,
and a frame with too many blits.
-/

namespace OmapHal.Regionizer

open OmapHal.Hwc OmapHal.Core List

/-! ### What a frame must be like -/

/-- The band between two y entries. -/
def bandRect (screen : ScreenGeom) (b : Int × Int) : Rect := ⟨0, b.1, screen.width, b.2⟩

/-- The cell of a band between two offsets. -/
def cellRect (b q : Int × Int) : Rect := ⟨q.1, b.1, q.2, b.2⟩

/-- The gaps between the y entries. -/
def bandGaps (screen : ScreenGeom) (rgz : Rgz) : Finset (Int × Int) := gaps (yentries screen rgz)

/-- The offsets of a band. -/
def bandOffsets (screen : ScreenGeom) (rgz : Rgz) (b : Int × Int) : List Int :=
  offsets screen rgz.damaged_area (hregionLayers rgz.cur_fb_state (bandRect screen b))

/-- The layers from the top down to the first that needs no blending. -/
def topLayers (ls : List RgzLayer) : Option (List RgzLayer) :=
  walk (fun l => endsOps l.hwc_layer) ls.reverse

/-- A layer reaches the band, and the layers that reach it leave no column open between its
offsets. -/
structure BandCovered (screen : ScreenGeom) (rgz : Rgz) (b : Int × Int) : Prop where
  reached : hregionLayers rgz.cur_fb_state (bandRect screen b) ≠ []
  columns : ∀ v ∈ bandOffsets screen rgz b, ∀ w ∈ bandOffsets screen rgz b, ∀ x, v ≤ x → x < w →
    ∃ l ∈ hregionLayers rgz.cur_fb_state (bandRect screen b),
      l.hwc_layer.displayFrame.left ≤ x ∧ x < l.hwc_layer.displayFrame.right

/-- Every layer whose format is asked for without a buffer lies below one that needs no blending. -/
def HintsHidden (ls : List RgzLayer) : Prop :=
  ∀ below l above, ls = below ++ l :: above → endsOps l.hwc_layer = none →
    ∃ l' ∈ above, endsOps l'.hwc_layer = some true

/-- The number of blits for layers with a buffer. -/
def blitCount (params : OutParams) : List (RgzLayer × NativeHandle) → Nat
  | [] => 1
  | [_] => 1
  | b :: b' :: bs =>
    if params.noblend then 1 else if rgz_can_blend_together b' b then bs.length + 1
    else bs.length + 2

/-- The number of blits for a cell, if it is dirty. -/
def cellCount (params : OutParams) (rgz : Rgz) (b q : Int × Int) : Nat :=
  let vs := (topLayers (hregionLayers rgz.cur_fb_state (cellRect b q))).getD []
  if rgz.damaged_area.meets (cellRect b q) ∨ ∃ l ∈ vs, l.dirty_count ≠ 0 then
    blitCount params (buffersOf vs.reverse)
  else 0

/-- The number of blits for a frame. -/
def frameCount (params : OutParams) (rgz : Rgz) : Nat :=
  ∑ b ∈ bandGaps params.screen rgz, ∑ q ∈ gaps (bandOffsets params.screen rgz b),
    cellCount params rgz b q

/-- The edges fit the arrays, the bands outside of the screen are covered, no layer without a
buffer is seen where it would be blended, and the blits fit the pool. -/
structure Drawable (params : OutParams) (rgz : Rgz) : Prop where
  edges : (rgz.cur_fb_state.length + 1) * 2 ≤ RGZ_SUBREGIONMAX
  covered : ∀ b ∈ bandGaps params.screen rgz,
    b.2 ≤ 0 ∨ params.screen.height ≤ b.1 ∨ params.screen.width = 0 →
      BandCovered params.screen rgz b
  hidden : ∀ b ∈ bandGaps params.screen rgz, ∀ q ∈ gaps (bandOffsets params.screen rgz b),
    HintsHidden (hregionLayers rgz.cur_fb_state (cellRect b q))
  blits : frameCount params rgz < RGZ_MAX_BLITS

/-- Every region has a layer, and every subregion of it an operation; no operation on them fails. -/
structure Filled (params : OutParams) (r : Rgz) : Prop where
  rgz_layers : ∀ h ∈ r.hregions, h.rgz_layers ≠ []
  ops : ∀ h ∈ r.hregions, ∀ s < h.nsubregions, ∃ n lix, get_layer_ops h s = .ok (n + 1, some lix)
  subregion : ∀ h ∈ r.hregions, ∀ s < h.nsubregions, ∀ blts, ∃ blts',
    rgz_hwc_subregion_blit params h r.damaged_area s blts = .ok blts'
  region : ∃ R, rgz_out_region params r = .ok R

/-! ### The layers of a cell -/

section Cells

variable {params : OutParams} {screen : ScreenGeom} {rgz : Rgz} {b q : Int × Int} {s : Nat}
  {vs ls : List RgzLayer}

theorem topLayers_ne_none_iff : topLayers ls ≠ none ↔ HintsHidden ls := by
  rw [topLayers, walk_ne_none_iff, HintsHidden]
  constructor
  · intro h below l above heq hends
    obtain ⟨l', hl', hends'⟩ := h above.reverse l below.reverse (by simp [heq]) hends
    exact ⟨l', mem_reverse.mp hl', hends'⟩
  · intro h pre l post heq hends
    have hls : ls = post.reverse ++ l :: pre.reverse := by
      rw [← reverse_reverse ls, heq]
      simp
    obtain ⟨l', hl', hends'⟩ := h _ l _ hls hends
    exact ⟨l', mem_reverse.mp hl', hends'⟩

/-- Something is seen of layers that are there. -/
theorem topLayers_eq_nil_iff (h : topLayers ls = some vs) : vs = [] ↔ ls = [] := by
  constructor
  · rintro rfl
    rcases walk_last h with heq | ⟨init, l, heq, -⟩
    · exact reverse_eq_nil_iff.mp heq.symm
    · simp at heq
  · rintro rfl
    exact (Option.some.inj h).symm

theorem length_cellBlits (params : OutParams) (rect : Rect) (bs : List (RgzLayer × NativeHandle)) :
    (cellBlits params rect bs).length = blitCount params bs := by
  match bs with
  | [] => rfl
  | [_] => rfl
  | b :: b' :: bs =>
    rw [cellBlits, blitCount]
    split
    · rfl
    · exact length_batchBlits params rect b b' bs

theorem Checked.mem_bandPieces_iff (hc : Checked screen rgz) :
    q ∈ bandPieces screen rgz b ↔ q ∈ gaps (bandOffsets screen rgz b) := by
  rw [bandPieces, subdivides_offsets.mem_iff, bandOffsets, bandRect, hc.hregionRect_eq]

/-- The layers of a band that reach one of its cells are those that reach the cell. -/
theorem Checked.hregionLayers_cell (hc : Checked screen rgz) (hq : q ∈ bandPieces screen rgz b) :
    hregionLayers (hregionLayers rgz.cur_fb_state (hregionRect screen rgz b)) (cellRect b q) =
      hregionLayers rgz.cur_fb_state (cellRect b q) := by
  obtain ⟨hleft, hright⟩ := hc.bandPieces_bounds hq
  rw [hregionLayers, hregionLayers, hregionLayers, filter_filter, hc.hregionRect_eq]
  refine filter_congr fun l _ => ?_
  cases hm : (cellRect b q).meets l.hwc_layer.displayFrame with
  | false => rfl
  | true =>
    obtain ⟨hrows, hl, hr⟩ := Box.meets_iff.mp hm
    rw [Bool.true_and]
    exact Box.meets_iff.mpr ⟨hrows, hl.trans_le hright, hleft.trans_lt hr⟩

/-- The layers drawn in a cell are those that reach it. -/
theorem Checked.drawn_cellRect (hc : Checked screen rgz)
    (hq : (bandPieces screen rgz b)[s]? = some q)
    (hb : b.1 < b.2) :
    (drawn (hregionOf screen rgz b) s).map (fun l => (hregionOf screen rgz b).rgz_layers[l]?) =
      (hregionLayers rgz.cur_fb_state (cellRect b q)).map some := by
  have hcell : (subregionRects screen rgz.damaged_area (hregionRect screen rgz b)
      (hregionLayers rgz.cur_fb_state (hregionRect screen rgz b)))[s]? = some (cellRect b q) := by
    rw [subregionRects, getElem?_map]
    exact congrArg (Option.map _) hq
  have hne : cellRect b q ≠ zeroRect := by
    intro hzero
    have htop : b.1 = 0 := congrArg Box.top hzero
    have hbottom : b.2 = 0 := congrArg Box.bottom hzero
    omega
  rw [← hc.hregionLayers_cell (mem_of_getElem? hq)]
  refine map_getElem?_filter_range _ _ _ fun l x hl => ?_
  have hrect : (hregionOf screen rgz b).blitrect l s = _ := blitrect_rgz_gen_blitregions hl hcell
  rw [hrect]
  split
  · next hm => rw [hm, Bool.not_eq_true', Bool.eq_false_iff, ne_eq, empty_rect_iff]; exact hne
  · next hm => rw [Bool.eq_false_of_not_eq_true hm, empty_rect_iff.mpr rfl]; rfl

/-- The walk over the layers of a cell. -/
theorem Checked.walk_cellRect (hc : Checked screen rgz)
    (hq : (bandPieces screen rgz b)[s]? = some q) (hb : b.1 < b.2) :
    (walk (hregionOf screen rgz b).endsAt (drawn (hregionOf screen rgz b) s).reverse).map
        (List.map fun l => (hregionOf screen rgz b).rgz_layers[l]?) =
      (topLayers (hregionLayers rgz.cur_fb_state (cellRect b q))).map (List.map some) := by
  have hindices := walk_map (fun o : Option RgzLayer => o.bind fun l => endsOps l.hwc_layer)
    (fun l => (hregionOf screen rgz b).rgz_layers[l]?)
    (drawn (hregionOf screen rgz b) s).reverse
  have hlayers := walk_map (fun o : Option RgzLayer => o.bind fun l => endsOps l.hwc_layer)
    some (hregionLayers rgz.cur_fb_state (cellRect b q)).reverse
  rw [map_reverse, hc.drawn_cellRect hq hb, ← map_reverse, hlayers] at hindices
  exact hindices.symm

/-- A cell has operations exactly if a layer reaches it and no hint is seen. -/
theorem Checked.ops_iff (hc : Checked screen rgz) (hq : (bandPieces screen rgz b)[s]? = some q)
    (hb : b.1 < b.2) :
    (∃ n lix, get_layer_ops (hregionOf screen rgz b) s = .ok (n + 1, some lix)) ↔
      hregionLayers rgz.cur_fb_state (cellRect b q) ≠ [] ∧
        HintsHidden (hregionLayers rgz.cur_fb_state (cellRect b q)) := by
  have hwalk := hc.walk_cellRect hq hb
  rw [get_layer_ops_eq, ← topLayers_ne_none_iff]
  cases htop : topLayers (hregionLayers rgz.cur_fb_state (cellRect b q)) with
  | none =>
    rw [htop, Option.map_none, Option.map_eq_none_iff] at hwalk
    rw [hwalk]
    exact iff_of_false (fun ⟨_, _, h⟩ => by cases h) fun h => h.2 rfl
  | some vs =>
    rw [htop, Option.map_some] at hwalk
    obtain ⟨us, hus, huv⟩ := Option.map_eq_some_iff.mp hwalk
    rw [hus, ne_eq, ← topLayers_eq_nil_iff htop]
    cases us with
    | nil =>
      have hnil : vs = [] := map_eq_nil_iff.mp huv.symm
      exact iff_of_false (fun ⟨_, _, h⟩ => by cases h) fun h => h.1 hnil
    | cons u us =>
      refine iff_of_true ?_ ⟨fun hnil => ?_, Option.some_ne_none vs⟩
      · refine ⟨us.length, (u :: us).getLast (cons_ne_nil u us), ?_⟩
        rw [← length_cons, ← getLast?_eq_some_getLast]
      · rw [hnil] at huv
        cases huv

/-- The blits of a cell that has operations. -/
theorem Checked.subregionBlits_ok (params : OutParams) (hc : Checked screen rgz)
    (hq : (bandPieces screen rgz b)[s]? = some q) (hb : b.1 < b.2)
    (hne : hregionLayers rgz.cur_fb_state (cellRect b q) ≠ [])
    (hhidden : HintsHidden (hregionLayers rgz.cur_fb_state (cellRect b q))) :
    ∃ es, subregionBlits params (hregionOf screen rgz b) rgz.damaged_area s = .ok es ∧
      es.length = cellCount params rgz b q := by
  have hwalk := hc.walk_cellRect hq hb
  obtain ⟨vs, htop⟩ := Option.ne_none_iff_exists'.mp (topLayers_ne_none_iff.mpr hhidden)
  rw [htop, Option.map_some] at hwalk
  obtain ⟨us, hus, huv⟩ := Option.map_eq_some_iff.mp hwalk
  have hgen := subregionBlits_eq params hq hus huv
  cases hrev : us.reverse with
  | nil =>
    rw [reverse_eq_nil_iff.mp hrev, map_nil] at huv
    exact absurd ((topLayers_eq_nil_iff htop).mp (map_eq_nil_iff.mp huv.symm)) hne
  | cons lix rest =>
    obtain ⟨pre, hdrawn⟩ := drawn_eq_of_walk hus
    rw [hrev] at hdrawn hgen
    obtain ⟨-, hafter, -, -⟩ := of_drawn_eq hdrawn
    have hrect := blitrect_of_drawn hq (j := lix)
      (hdrawn ▸ mem_append_right pre mem_cons_self)
    have hmap : (lix :: opsAfter (hregionOf screen rgz b) s lix).map
        (fun l => (hregionOf screen rgz b).rgz_layers[l]?) = vs.reverse.map some := by
      rw [hafter, ← hrev, map_reverse, huv, map_reverse]
    have hdirty : subregionDirty (hregionOf screen rgz b) s lix rgz.damaged_area ↔ _ :=
      subregionDirty_iff hmap hrect
    dsimp only at hgen
    rw [hgen, cellCount, htop, Option.getD_some]
    by_cases hcell : rgz.damaged_area.meets (cellRect b q) = true ∨ ∃ l ∈ vs, l.dirty_count ≠ 0
    · rw [if_pos (hdirty.mpr hcell), if_pos hcell]
      exact ⟨_, rfl, length_cellBlits _ _ _⟩
    · rw [if_neg fun h => hcell (hdirty.mp h), if_neg hcell]
      exact ⟨[], rfl, rfl⟩

/-! ### The layers of a band -/

/-- On the screen the background reaches every band and every cell. -/
theorem Checked.background_reaches (hc : Checked screen rgz) (hwidth : 0 < screen.width)
    (hb : b.1 < b.2) (htop : 0 ≤ b.1) (hbottom : b.2 ≤ screen.height) :
    hregionLayers rgz.cur_fb_state (bandRect screen b) ≠ [] ∧
      ∀ q ∈ bandPieces screen rgz b, hregionLayers rgz.cur_fb_state (cellRect b q) ≠ [] := by
  obtain ⟨bg, hbg, hframe⟩ := hc.exists_background
  have hreach : ∀ rect : Rect, rect.top = b.1 → rect.bottom = b.2 → rect.left < screen.width →
      0 < rect.right → hregionLayers rgz.cur_fb_state rect ≠ [] := by
    intro rect h1 h2 h3 h4 hnil
    have hmem : bg ∈ hregionLayers rgz.cur_fb_state rect := by
      refine mem_filter.mpr ⟨hbg, Box.meets_iff.mpr ?_⟩
      rw [hframe, h1, h2]
      exact ⟨⟨htop.trans_lt hb, hb.trans_le hbottom⟩, h4, h3⟩
    rw [hnil] at hmem
    cases hmem
  refine ⟨hreach _ rfl rfl (Int.natCast_pos.mpr hwidth) (Int.natCast_pos.mpr hwidth),
    fun q hq => ?_⟩
  obtain ⟨hleft, hright⟩ := hc.bandPieces_bounds hq
  have hlt : q.1 < q.2 := subdivides_offsets.lt q hq
  exact hreach _ rfl rfl (hlt.trans_le hright) (hleft.trans_lt hlt)

/-- A band is covered exactly if a layer reaches it and one reaches each of its cells. -/
theorem Checked.bandCovered_iff (hc : Checked screen rgz) (hb : b ∈ pieces (yentries screen rgz)) :
    BandCovered screen rgz b ↔ hregionLayers rgz.cur_fb_state (bandRect screen b) ≠ [] ∧
      ∀ q ∈ bandPieces screen rgz b, hregionLayers rgz.cur_fb_state (cellRect b q) ≠ [] := by
  have hrect : hregionRect screen rgz b = bandRect screen b := hc.hregionRect_eq
  have hreach : ∀ {l : RgzLayer} {q : Int × Int}, q ∈ bandPieces screen rgz b →
      (l ∈ hregionLayers rgz.cur_fb_state (cellRect b q) ↔
        l ∈ hregionLayers rgz.cur_fb_state (bandRect screen b) ∧
          l.hwc_layer.displayFrame.left < q.2 ∧ q.1 < l.hwc_layer.displayFrame.right) := by
    intro l q hq
    have hlt := subdivides_yentries.lt b hb
    rw [← hc.hregionLayers_cell hq, hregionLayers, mem_filter, hrect]
    refine and_congr_right fun hl => ?_
    obtain ⟨-, hrows, -⟩ := hc.mem_hregionLayers.mp (hrect ▸ hl)
    rw [Box.meets_iff]
    exact ⟨fun h => h.2, fun h => ⟨hrows, h⟩⟩
  have hoffsets : bandOffsets screen rgz b = offsets screen rgz.damaged_area
      (hregionLayers rgz.cur_fb_state (hregionRect screen rgz b)) := by rw [bandOffsets, hrect]
  refine ⟨fun h => ⟨h.reached, fun q hq hnil => ?_⟩, fun h => ⟨h.1, fun v hv w hw x hvx hxw => ?_⟩⟩
  · obtain ⟨l, hl, hleft, hright⟩ := h.columns q.1
      (hoffsets ▸ subdivides_offsets.left_mem q hq) q.2
      (hoffsets ▸ subdivides_offsets.right_mem q hq) q.1 (le_refl _) (subdivides_offsets.lt q hq)
    have hmem := (hreach hq).mpr ⟨hl, hleft.trans_lt (subdivides_offsets.lt q hq), hright⟩
    rw [hnil] at hmem
    cases hmem
  · rw [hoffsets] at hv hw
    obtain ⟨q, hq, hle, hlt⟩ := subdivides_offsets.exists_mem hv hw hvx hxw
    obtain ⟨l, hl⟩ := exists_mem_of_ne_nil _ (h.2 q hq)
    obtain ⟨hband, hleft, hright⟩ := (hreach hq).mp hl
    obtain ⟨hq1, hq2⟩ := hc.bandPieces_bounds hq
    have hmem : l ∈ hregionLayers rgz.cur_fb_state (hregionRect screen rgz b) := hrect ▸ hband
    obtain ⟨hfirst, hlast⟩ := subdivides_offsets.covers hq hq1 hq2
      (mem_offsets.mpr (.inr ⟨l, hmem, .inl rfl⟩))
      (mem_offsets.mpr (.inr ⟨l, hmem, .inr rfl⟩)) hleft hright
    exact ⟨l, hband, hfirst.trans hle, hlt.trans_le hlast⟩

/-- Every band is on the screen or outside of it. -/
theorem Checked.band_cases (hc : Checked screen rgz) (hb : b ∈ pieces (yentries screen rgz)) :
    (0 ≤ b.1 ∧ b.2 ≤ screen.height) ∨ b.2 ≤ 0 ∨ screen.height ≤ b.1 := by
  have hzero := subdivides_yentries.le_left b hb 0 hc.zero_mem_yentries
  have hheight := subdivides_yentries.right_le hb hc.height_mem_yentries
  omega

end Cells

/-! ### All bands -/

section Frame

variable {params : OutParams} {rgz rgz' : Rgz} {layers : List InLayer} {b : Int × Int}

theorem map_range_getD {α β : Type} (f : α → β) (xs : List α) (d : α) :
    (List.range xs.length).map (fun s => f (xs.getD s d)) = xs.map f := by
  refine ext_getElem (by simp) fun s h _ => ?_
  rw [length_map, length_range] at h
  rw [getElem_map, getElem_map, getElem_range,
    getD_eq_getElem?_getD, getElem?_eq_getElem h, Option.getD_some]

/-- A band with layers, whose cells have layers that hide its hints. -/
def BandDrawn (screen : ScreenGeom) (rgz : Rgz) (b : Int × Int) : Prop :=
  hregionLayers rgz.cur_fb_state (bandRect screen b) ≠ [] ∧
    ∀ q ∈ bandPieces screen rgz b, hregionLayers rgz.cur_fb_state (cellRect b q) ≠ [] ∧
      HintsHidden (hregionLayers rgz.cur_fb_state (cellRect b q))

/-- The blits of a band whose cells all have operations. -/
theorem Checked.bandBlits_ok (hc : Checked params.screen rgz)
    (hb : b ∈ pieces (yentries params.screen rgz))
    (hband : BandDrawn params.screen rgz b) :
    ∃ es, bandBlits params rgz.damaged_area (hregionOf params.screen rgz b) = .ok es ∧
      es.length = ∑ q ∈ gaps (bandOffsets params.screen rgz b), cellCount params rgz b q := by
  have hlayers : (hregionOf params.screen rgz b).rgz_layers ≠ [] := by
    rw [hregionOf, rgz_gen_blitregions, hc.hregionRect_eq]
    exact hband.1
  rw [bandBlits, if_neg hlayers, nsubregions_hregionOf]
  obtain ⟨es, hes, hlen⟩ := gather_ok
    (fun s => subregionBlits params (hregionOf params.screen rgz b) rgz.damaged_area s)
    (fun s => cellCount params rgz b ((bandPieces params.screen rgz b).getD s (0, 0)))
    fun s (hs : s ∈ range (bandPieces params.screen rgz b).length) => by
      have hlt := mem_range.mp hs
      obtain ⟨hne, hhidden⟩ := hband.2 _ (getElem_mem hlt)
      rw [getD_eq_getElem?_getD, getElem?_eq_getElem hlt, Option.getD_some]
      exact hc.subregionBlits_ok params (getElem?_eq_getElem hlt)
        (subdivides_yentries.lt b hb) hne hhidden
  refine ⟨es, hes, ?_⟩
  have hoffsets : bandOffsets params.screen rgz b = offsets params.screen rgz.damaged_area
      (hregionLayers rgz.cur_fb_state (hregionRect params.screen rgz b)) := by
    rw [bandOffsets, bandRect, hc.hregionRect_eq]
  rw [hlen, map_range_getD, hoffsets, ← subdivides_offsets.sum_map]
  rfl

/-- The blits of a frame whose cells all have operations. -/
theorem Checked.frameBlits_ok (hc : Checked params.screen rgz)
    (hband : ∀ b ∈ pieces (yentries params.screen rgz), BandDrawn params.screen rgz b) :
    ∃ es, frameBlits params (rgz.withRegions params.screen) = .ok es ∧
      es.length = frameCount params rgz := by
  obtain ⟨es, hes, hlen⟩ := gather_ok
    (fun b => bandBlits params rgz.damaged_area (hregionOf params.screen rgz b))
    (fun b => ∑ q ∈ gaps (bandOffsets params.screen rgz b), cellCount params rgz b q)
    fun b (hb : b ∈ pieces (yentries params.screen rgz)) =>
      hc.bandBlits_ok hb (hband b hb)
  refine ⟨es, ?_, ?_⟩
  · rw [← hes]
    exact gather_map _ _ _
  · rw [hlen, subdivides_yentries.sum_map]
    rfl

/-- The regions of a frame are filled exactly if each band and each cell has layers, no hint is
seen, and the blits fit the pool. -/
theorem Checked.filled_iff (hc : Checked params.screen rgz) :
    Filled params (rgz.withRegions params.screen) ↔
      (∀ b ∈ pieces (yentries params.screen rgz), BandDrawn params.screen rgz b) ∧
        frameCount params rgz < RGZ_MAX_BLITS := by
  constructor
  · intro h
    have hband : ∀ b ∈ pieces (yentries params.screen rgz), BandDrawn params.screen rgz b := by
      intro b hb
      have hmem : hregionOf params.screen rgz b ∈ (rgz.withRegions params.screen).hregions :=
        mem_map_of_mem hb
      have hlayers := h.rgz_layers _ hmem
      rw [hregionOf, rgz_gen_blitregions, hc.hregionRect_eq] at hlayers
      refine ⟨hlayers, fun q hq => ?_⟩
      obtain ⟨s, hs⟩ := mem_iff_getElem?.mp hq
      have hlt : s < (hregionOf params.screen rgz b).nsubregions := by
        rw [nsubregions_hregionOf]
        exact (List.getElem?_eq_some_iff.mp hs).1
      exact (hc.ops_iff hs (subdivides_yentries.lt b hb)).mp (h.ops _ hmem s hlt)
    refine ⟨hband, ?_⟩
    obtain ⟨es, hes, hlen⟩ := hc.frameBlits_ok hband
    obtain ⟨R, hR⟩ := h.region
    rw [← hlen]
    by_contra hfull
    rw [hc.rgz_out_region_full hes (not_lt.mp hfull)] at hR
    cases hR
  · rintro ⟨hband, hroom⟩
    obtain ⟨es, hes, hlen⟩ := hc.frameBlits_ok hband
    have hcell : ∀ h ∈ (rgz.withRegions params.screen).hregions, ∀ s < h.nsubregions,
        ∃ b ∈ pieces (yentries params.screen rgz), ∃ q, h = hregionOf params.screen rgz b ∧
          (bandPieces params.screen rgz b)[s]? = some q := by
      intro h hh s hs
      obtain ⟨b, hb, rfl⟩ := mem_map.mp hh
      rw [nsubregions_hregionOf] at hs
      exact ⟨b, hb, _, rfl, getElem?_eq_getElem hs⟩
    constructor
    · intro h hh
      obtain ⟨b, hb, rfl⟩ := mem_map.mp hh
      rw [hregionOf, rgz_gen_blitregions, hc.hregionRect_eq]
      exact (hband b hb).1
    · intro h hh s hs
      obtain ⟨b, hb, q, rfl, hq⟩ := hcell h hh s hs
      exact (hc.ops_iff hq (subdivides_yentries.lt b hb)).mpr
        ((hband b hb).2 q (mem_of_getElem? hq))
    · intro h hh s hs blts
      obtain ⟨b, hb, q, rfl, hq⟩ := hcell h hh s hs
      obtain ⟨hne, hhidden⟩ := (hband b hb).2 q (mem_of_getElem? hq)
      obtain ⟨cell, hgen, -⟩ := hc.subregionBlits_ok params hq (subdivides_yentries.lt b hb) hne
        hhidden
      have happends : AppendsBlits (subregionBlits params _ _ s)
          (rgz_hwc_subregion_blit params _ _ s) := hc.appends_subregion_blit hq
      rw [hgen] at happends
      exact happends.ok blts
    · have happends := hc.appends_regions params
      rw [hes] at happends
      obtain ⟨blts, hblts, hblen, -⟩ := happends []
      dsimp only at hblts
      rw [rgz_out_region, regionBlts_withRegions, hblts]
      refine ⟨_, if_neg ?_⟩
      rw [length_nil] at hblen
      omega

/-- For an accepted layer list, `rgz_in_hwc` builds regions with layers and operations, and no
output of them fails, exactly if the frame is drawable. -/
theorem rgz_in_hwc_filled_iff (h : rgz_in_hwccheck params.screen layers rgz = some rgz') :
    (∃ r, rgz_in_hwc params.screen rgz' = some r ∧ Filled params r) ↔ Drawable params rgz' := by
  have hc := checked_of_rgz_in_hwccheck h
  have hmem : ∀ b, b ∈ bandGaps params.screen rgz' ↔ b ∈ pieces (yentries params.screen rgz') :=
    fun b => subdivides_yentries.mem_iff.symm
  constructor
  · rintro ⟨r, hr, hfilled⟩
    obtain ⟨-, hedges, rfl⟩ := rgz_in_hwc_eq_some.mp hr
    obtain ⟨hband, hroom⟩ := hc.filled_iff.mp hfilled
    refine ⟨hedges, fun b hb _ => ?_, fun b hb q hq => ?_, hroom⟩
    · rw [hmem] at hb
      exact (hc.bandCovered_iff hb).mpr ⟨(hband b hb).1, fun q hq => ((hband b hb).2 q hq).1⟩
    · rw [hmem] at hb
      exact ((hband b hb).2 q (hc.mem_bandPieces_iff.mpr hq)).2
  · intro hdraw
    refine ⟨_, rgz_in_hwc_eq_some.mpr ⟨hc.stateInit, hdraw.edges, rfl⟩, hc.filled_iff.mpr
      ⟨fun b hb => ?_, hdraw.blits⟩⟩
    have hreach : hregionLayers rgz'.cur_fb_state (bandRect params.screen b) ≠ [] ∧
        ∀ q ∈ bandPieces params.screen rgz' b,
          hregionLayers rgz'.cur_fb_state (cellRect b q) ≠ [] := by
      by_cases hout : b.2 ≤ 0 ∨ params.screen.height ≤ b.1 ∨ params.screen.width = 0
      · exact (hc.bandCovered_iff hb).mp (hdraw.covered b ((hmem b).mpr hb) hout)
      · push Not at hout
        obtain ⟨htop, hbottom⟩ | hoff := hc.band_cases hb
        · exact hc.background_reaches (Nat.pos_of_ne_zero hout.2.2)
            (subdivides_yentries.lt b hb) htop hbottom
        · omega
    exact ⟨hreach.1, fun q hq => ⟨hreach.2 q hq,
      hdraw.hidden b ((hmem b).mpr hb) q (hc.mem_bandPieces_iff.mp hq)⟩⟩

end Frame

/-- Two layers that overlap. -/
theorem rgz_in_hwc_filled_overlapping :
    ∃ rgz', rgz_in_hwccheck ⟨40, 40⟩ overlappingLayers Rgz.released = some rgz' ∧
      ∃ r, rgz_in_hwc ⟨40, 40⟩ rgz' = some r ∧ Filled sampleParams r := by
  have hframe : ∀ rgz' ∈ rgz_in_hwccheck ⟨40, 40⟩ overlappingLayers Rgz.released,
      (rgz'.cur_fb_state.length + 1) * 2 ≤ RGZ_SUBREGIONMAX ∧
        (∀ b ∈ bandGaps ⟨40, 40⟩ rgz', ¬ (b.2 ≤ 0 ∨ (40 : Int) ≤ b.1)) ∧
          (∀ l ∈ rgz'.cur_fb_state, endsOps l.hwc_layer ≠ none) ∧
            frameCount sampleParams rgz' < RGZ_MAX_BLITS := by
    decide +kernel
  obtain ⟨hedges, hon, hends, hblits⟩ := hframe _ rfl
  refine ⟨_, rfl, (@rgz_in_hwc_filled_iff sampleParams Rgz.released _ overlappingLayers
    rfl).mpr ⟨hedges, fun b hb hout => ?_, fun b _ q _ below l above heq hnone => ?_, hblits⟩⟩
  · exact absurd (hout.imp_right fun h => h.resolve_right (by decide)) (hon b hb)
  · have hmem : l ∈ below ++ l :: above := mem_append_right below mem_cons_self
    exact absurd hnone (hends l (mem_filter.mp (heq ▸ hmem)).1)

/-- A first band without layers makes the output fail. -/
theorem rgz_out_region_of_empty {params : OutParams} {screen : ScreenGeom} {rgz : Rgz}
    {b : Int × Int} (hb : (pieces (yentries screen rgz)).head? = some b)
    (hnil : (hregionOf screen rgz b).rgz_layers = []) :
    rgz_out_region params (rgz.withRegions screen) = .error .failed := by
  obtain ⟨rest, hrest⟩ := head?_eq_some_iff.mp hb
  have hband : ∀ blts, hregionBlts params rgz.damaged_area (hregionOf screen rgz b) blts =
      .error .failed := fun blts => if_pos hnil
  rw [rgz_out_region, regionBlts_withRegions, Rgz.withRegions, hrest, map_cons, foldlM_cons, hband]
  rfl

/-- A layer above the screen leaves a band between its bottom and the top of the screen, which no
layer reaches. -/
theorem layerAbove_not_filled :
    ∃ rgz' r, rgz_in_hwccheck ⟨40, 40⟩ [sampleLayer 1 100 10 10, sampleLayer 2 200 10 (-20)]
        Rgz.released = some rgz' ∧ rgz_in_hwc ⟨40, 40⟩ rgz' = some r ∧
      (∃ h ∈ r.hregions, h.rgz_layers = []) ∧ rgz_out_region sampleParams r = .error .failed ∧
        ¬ Filled sampleParams r := by
  have hframe : ∀ rgz' ∈ rgz_in_hwccheck ⟨40, 40⟩
      [sampleLayer 1 100 10 10, sampleLayer 2 200 10 (-20)] Rgz.released,
      (rgz'.stateInit ∧ (rgz'.cur_fb_state.length + 1) * 2 ≤ RGZ_SUBREGIONMAX) ∧
        (pieces (yentries ⟨40, 40⟩ rgz')).head? = some (-10, 0) ∧
          (hregionOf ⟨40, 40⟩ rgz' (-10, 0)).rgz_layers = [] := by
    decide +kernel
  obtain ⟨rgz', hrgz'⟩ : ∃ rgz', rgz_in_hwccheck ⟨40, 40⟩
      [sampleLayer 1 100 10 10, sampleLayer 2 200 10 (-20)] Rgz.released = some rgz' := ⟨_, rfl⟩
  obtain ⟨⟨hinit, hedges⟩, hb, hnil⟩ := hframe rgz' hrgz'
  have hmem : hregionOf ⟨40, 40⟩ rgz' (-10, 0) ∈ (rgz'.withRegions ⟨40, 40⟩).hregions :=
    mem_map_of_mem (mem_of_head? hb)
  exact ⟨rgz', _, hrgz', rgz_in_hwc_eq_some.mpr ⟨hinit, hedges, rfl⟩, ⟨_, hmem, hnil⟩,
    rgz_out_region_of_empty hb hnil, fun h => h.rgz_layers _ hmem hnil⟩

end OmapHal.Regionizer
