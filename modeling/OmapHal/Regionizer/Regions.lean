import OmapHal.Regionizer.Dirty
import OmapHal.Regionizer.Sort

/-!
# Horizontal regions and subregions

`rgz_in_hwc` cuts the screen into bands at the top and bottom edges of the layers and
of the damaged area, and `rgz_gen_blitregions` cuts each band at the left and right
edges of the layers in it. The loop variable `subregion` of the latter, which is a
cell of the tiling, is kept in `subregionRects`.
-/

namespace OmapHal.Regionizer

open OmapHal.Hwc OmapHal.Core List

/-- An `int` array with these first entries. -/
def arrayOf (entries : List Int) (k : Nat) : Int := entries.getD k 0

/-- The pieces between neighbouring entries after `rgz_bsort` and `rgz_bunique`. -/
def pieces (entries : List Int) : List (Int × Int) :=
  let a := rgz_bunique (rgz_bsort (arrayOf entries) entries.length) entries.length
  (List.range (a.2 - 1)).map fun i => (a.1 i, a.1 (i + 1))

/-- The entries that each layer adds to `yentries`. -/
def yEdges (screen : ScreenGeom) (l : RgzLayer) : List Int :=
  [max 0 l.hwc_layer.displayFrame.top, min l.hwc_layer.displayFrame.bottom screen.height]

/-- The entries that each layer adds to `offsets`. -/
def xEdges (screen : ScreenGeom) (l : RgzLayer) : List Int :=
  [max 0 l.hwc_layer.displayFrame.left, min l.hwc_layer.displayFrame.right screen.width]

/-- `yentries` as `rgz_in_hwc` fills it. -/
def yentries (screen : ScreenGeom) (rgz : Rgz) : List Int :=
  rgz.damaged_area.top :: rgz.damaged_area.bottom :: rgz.cur_fb_state.flatMap (yEdges screen)

/-- `offsets` as `rgz_gen_blitregions` fills it. -/
def offsets (screen : ScreenGeom) (damaged_area : Rect) (rgz_layers : List RgzLayer) : List Int :=
  damaged_area.left :: damaged_area.right :: rgz_layers.flatMap (xEdges screen)

/-- `dispw`, the widest layer. -/
def dispw (rgz : Rgz) : Int :=
  rgz.cur_fb_state.foldl (fun w l => max w l.hwc_layer.displayFrame.right) rgz.damaged_area.right

/-- The values of `subregion` in a band. -/
def subregionRects (screen : ScreenGeom) (damaged_area rect : Rect)
    (rgz_layers : List RgzLayer) : List Rect :=
  (pieces (offsets screen damaged_area rgz_layers)).map fun p => ⟨p.1, rect.top, p.2, rect.bottom⟩

/-- `rgz_gen_blitregions` for a band with its layers. -/
def rgz_gen_blitregions (screen : ScreenGeom) (damaged_area rect : Rect)
    (rgz_layers : List RgzLayer) : BlitHregion where
  rect := rect
  rgz_layers := rgz_layers
  nsubregions := (subregionRects screen damaged_area rect rgz_layers).length
  blitrects := rgz_layers.map fun l =>
    (subregionRects screen damaged_area rect rgz_layers).map fun subregion =>
      if subregion.meets l.hwc_layer.displayFrame then subregion else zeroRect

/-- `hregions[i].rect` between two neighbouring y entries. -/
def hregionRect (screen : ScreenGeom) (rgz : Rgz) (p : Int × Int) : Rect :=
  ⟨0, p.1, if dispw rgz > screen.width then screen.width else dispw rgz, p.2⟩

/-- `hregions[i].rgz_layers`. -/
def hregionLayers (cur_fb_state : FbState) (rect : Rect) : List RgzLayer :=
  cur_fb_state.filter fun l => rect.meets l.hwc_layer.displayFrame

/-- The horizontal region between two neighbouring y entries. -/
def hregionOf (screen : ScreenGeom) (rgz : Rgz) (p : Int × Int) : BlitHregion :=
  rgz_gen_blitregions screen rgz.damaged_area (hregionRect screen rgz p)
    (hregionLayers rgz.cur_fb_state (hregionRect screen rgz p))

/-- The state with its horizontal regions. -/
def Rgz.withRegions (screen : ScreenGeom) (rgz : Rgz) : Rgz :=
  { rgz with
    hregions := (pieces (yentries screen rgz)).map (hregionOf screen rgz)
    regionData := true }

/-- `rgz_in_hwc`; `none` stands for the result `-1`. -/
def rgz_in_hwc (screen : ScreenGeom) (rgz : Rgz) : Option Rgz :=
  if !rgz.stateInit then none
  else if (rgz.cur_fb_state.length + 1) * 2 > RGZ_SUBREGIONMAX then none
  else some (rgz.withRegions screen)

/-- `blitrects[l][s]`, zero where nothing was stored. -/
def BlitHregion.blitrect (h : BlitHregion) (l s : Nat) : Rect :=
  (h.blitrects.getD l []).getD s zeroRect

section Pieces

variable {entries : List Int}

theorem arrayOf_of_lt {k : Nat} (hk : k < entries.length) : arrayOf entries k = entries[k] := by
  rw [arrayOf, getD_eq_getElem?_getD, getElem?_eq_getElem hk, Option.getD_some]

theorem image_arrayOf (entries : List Int) :
    Set.image (arrayOf entries) (Set.Iio entries.length) = {v | v ∈ entries} := by
  ext v
  constructor
  · rintro ⟨k, hk, rfl⟩
    rw [Set.mem_Iio] at hk
    rw [Set.mem_ofPred_eq, arrayOf_of_lt hk]
    exact getElem_mem hk
  · intro hv
    obtain ⟨k, hk, rfl⟩ := mem_iff_getElem.mp hv
    exact ⟨k, Set.mem_Iio.mpr hk, arrayOf_of_lt hk⟩

/-- The pieces subdivide the entries. -/
theorem subdivides_pieces (h : 0 < entries.length) :
    Subdivides {v | v ∈ entries} (pieces entries) := by
  obtain ⟨-, -, hmono, himage⟩ := rgz_bunique_rgz_bsort (arrayOf entries) h
  rw [← image_arrayOf entries, ← himage]
  exact subdivides_of_strictMonoOn hmono

/-- There are fewer pieces than entries. -/
theorem length_pieces_lt (h : 0 < entries.length) : (pieces entries).length < entries.length := by
  obtain ⟨h1, h2, -, -⟩ := rgz_bunique_rgz_bsort (arrayOf entries) h
  rw [pieces, length_map, length_range]
  omega

end Pieces

section Entries

variable {screen : ScreenGeom} {rgz : Rgz} {damaged_area : Rect} {ls : List RgzLayer} {v : Int}

theorem length_flatMap_edges (f : RgzLayer → List Int) (hf : ∀ l, (f l).length = 2) :
    (ls.flatMap f).length = 2 * ls.length := by
  induction ls with
  | nil => rfl
  | cons l ls ih =>
    rw [flatMap_cons, length_append, ih, hf, length_cons]
    omega

theorem length_yentries : (yentries screen rgz).length = 2 * (rgz.cur_fb_state.length + 1) := by
  rw [yentries, length_cons, length_cons, length_flatMap_edges _ fun _ => rfl]
  omega

theorem length_offsets :
    (offsets screen damaged_area ls).length = 2 * (ls.length + 1) := by
  rw [offsets, length_cons, length_cons, length_flatMap_edges _ fun _ => rfl]
  omega

theorem mem_yentries :
    v ∈ yentries screen rgz ↔
      (v = rgz.damaged_area.top ∨ v = rgz.damaged_area.bottom) ∨
        ∃ l ∈ rgz.cur_fb_state, v = max 0 l.hwc_layer.displayFrame.top ∨
          v = min l.hwc_layer.displayFrame.bottom screen.height := by
  simp only [yentries, yEdges, mem_cons, mem_flatMap, not_mem_nil, or_false, or_assoc]

theorem mem_offsets :
    v ∈ offsets screen damaged_area ls ↔
      (v = damaged_area.left ∨ v = damaged_area.right) ∨
        ∃ l ∈ ls, v = max 0 l.hwc_layer.displayFrame.left ∨
          v = min l.hwc_layer.displayFrame.right screen.width := by
  simp only [offsets, xEdges, mem_cons, mem_flatMap, not_mem_nil, or_false, or_assoc]

/-- The y entries, cut into bands. -/
theorem subdivides_yentries :
    Subdivides {v | v ∈ yentries screen rgz} (pieces (yentries screen rgz)) :=
  subdivides_pieces (by rw [length_yentries]; omega)

/-- The offsets of a band, cut into subregions. -/
theorem subdivides_offsets :
    Subdivides {v | v ∈ offsets screen damaged_area ls} (pieces (offsets screen damaged_area ls)) :=
  subdivides_pieces (by rw [length_offsets]; omega)

end Entries

section Success

variable {screen : ScreenGeom} {rgz rgz' : Rgz}

/-- What a successful `rgz_in_hwc` does. -/
theorem rgz_in_hwc_eq_some :
    rgz_in_hwc screen rgz = some rgz' ↔
      rgz.stateInit ∧ (rgz.cur_fb_state.length + 1) * 2 ≤ RGZ_SUBREGIONMAX ∧
        rgz' = rgz.withRegions screen := by
  rw [rgz_in_hwc]
  cases hi : rgz.stateInit with
  | false =>
    rw [Bool.not_false, if_pos rfl]
    simp only [reduceCtorEq, Bool.false_eq_true, false_and]
  | true =>
    rw [Bool.not_true, if_neg Bool.false_ne_true]
    by_cases hn : (rgz.cur_fb_state.length + 1) * 2 > RGZ_SUBREGIONMAX
    · rw [if_pos hn]
      simp only [reduceCtorEq, not_le.mpr hn, false_and, and_false]
    · rw [if_neg hn, Option.some.injEq]
      simp only [not_lt.mp hn, true_and]
      exact eq_comm

end Success

section Blitrects

variable {screen : ScreenGeom} {damaged_area rect cell : Rect} {ls : List RgzLayer} {l s : Nat}
  {layer : RgzLayer}

/-- The stored rectangle of a layer in a cell. -/
theorem blitrect_rgz_gen_blitregions (hl : ls[l]? = some layer)
    (hs : (subregionRects screen damaged_area rect ls)[s]? = some cell) :
    (rgz_gen_blitregions screen damaged_area rect ls).blitrect l s =
      if cell.meets layer.hwc_layer.displayFrame then cell else zeroRect := by
  simp only [BlitHregion.blitrect, rgz_gen_blitregions, getD_eq_getElem?_getD,
    getElem?_map, hl, hs, Option.map_some, Option.getD_some]

end Blitrects

end OmapHal.Regionizer
