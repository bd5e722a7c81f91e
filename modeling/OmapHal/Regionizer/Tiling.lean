import OmapHal.Regionizer.Regions

/-!
# The cells tile the screen

A cell is a subregion of a horizontal region. Layers that lie wholly above or below
the screen still add an edge outside it, because only the far side of each edge is
clipped; `CellsOnScreen` says when the bands they make have no cell.
-/

namespace OmapHal.Regionizer

open OmapHal.Hwc OmapHal.Core List Option

variable {v : Int} {x : Int × Int}

/-- The rectangle of subregion `s` of horizontal region `i`. -/
def cell? (screen : ScreenGeom) (rgz : Rgz) (i s : Nat) : Option Rect :=
  (rgz.hregions[i]?).bind fun h =>
    (subregionRects screen rgz.damaged_area h.rect h.rgz_layers)[s]?

/-- Every index that the construction of the regions uses is inside its array. -/
structure IndicesInBounds (rgz : Rgz) : Prop where
  yentries : 2 * (rgz.cur_fb_state.length + 1) ≤ RGZ_SUBREGIONMAX
  hregions : rgz.hregions.length ≤ RGZ_SUBREGIONMAX
  rgz_layers : ∀ h ∈ rgz.hregions, h.rgz_layers.length ≤ RGZ_MAXLAYERS
  offsets : ∀ h ∈ rgz.hregions, 2 * (h.rgz_layers.length + 1) ≤ RGZ_SUBREGIONMAX
  subregions : ∀ h ∈ rgz.hregions, h.nsubregions ≤ RGZ_SUBREGIONMAX

/-- The regions tile the screen, no cell is covered in part, and each cell records the
layers that cover it. -/
structure Tiling (screen : ScreenGeom) (rgz : Rgz) : Prop where
  /-- Every pixel is in exactly one cell. -/
  unique_cell : ∀ p ∈ screen.rect, ∃! c : Nat × Nat,
    ∃ r, cell? screen rgz c.1 c.2 = some r ∧ p ∈ r
  on_screen : ∀ i s r, cell? screen rgz i s = some r → r.Within screen.rect
  /-- A layer that reaches a cell covers it. -/
  whole : ∀ i s r, cell? screen rgz i s = some r → ∀ l ∈ rgz.cur_fb_state,
    ∀ p ∈ r, p ∈ l.hwc_layer.displayFrame → r.Within l.hwc_layer.displayFrame
  /-- The layers that cover a cell are among those of its band. -/
  listed : ∀ i s r h, rgz.hregions[i]? = some h → cell? screen rgz i s = some r →
    ∀ l ∈ rgz.cur_fb_state, r.Within l.hwc_layer.displayFrame → l ∈ h.rgz_layers
  /-- The stored rectangle is non-empty for exactly the layers that cover the cell. -/
  blitrect_iff : ∀ i s r h, rgz.hregions[i]? = some h → cell? screen rgz i s = some r →
    ∀ j l, h.rgz_layers[j]? = some l →
      (empty_rect (h.blitrect j s) = false ↔ r.Within l.hwc_layer.displayFrame)
  bounds : IndicesInBounds rgz

/-- The frame reaches into a band that a layer wholly above the screen makes. -/
def ReachesAbove (cur : FbState) (f : Rect) : Prop :=
  f.top < 0 ∧ f.top < f.bottom ∧
    ∃ l ∈ cur, l.hwc_layer.displayFrame.bottom < 0 ∧ l.hwc_layer.displayFrame.bottom < f.bottom

/-- The frame reaches into a band that a layer wholly below the screen makes. -/
def ReachesBelow (screen : ScreenGeom) (cur : FbState) (f : Rect) : Prop :=
  screen.height < f.bottom ∧ f.top < f.bottom ∧
    ∃ l ∈ cur, screen.height < l.hwc_layer.displayFrame.top ∧
      f.top < l.hwc_layer.displayFrame.top

/-- No layer is wholly above or below the screen; or the damaged area and the layers
in the bands that such layers make have no width on the screen. -/
def CellsOnScreen (screen : ScreenGeom) (cur : FbState) (damaged_area : Rect) : Prop :=
  (∀ l ∈ cur, 0 ≤ l.hwc_layer.displayFrame.bottom ∧
    l.hwc_layer.displayFrame.top ≤ screen.height) ∨
  damaged_area.left = damaged_area.right ∧
    ∀ l ∈ cur, ReachesAbove cur l.hwc_layer.displayFrame ∨
        ReachesBelow screen cur l.hwc_layer.displayFrame →
      l.hwc_layer.displayFrame.left < screen.width → 0 < l.hwc_layer.displayFrame.right →
      max 0 l.hwc_layer.displayFrame.left = damaged_area.left ∧
        min l.hwc_layer.displayFrame.right screen.width = damaged_area.left

section Bands

variable {screen : ScreenGeom} {rgz : Rgz} {p : Int × Int} {l : RgzLayer}

/-- `dispw` is not left of any layer. -/
theorem right_le_dispw (hl : l ∈ rgz.cur_fb_state) :
    l.hwc_layer.displayFrame.right ≤ dispw rgz := by
  have hfold : ∀ (ls : FbState) (w : Int),
      w ≤ ls.foldl (fun w l => max w l.hwc_layer.displayFrame.right) w ∧
        ∀ l ∈ ls, l.hwc_layer.displayFrame.right ≤
          ls.foldl (fun w l => max w l.hwc_layer.displayFrame.right) w := by
    intro ls
    induction ls with
    | nil => exact fun w => ⟨le_refl w, fun l hl => by cases hl⟩
    | cons l' ls ih =>
      intro w
      obtain ⟨hw, hls⟩ := ih (max w l'.hwc_layer.displayFrame.right)
      refine ⟨(le_max_left _ _).trans hw, fun l hl => ?_⟩
      rcases mem_cons.mp hl with rfl | hl
      · exact (le_max_right _ _).trans hw
      · exact hls l hl
  exact (hfold rgz.cur_fb_state rgz.damaged_area.right).2 l hl

variable (hc : Checked screen rgz)

include hc

/-- The background, which covers the screen. -/
theorem Checked.exists_background :
    ∃ b ∈ rgz.cur_fb_state, b.hwc_layer.displayFrame = screen.rect := by
  obtain ⟨b, ls, hcur, hb⟩ := hc.background
  exact ⟨b, hcur ▸ mem_cons_self, by rw [hb]; rfl⟩

/-- Every band reaches from the left to the right edge of the screen. -/
theorem Checked.hregionRect_eq : hregionRect screen rgz p = ⟨0, p.1, screen.width, p.2⟩ := by
  obtain ⟨b, hb, hbf⟩ := hc.exists_background
  have hle := right_le_dispw hb
  rw [hbf] at hle
  dsimp only [ScreenGeom.rect] at hle
  rw [hregionRect]
  split
  · rfl
  · rw [show dispw rgz = screen.width by omega]

/-- The layers of a band. -/
theorem Checked.mem_hregionLayers :
    l ∈ hregionLayers rgz.cur_fb_state (hregionRect screen rgz p) ↔
      l ∈ rgz.cur_fb_state ∧
        (l.hwc_layer.displayFrame.top < p.2 ∧ p.1 < l.hwc_layer.displayFrame.bottom) ∧
          l.hwc_layer.displayFrame.left < screen.width ∧ 0 < l.hwc_layer.displayFrame.right := by
  rw [hregionLayers, mem_filter, hc.hregionRect_eq, Box.meets_iff]

/-- The top of the screen is a y entry. -/
theorem Checked.zero_mem_yentries : 0 ∈ yentries screen rgz := by
  obtain ⟨b, hb, hbf⟩ := hc.exists_background
  rw [mem_yentries]
  exact .inr ⟨b, hb, .inl (by rw [hbf]; rfl)⟩

/-- The bottom of the screen is a y entry. -/
theorem Checked.height_mem_yentries : (screen.height : Int) ∈ yentries screen rgz := by
  obtain ⟨b, hb, hbf⟩ := hc.exists_background
  rw [mem_yentries]
  exact .inr ⟨b, hb, .inr (by rw [hbf]; exact (min_self _).symm)⟩

/-- A y entry above the screen is the bottom of a layer. -/
theorem Checked.bottom_of_mem_yentries (hv : v ∈ yentries screen rgz) (hneg : v < 0) :
    ∃ l ∈ rgz.cur_fb_state, l.hwc_layer.displayFrame.bottom = v := by
  rcases mem_yentries.mp hv with (rfl | rfl) | ⟨l, hl, rfl | rfl⟩
  · exact absurd hc.damage.top.1 (by omega)
  · exact absurd hc.damage.bottom.1 (by omega)
  · omega
  · exact ⟨l, hl, by omega⟩

/-- A y entry below the screen is the top of a layer. -/
theorem Checked.top_of_mem_yentries (hv : v ∈ yentries screen rgz) (hlt : screen.height < v) :
    ∃ l ∈ rgz.cur_fb_state, l.hwc_layer.displayFrame.top = v := by
  rcases mem_yentries.mp hv with (rfl | rfl) | ⟨l, hl, rfl | rfl⟩
  · exact absurd hc.damage.top.2 (by omega)
  · exact absurd hc.damage.bottom.2 (by omega)
  · exact ⟨l, hl, by omega⟩
  · omega

/-- The offsets of a band are on the screen. -/
theorem Checked.offset_bounds (hv : v ∈ offsets screen rgz.damaged_area
      (hregionLayers rgz.cur_fb_state (hregionRect screen rgz p))) :
    0 ≤ v ∧ v ≤ screen.width := by
  rcases mem_offsets.mp hv with (rfl | rfl) | ⟨l, hl, hv⟩
  · exact hc.damage.left
  · exact hc.damage.right
  · obtain ⟨-, -, hleft, hright⟩ := hc.mem_hregionLayers.mp hl
    rcases hv with rfl | rfl <;> omega

end Bands

section Cells

variable {screen : ScreenGeom} {rgz : Rgz} {p q : Int × Int} {l : RgzLayer} {r : Rect} {i s : Nat}

/-- The pieces of a band. -/
def bandPieces (screen : ScreenGeom) (rgz : Rgz) (p : Int × Int) : List (Int × Int) :=
  pieces (offsets screen rgz.damaged_area
    (hregionLayers rgz.cur_fb_state (hregionRect screen rgz p)))

/-- A cell is a piece of a band. -/
theorem cell?_withRegions :
    cell? screen (rgz.withRegions screen) i s = some r ↔
      ∃ p q, (pieces (yentries screen rgz))[i]? = some p ∧
        (bandPieces screen rgz p)[s]? = some q ∧ r = ⟨q.1, p.1, q.2, p.2⟩ := by
  simp only [cell?, Rgz.withRegions, getElem?_map, bind_eq_some_iff,
    map_eq_some_iff, hregionOf, rgz_gen_blitregions, subregionRects, hregionRect, bandPieces]
  constructor
  · rintro ⟨h, ⟨p, hp, rfl⟩, q, hq, rfl⟩
    exact ⟨p, q, hp, hq, rfl⟩
  · rintro ⟨p, q, hp, hq, rfl⟩
    exact ⟨_, ⟨p, hp, rfl⟩, q, hq, rfl⟩

theorem mem_cell :
    x ∈ (⟨q.1, p.1, q.2, p.2⟩ : Rect) ↔
      (q.1 ≤ x.1 ∧ x.1 < q.2) ∧ p.1 ≤ x.2 ∧ x.2 < p.2 := Iff.rfl

/-- The corner of a cell is in it. -/
theorem corner_mem (hp : p ∈ pieces (yentries screen rgz)) (hq : q ∈ bandPieces screen rgz p) :
    (q.1, p.1) ∈ (⟨q.1, p.1, q.2, p.2⟩ : Rect) :=
  mem_cell.mpr ⟨⟨le_refl _, subdivides_offsets.lt q hq⟩, le_refl _, subdivides_yentries.lt p hp⟩

/-- The pieces of a band lie between the left and right edges of the screen. -/
theorem Checked.bandPieces_bounds (hc : Checked screen rgz) (hq : q ∈ bandPieces screen rgz p) :
    0 ≤ q.1 ∧ q.2 ≤ screen.width :=
  ⟨(hc.offset_bounds (subdivides_offsets.left_mem q hq)).1,
    (hc.offset_bounds (subdivides_offsets.right_mem q hq)).2⟩

/-- A cell that a layer meets in a band on the screen is covered by it, and the layer
is one of the band's. -/
theorem Checked.within_of_meets (hc : Checked screen rgz) (hp : p ∈ pieces (yentries screen rgz))
    (hq : q ∈ bandPieces screen rgz p) (htop : 0 ≤ p.1) (hbottom : p.2 ≤ screen.height)
    (hl : l ∈ rgz.cur_fb_state)
    (hm : (⟨q.1, p.1, q.2, p.2⟩ : Rect).meets l.hwc_layer.displayFrame) :
    l ∈ hregionLayers rgz.cur_fb_state (hregionRect screen rgz p) ∧
      (⟨q.1, p.1, q.2, p.2⟩ : Rect).Within l.hwc_layer.displayFrame := by
  obtain ⟨⟨h1, h2⟩, h3, h4⟩ := Box.meets_iff.mp hm
  obtain ⟨hq1, hq2⟩ := hc.bandPieces_bounds hq
  have hmem : l ∈ hregionLayers rgz.cur_fb_state (hregionRect screen rgz p) :=
    hc.mem_hregionLayers.mpr ⟨hl, ⟨h1, h2⟩, h3.trans_le hq2, hq1.trans_lt h4⟩
  obtain ⟨ht, hb⟩ := subdivides_yentries.covers hp htop hbottom
    (mem_yentries.mpr (.inr ⟨l, hl, .inl rfl⟩))
    (mem_yentries.mpr (.inr ⟨l, hl, .inr rfl⟩)) h1 h2
  obtain ⟨hle, hr⟩ := subdivides_offsets.covers hq hq1 hq2
    (mem_offsets.mpr (.inr ⟨l, hmem, .inl rfl⟩))
    (mem_offsets.mpr (.inr ⟨l, hmem, .inr rfl⟩)) h3 h4
  refine ⟨hmem, fun x hx => ?_⟩
  obtain ⟨⟨hx1, hx2⟩, hx3, hx4⟩ := mem_cell.mp hx
  exact ⟨⟨hle.trans hx1, hx2.trans_le hr⟩, ht.trans hx3, hx4.trans_le hb⟩

/-- Every pixel is in a cell. -/
theorem Checked.exists_cell (hc : Checked screen rgz) (hx : x ∈ screen.rect) :
    ∃ i s r, cell? screen (rgz.withRegions screen) i s = some r ∧ x ∈ r := by
  obtain ⟨⟨hx1, hx2⟩, hx3, hx4⟩ := hx
  dsimp only [ScreenGeom.rect] at hx1 hx2 hx3 hx4
  obtain ⟨i, p, hp, hp1, hp2⟩ := subdivides_yentries.exists_piece _ hc.zero_mem_yentries _
    hc.height_mem_yentries x.2 hx3 hx4
  obtain ⟨b, hb, hbf⟩ := hc.exists_background
  have hmem : b ∈ hregionLayers rgz.cur_fb_state (hregionRect screen rgz p) := by
    rw [hc.mem_hregionLayers, hbf]
    dsimp only [ScreenGeom.rect]
    exact ⟨hb, ⟨hx3.trans_lt hp2, hp1.trans_lt hx4⟩, hx1.trans_lt hx2, hx1.trans_lt hx2⟩
  have h0 : 0 ∈ offsets screen rgz.damaged_area
      (hregionLayers rgz.cur_fb_state (hregionRect screen rgz p)) :=
    mem_offsets.mpr (.inr ⟨b, hmem, .inl (by rw [hbf]; rfl)⟩)
  have hw : (screen.width : Int) ∈ offsets screen rgz.damaged_area
      (hregionLayers rgz.cur_fb_state (hregionRect screen rgz p)) :=
    mem_offsets.mpr (.inr ⟨b, hmem, .inr (by rw [hbf]; exact (min_self _).symm)⟩)
  obtain ⟨s, q, hq, hq1, hq2⟩ := subdivides_offsets.exists_piece _ h0 _ hw x.1 hx1 hx2
  exact ⟨i, s, ⟨q.1, p.1, q.2, p.2⟩, cell?_withRegions.mpr ⟨p, q, hp, hq, rfl⟩,
    mem_cell.mpr ⟨⟨hq1, hq2⟩, hp1, hp2⟩⟩

/-- No pixel is in two cells. -/
theorem cell_unique {i' s' : Nat} {r' : Rect}
    (h : cell? screen (rgz.withRegions screen) i s = some r)
    (h' : cell? screen (rgz.withRegions screen) i' s' = some r') (hx : x ∈ r) (hx' : x ∈ r') :
    i = i' ∧ s = s' := by
  obtain ⟨p, q, hp, hq, rfl⟩ := cell?_withRegions.mp h
  obtain ⟨p', q', hp', hq', rfl⟩ := cell?_withRegions.mp h'
  obtain ⟨hx1, hx2⟩ := mem_cell.mp hx
  obtain ⟨hx1', hx2'⟩ := mem_cell.mp hx'
  obtain rfl := subdivides_yentries.index_unique hp hp' hx2 hx2'
  obtain rfl := some.inj (hp.symm.trans hp')
  exact ⟨rfl, subdivides_offsets.index_unique hq hq' hx1 hx1'⟩

end Cells

section OnScreen

variable {screen : ScreenGeom} {rgz : Rgz} {p q : Int × Int}

/-- A frame that shares a row with a band, and a column with the screen, makes the
band's layers. Where the band has no cell, its damage and its layers have no width. -/
theorem Checked.collapsed (hc : Checked screen rgz) {l : RgzLayer} (hl : l ∈ rgz.cur_fb_state)
    (hnil : bandPieces screen rgz p = [])
    (hm : l.hwc_layer.displayFrame.top < p.2 ∧ p.1 < l.hwc_layer.displayFrame.bottom)
    (hleft : l.hwc_layer.displayFrame.left < screen.width)
    (hright : 0 < l.hwc_layer.displayFrame.right) :
    max 0 l.hwc_layer.displayFrame.left = rgz.damaged_area.left ∧
      min l.hwc_layer.displayFrame.right screen.width = rgz.damaged_area.left := by
  have hall := subdivides_offsets.eq_nil_iff.mp hnil
  have hmem := hc.mem_hregionLayers.mpr ⟨hl, hm, hleft, hright⟩
  have hd : rgz.damaged_area.left ∈ offsets screen rgz.damaged_area
      (hregionLayers rgz.cur_fb_state (hregionRect screen rgz p)) :=
    mem_offsets.mpr (.inl (.inl rfl))
  exact ⟨hall _ (mem_offsets.mpr (.inr ⟨l, hmem, .inl rfl⟩)) _ hd,
    hall _ (mem_offsets.mpr (.inr ⟨l, hmem, .inr rfl⟩)) _ hd⟩

/-- A band outside the screen has no cell when its damage and its layers have no width. -/
theorem Checked.bandPieces_eq_nil (hc : Checked screen rgz)
    (hd : rgz.damaged_area.left = rgz.damaged_area.right) (hls : ∀ l ∈ rgz.cur_fb_state,
      l.hwc_layer.displayFrame.top < p.2 → p.1 < l.hwc_layer.displayFrame.bottom →
      l.hwc_layer.displayFrame.left < screen.width → 0 < l.hwc_layer.displayFrame.right →
      max 0 l.hwc_layer.displayFrame.left = rgz.damaged_area.left ∧
        min l.hwc_layer.displayFrame.right screen.width = rgz.damaged_area.left) :
    bandPieces screen rgz p = [] := by
  have hall : ∀ v ∈ offsets screen rgz.damaged_area
      (hregionLayers rgz.cur_fb_state (hregionRect screen rgz p)), v = rgz.damaged_area.left := by
    intro v hv
    rcases mem_offsets.mp hv with (rfl | rfl) | ⟨l, hl, hv⟩
    · rfl
    · exact hd.symm
    · obtain ⟨hmem, ⟨h1, h2⟩, h3, h4⟩ := hc.mem_hregionLayers.mp hl
      obtain ⟨hmax, hmin⟩ := hls l hmem h1 h2 h3 h4
      rcases hv with rfl | rfl
      · exact hmax
      · exact hmin
  exact subdivides_offsets.eq_nil_iff.mpr fun v hv w hw => (hall v hv).trans (hall w hw).symm

/-- All cells are on the screen exactly under `CellsOnScreen`. -/
theorem Checked.cellsOnScreen_iff (hc : Checked screen rgz) :
    (∀ p ∈ pieces (yentries screen rgz), ∀ q ∈ bandPieces screen rgz p,
      0 ≤ p.1 ∧ p.2 ≤ screen.height) ↔
      CellsOnScreen screen rgz.cur_fb_state rgz.damaged_area := by
  constructor
  · intro h
    by_cases hno : ∀ l ∈ rgz.cur_fb_state, 0 ≤ l.hwc_layer.displayFrame.bottom ∧
        l.hwc_layer.displayFrame.top ≤ screen.height
    · exact .inl hno
    right
    -- a row outside the screen but between two entries lies in a band without cells
    have hband : ∀ v ∈ yentries screen rgz, ∀ w ∈ yentries screen rgz, ∀ x, v ≤ x → x < w →
        x < 0 ∨ screen.height ≤ x → ∃ p : Int × Int,
          (p.1 ≤ x ∧ x < p.2) ∧ bandPieces screen rgz p = [] := by
      intro v hv w hw x hvx hxw hx
      obtain ⟨p, hp, hpx⟩ := subdivides_yentries.exists_mem hv hw hvx hxw
      refine ⟨p, hpx, eq_nil_iff_forall_not_mem.mpr fun q hq => ?_⟩
      have hon := h p hp q hq
      omega
    have habove : ∀ l ∈ rgz.cur_fb_state, l.hwc_layer.displayFrame.bottom < 0 →
        l.hwc_layer.displayFrame.bottom ∈ yentries screen rgz := fun l hl hneg =>
      mem_yentries.mpr (.inr ⟨l, hl, .inr (by omega)⟩)
    have hbelow : ∀ l ∈ rgz.cur_fb_state, screen.height < l.hwc_layer.displayFrame.top →
        l.hwc_layer.displayFrame.top ∈ yentries screen rgz := fun l hl hgt =>
      mem_yentries.mpr (.inr ⟨l, hl, .inl (by omega)⟩)
    constructor
    · have hnil : ∃ p, bandPieces screen rgz p = [] := by
        push Not at hno
        obtain ⟨l, hl, hout⟩ := hno
        by_cases hneg : l.hwc_layer.displayFrame.bottom < 0
        · obtain ⟨p, -, hp⟩ := hband _ (habove l hl hneg) _ hc.zero_mem_yentries _ (le_refl _) hneg
            (.inl hneg)
          exact ⟨p, hp⟩
        · have hgt := hout (by omega)
          obtain ⟨p, -, hp⟩ := hband _ hc.height_mem_yentries _ (hbelow l hl hgt) _ (le_refl _) hgt
            (.inr (le_refl _))
          exact ⟨p, hp⟩
      obtain ⟨p, hp⟩ := hnil
      exact subdivides_offsets.eq_nil_iff.mp hp _ (mem_offsets.mpr (.inl (.inl rfl))) _
        (mem_offsets.mpr (.inl (.inr rfl)))
    · intro l hl hreach hleft hright
      rcases hreach with ⟨h1, h2, l', hl', h3, h4⟩ | ⟨h1, h2, l', hl', h3, h4⟩
      · obtain ⟨p, hpx, hp⟩ := hband _ (habove l' hl' h3) _ hc.zero_mem_yentries
          (max l'.hwc_layer.displayFrame.bottom l.hwc_layer.displayFrame.top)
          (le_max_left _ _) (max_lt h3 h1) (.inl (max_lt h3 h1))
        exact hc.collapsed hl hp ⟨by omega, by omega⟩ hleft hright
      · obtain ⟨p, hpx, hp⟩ := hband _ hc.height_mem_yentries _ (hbelow l' hl' h3)
          (max (screen.height : Int) l.hwc_layer.displayFrame.top)
          (le_max_left _ _) (max_lt h3 h4) (.inr (le_max_left _ _))
        exact hc.collapsed hl hp ⟨by omega, by omega⟩ hleft hright
  · rintro h p hp q hq
    have hlt := subdivides_yentries.lt p hp
    have hzero := subdivides_yentries.le_left p hp 0 hc.zero_mem_yentries
    have hheight := subdivides_yentries.right_le hp hc.height_mem_yentries
    by_contra hout
    have hoff : p.1 < 0 ∨ screen.height < p.2 := by omega
    rcases h with h | ⟨hd, h⟩
    · rcases hoff with hneg | hgt
      · obtain ⟨l, hl, hlb⟩ := hc.bottom_of_mem_yentries (subdivides_yentries.left_mem p hp) hneg
        have := (h l hl).1
        omega
      · obtain ⟨l, hl, hlt⟩ := hc.top_of_mem_yentries (subdivides_yentries.right_mem p hp) hgt
        have := (h l hl).2
        omega
    · have hnil : bandPieces screen rgz p = [] := by
        apply hc.bandPieces_eq_nil hd
        intro l hl h1 h2 h3 h4
        refine h l hl ?_ h3 h4
        rcases hoff with hneg | hgt
        · obtain ⟨l', hl', hlb⟩ :=
            hc.bottom_of_mem_yentries (subdivides_yentries.left_mem p hp) hneg
          have hend : l.hwc_layer.displayFrame.bottom < 0 →
              p.2 ≤ l.hwc_layer.displayFrame.bottom := fun hb =>
            subdivides_yentries.right_le hp
              (mem_yentries.mpr (.inr ⟨l, hl, .inr (by omega)⟩)) h2
          exact .inl ⟨by omega, by omega, l', hl', by omega, by omega⟩
        · obtain ⟨l', hl', hlt⟩ :=
            hc.top_of_mem_yentries (subdivides_yentries.right_mem p hp) hgt
          have hstart : screen.height < l.hwc_layer.displayFrame.top →
              l.hwc_layer.displayFrame.top ≤ p.1 := fun ht =>
            subdivides_yentries.le_left p hp _
              (mem_yentries.mpr (.inr ⟨l, hl, .inl (by omega)⟩)) h1
          exact .inr ⟨by omega, by omega, l', hl', by omega, by omega⟩
      rw [hnil] at hq
      cases hq

end OnScreen

section Exact

variable {screen : ScreenGeom} {rgz rgz' : Rgz} {layers : List InLayer}

/-- The guard of `rgz_in_hwc` keeps every index inside its array. -/
theorem indicesInBounds_withRegions (hn : (rgz.cur_fb_state.length + 1) * 2 ≤ RGZ_SUBREGIONMAX) :
    IndicesInBounds (rgz.withRegions screen) := by
  have hmax : RGZ_SUBREGIONMAX = 2 * RGZ_MAXLAYERS - 1 := rfl
  have hmem : ∀ h ∈ (rgz.withRegions screen).hregions, ∃ p, h = hregionOf screen rgz p := by
    intro h hh
    obtain ⟨p, -, rfl⟩ := mem_map.mp hh
    exact ⟨p, rfl⟩
  have hlen : ∀ p, (hregionLayers rgz.cur_fb_state (hregionRect screen rgz p)).length ≤
      rgz.cur_fb_state.length := fun p => length_filter_le _ _
  constructor
  · dsimp only [Rgz.withRegions]
    omega
  · have hy := length_pieces_lt (show 0 < (yentries screen rgz).length by
      rw [length_yentries]; omega)
    rw [length_yentries] at hy
    rw [Rgz.withRegions, length_map]
    omega
  · intro h hh
    obtain ⟨p, rfl⟩ := hmem h hh
    have := hlen p
    dsimp only [hregionOf, rgz_gen_blitregions]
    omega
  · intro h hh
    obtain ⟨p, rfl⟩ := hmem h hh
    have := hlen p
    dsimp only [hregionOf, rgz_gen_blitregions]
    omega
  · intro h hh
    obtain ⟨p, rfl⟩ := hmem h hh
    have := hlen p
    have ho := length_pieces_lt (show 0 < (offsets screen rgz.damaged_area
      (hregionLayers rgz.cur_fb_state (hregionRect screen rgz p))).length by
        rw [length_offsets]; omega)
    rw [length_offsets] at ho
    dsimp only [hregionOf, rgz_gen_blitregions, subregionRects]
    rw [length_map]
    omega

/-- With the indices inside the arrays and the cells on the screen, the cells tile it. -/
theorem Checked.tiling (hc : Checked screen rgz)
    (hn : (rgz.cur_fb_state.length + 1) * 2 ≤ RGZ_SUBREGIONMAX)
    (hon : CellsOnScreen screen rgz.cur_fb_state rgz.damaged_area) :
    Tiling screen (rgz.withRegions screen) := by
  have hband := hc.cellsOnScreen_iff.mpr hon
  constructor
  · intro x hx
    obtain ⟨i, s, r, hr, hxr⟩ := hc.exists_cell hx
    refine ⟨(i, s), ⟨r, hr, hxr⟩, ?_⟩
    rintro ⟨i', s'⟩ ⟨r', hr', hxr'⟩
    obtain ⟨rfl, rfl⟩ := cell_unique hr' hr hxr' hxr
    rfl
  · intro i s r hr x hx
    obtain ⟨p, q, hp, hq, rfl⟩ := cell?_withRegions.mp hr
    obtain ⟨hp1, hp2⟩ := hband p (mem_of_getElem? hp) q (mem_of_getElem? hq)
    obtain ⟨hq1, hq2⟩ := hc.bandPieces_bounds (mem_of_getElem? hq)
    obtain ⟨⟨hx1, hx2⟩, hx3, hx4⟩ := mem_cell.mp hx
    exact ⟨⟨hq1.trans hx1, hx2.trans_le hq2⟩, hp1.trans hx3, hx4.trans_le hp2⟩
  · intro i s r hr l hl x hx hxl
    obtain ⟨p, q, hp, hq, rfl⟩ := cell?_withRegions.mp hr
    obtain ⟨hp1, hp2⟩ := hband p (mem_of_getElem? hp) q (mem_of_getElem? hq)
    exact (hc.within_of_meets (mem_of_getElem? hp) (mem_of_getElem? hq) hp1 hp2 hl
      (Box.meets_of_mem hx hxl)).2
  · intro i s r h hh hr l hl hw
    obtain ⟨p, q, hp, hq, rfl⟩ := cell?_withRegions.mp hr
    rw [Rgz.withRegions, getElem?_map, hp, map_some, some.injEq] at hh
    subst hh
    have hcorner := corner_mem (mem_of_getElem? hp) (mem_of_getElem? hq)
    obtain ⟨hp1, hp2⟩ := hband p (mem_of_getElem? hp) q (mem_of_getElem? hq)
    exact (hc.within_of_meets (mem_of_getElem? hp) (mem_of_getElem? hq) hp1 hp2 hl
      (Box.meets_of_mem hcorner (hw _ hcorner))).1
  · intro i s r h hh hr j l hl
    obtain ⟨p, q, hp, hq, rfl⟩ := cell?_withRegions.mp hr
    rw [Rgz.withRegions, getElem?_map, hp, map_some, some.injEq] at hh
    subst hh
    have hcorner := corner_mem (mem_of_getElem? hp) (mem_of_getElem? hq)
    have hcell : (subregionRects screen rgz.damaged_area (hregionRect screen rgz p)
        (hregionLayers rgz.cur_fb_state (hregionRect screen rgz p)))[s]? =
          some ⟨q.1, p.1, q.2, p.2⟩ := by
      rw [subregionRects, getElem?_map]
      exact congrArg (Option.map _) hq
    have hne : (⟨q.1, p.1, q.2, p.2⟩ : Rect) ≠ zeroRect := by
      intro h0
      rw [h0] at hcorner
      exact absurd (hcorner.1.1.trans_lt hcorner.1.2) (lt_irrefl _)
    have hmem : l ∈ rgz.cur_fb_state := (mem_filter.mp (mem_of_getElem? hl)).1
    obtain ⟨hp1, hp2⟩ := hband p (mem_of_getElem? hp) q (mem_of_getElem? hq)
    have hrect : (hregionOf screen rgz p).blitrect j s = _ := blitrect_rgz_gen_blitregions hl hcell
    rw [hrect]
    constructor
    · intro hempty
      by_cases hm : (⟨q.1, p.1, q.2, p.2⟩ : Rect).meets l.hwc_layer.displayFrame
      · exact (hc.within_of_meets (mem_of_getElem? hp) (mem_of_getElem? hq) hp1 hp2 hmem hm).2
      · rw [if_neg hm, empty_rect_iff.mpr rfl] at hempty
        cases hempty
    · intro hw
      rw [if_pos (Box.meets_of_mem hcorner (hw _ hcorner))]
      exact Bool.eq_false_iff.mpr fun h0 => hne (empty_rect_iff.mp h0)
  · exact indicesInBounds_withRegions hn

/-- For every accepted layer list, `rgz_in_hwc` succeeds and tiles the screen exactly
when the edges fit the arrays and the layers outside the screen make no cell. -/
theorem rgz_in_hwc_tiling_iff (h : rgz_in_hwccheck screen layers rgz = some rgz') :
    (∃ r, rgz_in_hwc screen rgz' = some r ∧ Tiling screen r) ↔
      (rgz'.cur_fb_state.length + 1) * 2 ≤ RGZ_SUBREGIONMAX ∧
        CellsOnScreen screen rgz'.cur_fb_state rgz'.damaged_area := by
  have hc := checked_of_rgz_in_hwccheck h
  constructor
  · rintro ⟨r, hr, ht⟩
    obtain ⟨-, hn, rfl⟩ := rgz_in_hwc_eq_some.mp hr
    refine ⟨hn, hc.cellsOnScreen_iff.mp fun p hp q hq => ?_⟩
    obtain ⟨i, hi⟩ := mem_iff_getElem?.mp hp
    obtain ⟨s, hs⟩ := mem_iff_getElem?.mp hq
    have hw := ht.on_screen i s _ (cell?_withRegions.mpr ⟨p, q, hi, hs, rfl⟩)
    have hlt := subdivides_yentries.lt p hp
    have hfirst := hw _ (corner_mem hp hq)
    have hlast := hw (q.1, p.2 - 1)
      (mem_cell.mpr ⟨⟨le_refl _, subdivides_offsets.lt q hq⟩, by dsimp only; omega⟩)
    obtain ⟨-, htop, -⟩ := hfirst
    obtain ⟨-, -, hbottom⟩ := hlast
    dsimp only [ScreenGeom.rect] at htop hbottom
    exact ⟨htop, by omega⟩
  · rintro ⟨hn, hon⟩
    exact ⟨_, rgz_in_hwc_eq_some.mpr ⟨hc.stateInit, hn, rfl⟩, hc.tiling hn hon⟩

/-- One layer in the middle of a small screen is tiled. -/
theorem rgz_in_hwc_tiling_iff_sample :
    ∃ rgz', rgz_in_hwccheck ⟨40, 40⟩ [sampleLayer 1 100 10 10] Rgz.released = some rgz' ∧
      ∃ r, rgz_in_hwc ⟨40, 40⟩ rgz' = some r ∧ Tiling ⟨40, 40⟩ r := by
  refine ⟨_, rfl, ?_⟩
  exact (@rgz_in_hwc_tiling_iff ⟨40, 40⟩ Rgz.released _ [sampleLayer 1 100 10 10] rfl).mpr
    ⟨by decide, .inl (by decide)⟩

/-- A layer above the screen gives a cell above the screen. -/
theorem layerAbove_not_tiled :
    ∃ rgz', rgz_in_hwccheck ⟨40, 40⟩ [sampleLayer 1 100 10 10, sampleLayer 2 200 10 (-20)]
        Rgz.released = some rgz' ∧
      ¬ ∃ r, rgz_in_hwc ⟨40, 40⟩ rgz' = some r ∧ Tiling ⟨40, 40⟩ r := by
  refine ⟨_, rfl, ?_⟩
  rintro ⟨r, hr, ht⟩
  obtain ⟨-, -, rfl⟩ := rgz_in_hwc_eq_some.mp hr
  have hcell := ht.on_screen 0 0 ⟨0, -10, 40, 0⟩ (by decide +kernel) (0, -10) (by decide)
  exact absurd hcell (by decide)

end Exact

end OmapHal.Regionizer
