import OmapHal.Regionizer.Drawing
import OmapHal.Regionizer.RegionBlits

/-!
# What the regions leave on the screen

Where every layer is dirty, `rgz_out_region` writes every cell. Cells behind the one of a
pixel do not reach it: what its own cell leaves there stays, and that is the value of the
layers that are visible at the pixel.
-/

namespace OmapHal.Regionizer

open OmapHal.Hwc OmapHal.Core List Option

section Cells

variable {V : Type} {M : Blender V} {params : OutParams} {screen : ScreenGeom} {rgz : Rgz}
  {b q p : Int × Int} {l : RgzLayer} {s : Nat} {us : List Nat} {vs : List RgzLayer}

/-- The blits of a dirty cell draw the layers that the walk sees, and where it sees none
the regions fail. -/
theorem Checked.addsBlits_cell (hc : Checked params.screen rgz)
    (hdirty : ∀ l ∈ rgz.cur_fb_state, l.dirty_count ≠ 0)
    (hq : (bandPieces params.screen rgz b)[s]? = some q)
    (hus : walk (hregionOf params.screen rgz b).endsAt
      (drawn (hregionOf params.screen rgz b) s).reverse = some us)
    (hvs : us.map (fun l => (hregionOf params.screen rgz b).rgz_layers[l]?) = vs.map some)
    (hp : ∀ y ∈ vs, p ∈ (⟨q.1, b.1, q.2, b.2⟩ : Rect) → p ∈ params.screen.rect →
      p ∈ y.hwc_layer.displayFrame) :
    AddsBlits (Draws M params.screen ⟨q.1, b.1, q.2, b.2⟩ p
      (fun _ => cellValue M params ⟨q.1, b.1, q.2, b.2⟩ p vs.reverse))
      (rgz_hwc_subregion_blit params (hregionOf params.screen rgz b) rgz.damaged_area s) := by
  have hgen := subregionBlits_eq params hq hus hvs
  refine (hc.appends_subregion_blit hq).emits (fun stop hstop => ?_) fun es hes => ?_
  · rw [hgen] at hstop
    split at hstop
    · exact (Except.error.inj hstop).symm
    · split at hstop <;> cases hstop
  · rw [hgen] at hes
    split at hes
    · cases hes
    · next lix rest hrev =>
      have hlix : lix ∈ us := mem_reverse.mp (hrev ▸ mem_cons_self)
      obtain ⟨x, -, hx⟩ := mem_map.mp (hvs ▸ mem_map_of_mem hlix :
        (hregionOf params.screen rgz b).rgz_layers[lix]? ∈ vs.map some)
      have hlayer := hdirty x (mem_filter.mp (mem_of_getElem? hx.symm)).1
      have hsub : subregionDirty (hregionOf params.screen rgz b) s lix rgz.damaged_area := by
        rw [subregionDirty, any_cons, BlitHregion.dirtyAt, ← hx, any_some,
          bne_iff_ne.mpr hlayer, Bool.true_or, Bool.or_true]
      rw [if_pos hsub] at hes
      rw [← Except.ok.inj hes]
      exact draws_cellBlits_buffersOf fun y hy => hp y (mem_reverse.mp hy)

/-- What the walk of a cell sees is visible at its pixels on the screen. -/
theorem Checked.visibleAt_cell (hc : Checked screen rgz) (hb : b ∈ pieces (yentries screen rgz))
    (hq : (bandPieces screen rgz b)[s]? = some q)
    (hus : walk (hregionOf screen rgz b).endsAt (drawn (hregionOf screen rgz b) s).reverse =
      some us)
    (hvs : us.map (fun l => (hregionOf screen rgz b).rgz_layers[l]?) = vs.map some)
    (hp : p ∈ (⟨q.1, b.1, q.2, b.2⟩ : Rect)) (hps : p ∈ screen.rect) :
    visibleAt rgz.cur_fb_state p = some vs := by
  have hwalk := hc.walk_cell hb hq hp hps
  rw [hus, map_some, hvs] at hwalk
  obtain ⟨vs', hvs', heq⟩ := map_eq_some_iff.mp hwalk.symm
  rw [hvs', map_injective_iff.mpr (some_injective _) heq]

/-- The blits of a dirty cell, if none of its layers is read through a dummy handle. -/
theorem Checked.addsBlits_subregion_blit (hc : Checked params.screen rgz)
    (hdirty : ∀ l ∈ rgz.cur_fb_state, l.dirty_count ≠ 0)
    (hb : b ∈ pieces (yentries params.screen rgz))
    (hq : (bandPieces params.screen rgz b)[s]? = some q)
    (hops : get_layer_ops (hregionOf params.screen rgz b) s ≠ .error .fault) (p : Int × Int) :
    ∃ vs, (p ∈ (⟨q.1, b.1, q.2, b.2⟩ : Rect) → p ∈ params.screen.rect →
        visibleAt rgz.cur_fb_state p = some vs) ∧
      AddsBlits (Draws M params.screen ⟨q.1, b.1, q.2, b.2⟩ p
        (fun _ => cellValue M params ⟨q.1, b.1, q.2, b.2⟩ p vs.reverse))
        (rgz_hwc_subregion_blit params (hregionOf params.screen rgz b) rgz.damaged_area s) := by
  rw [get_layer_ops_eq] at hops
  cases hus : walk (hregionOf params.screen rgz b).endsAt
      (drawn (hregionOf params.screen rgz b) s).reverse with
  | none =>
    rw [hus] at hops
    exact absurd rfl hops
  | some us =>
    obtain ⟨vs, hvs⟩ : ∃ vs : List RgzLayer,
        us.map (fun l => (hregionOf params.screen rgz b).rgz_layers[l]?) = vs.map some := by
      refine exists_map_some fun l hl => ⟨_, getElem?_eq_getElem (?_ : l < _)⟩
      have hmem := mem_reverse.mp ((prefix_of_walk hus).subset hl)
      exact mem_range.mp (mem_filter.mp hmem).1
    refine ⟨vs, hc.visibleAt_cell hb hq hus hvs, hc.addsBlits_cell hdirty hq hus hvs ?_⟩
    intro y hy hp hps
    exact (mem_stackAt.mp (mem_stackAt_of_visibleAt (hc.visibleAt_cell hb hq hus hvs hp hps) hy)).2

end Cells

section Regions

variable {V : Type} {M : Blender V} {params : OutParams} {rgz : Rgz} {b p : Int × Int} {c : Rect}
  {i s : Nat} {v : V} {R : BvCommands}

/-- No subregion reads a format through the dummy handle of a layer with the clear hint. -/
def ReadsNoDummy (rgz : Rgz) : Prop :=
  ∀ h ∈ rgz.hregions, ∀ s < h.nsubregions, get_layer_ops h s ≠ .error .fault

/-- Whatever the framebuffer held, the blits leave this value at the pixel. -/
def Leaves (M : Blender V) (p : Int × Int) (v : V) (es : Blts) : Prop :=
  ∀ fb, run M es fb p = v

/-- What stands before does not matter, what follows misses the pixel. -/
theorem Leaves.of_middle {before mid after : Blts} (h : Leaves M p v mid)
    (hafter : ∀ e ∈ after, ∀ fb, execute M e fb p = fb p) :
    Leaves M p v (before ++ mid ++ after) := by
  intro fb
  rw [run_append, run_append, run_of_misses hafter]
  exact h _

/-- Cells are not before the band of an earlier one, and not before its columns. -/
theorem not_mem_clipRect {screen : ScreenGeom} {r : Rect}
    (h : p.1 < r.left ∨ p.2 < r.top) : p ∉ clipRect screen r := by
  rintro ⟨⟨h1, -⟩, h3, -⟩
  dsimp only [clipRect] at h1 h3
  omega

/-- A band whose subregions add blits of one kind adds blits of that kind. -/
theorem addsBlits_hregionBlts {hregion : BlitHregion} {damaged_area : Rect} {Q : BltEntry → Prop}
    (h : ∀ s < hregion.nsubregions, AddsBlits (fun es => ∀ e ∈ es, Q e)
      (rgz_hwc_subregion_blit params hregion damaged_area s)) :
    AddsBlits (fun es => ∀ e ∈ es, Q e) (hregionBlts params damaged_area hregion) := by
  by_cases hnil : hregion.rgz_layers = []
  · have hprog : hregionBlts params damaged_area hregion = fun _ => .error .failed := by
      funext blts
      exact if_pos hnil
    rw [hprog]
    exact Emits.error rfl
  · have hprog : hregionBlts params damaged_area hregion = fun blts =>
        (range hregion.nsubregions).foldlM
          (fun blts s => rgz_hwc_subregion_blit params hregion damaged_area s blts) blts := by
      funext blts
      exact if_neg hnil
    rw [hprog]
    exact Emits.foldlM fun s hs => h s (mem_range.mp hs)

/-- The regions of a checked frame, behind `regionBlts`. -/
theorem regionBlts_withRegions {screen : ScreenGeom} :
    regionBlts params (rgz.withRegions screen) =
      (rgz.withRegions screen).hregions.foldlM
        (fun blts h => hregionBlts params rgz.damaged_area h blts) [] :=
  rfl

/-- A sequence of regions reads nothing through a dummy handle. -/
theorem readsNoDummy_of_rgz_out_region (hR : rgz_out_region params rgz = .ok R) :
    ReadsNoDummy rgz := by
  intro h hh s hs hfault
  rw [rgz_out_region] at hR
  cases hblts : regionBlts params rgz with
  | error stop =>
    rw [hblts] at hR
    cases hR
  | ok blts =>
    rw [regionBlts] at hblts
    split at hblts
    · cases hblts
    · obtain ⟨blts₁, blts₂, hband⟩ := foldlM_ok hblts hh
      rw [hregionBlts] at hband
      split at hband
      · cases hband
      · obtain ⟨blts₃, blts₄, hcell⟩ := foldlM_ok hband (mem_range.mpr hs)
        rw [rgz_hwc_subregion_blit, hfault] at hcell
        cases hcell

variable (hc : Checked params.screen rgz) (hdirty : ∀ l ∈ rgz.cur_fb_state, l.dirty_count ≠ 0)

include hc hdirty

/-- The cells of a band leave the pixels above it alone. -/
theorem Checked.misses_hregionBlts (hb : b ∈ pieces (yentries params.screen rgz))
    (hops : ∀ s < (hregionOf params.screen rgz b).nsubregions,
      get_layer_ops (hregionOf params.screen rgz b) s ≠ .error .fault) (h : p.2 < b.1) :
    AddsBlits (fun es => ∀ e ∈ es, ∀ fb, execute M e fb p = fb p)
      (hregionBlts params rgz.damaged_area (hregionOf params.screen rgz b)) := by
  refine addsBlits_hregionBlts fun s hs => ?_
  have hlt := hs
  rw [nsubregions_hregionOf] at hlt
  obtain ⟨vs, -, hadds⟩ := hc.addsBlits_subregion_blit (M := M) hdirty hb
    (getElem?_eq_getElem hlt) (hops s hs) p
  exact hadds.mono fun es hes e he fb =>
    hes.misses e he p (not_mem_clipRect (Or.inr h)) fb

/-- A band leaves at its pixels the value of what is visible there. -/
theorem Checked.leaves_hregionBlts {q : Int × Int} (hb : b ∈ pieces (yentries params.screen rgz))
    (hq : (bandPieces params.screen rgz b)[s]? = some q)
    (hops : ∀ s < (hregionOf params.screen rgz b).nsubregions,
      get_layer_ops (hregionOf params.screen rgz b) s ≠ .error .fault)
    (hp : p ∈ (⟨q.1, b.1, q.2, b.2⟩ : Rect)) (hps : p ∈ params.screen.rect) :
    ∃ vs, visibleAt rgz.cur_fb_state p = some vs ∧
      AddsBlits (Leaves M p (cellValue M params ⟨q.1, b.1, q.2, b.2⟩ p vs.reverse))
        (hregionBlts params rgz.damaged_area (hregionOf params.screen rgz b)) := by
  have hs : s < (hregionOf params.screen rgz b).nsubregions := by
    rw [nsubregions_hregionOf]
    exact (List.getElem?_eq_some_iff.mp hq).1
  obtain ⟨vs, hvs, hadds⟩ := hc.addsBlits_subregion_blit (M := M) hdirty hb hq (hops s hs) p
  refine ⟨vs, hvs hp hps, ?_⟩
  by_cases hnil : (hregionOf params.screen rgz b).rgz_layers = []
  · have hprog : hregionBlts params rgz.damaged_area (hregionOf params.screen rgz b) =
        fun _ => .error .failed := by
      funext blts
      exact if_pos hnil
    rw [hprog]
    exact Emits.error rfl
  · have hprog : hregionBlts params rgz.damaged_area (hregionOf params.screen rgz b) = fun blts =>
        (range (hregionOf params.screen rgz b).nsubregions).foldlM (fun blts s =>
          rgz_hwc_subregion_blit params (hregionOf params.screen rgz b) rgz.damaged_area s blts)
          blts := by
      funext blts
      exact if_neg hnil
    have hget : ∀ j, j < (hregionOf params.screen rgz b).nsubregions →
        ∃ q', (bandPieces params.screen rgz b)[j]? = some q' := by
      intro j hj
      rw [nsubregions_hregionOf] at hj
      exact ⟨_, getElem?_eq_getElem hj⟩
    rw [hprog]
    refine (Emits.foldlM_at (R := fun e => ∀ fb, execute M e fb p = fb p)
      (getElem?_range hs) hadds (fun j hj => ?_) fun j k hj hk => ?_).mono fun es hes => ?_
    · rw [mem_range] at hj
      obtain ⟨q', hq'⟩ := hget j hj
      obtain ⟨_, _, hany⟩ := hc.addsBlits_subregion_blit (M := M) hdirty hb hq' (hops j hj) p
      exact hany.mono fun _ _ => trivial
    · obtain ⟨hlt, rfl⟩ := List.getElem?_eq_some_iff.mp hk
      rw [length_range] at hlt
      rw [getElem_range]
      obtain ⟨q', hq'⟩ := hget j hlt
      obtain ⟨_, _, hlater⟩ := hc.addsBlits_subregion_blit (M := M) hdirty hb hq' (hops j hlt) p
      -- a later cell of the band is to the right
      have hright : q.2 ≤ q'.1 := subdivides_offsets.ordered s j q q' hj hq hq'
      exact hlater.mono fun es hes e he fb =>
        hes.misses e he p (not_mem_clipRect (Or.inl (hp.1.2.trans_le hright))) fb
    · obtain ⟨before, mid, after, rfl, hmid, hafter⟩ := hes
      exact Leaves.of_middle (fun fb => hmid.run hp hps fb) hafter

/-- The regions leave at every pixel the value of what is visible there. -/
theorem Checked.leaves_regions (hnd : ReadsNoDummy (rgz.withRegions params.screen))
    (hcell : cell? params.screen (rgz.withRegions params.screen) i s = some c) (hp : p ∈ c)
    (hps : p ∈ params.screen.rect) :
    ∃ vs, visibleAt rgz.cur_fb_state p = some vs ∧
      AddsBlits (Leaves M p (cellValue M params c p vs.reverse)) fun blts =>
        (rgz.withRegions params.screen).hregions.foldlM
          (fun blts h => hregionBlts params rgz.damaged_area h blts) blts := by
  obtain ⟨b, q, hb, hq, rfl⟩ := cell?_withRegions.mp hcell
  have hband : ∀ (j : Nat) (h : BlitHregion),
    (rgz.withRegions params.screen).hregions[j]? = some h →
      ∃ b' : Int × Int, (pieces (yentries params.screen rgz))[j]? = some b' ∧
        h = hregionOf params.screen rgz b' := by
    intro j h hj
    simp only [Rgz.withRegions, getElem?_map, map_eq_some_iff] at hj
    obtain ⟨b', hb', rfl⟩ := hj
    exact ⟨b', hb', rfl⟩
  have hmem : ∀ b', b' ∈ pieces (yentries params.screen rgz) →
      ∀ s < (hregionOf params.screen rgz b').nsubregions,
        get_layer_ops (hregionOf params.screen rgz b') s ≠ .error .fault := fun b' hb' =>
    hnd _ (mem_map_of_mem hb')
  obtain ⟨vs, hvs, hadds⟩ := hc.leaves_hregionBlts (M := M) hdirty (mem_of_getElem? hb) hq
    (hmem b (mem_of_getElem? hb)) hp hps
  refine ⟨vs, hvs, ?_⟩
  have hi : (rgz.withRegions params.screen).hregions[i]? = some
    (hregionOf params.screen rgz b) := by
    simp only [Rgz.withRegions, getElem?_map, hb, map_some]
  refine (Emits.foldlM_at (R := fun e => ∀ fb, execute M e fb p = fb p) hi hadds
    (fun h hh => ?_) fun j h hj hh => ?_).mono fun es hes => ?_
  · obtain ⟨j, hj⟩ := getElem?_of_mem hh
    obtain ⟨b', hb', rfl⟩ := hband j h hj
    refine (addsBlits_hregionBlts (Q := fun _ => True) fun s' hs' => ?_).mono fun _ _ => trivial
    have hlt := hs'
    rw [nsubregions_hregionOf] at hlt
    obtain ⟨_, _, hany⟩ := hc.addsBlits_subregion_blit (M := M) hdirty (mem_of_getElem? hb')
      (getElem?_eq_getElem hlt) (hmem b' (mem_of_getElem? hb') s' hs') p
    exact hany.mono fun _ _ _ _ => trivial
  · obtain ⟨b', hb', rfl⟩ := hband j h hh
    -- a later band is further down
    have hdown : b.2 ≤ b'.1 := subdivides_yentries.ordered i j b b' hj hb hb'
    exact hc.misses_hregionBlts hdirty (mem_of_getElem? hb')
      (hmem b' (mem_of_getElem? hb')) (hp.2.2.trans_le hdown)
  · obtain ⟨before, mid, after, rfl, hmid, hafter⟩ := hes
    exact Leaves.of_middle hmid hafter

/-- Without reads through a dummy handle the regions fail only by the result `-1`. -/
theorem Checked.rgz_out_region_ne_fault (hnd : ReadsNoDummy (rgz.withRegions params.screen)) :
    rgz_out_region params (rgz.withRegions params.screen) ≠ .error .fault := by
  have hadds : AddsBlits (fun es => ∀ e ∈ es, True) fun blts =>
      (rgz.withRegions params.screen).hregions.foldlM
        (fun blts h => hregionBlts params rgz.damaged_area h blts) blts := by
    refine Emits.foldlM fun h hh => ?_
    obtain ⟨b, hb, rfl⟩ := mem_map.mp hh
    refine addsBlits_hregionBlts fun s hs => ?_
    have hlt := hs
    rw [nsubregions_hregionOf] at hlt
    obtain ⟨_, _, hany⟩ := hc.addsBlits_subregion_blit (M := Blender.trivial) hdirty hb
      (getElem?_eq_getElem hlt) (hnd _ hh s hs) (0, 0)
    exact hany.mono fun _ _ _ _ => trivial
  rw [rgz_out_region, regionBlts_withRegions]
  cases hblts : (rgz.withRegions params.screen).hregions.foldlM
      (fun blts h => hregionBlts params rgz.damaged_area h blts) [] with
  | error stop =>
    rw [(hadds []).1 stop hblts]
    exact fun h => by cases h
  | ok blts =>
    dsimp only [bind, Except.bind]
    rw [finishBlts]
    split
    · exact fun h => by cases h
    · exact fun h => by cases h

/-- A sequence of regions leaves at every pixel the value of what is visible there. -/
theorem Checked.run_rgz_out_region (hnd : ReadsNoDummy (rgz.withRegions params.screen))
    (hR : rgz_out_region params (rgz.withRegions params.screen) = .ok R)
    (hcell : cell? params.screen (rgz.withRegions params.screen) i s = some c) (hp : p ∈ c)
    (hps : p ∈ params.screen.rect) :
    ∃ vs, visibleAt rgz.cur_fb_state p = some vs ∧
      ∀ fb : Int × Int → V, run M R.cmdp fb p = cellValue M params c p vs.reverse := by
  obtain ⟨vs, hvs, hadds⟩ := hc.leaves_regions (M := M) hdirty hnd hcell hp hps
  refine ⟨vs, hvs, ?_⟩
  rw [rgz_out_region, regionBlts_withRegions] at hR
  cases hblts : (rgz.withRegions params.screen).hregions.foldlM
      (fun blts h => hregionBlts params rgz.damaged_area h blts) [] with
  | error stop =>
    rw [hblts] at hR
    cases hR
  | ok blts =>
    rw [hblts] at hR
    dsimp only [bind, Except.bind] at hR
    rw [finishBlts] at hR
    split at hR
    · cases hR
    · rename_i hfull
      cases hR
      obtain ⟨es, heq, hes⟩ := (hadds []).2 blts hblts (by omega)
      rw [nil_append] at heq
      subst heq
      intro fb
      rw [run_updateLast (execute_rgz_set_async false)]
      exact hes fb

end Regions

end OmapHal.Regionizer
