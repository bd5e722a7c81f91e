import OmapHal.Regionizer.Geometry
import OmapHal.Regionizer.Ops

/-!
# Dirty counts and content changes

A layer is raised in a frame when it is new, its content changed or it moved, and its
dirty count then lasts for that frame and the next one, once for each framebuffer.
Neither the blending of a layer nor the order of the layers raises a count.
-/

namespace OmapHal.Regionizer

open OmapHal.Hwc OmapHal.Core List Option

/-- Whether the first loop of `rgz_handle_dirty_region` sets the dirty count of the layer
to `RGZ_NUM_FB`. -/
def raised (prev target : FbState) (cur : RgzLayer) : Bool :=
  match rgz_find_layer prev cur.identity with
  | none => true
  | some q => rgz_has_layer_content_changed cur q ||
      (rgz_find_layer target cur.identity).any (rgz_has_layer_frame_moved cur)

/-- The layer was raised in this frame or, by the layer found there, in the one before. -/
def RecentlyRaised (past : List Rgz) (cur : RgzLayer) : Prop :=
  raised (prevOf past) (targetOf past) cur = true ∨
    ∃ q ∈ rgz_find_layer (prevOf past) cur.identity,
      raised (prevOf past.tail) (targetOf past.tail) q = true

section Counts

variable {screen : ScreenGeom} {prev target : FbState} {rgz : Rgz} {recs past : List Rgz} {f : Rgz}
  {c l : RgzLayer} {i : Nat}

/-- The dirty count of a layer behind the background. -/
theorem dirtyCount_succ :
    dirtyCount prev target (i + 1) l =
      if raised prev target l then RGZ_NUM_FB
      else (rgz_find_layer prev l.identity).elim 0 fun q => q.dirty_count - 1 := by
  have hprev : prevLayer prev (i + 1) l = rgz_find_layer prev l.identity :=
    if_neg (Nat.succ_ne_zero i)
  cases hq : rgz_find_layer prev l.identity with
  | none =>
    have hr : raised prev target l := by rw [raised, hq]
    rw [if_pos hr, dirtyCount, hprev, hq]
  | some q =>
    have hr : raised prev target l = (rgz_has_layer_content_changed l q ||
        (rgz_find_layer target l.identity).any (rgz_has_layer_frame_moved l)) := by
      rw [raised, hq]
    rw [hr, dirtyCount, hprev, hq, elim_some]
    simp only [contentDirtyCount, ne_eq, Nat.succ_ne_zero, not_false_eq_true, true_and]
    cases (rgz_find_layer target l.identity).any (rgz_has_layer_frame_moved l) with
    | true => rw [Bool.or_true, if_pos rfl, if_pos rfl]
    | false => rw [Bool.or_false, if_neg Bool.false_ne_true]

/-- The layers of a frame behind the background, with their dirty counts. -/
theorem Run.dirty_count_eq (h : Run screen recs rgz) (hf : f :: past <:+ recs)
    (hc : c ∈ f.cur_fb_state.tail) :
    c.dirty_count = if raised (prevOf past) (targetOf past) c then RGZ_NUM_FB
      else (rgz_find_layer (prevOf past) c.identity).elim 0 fun q => q.dirty_count - 1 := by
  obtain ⟨s, hs⟩ := h.frameOf hf
  rw [hs.cur_eq, mem_tail_mapIdx] at hc
  obtain ⟨i, m, -, rfl⟩ := hc
  exact dirtyCount_succ

/-- What is found in the previous frame is one of its layers behind the background. -/
theorem Run.find_prev (h : Run screen recs rgz) (hp : past <:+ recs) {identity : Nat} {q : RgzLayer}
    (hq : rgz_find_layer (prevOf past) identity = some q) :
    ∃ g rest, past = g :: rest ∧ q ∈ g.cur_fb_state.tail := by
  have hmem := (mem_tail_of_rgz_find_layer (h.wellFormed_prevOf hp) hq).1
  cases past with
  | nil => cases hmem
  | cons g rest => exact ⟨g, rest, rfl, hmem⟩

/-- Dirty counts do not exceed the number of framebuffers. -/
theorem Run.dirty_count_le (h : Run screen recs rgz) :
    ∀ f past, f :: past <:+ recs → ∀ c ∈ f.cur_fb_state.tail, c.dirty_count ≤ RGZ_NUM_FB := by
  rw [← everyFrame_iff]
  have hall : ∀ hist, hist <:+ recs →
      EveryFrame (fun _ f => ∀ c ∈ f.cur_fb_state.tail, c.dirty_count ≤ RGZ_NUM_FB) hist := by
    intro hist
    induction hist with
    | nil => exact fun _ => trivial
    | cons f past ih =>
      intro hf
      have hpast : past <:+ recs := (suffix_cons f past).trans hf
      refine ⟨fun c hc => ?_, ih hpast⟩
      rw [h.dirty_count_eq hf hc]
      split
      · exact le_refl _
      · cases hq : rgz_find_layer (prevOf past) c.identity with
        | none => exact Nat.zero_le _
        | some q =>
          obtain ⟨g, rest, rfl, hmem⟩ := h.find_prev hpast hq
          have := (ih hpast).1 q hmem
          rw [elim_some]
          omega
  exact hall recs (suffix_refl recs)

/-- A layer is dirty exactly when it was raised in this frame or the one before. -/
theorem Run.dirty_count_ne_zero_iff (h : Run screen recs rgz) (hf : f :: past <:+ recs)
    (hc : c ∈ f.cur_fb_state.tail) : c.dirty_count ≠ 0 ↔ RecentlyRaised past c := by
  have hpast : past <:+ recs := (suffix_cons f past).trans hf
  rw [h.dirty_count_eq hf hc, RecentlyRaised]
  split
  · rename_i hr
    exact ⟨fun _ => .inl hr, fun _ => by decide⟩
  · rename_i hr
    cases hq : rgz_find_layer (prevOf past) c.identity with
    | none => exact absurd (by rw [raised, hq]) hr
    | some q =>
      obtain ⟨g, rest, rfl, hmem⟩ := h.find_prev hpast hq
      have hcount := h.dirty_count_eq hpast hmem
      have hprev : ∀ q', rgz_find_layer (prevOf rest) q.identity = some q' →
          q'.dirty_count ≤ RGZ_NUM_FB := by
        intro q' hq'
        have hrest : rest <:+ recs := (suffix_cons g rest).trans hpast
        obtain ⟨g', rest', rfl, hmem'⟩ := h.find_prev hrest hq'
        exact h.dirty_count_le g' rest' hrest q' hmem'
      simp only [elim_some, mem_def, some.injEq, exists_eq_left', tail_cons, or_iff_right hr]
      constructor
      · intro hne
        by_contra hq0
        rw [if_neg hq0] at hcount
        cases hq' : rgz_find_layer (prevOf rest) q.identity with
        | none =>
          rw [hq', elim_none] at hcount
          omega
        | some q' =>
          have := hprev q' hq'
          rw [hq', elim_some] at hcount
          dsimp only [RGZ_NUM_FB] at this
          omega
      · intro hq0
        rw [if_pos hq0] at hcount
        rw [hcount]
        decide

end Counts

/-- The fields of a layer that its pixels depend on are the same. -/
def sameDrawing (a b : HwcLayer) : Bool :=
  a.handle.address == b.handle.address && a.transform == b.transform &&
    a.sourceCrop == b.sourceCrop && a.blending == b.blending

/-- The layers that cover a pixel in the frame differ from those in the framebuffer: in a
layer's handle, transform, crop or blending, or in the order of two layers. -/
inductive StackDiffers (target cur : FbState) (p : Int × Int) : Prop
  | attribute (c t : RgzLayer) (hc : c ∈ stackAt cur.tail p) (ht : t ∈ stackAt target.tail p)
      (hid : c.identity = t.identity) (hne : sameDrawing c.hwc_layer t.hwc_layer = false)
  | order (c₁ c₂ t₁ t₂ : RgzLayer) (hc : List.Sublist [c₁, c₂] (stackAt cur.tail p))
      (ht : List.Sublist [t₂, t₁] (stackAt target.tail p)) (h₁ : c₁.identity = t₁.identity)
      (h₂ : c₂.identity = t₂.identity) (hne : c₁.identity ≠ c₂.identity)

/-- Subregion `s` of the horizontal region holds the pixel, and `rgz_hwc_subregion_blit`
does not skip it. -/
def BlitsPixel (screen : ScreenGeom) (damaged_area : Rect) (hregion : BlitHregion) (s : Nat)
    (p : Int × Int) : Prop :=
  (∃ cell ∈ (subregionRects screen damaged_area hregion.rect hregion.rgz_layers)[s]?, p ∈ cell) ∧
    ∃ ldepth lix, get_layer_ops hregion s = .ok (ldepth, some lix) ∧
      subregionDirty hregion s lix damaged_area = true

/-- The pixel is redrawn where the frame is drawn by regions. -/
def Redrawn (screen : ScreenGeom) (f : Rgz) (p : Int × Int) : Prop :=
  ∀ r, rgz_in_hwc screen f = some r → ∃ h ∈ r.hregions, ∃ s, BlitsPixel screen r.damaged_area h s p

/-- A layer that the framebuffer does not show at this place, or one of its layers that is
not in the frame, covers the pixel. -/
def CoveredByChange (target cur : FbState) (p : Int × Int) : Prop :=
  (∃ c ∈ stackAt cur.tail p, ¬ PresentIn target.tail c) ∨
    ∃ t ∈ stackAt target.tail p, ∀ c ∈ cur.tail, c.identity ≠ t.identity

/-- The state has the layer, with the handle, the transform and the crop that it has here. -/
def DrawnIn (s : FbState) (c : RgzLayer) : Prop :=
  ∃ q ∈ s.tail, q.identity = c.identity ∧
    q.hwc_layer.handle.address = c.hwc_layer.handle.address ∧
    q.hwc_layer.transform = c.hwc_layer.transform ∧
    q.hwc_layer.sourceCrop = c.hwc_layer.sourceCrop

instance (s : FbState) (c : RgzLayer) : Decidable (DrawnIn s c) :=
  inferInstanceAs (Decidable (∃ q ∈ s.tail, _))

/-- The layer has no dummy handle, and is not drawn alike in the frame before and in the
framebuffer. -/
def ContentDiffers (past : List Rgz) (c : RgzLayer) : Prop :=
  c.hwc_layer.handle.address ≠ BufferHandle.dummy.address ∧
    ¬(DrawnIn (prevOf past) c ∧ DrawnIn (targetOf past) c)

instance (past : List Rgz) (c : RgzLayer) : Decidable (ContentDiffers past c) :=
  inferInstanceAs (Decidable (_ ∧ _))

/-- Wherever the stacks differ, the walk of `get_layer_ops` reads through no bad handle,
and a layer that it sees has another content than before, or a change of geometry covers the
pixel. -/
def FrameChangesShow (screen : ScreenGeom) (past : List Rgz) (f : Rgz) : Prop :=
  ∀ p ∈ screen.rect, StackDiffers (targetOf past) f.cur_fb_state p →
    ∃ vs, visibleAt f.cur_fb_state p = some vs ∧
      ((∃ c ∈ vs, c ∈ f.cur_fb_state.tail ∧ ContentDiffers past c) ∨
        CoveredByChange (targetOf past) f.cur_fb_state p)

/-- Every on-screen pixel at which the stacks differ is redrawn. -/
def FrameRedrawsChanges (screen : ScreenGeom) (past : List Rgz) (f : Rgz) : Prop :=
  ∀ p ∈ screen.rect, StackDiffers (targetOf past) f.cur_fb_state p → Redrawn screen f p

section Redraw

variable {screen : ScreenGeom} {rgz : Rgz} {recs past : List Rgz} {f : Rgz} {p : Int × Int}
  {vs : List RgzLayer}

/-- A pixel in the damage, or with a dirty layer visible, is redrawn. -/
theorem Checked.redrawn (hc : Checked screen f) (hp : p ∈ screen.rect)
    (hv : visibleAt f.cur_fb_state p = some vs)
    (hdirty : p ∈ f.damaged_area ∨ ∃ c ∈ vs, c.dirty_count ≠ 0) : Redrawn screen f p := by
  intro r hr
  obtain ⟨-, -, rfl⟩ := rgz_in_hwc_eq_some.mp hr
  obtain ⟨i, s, cell, hcell, hpc⟩ := hc.exists_cell hp
  obtain ⟨b, q, hb, hq, rfl⟩ := cell?_withRegions.mp hcell
  have hb' := mem_of_getElem? hb
  obtain ⟨lix, hops, hmap, hrects⟩ := hc.ops_cell hb' hq hpc hp hv
  refine ⟨hregionOf screen f b, mem_map_of_mem hb', s, ⟨_, ?_, hpc⟩, vs.length, lix, hops, ?_⟩
  · rw [mem_def, subregionRects, getElem?_map]
    exact congrArg (Option.map _) hq
  · rw [subregionDirty_iff hmap (hrects lix mem_cons_self)]
    rcases hdirty with hd | hd
    · exact .inl (Box.meets_of_mem hd hpc)
    · exact .inr hd

/-- A cell that meets the damage lies in it, since the damage is among the edges. -/
theorem mem_damage_of_meets {b q : Int × Int} (hb : b ∈ pieces (yentries screen f))
    (hq : q ∈ bandPieces screen f b) (hpc : p ∈ (⟨q.1, b.1, q.2, b.2⟩ : Rect))
    (hm : f.damaged_area.meets ⟨q.1, b.1, q.2, b.2⟩) : p ∈ f.damaged_area := by
  obtain ⟨⟨h1, h2⟩, h3, h4⟩ := Box.meets_iff.mp hm
  obtain ⟨⟨hp1, hp2⟩, hp3, hp4⟩ := mem_cell.mp hpc
  have htop := subdivides_yentries.le_left b hb _ (mem_yentries.mpr (.inl (.inl rfl))) h2
  have hbottom := subdivides_yentries.right_le hb (mem_yentries.mpr (.inl (.inr rfl))) h1
  have hleft := subdivides_offsets.le_left q hq _ (mem_offsets.mpr (.inl (.inl rfl))) h4
  have hright := subdivides_offsets.right_le hq (mem_offsets.mpr (.inl (.inr rfl))) h3
  exact ⟨⟨hleft.trans hp1, hp2.trans_le hright⟩, htop.trans hp3, hp4.trans_le hbottom⟩

/-- Exactly the pixels in the damage and those with a dirty layer visible are redrawn. -/
theorem Checked.redrawn_iff (hc : Checked screen f) (hp : p ∈ screen.rect)
    (hn : (f.cur_fb_state.length + 1) * 2 ≤ RGZ_SUBREGIONMAX)
    (hv : visibleAt f.cur_fb_state p = some vs) :
    Redrawn screen f p ↔ p ∈ f.damaged_area ∨ ∃ c ∈ vs, c.dirty_count ≠ 0 := by
  refine ⟨fun h => ?_, hc.redrawn hp hv⟩
  obtain ⟨hregion, hh, s, ⟨cell, hcell, hpc⟩, ldepth, lix, hops, hdirty⟩ :=
    h _ (rgz_in_hwc_eq_some.mpr ⟨hc.stateInit, hn, rfl⟩)
  obtain ⟨b, hb, rfl⟩ := mem_map.mp hh
  rw [mem_def, subregionRects, getElem?_map, map_eq_some_iff] at hcell
  obtain ⟨q, hq, rfl⟩ := hcell
  obtain ⟨lix', hops', hmap, hrects⟩ := hc.ops_cell hb hq hpc hp hv
  obtain rfl : lix' = lix := by
    rw [hops', Except.ok.injEq, Prod.mk.injEq, some.injEq] at hops
    exact hops.2
  rcases (subregionDirty_iff hmap (hrects lix' mem_cons_self)).mp hdirty with hm | hd
  · exact .inl (mem_damage_of_meets hb (mem_of_getElem? hq) hpc hm)
  · exact .inr hd

/-- A change of geometry damages the pixels that it covers. -/
theorem Run.mem_damage_of_coveredByChange (h : Run screen recs rgz) (hf : f :: past <:+ recs)
    (hp : p ∈ screen.rect) (hch : CoveredByChange (targetOf past) f.cur_fb_state p) :
    p ∈ f.damaged_area := by
  obtain ⟨s, hs⟩ := h.frameOf hf
  have hpast : past <:+ recs := (suffix_cons f past).trans hf
  have hd : f.damaged_area =
      (rgz_handle_dirty_region screen (prevOf past) (targetOf past) s).2 := by
    rw [hs.handled]
  rw [hd]
  rcases hch with ⟨c, hc, hadded⟩ | ⟨t, ht, habsent⟩
  · obtain ⟨hmem, hpc⟩ := mem_stackAt.mp hc
    rw [hs.cur_eq, mem_tail_mapIdx] at hmem
    obtain ⟨i, m, hm, rfl⟩ := hmem
    exact mem_damage_of_added (h.wellFormed_targetOf hpast) hm hadded
      (mem_clipToScreen.mpr ⟨hp, hpc⟩)
  · obtain ⟨hmem, hpt⟩ := mem_stackAt.mp ht
    exact mem_damage_of_absent hs.cur_eq hmem
      ((rgz_find_layer_eq_none hs.wellFormed.2).mpr habsent) (mem_clipToScreen.mpr ⟨hp, hpt⟩)

/-- A layer with a buffer and no new content draws what the older one does. -/
theorem drawn_of_not_content_changed {c q : RgzLayer} (hb : c.buffidx ≠ RGZ_BACKGROUND_BUFFIDX)
    (hc : c.FromList) (ha : c.hwc_layer.handle.address ≠ BufferHandle.dummy.address)
    (h : rgz_has_layer_content_changed c q = false) :
    q.identity = c.identity ∧ q.hwc_layer.handle.address = c.hwc_layer.handle.address ∧
      q.hwc_layer.transform = c.hwc_layer.transform ∧
      q.hwc_layer.sourceCrop = c.hwc_layer.sourceCrop := by
  have hbuffer : c.buffidx ≠ RGZ_CLEARHINT_BUFFIDX := by
    rcases hc with ⟨hpos, -⟩ | ⟨-, hdummy⟩
    · exact fun hclear => absurd (hclear ▸ hpos) (by decide)
    · exact absurd (congrArg BufferHandle.address hdummy) ha
  unfold rgz_has_layer_content_changed at h
  rw [if_neg fun hboth => hb hboth.1] at h
  split at h
  · cases h
  · next hid =>
    rw [if_neg fun hboth => hbuffer hboth.1] at h
    simp only [sameContent, Bool.not_eq_false', Bool.and_eq_true, beq_iff_eq] at h
    obtain ⟨⟨haddress, htransform⟩, hcrop⟩ := h
    exact ⟨(not_not.mp hid).symm, haddress.symm, htransform.symm, hcrop.symm⟩

/-- What was not raised in this frame and the one before has been drawn alike in both, so that a
new content has raised the count in time for either framebuffer. -/
theorem Run.recentlyRaised {c : RgzLayer} (h : Run screen recs rgz) (hf : f :: past <:+ recs)
    (hc : c ∈ f.cur_fb_state.tail) (hdiffers : ContentDiffers past c) : RecentlyRaised past c := by
  obtain ⟨ha, hdiffers⟩ := hdiffers
  have hpast : past <:+ recs := (suffix_cons f past).trans hf
  obtain ⟨s, hs⟩ := h.frameOf hf
  by_contra hnot
  rw [RecentlyRaised, not_or] at hnot
  obtain ⟨hcur, hbefore⟩ := hnot
  cases hq : rgz_find_layer (prevOf past) c.identity with
  | none => exact hcur (by rw [raised, hq])
  | some q =>
    have hunchanged : rgz_has_layer_content_changed c q = false := by
      rw [raised, hq] at hcur
      exact (Bool.or_eq_false_iff.mp (Bool.not_eq_true _ ▸ hcur)).1
    have hcq := drawn_of_not_content_changed (hs.wellFormed.2.2 c hc) (hs.checked.fromList c hc)
      ha hunchanged
    obtain ⟨g, rest, rfl, hg⟩ := h.find_prev hpast hq
    obtain ⟨s', hs'⟩ := h.frameOf hpast
    have hqraised : ¬ raised (prevOf rest) (targetOf rest) q = true := fun hr =>
      hbefore ⟨q, hq, hr⟩
    cases ht : rgz_find_layer (prevOf rest) q.identity with
    | none => exact hqraised (by rw [raised, ht])
    | some t =>
      have hunchanged' : rgz_has_layer_content_changed q t = false := by
        rw [raised, ht] at hqraised
        exact (Bool.or_eq_false_iff.mp (Bool.not_eq_true _ ▸ hqraised)).1
      have hqt := drawn_of_not_content_changed (hs'.wellFormed.2.2 q hg)
        (hs'.checked.fromList q hg) (hcq.2.1.symm ▸ ha) hunchanged'
      have hwell : (targetOf (g :: rest)).WellFormed := h.wellFormed_targetOf hpast
      have htmem := (mem_tail_of_rgz_find_layer hwell (by rw [targetOf_cons, ht])).1
      refine hdiffers ⟨⟨q, hg, hcq⟩, ⟨t, htmem, ?_⟩⟩
      exact ⟨hqt.1.trans hcq.1, hqt.2.1.trans hcq.2.1, hqt.2.2.1.trans hcq.2.2.1,
        hqt.2.2.2.trans hcq.2.2.2⟩

/-- In every run in which the changes show, every pixel at which the stacks differ is
redrawn in every frame. -/
theorem changes_redrawn (h : Run screen recs rgz)
    (hshow : EveryFrame (FrameChangesShow screen) recs) :
    EveryFrame (FrameRedrawsChanges screen) recs := by
  rw [everyFrame_iff] at hshow ⊢
  intro f past hf p hp hdiff
  obtain ⟨s, hs⟩ := h.frameOf hf
  obtain ⟨vs, hv, hdiffers | hcovered⟩ := hshow f past hf p hp hdiff
  · obtain ⟨c, hc, htail, hdiffers⟩ := hdiffers
    have hraised := h.recentlyRaised hf htail hdiffers
    exact hs.checked.redrawn hp hv
      (.inr ⟨c, hc, (h.dirty_count_ne_zero_iff hf htail).mpr hraised⟩)
  · exact hs.checked.redrawn hp hv (.inl (h.mem_damage_of_coveredByChange hf hp hcovered))

/-- The background, the first layer, is dirty until each framebuffer has been drawn. -/
theorem Run.background_count (h : Run screen recs rgz) :
    ∀ past f, f :: past <:+ recs → ∀ b ∈ f.cur_fb_state.head?,
      b.dirty_count = RGZ_NUM_FB - past.length := by
  intro past
  induction past with
  | nil =>
    intro f hf b hb
    obtain ⟨s, hs⟩ := h.frameOf hf
    rw [hs.cur_eq, head?_mapIdx] at hb
    obtain ⟨l, -, rfl⟩ := map_eq_some_iff.mp hb
    rfl
  | cons g past ih =>
    intro f hf b hb
    have hg : g :: past <:+ recs := (suffix_cons f _).trans hf
    obtain ⟨s, hs⟩ := h.frameOf hf
    obtain ⟨s', hs'⟩ := h.frameOf hg
    obtain ⟨b', ls, hcur, -⟩ := hs'.checked.background
    have hb' : b' ∈ g.cur_fb_state.head? := by rw [hcur]; rfl
    have hchanged : rgz_has_layer_content_changed b b' = false :=
      if_pos ⟨hs.wellFormed.2.1 b hb, hs'.wellFormed.2.1 b' hb'⟩
    rw [hs.cur_eq, head?_mapIdx] at hb
    obtain ⟨l, -, rfl⟩ := map_eq_some_iff.mp hb
    have hprev : prevLayer (prevOf (g :: past)) 0 l = some b' := hb'
    change rgz_has_layer_content_changed l b' = false at hchanged
    simp only [dirtyCount, hprev, contentDirtyCount, hchanged, ih g hg b' hb', length_cons, ne_eq,
      not_true_eq_false, false_and, if_false, Bool.false_eq_true]
    omega

/-- The frame redraws the damage and the pixels at which one sees a layer that was recently raised,
or the background before each framebuffer has been drawn, and no others. -/
def FrameRedrawsOnly (screen : ScreenGeom) (past : List Rgz) (f : Rgz) : Prop :=
  (f.cur_fb_state.length + 1) * 2 ≤ RGZ_SUBREGIONMAX → ∀ p ∈ screen.rect,
    ∀ vs ∈ visibleAt f.cur_fb_state p, Redrawn screen f p ↔ p ∈ f.damaged_area ∨
      ∃ c ∈ vs, if c.buffidx = RGZ_BACKGROUND_BUFFIDX then past.length < RGZ_NUM_FB
        else RecentlyRaised past c

/-- In every run every frame redraws what has changed, and no other pixel. -/
theorem redraws_only_changes (h : Run screen recs rgz) :
    EveryFrame (FrameRedrawsOnly screen) recs := by
  rw [everyFrame_iff]
  intro f past hf hn p hp vs hv
  obtain ⟨s, hs⟩ := h.frameOf hf
  rw [hs.checked.redrawn_iff hp hn hv]
  refine or_congr_right (exists_congr fun c => and_congr_right fun hc => ?_)
  have hmem : c ∈ f.cur_fb_state.head? ∨ c ∈ f.cur_fb_state.tail := by
    obtain ⟨b, ls, hcur, -⟩ := hs.checked.background
    have hcover := (mem_stackAt.mp (mem_stackAt_of_visibleAt hv hc)).1
    rw [hcur] at hcover ⊢
    exact (mem_cons.mp hcover).imp (fun heq => congrArg some heq.symm) id
  rcases hmem with hhead | htail
  · rw [if_pos (hs.wellFormed.2.1 c hhead), h.background_count past f hf c hhead]
    omega
  · rw [if_neg (hs.wellFormed.2.2 c htail)]
    exact h.dirty_count_ne_zero_iff hf htail

end Redraw

section Samples

/-- Three frames of one layer, with a new buffer in the last. -/
def changingLists : List (List InLayer) :=
  [[sampleLayer 1 101 10 10], [sampleLayer 1 100 10 10], [sampleLayer 1 100 10 10]]

/-- The new buffer is redrawn. -/
theorem changes_redrawn_changing :
    ∃ recs, framesOf ⟨40, 40⟩ changingLists = some recs ∧
      (∃ f past, recs = f :: past ∧ StackDiffers (targetOf past) f.cur_fb_state (12, 12)) ∧
      EveryFrame (FrameRedrawsChanges ⟨40, 40⟩) recs := by
  have hsome : (framesOf ⟨40, 40⟩ changingLists).isSome := by decide
  obtain ⟨recs, hrecs⟩ := isSome_iff_exists.mp hsome
  obtain ⟨rgz, hrun⟩ := exists_run_of_framesOf hrecs
  have hshape : ∀ recs ∈ framesOf ⟨40, 40⟩ changingLists, ∃ f ∈ recs.head?,
      recs.length = 3 ∧ f.cur_fb_state.length = 2 ∧ (targetOf recs.tail).length = 2 ∧
      (∀ l ∈ f.cur_fb_state, l.hwc_layer.blending ≠ HWC_BLENDING_PREMULT) ∧
      ∀ c ∈ f.cur_fb_state.tail, ∀ t ∈ (targetOf recs.tail).tail, c.identity = t.identity ∧
        sameDrawing c.hwc_layer t.hwc_layer = false ∧
        ContentDiffers recs.tail c ∧
        (12, 12) ∈ c.hwc_layer.displayFrame ∧ (12, 12) ∈ t.hwc_layer.displayFrame := by
    decide
  obtain ⟨f, hf, h3, hcur, htarget, hnone, hall⟩ := hshape recs hrecs
  have hempty : ∀ (cur : FbState) (p : Int × Int), ¬ StackDiffers [] cur p := by
    rintro cur p (⟨c, t, -, ht, -, -⟩ | ⟨c₁, c₂, t₁, t₂, -, ht, -, -, -⟩)
    · cases ht
    · cases ht
  obtain ⟨g, f₂, f₁, rfl⟩ := length_eq_three.mp h3
  obtain rfl : g = f := some.inj hf
  obtain ⟨b, c, hc⟩ := length_eq_two.mp hcur
  obtain ⟨b', t, ht⟩ := length_eq_two.mp htarget
  obtain ⟨hid, hne, hdiffers, hpc, hpt⟩ := hall c (by rw [hc]; exact mem_singleton.mpr rfl) t
    (by rw [ht]; exact mem_singleton.mpr rfl)
  refine ⟨_, hrecs, ⟨g, [f₂, f₁], rfl, ?_⟩, changes_redrawn hrun ⟨?_, ?_, ?_, trivial⟩⟩
  · refine .attribute c t (mem_stackAt.mpr ⟨?_, hpc⟩) (mem_stackAt.mpr ⟨?_, hpt⟩) hid hne
    · rw [hc]
      exact mem_singleton.mpr rfl
    · rw [tail_cons] at ht
      rw [ht]
      exact mem_singleton.mpr rfl
  · intro p _ hdiff
    have hmem : ∃ l, l ∈ stackAt g.cur_fb_state.tail p := by
      rcases hdiff with ⟨c, _, hc, _, _, _⟩ | ⟨c₁, _, _, _, hc, _, _, _, _⟩
      · exact ⟨c, hc⟩
      · exact ⟨c₁, hc.subset mem_cons_self⟩
    obtain ⟨l, hl⟩ := hmem
    obtain ⟨hl, hpl⟩ := mem_stackAt.mp hl
    have htail : c ∈ g.cur_fb_state.tail := by
      rw [hc]
      exact mem_singleton.mpr rfl
    obtain rfl : l = c := by
      rw [hc] at hl
      exact mem_singleton.mp hl
    refine ⟨[l], ?_, .inl ⟨l, mem_singleton.mpr rfl, htail, hdiffers⟩⟩
    rw [hc]
    exact @visibleAt_concat [b] p l hpl (hnone l (mem_of_mem_tail htail))
  · exact fun p _ hdiff => absurd hdiff (hempty _ p)
  · exact fun p _ hdiff => absurd hdiff (hempty _ p)

/-- Four frames of two layers at one place, in another order in the last. -/
def restackedLists : List (List InLayer) :=
  [[sampleLayer 2 200 10 10, sampleLayer 1 100 10 10],
    [sampleLayer 1 100 10 10, sampleLayer 2 200 10 10],
    [sampleLayer 1 100 10 10, sampleLayer 2 200 10 10],
    [sampleLayer 1 100 10 10, sampleLayer 2 200 10 10]]

/-- The restacked layers are not redrawn. -/
theorem restacked_not_redrawn :
    ∃ recs rgz, framesOf ⟨40, 40⟩ restackedLists = some recs ∧ Run ⟨40, 40⟩ recs rgz ∧
      ¬ EveryFrame (FrameRedrawsChanges ⟨40, 40⟩) recs := by
  have hstale : ∀ recs ∈ framesOf ⟨40, 40⟩ restackedLists, ∃ f ∈ recs.head?,
      (f.cur_fb_state.length + 1) * 2 ≤ RGZ_SUBREGIONMAX ∧ (12, 12) ∉ f.damaged_area ∧
      (∃ vs ∈ visibleAt f.cur_fb_state (12, 12), ∀ c ∈ vs, ¬ c.dirty_count ≠ 0) ∧
      ∃ c₁ ∈ f.cur_fb_state, ∃ c₂ ∈ f.cur_fb_state, ∃ t₁ ∈ targetOf recs.tail,
        ∃ t₂ ∈ targetOf recs.tail, Sublist [c₁, c₂] (stackAt f.cur_fb_state.tail (12, 12)) ∧
          Sublist [t₂, t₁] (stackAt (targetOf recs.tail).tail (12, 12)) ∧
          c₁.identity = t₁.identity ∧ c₂.identity = t₂.identity ∧ c₁.identity ≠ c₂.identity := by
    decide
  have hsome : (framesOf ⟨40, 40⟩ restackedLists).isSome := by decide
  obtain ⟨recs, hrecs⟩ := isSome_iff_exists.mp hsome
  obtain ⟨rgz, hrun⟩ := exists_run_of_framesOf hrecs
  refine ⟨recs, rgz, hrecs, hrun, fun h => ?_⟩
  obtain ⟨f, hf, hn, hdamage, ⟨vs, hv, hclean⟩, c₁, -, c₂, -, t₁, -, t₂, -, hc, ht, h₁, h₂, hne⟩ :=
    hstale recs hrecs
  cases recs with
  | nil => cases hf
  | cons g past =>
    obtain rfl : g = f := some.inj hf
    obtain ⟨s, hs⟩ := hrun.frameOf (suffix_refl _)
    have hp : ((12, 12) : Int × Int) ∈ (⟨40, 40⟩ : ScreenGeom).rect := by decide
    have hredrawn := h.1 (12, 12) hp (.order c₁ c₂ t₁ t₂ hc ht h₁ h₂ hne)
    rcases (hs.checked.redrawn_iff hp hn hv).mp hredrawn with hd | ⟨c, hc, hdirty⟩
    · exact hdamage hd
    · exact hclean c hc hdirty

theorem redraws_only_changes_changing : ∃ recs, framesOf ⟨40, 40⟩ changingLists = some recs ∧
    EveryFrame (FrameRedrawsOnly ⟨40, 40⟩) recs := by
  have hsome : (framesOf ⟨40, 40⟩ changingLists).isSome := by decide
  obtain ⟨recs, hrecs⟩ := isSome_iff_exists.mp hsome
  obtain ⟨rgz, hrun⟩ := exists_run_of_framesOf hrecs
  exact ⟨recs, hrecs, redraws_only_changes hrun⟩

end Samples

end OmapHal.Regionizer
