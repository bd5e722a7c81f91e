import OmapHal.Regionizer.Runs

/-!
# Damage and geometry changes

`rgz_handle_dirty_region` compares the frame of a layer with the target framebuffer
only when the layer was also in the previous frame. A layer that was missing there
and comes back elsewhere damages its new place but not the old one.
-/

namespace OmapHal.Regionizer

open OmapHal.Hwc OmapHal.Core Option List

/-- A layer of the list has the identity and the display frame of this one. -/
def PresentIn (s : List RgzLayer) (l : RgzLayer) : Prop :=
  ∃ m ∈ s, m.identity = l.identity ∧ m.hwc_layer.displayFrame = l.hwc_layer.displayFrame

instance (s : List RgzLayer) (l : RgzLayer) : Decidable (PresentIn s l) :=
  inferInstanceAs (Decidable (∃ m ∈ s, _))

/-- The damaged area covers the layers that the framebuffer shows and the frame has not,
and those that the frame has and the framebuffer does not show. -/
structure GeometryCovered (screen : ScreenGeom) (target cur : FbState) (damaged_area : Rect) :
    Prop where
  gone : ∀ t ∈ target.tail, ¬ PresentIn cur.tail t →
    (clipToScreen screen t.hwc_layer.displayFrame).Within damaged_area
  added : ∀ c ∈ cur.tail, ¬ PresentIn target.tail c →
    (clipToScreen screen c.hwc_layer.displayFrame).Within damaged_area

/-- Every layer on the screen of the target that is in the current frame, but only
elsewhere, was in the previous frame, and no other layer of the target stands for it. -/
def NoMovedReturn (screen : ScreenGeom) (prev target cur : FbState) : Prop :=
  ∀ t ∈ target.tail, screen.rect.meets t.hwc_layer.displayFrame →
    (∃ c ∈ cur.tail, c.identity = t.identity) → ¬ PresentIn cur.tail t →
    (∃ q ∈ prev.tail, q.identity = t.identity) ∧
      (rgz_find_layer target t.identity).map (fun m => m.hwc_layer.displayFrame) =
        some t.hwc_layer.displayFrame

instance (screen : ScreenGeom) (prev target cur : FbState) :
    Decidable (NoMovedReturn screen prev target cur) :=
  inferInstanceAs (Decidable (∀ t ∈ target.tail, _))

section Step

variable {screen : ScreenGeom} {prev target cur s : FbState} {l : RgzLayer} {p : Int × Int}
  {i : Nat}
  {d : Rect}

/-- The layers behind the background, before and after their dirty counts are set. -/
theorem mem_tail_mapIdx {n : Nat → RgzLayer → Nat} :
    l ∈ (s.mapIdx fun j l => { l with dirty_count := n j l }).tail ↔
      ∃ i m, s[i + 1]? = some m ∧ l = { m with dirty_count := n (i + 1) m } := by
  rw [mem_iff_getElem?]
  simp only [getElem?_tail, getElem?_mapIdx, map_eq_some_iff]
  constructor
  · rintro ⟨i, m, hm, rfl⟩
    exact ⟨i, m, hm, rfl⟩
  · rintro ⟨i, m, hm, rfl⟩
    exact ⟨i, m, hm, rfl⟩

/-- At its turn a layer damages its place unless the target shows it there, and the
place at which the target shows it elsewhere if the previous frame had it too. -/
theorem mem_dirtyLayer_cases (hi : i ≠ 0) :
    (p ∈ clipToScreen screen l.hwc_layer.displayFrame →
      (∀ t, rgz_find_layer target l.identity = some t →
        l.hwc_layer.displayFrame ≠ t.hwc_layer.displayFrame) →
      p ∈ (dirtyLayer screen prev target i l d).2) ∧
    (∀ t, rgz_find_layer target l.identity = some t → (rgz_find_layer prev l.identity).isSome →
      l.hwc_layer.displayFrame ≠ t.hwc_layer.displayFrame →
      p ∈ clipToScreen screen t.hwc_layer.displayFrame →
      p ∈ (dirtyLayer screen prev target i l d).2) := by
  have hmoved : ∀ (n : Nat) (t : RgzLayer), rgz_find_layer target l.identity = some t →
      l.hwc_layer.displayFrame ≠ t.hwc_layer.displayFrame →
      rgz_has_layer_frame_moved { l with dirty_count := n } t := by
    intro n t ht hne
    rw [rgz_has_layer_frame_moved, if_neg (not_not.mpr (of_rgz_find_layer ht).2.2.symm)]
    exact bne_iff_ne.mpr hne
  simp only [dirtyLayer, prevLayer, if_neg hi]
  constructor
  · intro hp hne
    cases hprev : rgz_find_layer prev l.identity with
    | none => exact mem_add_of_mem_frame hp
    | some q =>
      rw [isNone_some, if_neg Bool.false_ne_true]
      cases ht : rgz_find_layer target l.identity with
      | none => exact mem_add_of_mem_frame hp
      | some t =>
        dsimp only
        rw [if_pos (hmoved _ t ht (hne t ht))]
        exact mem_add_of_mem (mem_add_of_mem_frame hp)
  · intro t ht hprev hne hp
    obtain ⟨q, hq⟩ := isSome_iff_exists.mp hprev
    rw [hq, isNone_some, if_neg Bool.false_ne_true, ht]
    dsimp only
    rw [if_pos (hmoved _ t ht hne)]
    exact mem_add_of_mem_frame hp

/-- A layer damages what its turn damages in the whole of `rgz_handle_dirty_region`. -/
theorem mem_handle_of_mem_dirtyLayer (hl : s[i]? = some l)
    (h : ∀ d, p ∈ (dirtyLayer screen prev target i l d).2) :
    p ∈ (rgz_handle_dirty_region screen prev target s).2 := by
  apply damageMissing_grows (fun d => p ∈ d) fun _ _ => mem_add_of_mem
  exact mem_dirtyLayers_of_getElem? hl fun d => by rw [Nat.zero_add]; exact h d

/-- A layer that the target does not show at its place damages it. -/
theorem mem_damage_of_added (htarget : FbState.WellFormed target) (hl : s[i + 1]? = some l)
    (hadded : ¬ PresentIn target.tail l) (hp : p ∈ clipToScreen screen l.hwc_layer.displayFrame) :
    p ∈ (rgz_handle_dirty_region screen prev target s).2 := by
  refine mem_handle_of_mem_dirtyLayer hl fun d => ?_
  refine (mem_dirtyLayer_cases (Nat.succ_ne_zero i)).1 hp fun t ht heq => ?_
  obtain ⟨hmem, hid⟩ := mem_tail_of_rgz_find_layer htarget ht
  exact hadded ⟨t, hmem, hid, heq.symm⟩

/-- A layer of the target that is not in the frame at all damages its place. -/
theorem mem_damage_of_absent
    (hcur : cur = s.mapIdx fun j l => { l with dirty_count := dirtyCount prev target j l })
    (ht : l ∈ target.tail) (habsent : rgz_find_layer cur l.identity = none)
    (hp : p ∈ clipToScreen screen l.hwc_layer.displayFrame) :
    p ∈ (rgz_handle_dirty_region screen prev target s).2 := by
  have hsnd : (rgz_handle_dirty_region screen prev target s).2 =
      damageMissing screen cur target.tail (dirtyLayers screen prev target 0 s zeroRect).2 := by
    rw [hcur, ← rgz_handle_dirty_region_fst]
    rfl
  rw [hsnd]
  exact mem_damageMissing_of_missing ht habsent hp

/-- Without a moved return the damage of a frame covers its geometry changes. -/
theorem geometryCovered_of_noMovedReturn (hs : FbState.WellFormed s)
    (hprev : FbState.WellFormed prev) (htarget : FbState.WellFormed target)
    (hcur : cur = s.mapIdx fun j l => { l with dirty_count := dirtyCount prev target j l })
    (hno : NoMovedReturn screen prev target cur) :
    GeometryCovered screen target cur (rgz_handle_dirty_region screen prev target s).2 := by
  have hcurWf : FbState.WellFormed cur := hcur ▸ hs.mapIdx _
  have htail : ∀ l, l ∈ cur.tail ↔ ∃ i m, s[i + 1]? = some m ∧
      l = { m with dirty_count := dirtyCount prev target (i + 1) m } := fun l => by
    rw [hcur]
    exact mem_tail_mapIdx
  constructor
  · intro t ht hgone p hp
    by_cases hid : ∃ c ∈ cur.tail, c.identity = t.identity
    · have hmeets : screen.rect.meets t.hwc_layer.displayFrame :=
        Box.meets_of_mem (mem_clipToScreen.mp hp).1 (mem_clipToScreen.mp hp).2
      obtain ⟨⟨q, hq, hqid⟩, hfound⟩ := hno t ht hmeets hid hgone
      obtain ⟨c, hc, hcid⟩ := hid
      obtain ⟨t', ht', hframe⟩ := map_eq_some_iff.mp hfound
      have hcframe : c.hwc_layer.displayFrame ≠ t.hwc_layer.displayFrame := fun heq =>
        hgone ⟨c, hc, hcid, heq⟩
      obtain ⟨i, m, hm, rfl⟩ := (htail c).mp hc
      refine mem_handle_of_mem_dirtyLayer hm fun d => ?_
      refine (mem_dirtyLayer_cases (Nat.succ_ne_zero i)).2 t' (by rw [hcid, ht']) ?_
        (by rw [hframe]; exact hcframe) (by rw [hframe]; exact hp)
      rw [hcid, isSome_iff_ne_none, ne_eq, rgz_find_layer_eq_none hprev]
      exact fun h => h q hq hqid
    · have habsent : rgz_find_layer cur t.identity = none :=
        (rgz_find_layer_eq_none hcurWf).mpr fun c hc hcid => hid ⟨c, hc, hcid⟩
      exact mem_damage_of_absent hcur ht habsent hp
  · intro c hc hadded p hp
    obtain ⟨i, m, hm, rfl⟩ := (htail c).mp hc
    exact mem_damage_of_added htarget hm hadded hp

end Step

section Runs

/-- The damage of a frame covers its geometry changes. -/
def FrameCovered (screen : ScreenGeom) (past : List Rgz) (f : Rgz) : Prop :=
  GeometryCovered screen (targetOf past) f.cur_fb_state f.damaged_area

/-- No layer returns to a frame at another place. -/
def FrameWithoutMovedReturn (screen : ScreenGeom) (past : List Rgz) (f : Rgz) : Prop :=
  NoMovedReturn screen (prevOf past) (targetOf past) f.cur_fb_state

instance (screen : ScreenGeom) (past : List Rgz) (f : Rgz) :
    Decidable (FrameWithoutMovedReturn screen past f) :=
  inferInstanceAs (Decidable (NoMovedReturn screen _ _ _))

variable {screen : ScreenGeom} {rgz : Rgz} {recs : List Rgz}

/-- In every run without a moved return the damage of every frame covers its geometry
changes. -/
theorem damage_covers_geometry (h : Run screen recs rgz)
    (hno : EveryFrame (FrameWithoutMovedReturn screen) recs) :
    EveryFrame (FrameCovered screen) recs := by
  rw [everyFrame_iff] at hno ⊢
  intro f past hf
  obtain ⟨s, hs⟩ := h.frameOf hf
  have hpast : past <:+ recs := (suffix_cons f past).trans hf
  have hd : f.damaged_area =
      (rgz_handle_dirty_region screen (prevOf past) (targetOf past) s).2 := by
    rw [hs.handled]
  rw [FrameCovered, hd]
  exact geometryCovered_of_noMovedReturn hs.wellFormed.1 (h.wellFormed_prevOf hpast)
    (h.wellFormed_targetOf hpast) hs.cur_eq (hno f past hf)

/-- Three frames in which one layer moves twice. -/
def movingLists : List (List InLayer) :=
  [[sampleLayer 1 100 20 20], [sampleLayer 1 100 10 10], [sampleLayer 1 100 0 0]]

/-- A layer that moves from frame to frame is covered in each of them. -/
theorem damage_covers_geometry_moving :
    ∃ recs, framesOf ⟨40, 40⟩ movingLists = some recs ∧
      EveryFrame (FrameCovered ⟨40, 40⟩) recs := by
  have hno : ∀ recs ∈ framesOf ⟨40, 40⟩ movingLists,
      EveryFrame (FrameWithoutMovedReturn ⟨40, 40⟩) recs := by decide
  have hsome : (framesOf ⟨40, 40⟩ movingLists).isSome := by decide
  obtain ⟨recs, hrecs⟩ := isSome_iff_exists.mp hsome
  obtain ⟨rgz, hrun⟩ := exists_run_of_framesOf hrecs
  exact ⟨recs, hrecs, damage_covers_geometry hrun (hno recs hrecs)⟩

/-- Three frames: a layer is at the origin, then missing, then elsewhere. -/
def returningLists : List (List InLayer) :=
  [[sampleLayer 1 100 20 20, sampleLayer 2 200 20 0], [sampleLayer 2 200 20 0],
    [sampleLayer 1 100 0 0, sampleLayer 2 200 20 0]]

/-- The framebuffer that still shows the layer at the origin is not redrawn there. -/
theorem movedReturn_not_covered :
    ∃ recs rgz, framesOf ⟨40, 40⟩ returningLists = some recs ∧ Run ⟨40, 40⟩ recs rgz ∧
      ¬ EveryFrame (FrameCovered ⟨40, 40⟩) recs := by
  have hstale : ∀ recs ∈ framesOf ⟨40, 40⟩ returningLists, ∃ f ∈ recs.head?,
      ∃ t ∈ (targetOf recs.tail).tail, ¬ PresentIn f.cur_fb_state.tail t ∧
        (0, 0) ∈ clipToScreen ⟨40, 40⟩ t.hwc_layer.displayFrame ∧ (0, 0) ∉ f.damaged_area := by
    decide
  have hsome : (framesOf ⟨40, 40⟩ returningLists).isSome := by decide
  obtain ⟨recs, hrecs⟩ := isSome_iff_exists.mp hsome
  obtain ⟨rgz, hrun⟩ := exists_run_of_framesOf hrecs
  refine ⟨recs, rgz, hrecs, hrun, fun h => ?_⟩
  obtain ⟨f, hf, t, ht, hgone, hclip, hdamage⟩ := hstale recs hrecs
  cases recs with
  | nil => cases hf
  | cons g past =>
    obtain rfl : g = f := some.inj hf
    exact hdamage (h.1.gone t ht hgone _ hclip)

end Runs

end OmapHal.Regionizer
