import OmapHal.Regionizer.Regions

/-!
# Runs of frames

A run starts from the released state; a release in between starts a new one. Its
history keeps, newest first, the state that `rgz_in_hwccheck` left for every frame. The
two framebuffer states of `Rgz` are the layers of the two newest frames.
-/

namespace OmapHal.Regionizer

open OmapHal.Hwc OmapHal.Core List

variable {past : List Rgz} {lists : List (List InLayer)}

/-- The runs of the regionizer with their history. -/
inductive Run (screen : ScreenGeom) : List Rgz → Rgz → Prop
  | released : Run screen [] Rgz.released
  | frame {past rgz rgz' layers} : Run screen past rgz →
      rgz_in_hwccheck screen layers rgz = some rgz' → Run screen (rgz' :: past) rgz'
  | regions {past rgz rgz'} : Run screen past rgz → rgz_in_hwc screen rgz = some rgz' →
      Run screen past rgz'

/-- The frame before, empty at the start of a run. -/
def prevOf (past : List Rgz) : FbState := (past.head?.map Rgz.cur_fb_state).getD []

/-- The content of the framebuffer to draw into: the frame `RGZ_NUM_FB` frames ago. -/
def targetOf (past : List Rgz) : FbState := (past[1]?.map Rgz.cur_fb_state).getD []

@[simp] theorem prevOf_cons {f : Rgz} : prevOf (f :: past) = f.cur_fb_state := rfl

/-- The frame before is the target of the next one. -/
@[simp] theorem targetOf_cons {f : Rgz} :
    targetOf (f :: past) = prevOf past := by
  cases past <;> rfl

/-- Every frame of a history, with the frames before it, has the property. -/
def EveryFrame (P : List Rgz → Rgz → Prop) : List Rgz → Prop
  | [] => True
  | f :: past => P past f ∧ EveryFrame P past

/-- A property that is decided for each frame is decided for all of them. -/
def EveryFrame.decidable (P : List Rgz → Rgz → Prop) [∀ past f, Decidable (P past f)] :
    ∀ recs, Decidable (EveryFrame P recs)
  | [] => inferInstanceAs (Decidable True)
  | f :: past =>
    have : Decidable (EveryFrame P past) := EveryFrame.decidable P past
    inferInstanceAs (Decidable (P past f ∧ EveryFrame P past))

instance (P : List Rgz → Rgz → Prop) [∀ past f, Decidable (P past f)] (recs : List Rgz) :
    Decidable (EveryFrame P recs) := EveryFrame.decidable P recs

variable {screen : ScreenGeom} {rgz rgz' : Rgz} {recs past : List Rgz} {f : Rgz}
  {layers : List InLayer} {P : List Rgz → Rgz → Prop}

theorem everyFrame_iff : EveryFrame P recs ↔ ∀ f past, f :: past <:+ recs → P past f := by
  induction recs with
  | nil => exact ⟨fun _ f past hf => absurd hf (by simp), fun _ => trivial⟩
  | cons g rest ih =>
    simp only [EveryFrame, ih, suffix_cons_iff]
    constructor
    · rintro ⟨hg, hrest⟩ f past (heq | hf)
      · obtain ⟨rfl, rfl⟩ := cons.inj heq
        exact hg
      · exact hrest f past hf
    · exact fun h => ⟨h g rest (Or.inl rfl), fun f past hf => h f past (Or.inr hf)⟩

/-- The frame is what an accepted layer list makes of the frames before it. -/
structure FrameOf (screen : ScreenGeom) (past : List Rgz) (s : FbState) (f : Rgz) : Prop where
  accepted : ∃ layers, acceptedLayers screen layers = some s
  checked : Checked screen f
  handled : rgz_handle_dirty_region screen (prevOf past) (targetOf past) s =
    (f.cur_fb_state, f.damaged_area)

theorem FrameOf.cur_eq {s : FbState} (h : FrameOf screen past s f) :
    f.cur_fb_state = s.mapIdx fun j l =>
      { l with dirty_count := dirtyCount (prevOf past) (targetOf past) j l } := by
  rw [← rgz_handle_dirty_region_fst, h.handled]

theorem FrameOf.wellFormed {s : FbState} (h : FrameOf screen past s f) :
    FbState.WellFormed s ∧ FbState.WellFormed f.cur_fb_state := by
  obtain ⟨layers, hl⟩ := h.accepted
  have hs := wellFormed_of_acceptedLayers hl
  exact ⟨hs, h.cur_eq ▸ hs.mapIdx _⟩

/-- A framebuffer state of `Rgz` and its other one after a frame. -/
theorem nextIdx_of_frame (h : rgz_in_hwccheck screen layers rgz = some rgz') :
    rgz'.get_prev_fb_state = rgz'.cur_fb_state ∧
      rgz'.fb_states rgz'.nextIdx = rgz.get_prev_fb_state := by
  obtain ⟨s, -, rfl⟩ := rgz_in_hwccheck_eq_some.mp h
  have hback : ∀ i : Fin RGZ_NUM_FB, i + 1 + 1 = i ∧ i ≠ i + 1 := by decide
  simp only [Rgz.get_prev_fb_state, Rgz.nextIdx, Function.update_self, (hback _).1, true_and]
  exact Function.update_of_ne (hback _).2 _ _

/-- The framebuffer states are the newest two frames of the history. -/
theorem Run.fb_states (h : Run screen recs rgz) :
    rgz.get_prev_fb_state = prevOf recs ∧ rgz.fb_states rgz.nextIdx = targetOf recs := by
  induction h with
  | released => exact ⟨rfl, rfl⟩
  | frame hrun hin ih =>
    obtain ⟨hprev, hnext⟩ := nextIdx_of_frame hin
    rw [targetOf_cons, prevOf_cons]
    exact ⟨hprev, hnext.trans ih.1⟩
  | regions hrun hin ih =>
    obtain ⟨-, -, rfl⟩ := rgz_in_hwc_eq_some.mp hin
    exact ih

/-- Every frame of the history is made from the frames before it. -/
theorem Run.frameOf (h : Run screen recs rgz) (hf : f :: past <:+ recs) :
    ∃ s, FrameOf screen past s f := by
  induction h with
  | released => exact absurd hf (by simp)
  | @frame past' rgz₁ rgz₂ layers hrun hin ih =>
    rcases suffix_cons_iff.mp hf with heq | hf
    · obtain ⟨rfl, rfl⟩ := cons.inj heq
      obtain ⟨s, hs, rfl⟩ := rgz_in_hwccheck_eq_some.mp hin
      obtain ⟨hprev, htarget⟩ := hrun.fb_states
      refine ⟨s, ⟨layers, hs⟩, checked_of_rgz_in_hwccheck hin, ?_⟩
      rw [← hprev, ← htarget]
    · exact ih hf
  | regions hrun hin ih => exact ih hf

/-- The frames of the history are well formed. -/
theorem Run.wellFormed_prevOf (h : Run screen recs rgz) (hp : past <:+ recs) :
    FbState.WellFormed (prevOf past) := by
  cases past with
  | nil => exact ⟨fun l hl => (by cases hl), fun l hl => (by cases hl)⟩
  | cons f past =>
    obtain ⟨s, hs⟩ := h.frameOf hp
    exact hs.wellFormed.2

theorem Run.wellFormed_targetOf (h : Run screen recs rgz) (hp : past <:+ recs) :
    FbState.WellFormed (targetOf past) := by
  cases past with
  | nil => exact ⟨fun l hl => (by cases hl), fun l hl => (by cases hl)⟩
  | cons f past =>
    rw [targetOf_cons]
    exact h.wellFormed_prevOf ((suffix_cons f past).trans hp)

/-- The run over these layer lists, newest first. -/
def runFrames (screen : ScreenGeom) : List (List InLayer) → Option (List Rgz × Rgz)
  | [] => some ([], Rgz.released)
  | layers :: past =>
    (runFrames screen past).bind fun (recs, rgz) =>
      (rgz_in_hwccheck screen layers rgz).map fun rgz' => (rgz' :: recs, rgz')

/-- The histories of these runs. -/
def framesOf (screen : ScreenGeom) (lists : List (List InLayer)) : Option (List Rgz) :=
  (runFrames screen lists).map Prod.fst

/-- Such a run is one of the runs. -/
theorem run_of_runFrames (h : runFrames screen lists = some (recs, rgz)) : Run screen recs rgz := by
  induction lists generalizing recs rgz with
  | nil =>
    rw [runFrames, Option.some.injEq, Prod.mk.injEq] at h
    obtain ⟨rfl, rfl⟩ := h
    exact .released
  | cons layers lists ih =>
    simp only [runFrames, Option.bind_eq_some_iff, Option.map_eq_some_iff, Prod.mk.injEq] at h
    obtain ⟨⟨recs', rgz'⟩, hpast, rgz₁, hin, rfl, rfl⟩ := h
    exact .frame (ih hpast) hin

theorem exists_run_of_framesOf (h : framesOf screen lists = some recs) :
    ∃ rgz, Run screen recs rgz := by
  obtain ⟨⟨recs', rgz⟩, hrun, rfl⟩ := Option.map_eq_some_iff.mp h
  exact ⟨rgz, run_of_runFrames hrun⟩

end OmapHal.Regionizer
