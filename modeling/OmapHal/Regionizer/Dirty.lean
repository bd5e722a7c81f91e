import Mathlib
import OmapHal.Regionizer.State

/-!
# Damage and dirty counters

`rgz_handle_dirty_region` compares the current layers with the previous frame and
with the frame last drawn into the target framebuffer. `dirtyLayer` is the body of
its first loop, `damageMissing` its second one.
-/

namespace OmapHal.Regionizer

open OmapHal.Hwc OmapHal.Core List Option

/-- A display frame clipped to the screen. -/
def clipToScreen (screen : ScreenGeom) (displayFrame : Rect) : Rect :=
  ⟨max 0 displayFrame.left, max 0 displayFrame.top,
    min screen.width displayFrame.right, min screen.height displayFrame.bottom⟩

/-- `rgz_add_to_damaged_area`. -/
def rgz_add_to_damaged_area (screen : ScreenGeom) (l : RgzLayer) (damaged_area : Rect) : Rect :=
  if screen.rect.meets l.hwc_layer.displayFrame then
    let layer_rect := clipToScreen screen l.hwc_layer.displayFrame
    if empty_rect damaged_area then layer_rect
    else
      ⟨min damaged_area.left layer_rect.left, min damaged_area.top layer_rect.top,
        max damaged_area.right layer_rect.right, max damaged_area.bottom layer_rect.bottom⟩
  else damaged_area

/-- `rgz_find_layer`: the first layer with the identity, the background aside. -/
def rgz_find_layer (layers : FbState) (identity : Nat) : Option RgzLayer :=
  layers.find? fun l => l.buffidx != RGZ_BACKGROUND_BUFFIDX && l.identity == identity

/-- The fields whose change counts as new content. -/
def sameContent (cur prev : HwcLayer) : Bool :=
  cur.handle.address == prev.handle.address && cur.transform == prev.transform &&
    cur.sourceCrop == prev.sourceCrop

/-- `rgz_has_layer_content_changed`. -/
def rgz_has_layer_content_changed (cur prev : RgzLayer) : Bool :=
  if cur.buffidx = RGZ_BACKGROUND_BUFFIDX ∧ prev.buffidx = RGZ_BACKGROUND_BUFFIDX then false
  else if cur.identity ≠ prev.identity then true
  else if cur.buffidx = RGZ_CLEARHINT_BUFFIDX ∧ prev.buffidx = RGZ_CLEARHINT_BUFFIDX then false
  else !sameContent cur.hwc_layer prev.hwc_layer

/-- `rgz_has_layer_frame_moved`. -/
def rgz_has_layer_frame_moved (cur target : RgzLayer) : Bool :=
  if cur.identity ≠ target.identity then true
  else cur.hwc_layer.displayFrame != target.hwc_layer.displayFrame

/-- The dirty count before any move is noticed. -/
def contentDirtyCount (cur : RgzLayer) : Option RgzLayer → Nat
  | none => RGZ_NUM_FB
  | some prev =>
    if rgz_has_layer_content_changed cur prev then RGZ_NUM_FB else prev.dirty_count - 1

/-- The previous layer that the current one is compared with: the background is
always at index 0. -/
def prevLayer (prev : FbState) (i : Nat) (cur : RgzLayer) : Option RgzLayer :=
  if i = 0 then prev.head? else rgz_find_layer prev cur.identity

/-- The body of the first loop: the layer with its dirty count, and the damage. -/
def dirtyLayer (screen : ScreenGeom) (prev target : FbState) (i : Nat) (cur : RgzLayer)
    (damaged_area : Rect) : RgzLayer × Rect :=
  let prev_rgz_layer := prevLayer prev i cur
  let cur := { cur with dirty_count := contentDirtyCount cur prev_rgz_layer }
  if prev_rgz_layer.isNone then (cur, rgz_add_to_damaged_area screen cur damaged_area)
  else if i = 0 then (cur, damaged_area)
  else match rgz_find_layer target cur.identity with
    | some target_rgz_layer =>
      if rgz_has_layer_frame_moved cur target_rgz_layer then
        ({ cur with dirty_count := RGZ_NUM_FB },
          rgz_add_to_damaged_area screen target_rgz_layer
            (rgz_add_to_damaged_area screen cur damaged_area))
      else (cur, damaged_area)
    | none => (cur, rgz_add_to_damaged_area screen cur damaged_area)

/-- The first loop, from index `i` on. -/
def dirtyLayers (screen : ScreenGeom) (prev target : FbState) :
    Nat → FbState → Rect → FbState × Rect
  | _, [], damaged_area => ([], damaged_area)
  | i, l :: ls, damaged_area =>
    let (l', damaged_area) := dirtyLayer screen prev target i l damaged_area
    let (ls', damaged_area) := dirtyLayers screen prev target (i + 1) ls damaged_area
    (l' :: ls', damaged_area)

/-- The second loop: layers of the target that are not in the current frame. -/
def damageMissing (screen : ScreenGeom) (cur : FbState) : FbState → Rect → Rect
  | [], damaged_area => damaged_area
  | t :: ts, damaged_area =>
    damageMissing screen cur ts
      (if (rgz_find_layer cur t.identity).isSome then damaged_area
      else rgz_add_to_damaged_area screen t damaged_area)

/-- `rgz_handle_dirty_region`: the current layers with their dirty counts, and the
damaged area. -/
def rgz_handle_dirty_region (screen : ScreenGeom) (prev target cur : FbState) : FbState × Rect :=
  let (cur, damaged_area) := dirtyLayers screen prev target 0 cur zeroRect
  (cur, damageMissing screen cur target.tail damaged_area)

/-- `get_prev_fb_state`. -/
def Rgz.get_prev_fb_state (rgz : Rgz) : FbState := rgz.fb_states rgz.fb_state_idx

attribute [local instance] neZeroFb

/-- The state that `get_next_fb_state` moves on to. -/
def Rgz.nextIdx (rgz : Rgz) : Fin RGZ_NUM_FB := rgz.fb_state_idx + 1

/-- `rgz_in_hwccheck`; `none` stands for the result `-1`, after which the caller
releases the state. -/
def rgz_in_hwccheck (screen : ScreenGeom) (layers : List InLayer) (rgz : Rgz) : Option Rgz :=
  match acceptedLayers screen layers with
  | none => none
  | some cur_fb_state =>
    let prev_fb_state := rgz.get_prev_fb_state
    let target_fb_state := rgz.fb_states rgz.nextIdx
    let (cur_fb_state, damaged_area) :=
      rgz_handle_dirty_region screen prev_fb_state target_fb_state cur_fb_state
    some { rgz with
      stateInit := true
      cur_fb_state := cur_fb_state
      damaged_area := damaged_area
      fb_state_idx := rgz.nextIdx
      fb_states := Function.update rgz.fb_states rgz.nextIdx cur_fb_state }

section Damage

variable {screen : ScreenGeom} {l : RgzLayer} {d : Rect} {p : Int × Int}

theorem clipToScreen_eq {r : Rect} : clipToScreen screen r = screen.rect.inter r := rfl

theorem mem_clipToScreen {r : Rect} : p ∈ clipToScreen screen r ↔ p ∈ screen.rect ∧ p ∈ r := by
  rw [clipToScreen_eq, Box.mem_inter]

/-- Growing the damage keeps what is damaged. -/
theorem mem_add_of_mem (h : p ∈ d) : p ∈ rgz_add_to_damaged_area screen l d := by
  rw [rgz_add_to_damaged_area]
  split
  · split
    · rename_i hd
      rw [empty_rect_iff.mp hd, zeroRect, Box.mem_def] at h
      exact absurd (h.1.1.trans_lt h.1.2) (lt_irrefl 0)
    · exact Box.mem_hull_left h
  · exact h

/-- Growing the damage by a layer damages the layer's part of the screen. -/
theorem mem_add_of_mem_frame (h : p ∈ clipToScreen screen l.hwc_layer.displayFrame) :
    p ∈ rgz_add_to_damaged_area screen l d := by
  have hm := mem_clipToScreen.mp h
  rw [rgz_add_to_damaged_area, if_pos (Box.meets_of_mem hm.1 hm.2)]
  split
  · exact h
  · exact Box.mem_hull_right h

section Growth

variable (P : Rect → Prop) (hadd : ∀ l d, P d → P (rgz_add_to_damaged_area screen l d))

include hadd

/-- The body of the first loop only grows the damage. -/
theorem dirtyLayer_grows {prev target : FbState} {i : Nat} (h : P d) :
    P (dirtyLayer screen prev target i l d).2 := by
  simp only [dirtyLayer]
  split
  · exact hadd _ _ h
  · split
    · exact h
    · split
      · split
        · exact hadd _ _ (hadd _ _ h)
        · exact h
      · exact hadd _ _ h

/-- The first loop only grows the damage. -/
theorem dirtyLayers_grows {prev target : FbState} {i : Nat} {ls : FbState} (h : P d) :
    P (dirtyLayers screen prev target i ls d).2 := by
  induction ls generalizing i d with
  | nil => exact h
  | cons l ls ih => exact ih (dirtyLayer_grows P hadd h)

/-- The second loop only grows the damage. -/
theorem damageMissing_grows {cur ts : FbState} (h : P d) :
    P (damageMissing screen cur ts d) := by
  induction ts generalizing d with
  | nil => exact h
  | cons t ts ih =>
    apply ih
    split
    · exact h
    · exact hadd _ _ h

end Growth

/-- What a layer damages at its turn in the first loop stays damaged. -/
theorem mem_dirtyLayers_of_getElem? {prev target : FbState} {i j : Nat} {ls : FbState}
    (hl : ls[j]? = some l) (h : ∀ d, p ∈ (dirtyLayer screen prev target (i + j) l d).2) :
    p ∈ (dirtyLayers screen prev target i ls d).2 := by
  induction ls generalizing i j d with
  | nil => cases hl
  | cons l' ls ih =>
    cases j with
    | zero =>
      rw [getElem?_cons_zero, some.injEq] at hl
      subst hl
      rw [dirtyLayers]
      exact dirtyLayers_grows (fun d => p ∈ d) (fun _ _ => mem_add_of_mem) (h d)
    | succ j =>
      refine ih (by simpa only [getElem?_cons_succ] using hl) fun d => ?_
      rw [show i + 1 + j = i + (j + 1) by omega]
      exact h d

/-- A layer that the second loop does not find in the current frame is damaged. -/
theorem mem_damageMissing_of_missing {cur ts : FbState} {t : RgzLayer} (ht : t ∈ ts)
    (hc : rgz_find_layer cur t.identity = none)
    (h : p ∈ clipToScreen screen t.hwc_layer.displayFrame) :
    p ∈ damageMissing screen cur ts d := by
  induction ts generalizing d with
  | nil => cases ht
  | cons t' ts ih =>
    rcases mem_cons.mp ht with rfl | ht
    · rw [damageMissing, hc, isSome_none, if_neg Bool.false_ne_true]
      exact damageMissing_grows (fun d => p ∈ d) (fun _ _ => mem_add_of_mem)
        (mem_add_of_mem_frame h)
    · exact ih ht

end Damage

section Counts

variable {screen : ScreenGeom} {prev target : FbState} {i : Nat} {cur : RgzLayer} {d : Rect}

/-- The dirty count that a layer gets. -/
def dirtyCount (prev target : FbState) (i : Nat) (cur : RgzLayer) : Nat :=
  match prevLayer prev i cur with
  | none => RGZ_NUM_FB
  | some prev_rgz_layer =>
    if i ≠ 0 ∧ (rgz_find_layer target cur.identity).any (rgz_has_layer_frame_moved cur) then
      RGZ_NUM_FB
    else contentDirtyCount cur (some prev_rgz_layer)

/-- The first loop changes nothing of a layer but its dirty count. -/
theorem dirtyLayer_fst :
    (dirtyLayer screen prev target i cur d).1 =
      { cur with dirty_count := dirtyCount prev target i cur } := by
  simp only [dirtyLayer, dirtyCount]
  cases hp : prevLayer prev i cur with
  | none => rfl
  | some q =>
    simp only [isNone_some, Bool.false_eq_true, if_false]
    by_cases hi : i = 0
    · simp only [hi, ne_eq, not_true_eq_false, false_and, if_false, if_true]
    · simp only [hi, ne_eq, not_false_eq_true, true_and, if_false]
      cases rgz_find_layer target cur.identity with
      | none => rfl
      | some t =>
        have hm : rgz_has_layer_frame_moved
            { cur with dirty_count := contentDirtyCount cur (some q) } t =
              rgz_has_layer_frame_moved cur t := rfl
        simp only [any_some, hm]
        split <;> rfl

/-- The whole first loop likewise. -/
theorem dirtyLayers_fst {ls : FbState} :
    (dirtyLayers screen prev target i ls d).1 =
      ls.mapIdx fun j l => { l with dirty_count := dirtyCount prev target (i + j) l } := by
  induction ls generalizing i d with
  | nil => rfl
  | cons l ls ih =>
    simp only [dirtyLayers, mapIdx_cons, dirtyLayer_fst, ih, Nat.add_zero]
    congr 2
    funext j l
    rw [show i + 1 + j = i + (j + 1) by omega]

/-- The current layers after `rgz_handle_dirty_region`. -/
theorem rgz_handle_dirty_region_fst {ls : FbState} :
    (rgz_handle_dirty_region screen prev target ls).1 =
      ls.mapIdx fun j l => { l with dirty_count := dirtyCount prev target j l } := by
  simp only [rgz_handle_dirty_region, dirtyLayers_fst, Nat.zero_add]

end Counts

section Accepted

/-- A layer of the list that may be blitted, with the index of its buffer; or one with
the clear hint, without a buffer. -/
def RgzLayer.FromList (l : RgzLayer) : Prop :=
  (0 ≤ l.buffidx ∧ rgz_in_valid_hwc_layer l.hwc_layer = true) ∨
    (l.buffidx = RGZ_CLEARHINT_BUFFIDX ∧ l.hwc_layer.handle = .dummy)

/-- What the layer loop of `rgz_in_hwccheck` keeps. -/
structure CheckState.Inv (s : CheckState) : Prop where
  memidx : 0 ≤ s.memidx
  fromList : ∀ l ∈ s.blit, l.FromList
  below : ∀ l ∈ s.blit, l.buffidx < s.memidx
  /-- No two layers have the same buffer. -/
  distinct : s.blit.Pairwise fun a b => 0 ≤ a.buffidx → a.buffidx ≠ b.buffidx
  length : s.blit.length ≤ RGZ_INPUT_MAXLAYERS

/-- A layer that is put behind the others keeps the invariant. -/
theorem CheckState.Inv.concat {s : CheckState} (h : s.Inv) {l : RgzLayer} {memidx : Int}
    {candidates : Nat} (hle : s.memidx ≤ memidx) (hl : l.FromList) (hbelow : l.buffidx < memidx)
    (hnew : 0 ≤ l.buffidx → s.memidx ≤ l.buffidx) (hlen : s.blit.length < RGZ_INPUT_MAXLAYERS) :
    CheckState.Inv ⟨memidx, candidates, s.blit ++ [l]⟩ := by
  constructor
  · exact h.memidx.trans hle
  · intro m hm
    rcases mem_append.mp hm with hm | hm
    · exact h.fromList m hm
    · exact mem_singleton.mp hm ▸ hl
  · intro m hm
    rcases mem_append.mp hm with hm | hm
    · exact (h.below m hm).trans_le hle
    · exact mem_singleton.mp hm ▸ hbelow
  · refine pairwise_append.mpr ⟨h.distinct, pairwise_singleton _ _, ?_⟩
    intro a ha b hb hidx heq
    rw [mem_singleton.mp hb] at heq
    have hlt := h.below a ha
    have hge := hnew (heq ▸ hidx)
    omega
  · rw [length_append, length_singleton]
    omega

/-- The body of the loop keeps the invariant. -/
theorem CheckState.Inv.checkLayer {s : CheckState} (h : s.Inv) (l : InLayer) :
    (checkLayer s l).Inv := by
  have hskip : CheckState.Inv { s with candidates := s.candidates + 1 } :=
    { h with }
  rw [Regionizer.checkLayer]
  split
  · split
    · rename_i hvalid
      refine h.concat (by omega) (Or.inl ⟨h.memidx, hvalid.1⟩) ?_ (fun _ => le_refl _) hvalid.2
      dsimp only
      omega
    · exact hskip
  · split
    · split
      · rename_i hlen
        refine h.concat (le_refl _) (Or.inr ⟨rfl, rfl⟩) ?_ (fun h0 => ?_) hlen
        · exact lt_of_lt_of_le (show RGZ_CLEARHINT_BUFFIDX < 0 by decide) h.memidx
        · exact absurd h0 (show ¬0 ≤ RGZ_CLEARHINT_BUFFIDX by decide)
      · exact hskip
    · exact h

/-- The loop ends with the invariant. -/
theorem inv_checkLayers (layers : List InLayer) : (checkLayers layers).Inv := by
  have hfold : ∀ (ls : List InLayer) (s : CheckState), s.Inv → (ls.foldl checkLayer s).Inv := by
    intro ls
    induction ls with
    | nil => exact fun s h => h
    | cons l ls ih => exact fun s h => ih _ (h.checkLayer l)
  refine hfold layers _ ⟨Int.natCast_nonneg _, ?_, ?_, Pairwise.nil, Nat.zero_le _⟩
  · exact fun l hl => by cases hl
  · exact fun l hl => by cases hl

/-- A layer of the list is not the background. -/
theorem RgzLayer.FromList.ne_background {l : RgzLayer} (h : l.FromList) :
    l.buffidx ≠ RGZ_BACKGROUND_BUFFIDX := by
  rcases h with ⟨h, -⟩ | ⟨h, -⟩
  · exact fun h' => absurd (h' ▸ h) (by decide)
  · rw [h]
    decide

/-- A frame state is empty, or the background is first and only first. -/
def FbState.WellFormed (s : FbState) : Prop :=
  (∀ l ∈ s.head?, l.buffidx = RGZ_BACKGROUND_BUFFIDX) ∧
    ∀ l ∈ s.tail, l.buffidx ≠ RGZ_BACKGROUND_BUFFIDX

/-- The check builds well-formed frame states. -/
theorem wellFormed_of_acceptedLayers {screen : ScreenGeom} {layers : List InLayer} {s : FbState}
    (h : acceptedLayers screen layers = some s) : FbState.WellFormed s := by
  simp only [acceptedLayers] at h
  split at h
  · cases h
  · rw [some.injEq] at h
    subst h
    refine ⟨fun l hl => ?_, fun l hl => ((inv_checkLayers layers).fromList l hl).ne_background⟩
    rw [head?_cons, mem_def, some.injEq] at hl
    rw [← hl]
    rfl

/-- Dirty counts do not matter for well-formedness. -/
theorem FbState.WellFormed.mapIdx {s : FbState} (h : FbState.WellFormed s)
    (n : Nat → RgzLayer → Nat) :
    FbState.WellFormed (s.mapIdx fun j l => { l with dirty_count := n j l }) := by
  cases s with
  | nil => exact h
  | cons b ls =>
    refine ⟨fun l hl => ?_, fun l hl => ?_⟩
    · rw [mapIdx_cons, head?_cons, mem_def, some.injEq] at hl
      rw [← hl]
      exact h.1 b rfl
    · rw [mapIdx_cons, tail_cons, mem_mapIdx] at hl
      obtain ⟨j, hj, rfl⟩ := hl
      exact h.2 ls[j] (getElem_mem hj)

/-- A layer that is found has the identity and is not the background. -/
theorem of_rgz_find_layer {s : FbState} {identity : Nat} {l : RgzLayer}
    (h : rgz_find_layer s identity = some l) :
    l ∈ s ∧ l.buffidx ≠ RGZ_BACKGROUND_BUFFIDX ∧ l.identity = identity := by
  have hp := find?_some h
  rw [Bool.and_eq_true, bne_iff_ne, beq_iff_eq] at hp
  exact ⟨mem_of_find?_eq_some h, hp.1, hp.2⟩

/-- The search fails only where no layer behind the background has the identity. -/
theorem rgz_find_layer_eq_none {s : FbState} (hs : FbState.WellFormed s) {identity : Nat} :
    rgz_find_layer s identity = none ↔ ∀ l ∈ s.tail, l.identity ≠ identity := by
  rw [rgz_find_layer, find?_eq_none]
  constructor
  · intro h l hl hid
    apply h l (mem_of_mem_tail hl)
    rw [Bool.and_eq_true, bne_iff_ne, beq_iff_eq]
    exact ⟨hs.2 l hl, hid⟩
  · intro h l hl hp
    rw [Bool.and_eq_true, bne_iff_ne, beq_iff_eq] at hp
    cases s with
    | nil => cases hl
    | cons b ls =>
      rcases mem_cons.mp hl with rfl | hl
      · exact hp.1 (hs.1 l rfl)
      · exact h l hl hp.2

/-- What is found in a well-formed state stands behind the background. -/
theorem mem_tail_of_rgz_find_layer {s : FbState} (hs : FbState.WellFormed s) {identity : Nat}
    {l : RgzLayer} (h : rgz_find_layer s identity = some l) :
    l ∈ s.tail ∧ l.identity = identity := by
  obtain ⟨hl, hb, hid⟩ := of_rgz_find_layer h
  refine ⟨?_, hid⟩
  cases s with
  | nil => cases hl
  | cons b ls =>
    rcases mem_cons.mp hl with rfl | hl
    · exact absurd (hs.1 l rfl) hb
    · exact hl

end Accepted

section Checked

variable {screen : ScreenGeom} {l : RgzLayer} {d : Rect}

/-- All edges of a rectangle are on the screen. -/
structure EdgesOnScreen (screen : ScreenGeom) (r : Rect) : Prop where
  left : 0 ≤ r.left ∧ r.left ≤ screen.width
  top : 0 ≤ r.top ∧ r.top ≤ screen.height
  right : 0 ≤ r.right ∧ r.right ≤ screen.width
  bottom : 0 ≤ r.bottom ∧ r.bottom ≤ screen.height

theorem edgesOnScreen_zeroRect : EdgesOnScreen screen zeroRect := by
  constructor <;> exact ⟨le_refl 0, Int.natCast_nonneg _⟩

/-- Damage grows inside the screen only. -/
theorem EdgesOnScreen.add (h : EdgesOnScreen screen d) :
    EdgesOnScreen screen (rgz_add_to_damaged_area screen l d) := by
  rw [rgz_add_to_damaged_area]
  split
  · rename_i hm
    obtain ⟨⟨h1, h2⟩, h3, h4⟩ := Box.meets_iff.mp hm
    dsimp only [ScreenGeom.rect] at h1 h2 h3 h4
    have hclip : EdgesOnScreen screen (clipToScreen screen l.hwc_layer.displayFrame) := by
      constructor <;> dsimp only [clipToScreen] <;> omega
    split
    · exact hclip
    · obtain ⟨hl, ht, hr, hb⟩ := h
      obtain ⟨cl, ct, cr, cb⟩ := hclip
      constructor <;> dsimp only <;> omega
  · exact h

/-- The state that a successful `rgz_in_hwccheck` leaves. -/
structure Checked (screen : ScreenGeom) (rgz : Rgz) : Prop where
  stateInit : rgz.stateInit = true
  /-- The first layer is the background, of the size of the screen. -/
  background : ∃ b ls, rgz.cur_fb_state = b :: ls ∧
    b.hwc_layer = (rgz_background_layer screen).hwc_layer
  wellFormed : FbState.WellFormed rgz.cur_fb_state
  fromList : ∀ l ∈ rgz.cur_fb_state.tail, l.FromList
  /-- No two layers have the same buffer. -/
  distinct : rgz.cur_fb_state.tail.Pairwise fun a b => 0 ≤ a.buffidx → a.buffidx ≠ b.buffidx
  length : rgz.cur_fb_state.tail.length ≤ RGZ_INPUT_MAXLAYERS
  damage : EdgesOnScreen screen rgz.damaged_area

/-- What a successful `rgz_in_hwccheck` does. -/
theorem rgz_in_hwccheck_eq_some {layers : List InLayer} {rgz rgz' : Rgz} :
    rgz_in_hwccheck screen layers rgz = some rgz' ↔
      ∃ s, acceptedLayers screen layers = some s ∧
        rgz' = { rgz with
          stateInit := true
          cur_fb_state := (rgz_handle_dirty_region screen rgz.get_prev_fb_state
            (rgz.fb_states rgz.nextIdx) s).1
          damaged_area := (rgz_handle_dirty_region screen rgz.get_prev_fb_state
            (rgz.fb_states rgz.nextIdx) s).2
          fb_state_idx := rgz.nextIdx
          fb_states := Function.update rgz.fb_states rgz.nextIdx
            (rgz_handle_dirty_region screen rgz.get_prev_fb_state
              (rgz.fb_states rgz.nextIdx) s).1 } := by
  rw [rgz_in_hwccheck]
  cases acceptedLayers screen layers with
  | none => simp
  | some s =>
    simp only [some.injEq, exists_eq_left']
    exact eq_comm

/-- The accepted layers begin with the background. -/
theorem acceptedLayers_eq_cons {layers : List InLayer} {s : FbState}
    (h : acceptedLayers screen layers = some s) :
    s = rgz_background_layer screen :: (checkLayers layers).blit := by
  simp only [acceptedLayers] at h
  split at h
  · cases h
  · exact (some.inj h).symm

/-- Every accepted frame is checked. -/
theorem checked_of_rgz_in_hwccheck {layers : List InLayer} {rgz rgz' : Rgz}
    (h : rgz_in_hwccheck screen layers rgz = some rgz') : Checked screen rgz' := by
  obtain ⟨s, hs, rfl⟩ := rgz_in_hwccheck_eq_some.mp h
  constructor
  · rfl
  · dsimp only
    rw [rgz_handle_dirty_region_fst, acceptedLayers_eq_cons hs, mapIdx_cons]
    exact ⟨_, _, rfl, rfl⟩
  · dsimp only
    rw [rgz_handle_dirty_region_fst]
    exact (wellFormed_of_acceptedLayers hs).mapIdx _
  · dsimp only
    rw [rgz_handle_dirty_region_fst, acceptedLayers_eq_cons hs, mapIdx_cons, tail_cons]
    intro l hl
    obtain ⟨j, hj, rfl⟩ := mem_mapIdx.mp hl
    exact (inv_checkLayers layers).fromList (checkLayers layers).blit[j] (getElem_mem hj)
  · dsimp only
    rw [rgz_handle_dirty_region_fst, acceptedLayers_eq_cons hs, mapIdx_cons, tail_cons]
    rw [pairwise_iff_getElem]
    intro i j hi hj hij
    rw [getElem_mapIdx, getElem_mapIdx]
    rw [length_mapIdx] at hi hj
    exact pairwise_iff_getElem.mp (inv_checkLayers layers).distinct i j hi hj hij
  · dsimp only
    rw [rgz_handle_dirty_region_fst, acceptedLayers_eq_cons hs, mapIdx_cons, tail_cons,
      length_mapIdx]
    exact (inv_checkLayers layers).length
  · exact damageMissing_grows (EdgesOnScreen screen) (fun _ _ => EdgesOnScreen.add)
      (dirtyLayers_grows _ (fun _ _ => EdgesOnScreen.add) edgesOnScreen_zeroRect)

end Checked

end OmapHal.Regionizer
