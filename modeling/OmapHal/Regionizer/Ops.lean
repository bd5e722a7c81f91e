import OmapHal.Core.Compositing
import OmapHal.Regionizer.Tiling

/-!
# The layers to draw in a subregion

`get_layer_ops` walks the layers of a subregion from front to back up to the first one
that needs no blending, and `get_layer_ops_next` goes back up from there. For a cell
on the screen both see the layers that cover its pixels.
-/

namespace OmapHal.Regionizer

open OmapHal.Hwc OmapHal.Core List Nat Bool

variable {rest : List Nat} {vs layers : List RgzLayer} {p : Int × Int} {l : RgzLayer}

/-- Why an output operation ends early: a read through a handle that is no buffer, or
the result `-1`. -/
inductive Stop where
  | fault
  | failed
  deriving DecidableEq, Repr

/-- Whether the layer needs no blending. The format is read only for layers with
`HWC_BLENDING_PREMULT`; `none` is a read through a handle that is no buffer. -/
def endsOps (layer : HwcLayer) : Option Bool :=
  if layer.blending ≠ HWC_BLENDING_PREMULT then some true
  else layer.handle.deref?.map fun h => is_OPAQUE h.iFormat

/-- `endsOps` of layer `l` of a horizontal region. -/
def BlitHregion.endsAt (h : BlitHregion) (l : Nat) : Option Bool :=
  (h.rgz_layers[l]?).bind fun layer => endsOps layer.hwc_layer

/-- The loop of `get_layer_ops`, with the layers below `l` left. -/
def getLayerOpsFrom (hregion : BlitHregion) (subregion : Nat) :
    Nat → Nat → Option Nat → Except Stop (Nat × Option Nat)
  | 0, ops, bottom => .ok (ops, bottom)
  | l + 1, ops, bottom =>
    if empty_rect (hregion.blitrect l subregion) then
      getLayerOpsFrom hregion subregion l ops bottom
    else
      match hregion.endsAt l with
      | none => .error .fault
      | some true => .ok (ops + 1, some l)
      | some false => getLayerOpsFrom hregion subregion l (ops + 1) (some l)

/-- `get_layer_ops`: the number of operations and `bottom`, `none` for `-1`. -/
def get_layer_ops (hregion : BlitHregion) (subregion : Nat) : Except Stop (Nat × Option Nat) :=
  getLayerOpsFrom hregion subregion hregion.rgz_layers.length 0 none

/-- The loop of `get_layer_ops_next` at `l`, with `n` layers left. -/
def nextFrom (hregion : BlitHregion) (subregion : Nat) : Nat → Nat → Option Nat
  | 0, _ => none
  | n + 1, l =>
    if empty_rect (hregion.blitrect l subregion) then nextFrom hregion subregion n (l + 1)
    else some l

/-- `get_layer_ops_next`, `none` for `-1`. -/
def get_layer_ops_next (hregion : BlitHregion) (subregion l : Nat) : Option Nat :=
  nextFrom hregion subregion (hregion.rgz_layers.length - (l + 1)) (l + 1)

/-- The loop of `get_top_rect`, with the layers below `l` left. -/
def topFrom (hregion : BlitHregion) (subregion : Nat) : Nat → Option Nat
  | 0 => none
  | l + 1 =>
    if empty_rect (hregion.blitrect l subregion) then topFrom hregion subregion l else some l

/-- `get_top_rect`, `none` for `-1`. -/
def get_top_rect (hregion : BlitHregion) (subregion : Nat) : Option Nat :=
  topFrom hregion subregion hregion.rgz_layers.length

/-- The layers that a loop over `get_layer_ops_next` visits from `l` on, in at most `n`
rounds. -/
def visits (hregion : BlitHregion) (subregion : Nat) : Nat → Nat → List Nat
  | 0, _ => []
  | n + 1, l =>
    match get_layer_ops_next hregion subregion l with
    | none => []
    | some l' => l' :: visits hregion subregion n l'

/-- The layers that `while ((l = get_layer_ops_next(.., l)) != -1)` visits. -/
def opsAfter (hregion : BlitHregion) (subregion l : Nat) : List Nat :=
  visits hregion subregion hregion.rgz_layers.length l

/-- Layer `l` has a dirty count. -/
def BlitHregion.dirtyAt (h : BlitHregion) (l : Nat) : Bool :=
  (h.rgz_layers[l]?).any fun layer => layer.dirty_count != 0

/-- Whether `rgz_hwc_subregion_blit` draws the subregion, with `lix` the bottom layer. -/
def subregionDirty (hregion : BlitHregion) (sidx lix : Nat) (damaged_area : Rect) : Bool :=
  damaged_area.meets (hregion.blitrect lix sidx) ||
    (lix :: opsAfter hregion sidx lix).any hregion.dirtyAt

section Drawn

variable {hregion : BlitHregion} {subregion l n ops : Nat} {bottom : Option Nat}

/-- The layers from `l` on with a rectangle in the subregion, bottom first. -/
def drawnFrom (hregion : BlitHregion) (subregion l : Nat) : List Nat :=
  (List.range' l (hregion.rgz_layers.length - l)).filter fun j =>
    !empty_rect (hregion.blitrect j subregion)

theorem mem_drawnFrom {j : Nat} :
    j ∈ drawnFrom hregion subregion l ↔
      (l ≤ j ∧ j < hregion.rgz_layers.length) ∧
        empty_rect (hregion.blitrect j subregion) = false := by
  rw [drawnFrom, mem_filter, mem_range'_1, not_eq_true']
  constructor
  · rintro ⟨⟨h1, h2⟩, h3⟩
    exact ⟨⟨h1, by omega⟩, h3⟩
  · rintro ⟨⟨h1, h2⟩, h3⟩
    exact ⟨⟨h1, by omega⟩, h3⟩

/-- The layers from `l` on are `l`, if it has a rectangle, and those behind it. -/
theorem drawnFrom_eq (hl : l < hregion.rgz_layers.length) :
    drawnFrom hregion subregion l =
      if empty_rect (hregion.blitrect l subregion) then drawnFrom hregion subregion (l + 1)
      else l :: drawnFrom hregion subregion (l + 1) := by
  have hlen : hregion.rgz_layers.length - l = hregion.rgz_layers.length - (l + 1) + 1 := by omega
  rw [drawnFrom, hlen, range'_succ, filter_cons, drawnFrom]
  cases empty_rect (hregion.blitrect l subregion) <;> rfl

theorem drawnFrom_length : drawnFrom hregion subregion hregion.rgz_layers.length = [] := by
  rw [drawnFrom, Nat.sub_self]
  rfl

/-- The layers below `l` with a rectangle in the subregion, bottom first. -/
def drawnBelow (hregion : BlitHregion) (subregion l : Nat) : List Nat :=
  (List.range l).filter fun j => !empty_rect (hregion.blitrect j subregion)

/-- The layers with a rectangle in the subregion, bottom first. -/
def drawn (hregion : BlitHregion) (subregion : Nat) : List Nat :=
  drawnBelow hregion subregion hregion.rgz_layers.length

theorem drawnBelow_succ :
    drawnBelow hregion subregion (l + 1) =
      if empty_rect (hregion.blitrect l subregion) then drawnBelow hregion subregion l
      else drawnBelow hregion subregion l ++ [l] := by
  rw [drawnBelow, range_succ, filter_append, drawnBelow]
  cases h : empty_rect (hregion.blitrect l subregion) with
  | true => simp [h]
  | false => simp [h]

theorem drawnFrom_zero : drawnFrom hregion subregion 0 = drawn hregion subregion := by
  rw [drawnFrom, Nat.sub_zero, ← range_eq_range']
  rfl

/-- `get_layer_ops` walks from the top. -/
theorem getLayerOpsFrom_eq :
    getLayerOpsFrom hregion subregion l ops bottom =
      match walk hregion.endsAt (drawnBelow hregion subregion l).reverse with
      | none => .error .fault
      | some vs => .ok (ops + vs.length, (vs.getLast?).or bottom) := by
  induction l generalizing ops bottom with
  | zero => rfl
  | succ l ih =>
    rw [getLayerOpsFrom, drawnBelow_succ]
    cases empty_rect (hregion.blitrect l subregion) with
    | true =>
      rw [if_pos rfl, if_pos rfl]
      exact ih
    | false =>
      rw [if_neg Bool.false_ne_true, if_neg Bool.false_ne_true, reverse_append,
        reverse_singleton, singleton_append]
      cases he : hregion.endsAt l with
      | none => rw [walk_cons_none he]
      | some e =>
        cases e with
        | true =>
          rw [walk_cons_true he]
          rfl
        | false =>
          rw [walk_cons_false he, ih]
          cases walk hregion.endsAt (drawnBelow hregion subregion l).reverse with
          | none => rfl
          | some vs =>
            simp only [Option.map_some, length_cons, Except.ok.injEq, Prod.mk.injEq]
            refine ⟨by omega, ?_⟩
            cases vs with
            | nil => rfl
            | cons v vs =>
              rw [getLast?_cons_cons]
              rw [getLast?_eq_some_getLast (cons_ne_nil v vs)]
              rfl

/-- The operations of a subregion are those of a walk from the top. -/
theorem get_layer_ops_eq :
    get_layer_ops hregion subregion =
      match walk hregion.endsAt (drawn hregion subregion).reverse with
      | none => .error .fault
      | some vs => .ok (vs.length, vs.getLast?) := by
  rw [get_layer_ops, getLayerOpsFrom_eq]
  simp only [drawn, zero_add, Option.or_none]

/-- `get_layer_ops_next` finds the first layer behind. -/
theorem nextFrom_eq (hn : l + n = hregion.rgz_layers.length) :
    nextFrom hregion subregion n l = (drawnFrom hregion subregion l).head? := by
  induction n generalizing l with
  | zero =>
    rw [nextFrom, show l = hregion.rgz_layers.length by omega, drawnFrom_length]
    rfl
  | succ n ih =>
    rw [nextFrom, drawnFrom_eq (by omega)]
    cases empty_rect (hregion.blitrect l subregion) with
    | true =>
      rw [if_pos rfl, if_pos rfl]
      exact ih (by omega)
    | false => rfl

theorem get_layer_ops_next_eq (hl : l < hregion.rgz_layers.length) :
    get_layer_ops_next hregion subregion l = (drawnFrom hregion subregion (l + 1)).head? :=
  nextFrom_eq (by omega)

/-- Behind a layer that is found come the layers behind it. -/
theorem drawnFrom_eq_cons {l' : Nat} (h : drawnFrom hregion subregion l = l' :: rest) :
    rest = drawnFrom hregion subregion (l' + 1) := by
  have hind : ∀ n l, l + n = hregion.rgz_layers.length →
      drawnFrom hregion subregion l = l' :: rest →
      rest = drawnFrom hregion subregion (l' + 1) := by
    intro n
    induction n with
    | zero =>
      intro l hn h
      rw [show l = hregion.rgz_layers.length by omega, drawnFrom_length] at h
      cases h
    | succ n ih =>
      intro l hn h
      rw [drawnFrom_eq (by omega)] at h
      cases he : empty_rect (hregion.blitrect l subregion) with
      | true =>
        rw [he, if_pos rfl] at h
        exact ih (l + 1) (by omega) h
      | false =>
        rw [he, if_neg Bool.false_ne_true] at h
        obtain ⟨rfl, rfl⟩ := cons.inj h
        rfl
  have hmem : l' ∈ drawnFrom hregion subregion l := by rw [h]; exact mem_cons_self
  have hl := (mem_drawnFrom.mp hmem).1
  exact hind (hregion.rgz_layers.length - l) l (by omega) h

theorem visits_eq (hl : l < hregion.rgz_layers.length)
    (hn : (drawnFrom hregion subregion (l + 1)).length ≤ n) :
    visits hregion subregion n l = drawnFrom hregion subregion (l + 1) := by
  induction n generalizing l with
  | zero => exact (length_eq_zero_iff.mp (le_zero.mp hn)).symm
  | succ n ih =>
    rw [visits, get_layer_ops_next_eq hl]
    cases h : drawnFrom hregion subregion (l + 1) with
    | nil => rfl
    | cons l' rest =>
      have hmem : l' ∈ drawnFrom hregion subregion (l + 1) := by
        rw [h]
        exact mem_cons_self
      have hrest := drawnFrom_eq_cons h
      rw [h, length_cons] at hn
      rw [head?_cons]
      dsimp only
      rw [ih (mem_drawnFrom.mp hmem).1.2 (by rw [← hrest]; omega), ← hrest]

/-- A loop over `get_layer_ops_next` visits all layers behind. -/
theorem opsAfter_eq (hl : l < hregion.rgz_layers.length) :
    opsAfter hregion subregion l = drawnFrom hregion subregion (l + 1) := by
  refine visits_eq hl ?_
  rw [drawnFrom]
  refine (length_filter_le _ _).trans ?_
  rw [length_range']
  omega

/-- `get_top_rect` finds the last layer below `l`. -/
theorem topFrom_eq : topFrom hregion subregion l = (drawnBelow hregion subregion l).getLast? := by
  induction l with
  | zero => rfl
  | succ l ih =>
    rw [topFrom, drawnBelow_succ]
    cases empty_rect (hregion.blitrect l subregion) with
    | true => exact ih
    | false =>
      rw [if_neg Bool.false_ne_true, if_neg Bool.false_ne_true, getLast?_append]
      rfl

/-- What the loops find from a drawn layer on. -/
theorem of_drawn_eq {pre : List Nat} (h : drawn hregion subregion = pre ++ l :: rest) :
    l < hregion.rgz_layers.length ∧ opsAfter hregion subregion l = rest ∧
      get_layer_ops_next hregion subregion l = rest.head? ∧
      get_top_rect hregion subregion = (l :: rest).getLast? := by
  have hsuffix : ∀ (pre : List Nat) (a : Nat),
      drawnFrom hregion subregion a = pre ++ l :: rest →
      rest = drawnFrom hregion subregion (l + 1) := by
    intro pre
    induction pre with
    | nil => exact fun a ha => drawnFrom_eq_cons ha
    | cons b pre ih => exact fun a ha => ih (b + 1) (drawnFrom_eq_cons ha).symm
  have hall : drawnFrom hregion subregion 0 = pre ++ l :: rest := by rw [drawnFrom_zero, h]
  have hrest := hsuffix _ _ hall
  have hmem : l ∈ drawnFrom hregion subregion 0 := by
    rw [hall]
    exact mem_append_right _ mem_cons_self
  have hl := (mem_drawnFrom.mp hmem).1.2
  refine ⟨hl, by rw [opsAfter_eq hl, ← hrest], by rw [get_layer_ops_next_eq hl, ← hrest], ?_⟩
  have htop := @topFrom_eq hregion subregion hregion.rgz_layers.length
  rw [← drawn, h, getLast?_append_of_ne_nil _ (cons_ne_nil l rest)] at htop
  exact htop

/-- What a walk sees are the last drawn layers. -/
theorem drawn_eq_of_walk {vs : List Nat}
    (h : walk hregion.endsAt (drawn hregion subregion).reverse = some vs) :
    ∃ pre, drawn hregion subregion = pre ++ vs.reverse := by
  obtain ⟨rest, hrest⟩ := prefix_of_walk h
  exact ⟨rest.reverse, by rw [← reverse_append, hrest, reverse_reverse]⟩

/-- A walk from the top sees its bottom layer and all layers behind that. -/
theorem walk_drawn {vs : List Nat}
    (h : walk hregion.endsAt (drawn hregion subregion).reverse = some vs)
    (hbottom : vs.getLast? = some l) :
    l < hregion.rgz_layers.length ∧ vs.reverse = l :: opsAfter hregion subregion l := by
  obtain ⟨pre, hdrawn⟩ := drawn_eq_of_walk h
  have hhead : vs.reverse.head? = some l := by rw [head?_reverse, hbottom]
  cases hv : vs.reverse with
  | nil =>
    rw [hv] at hhead
    cases hhead
  | cons l' rest =>
    rw [hv, head?_cons, Option.some.injEq] at hhead
    subst hhead
    rw [hv] at hdrawn
    obtain ⟨hl, hrest, -⟩ := of_drawn_eq hdrawn
    exact ⟨hl, by rw [hrest]⟩

end Drawn

section Stack

/-- The layers that cover a pixel, bottom first. -/
def stackAt (layers : List RgzLayer) (p : Int × Int) : List RgzLayer :=
  layers.filter fun l => decide (p ∈ l.hwc_layer.displayFrame)

/-- The layers that `get_layer_ops` sees at a pixel, top first. -/
def visibleAt (layers : List RgzLayer) (p : Int × Int) : Option (List RgzLayer) :=
  walk (fun l => endsOps l.hwc_layer) (stackAt layers p).reverse

theorem mem_stackAt :
    l ∈ stackAt layers p ↔ l ∈ layers ∧ p ∈ l.hwc_layer.displayFrame := by
  rw [stackAt, mem_filter, decide_eq_true_eq]

/-- What is visible covers the pixel. -/
theorem mem_stackAt_of_visibleAt
    (h : visibleAt layers p = some vs) (hl : l ∈ vs) : l ∈ stackAt layers p :=
  mem_reverse.mp ((prefix_of_walk h).subset hl)

/-- A topmost layer without blending is all that is visible where it is. -/
theorem visibleAt_concat
    (hp : p ∈ l.hwc_layer.displayFrame) (hl : l.hwc_layer.blending ≠ HWC_BLENDING_PREMULT) :
    visibleAt (layers ++ [l]) p = some [l] := by
  have hends : endsOps l.hwc_layer = some true := if_pos hl
  rw [visibleAt, stackAt, filter_append, filter_singleton, decide_eq_true hp,
    cond_true, reverse_append, reverse_singleton, singleton_append]
  exact walk_cons_true hends

/-- Selecting indices by a test of their entries selects the entries. -/
theorem map_getElem?_filter_range {α : Type} (xs : List α) (test : Nat → Bool) (P : α → Bool)
    (h : ∀ l x, xs[l]? = some x → test l = P x) :
    ((List.range xs.length).filter test).map (fun l => xs[l]?) = (xs.filter P).map some := by
  induction xs generalizing test with
  | nil => rfl
  | cons x xs ih =>
    have hx : test 0 = P x := h 0 x rfl
    have hrest := ih (fun l => test (l + 1)) fun l y hy => h (l + 1) y hy
    rw [length_cons, range_succ_eq_map, filter_cons, filter_cons, hx, filter_map]
    have hshift : (map succ ((range xs.length).filter (test ∘ succ))).map
        (fun l => (x :: xs)[l]?) = (xs.filter P).map some := by
      rw [map_map, ← hrest]
      rfl
    cases P x with
    | true =>
      rw [if_pos rfl, if_pos rfl, map_cons, map_cons, hshift]
      rfl
    | false =>
      rw [if_neg Bool.false_ne_true, if_neg Bool.false_ne_true, hshift]

variable {screen : ScreenGeom} {rgz : Rgz} {b q : Int × Int} {r : Rect} {p : Int × Int} {s : Nat}

/-- The layers drawn in a cell on the screen are those that cover its pixels, and each
is drawn in the whole cell. -/
theorem Checked.drawn_cell (hc : Checked screen rgz) (hb : b ∈ pieces (yentries screen rgz))
    (hq : (bandPieces screen rgz b)[s]? = some q) (hp : p ∈ (⟨q.1, b.1, q.2, b.2⟩ : Rect))
    (hps : p ∈ screen.rect) :
    (drawn (hregionOf screen rgz b) s).map (fun l => (hregionOf screen rgz b).rgz_layers[l]?) =
        (stackAt rgz.cur_fb_state p).map some ∧
      ∀ l ∈ drawn (hregionOf screen rgz b) s,
        (hregionOf screen rgz b).blitrect l s = ⟨q.1, b.1, q.2, b.2⟩ := by
  have hq' := mem_of_getElem? hq
  have hcell : (subregionRects screen rgz.damaged_area (hregionRect screen rgz b)
      (hregionLayers rgz.cur_fb_state (hregionRect screen rgz b)))[s]? =
        some ⟨q.1, b.1, q.2, b.2⟩ := by
    rw [subregionRects, getElem?_map]
    exact congrArg (Option.map _) hq
  have hne : (⟨q.1, b.1, q.2, b.2⟩ : Rect) ≠ zeroRect := by
    intro h0
    rw [h0] at hp
    exact absurd (hp.1.1.trans_lt hp.1.2) (lt_irrefl _)
  -- the pixel is on the screen, and with it its band
  obtain ⟨hp1, hp2, hp3⟩ := mem_cell.mp hp
  obtain ⟨-, hps1, hps2⟩ := hps
  dsimp only [ScreenGeom.rect] at hps1 hps2
  have htop : 0 ≤ b.1 :=
    subdivides_yentries.le_left b hb 0 hc.zero_mem_yentries (hps1.trans_lt hp3)
  have hbottom : b.2 ≤ screen.height :=
    subdivides_yentries.right_le hb hc.height_mem_yentries (hp2.trans_lt hps2)
  have hmeets : ∀ l ∈ rgz.cur_fb_state,
      ((⟨q.1, b.1, q.2, b.2⟩ : Rect).meets l.hwc_layer.displayFrame ↔
        p ∈ l.hwc_layer.displayFrame) := fun l hl =>
    ⟨fun hm => (hc.within_of_meets hb hq' htop hbottom hl hm).2 p hp, Box.meets_of_mem hp⟩
  have hrect : ∀ l layer, (hregionOf screen rgz b).rgz_layers[l]? = some layer →
      (hregionOf screen rgz b).blitrect l s =
        if p ∈ layer.hwc_layer.displayFrame then ⟨q.1, b.1, q.2, b.2⟩ else zeroRect := by
    intro l layer hl
    have hmem : layer ∈ rgz.cur_fb_state := (mem_filter.mp (mem_of_getElem? hl)).1
    have hat : (hregionOf screen rgz b).blitrect l s = _ := blitrect_rgz_gen_blitregions hl hcell
    rw [hat]
    simp only [hmeets layer hmem]
  constructor
  · have hselect := map_getElem?_filter_range (hregionOf screen rgz b).rgz_layers
      (fun l => !empty_rect ((hregionOf screen rgz b).blitrect l s))
      (fun layer => decide (p ∈ layer.hwc_layer.displayFrame)) fun l layer hl => by
        rw [hrect l layer hl]
        by_cases hpl : p ∈ layer.hwc_layer.displayFrame
        · rw [if_pos hpl, decide_eq_true hpl, not_eq_true', eq_false_iff]
          exact fun h0 => hne (empty_rect_iff.mp h0)
        · rw [if_neg hpl, decide_eq_false hpl]
          rfl
    have hlayers : (hregionOf screen rgz b).rgz_layers.filter
        (fun layer => decide (p ∈ layer.hwc_layer.displayFrame)) = stackAt rgz.cur_fb_state p := by
      have hshow : (hregionOf screen rgz b).rgz_layers =
          hregionLayers rgz.cur_fb_state (hregionRect screen rgz b) := rfl
      rw [hshow, hregionLayers, filter_filter, stackAt]
      apply filter_congr
      intro layer hl
      by_cases hpl : p ∈ layer.hwc_layer.displayFrame
      · have hin := (hc.within_of_meets hb hq' htop hbottom hl (Box.meets_of_mem hp hpl)).1
        rw [decide_eq_true hpl, (mem_filter.mp hin).2]
        rfl
      · rw [decide_eq_false hpl, Bool.false_and]
    rw [← hlayers]
    exact hselect
  · intro l hl
    rw [drawn, drawnBelow, mem_filter, mem_range, not_eq_true'] at hl
    obtain ⟨hlt, hnonempty⟩ := hl
    have hget := getElem?_eq_getElem hlt
    rw [hrect l _ hget] at hnonempty ⊢
    split
    · rfl
    · rename_i hpl
      rw [if_neg hpl, empty_rect_iff.mpr rfl] at hnonempty
      cases hnonempty

/-- In a cell on the screen the walk over indices is the walk over the layers that cover
its pixels. -/
theorem Checked.walk_cell (hc : Checked screen rgz) (hb : b ∈ pieces (yentries screen rgz))
    (hq : (bandPieces screen rgz b)[s]? = some q) (hp : p ∈ (⟨q.1, b.1, q.2, b.2⟩ : Rect))
    (hps : p ∈ screen.rect) :
    (walk (hregionOf screen rgz b).endsAt (drawn (hregionOf screen rgz b) s).reverse).map
        (List.map fun l => (hregionOf screen rgz b).rgz_layers[l]?) =
      (visibleAt rgz.cur_fb_state p).map (List.map some) := by
  obtain ⟨hmap, -⟩ := hc.drawn_cell hb hq hp hps
  have hindices := walk_map (fun o : Option RgzLayer => o.bind fun l => endsOps l.hwc_layer)
    (fun l => (hregionOf screen rgz b).rgz_layers[l]?)
    (drawn (hregionOf screen rgz b) s).reverse
  have hlayers := walk_map (fun o : Option RgzLayer => o.bind fun l => endsOps l.hwc_layer)
    some (stackAt rgz.cur_fb_state p).reverse
  rw [map_reverse, hmap, ← map_reverse, hlayers] at hindices
  exact hindices.symm

/-- The operations in a cell on the screen are the layers that are visible at its pixels. -/
theorem Checked.ops_cell (hc : Checked screen rgz) (hb : b ∈ pieces (yentries screen rgz))
    (hq : (bandPieces screen rgz b)[s]? = some q) (hp : p ∈ (⟨q.1, b.1, q.2, b.2⟩ : Rect))
    (hps : p ∈ screen.rect) (hv : visibleAt rgz.cur_fb_state p = some vs) :
    ∃ lix, get_layer_ops (hregionOf screen rgz b) s = .ok (vs.length, some lix) ∧
      (lix :: opsAfter (hregionOf screen rgz b) s lix).map
        (fun l => (hregionOf screen rgz b).rgz_layers[l]?) = vs.reverse.map some ∧
      ∀ l ∈ lix :: opsAfter (hregionOf screen rgz b) s lix,
        (hregionOf screen rgz b).blitrect l s = ⟨q.1, b.1, q.2, b.2⟩ := by
  obtain ⟨-, hrects⟩ := hc.drawn_cell hb hq hp hps
  have hwalk := hc.walk_cell hb hq hp hps
  rw [hv, Option.map_some] at hwalk
  obtain ⟨us, hus, huv⟩ := Option.map_eq_some_iff.mp hwalk
  have hlen : us.length = vs.length := by
    have := congrArg List.length huv
    rwa [length_map, length_map] at this
  have hne : us ≠ [] := by
    rintro rfl
    -- the background covers the pixel, so something is visible
    have hnil : vs = [] := length_eq_zero_iff.mp hlen.symm
    rcases walk_last hv with heq | ⟨init, a, heq, -⟩
    · obtain ⟨b₀, hb₀, hbf⟩ := hc.exists_background
      have hmem : b₀ ∈ stackAt rgz.cur_fb_state p := mem_stackAt.mpr ⟨hb₀, hbf ▸ hps⟩
      rw [hnil] at heq
      rw [reverse_eq_nil_iff.mp heq.symm] at hmem
      cases hmem
    · rw [hnil] at heq
      exact absurd heq (by simp)
  have hlast := getLast?_eq_some_getLast hne
  obtain ⟨-, hrev⟩ := walk_drawn hus hlast
  refine ⟨us.getLast hne, ?_, ?_, ?_⟩
  · rw [get_layer_ops_eq, hus]
    dsimp only
    rw [hlast, hlen]
  · rw [← hrev, map_reverse, huv, map_reverse]
  · intro l hl
    rw [← hrev, mem_reverse] at hl
    exact hrects l (mem_reverse.mp ((prefix_of_walk hus).subset hl))

/-- A cell on the screen is drawn when a visible layer is dirty or it meets the damage. -/
theorem subregionDirty_iff {hregion : BlitHregion} {lix : Nat} {damaged_area : Rect}
    (hmap : (lix :: opsAfter hregion s lix).map (fun l => hregion.rgz_layers[l]?) =
      vs.reverse.map some) (hrect : hregion.blitrect lix s = r) :
    subregionDirty hregion s lix damaged_area ↔
      damaged_area.meets r ∨ ∃ l ∈ vs, l.dirty_count ≠ 0 := by
  rw [subregionDirty, hrect, or_eq_true]
  have hany : (lix :: opsAfter hregion s lix).any hregion.dirtyAt =
      vs.any fun l => l.dirty_count != 0 := by
    have hcomp : hregion.dirtyAt = (fun o : Option RgzLayer => o.any fun l => l.dirty_count != 0) ∘
        fun l => hregion.rgz_layers[l]? := rfl
    rw [hcomp, ← any_map, hmap, any_map, any_reverse]
    rfl
  rw [hany]
  simp only [any_eq_true, bne_iff_ne]

end Stack

end OmapHal.Regionizer
