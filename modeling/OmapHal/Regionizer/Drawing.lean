import OmapHal.Regionizer.Generation
import OmapHal.Regionizer.Semantics

/-!
# What the operations draw

The blits for a subregion leave every pixel outside it alone, and give a pixel inside it
the value of the layers that are visible there. The rules of `Emits` carry this through
the pool.
-/

namespace OmapHal.Regionizer

open OmapHal.Hwc OmapHal.Core List

variable {update : BltEntry → BltEntry} {screen : ScreenGeom} {e : BltEntry} {xs : List RgzLayer}

variable {V : Type}

/-- What a program adds to the blit pool; the result `-1` may stop it, a fault may not. -/
abbrev AddsBlits (P : Blts → Prop) (prog : Blts → Except Stop Blts) : Prop :=
  Emits RGZ_MAX_BLITS (fun stop => stop = .failed) P prog

section Run

variable {M : Blender V} {fb : Int × Int → V} {p : Int × Int} {es es' : Blts}

theorem run_append : run M (es ++ es') fb = run M es' (run M es fb) := foldl_append ..

/-- Blits that leave a pixel alone. -/
theorem run_of_misses (h : ∀ e ∈ es, ∀ fb, execute M e fb p = fb p) : run M es fb p = fb p := by
  induction es generalizing fb with
  | nil => rfl
  | cons e es ih =>
    have hrest : run M es (execute M e fb) p = execute M e fb p :=
      ih fun e' he' => h e' (mem_cons_of_mem e he')
    exact hrest.trans (h e mem_cons_self fb)

/-- Changes of the last blit that do not change what it does. -/
theorem run_updateLast (h : ∀ e, execute M (update e) = execute M e) :
    run M (updateLast update es) fb = run M es fb := by
  have hmodify : ∀ (es : Blts) (i : Nat) (fb : Int × Int → V),
      run M (es.modify i update) fb = run M es fb := by
    intro es
    induction es with
    | nil => exact fun i fb => by rw [modify_nil]
    | cons e es ih =>
      intro i fb
      cases i with
      | zero =>
        rw [modify_zero_cons]
        exact congrArg (run M es) (congrFun (h e) fb)
      | succ i =>
        rw [modify_succ_cons]
        exact ih i _
  exact hmodify es _ fb

theorem execute_rgz_set_async (async : Bool) (e : BltEntry) :
    execute M (rgz_set_async async e) = execute M e := rfl

theorem execute_rgz_batch_entry (flag : BatchMark) (set : List BatchFlag) (e : BltEntry) :
    execute M (rgz_batch_entry flag set e) = execute M e := rfl

theorem execute_endBatch (e : BltEntry) : execute M (endBatch e) = execute M e := by
  rw [endBatch]
  split <;> rfl

end Run

section Draws

variable {M : Blender V} {params : OutParams} {c r : Rect} {p : Int × Int} {f g : V → V}
  {es es' : Blts} {l l₂ : RgzLayer} {handle handle₂ : NativeHandle}

/-- A pixel of the screen in a rectangle is in the clipping rectangle. -/
theorem mem_clipRect (hps : p ∈ screen.rect) (hp : p ∈ r) :
    p ∈ clipRect screen r := by
  obtain ⟨⟨hs1, hs2⟩, hs3, hs4⟩ := hps
  obtain ⟨⟨h1, h2⟩, h3, h4⟩ := hp
  dsimp only [ScreenGeom.rect] at hs1 hs2 hs3 hs4
  have hright : minUnsigned screen.width r.right = min (screen.width : Int) r.right :=
    if_neg (by omega)
  have hbottom : minUnsigned screen.height r.bottom = min (screen.height : Int) r.bottom :=
    if_neg (by omega)
  rw [clipRect, hright, hbottom]
  exact ⟨⟨max_le hs1 h1, lt_min hs2 h2⟩, max_le hs3 h3, lt_min hs4 h4⟩

/-- The blits for a cell: they leave what is not in its clipping rectangle alone, and
change the pixel by `f` if it is in the cell and on the screen. -/
structure Draws (M : Blender V) (screen : ScreenGeom) (c : Rect) (p : Int × Int) (f : V → V)
    (es : Blts) : Prop where
  misses : ∀ e ∈ es, ∀ q, q ∉ clipRect screen c → ∀ fb, execute M e fb q = fb q
  run : p ∈ c → p ∈ screen.rect → ∀ fb, run M es fb p = f (fb p)

theorem Draws.nil : Draws M screen c p (fun d => d) [] :=
  ⟨fun e he => (by cases he), fun _ _ _ => rfl⟩

theorem Draws.append (h : Draws M screen c p f es)
    (h' : Draws M screen c p g es') : Draws M screen c p (fun d => g (f d)) (es ++ es') := by
  constructor
  · intro e he
    exact (mem_append.mp he).elim (h.misses e) (h'.misses e)
  · intro hp hps fb
    rw [run_append, h'.run hp hps, h.run hp hps]

/-- Changes of the last blit that do not change what it does. -/
theorem Draws.updateLast
    (h : Draws M screen c p f es) (hu : ∀ e, execute M (update e) = execute M e) :
    Draws M screen c p f (updateLast update es) := by
  constructor
  · intro e he q hq fb
    rw [Regionizer.updateLast] at he
    obtain ⟨i, hi, hget⟩ := mem_iff_getElem.mp he
    rw [getElem_modify] at hget
    rw [length_modify] at hi
    have hmem := h.misses es[i] (getElem_mem hi) q hq fb
    split at hget
    · rw [← hget, hu]
      exact hmem
    · rw [← hget]
      exact hmem
  · intro hp hps fb
    rw [run_updateLast hu, h.run hp hps]

/-- A single blit. -/
theorem Draws.single (Q : Int × Int → Prop)
    [DecidablePred Q] (value : Int × Int → (Int × Int → V) → V)
    (h : ∀ fb q, execute M e fb q = if Q q ∧ q ∈ clipRect screen c then value q fb else fb q)
    (hQ : p ∈ c → p ∈ screen.rect → Q p) (hf : ∀ fb, value p fb = f (fb p)) :
    Draws M screen c p f [e] := by
  constructor
  · intro e' he q hq fb
    rw [mem_singleton.mp he, h, if_neg fun hn => hq hn.2]
  · intro hp hps fb
    have hin := mem_clipRect hps hp
    show execute M e fb p = f (fb p)
    rw [h, if_pos ⟨hQ hp hps, hin⟩, hf]

/-- A blit that does the same. -/
theorem Draws.congr {e' : BltEntry} (h : Draws M screen c p f [e])
    (he : execute M e' = execute M e) : Draws M screen c p f [e'] := by
  constructor
  · intro e'' hmem q hq fb
    rw [mem_singleton.mp hmem, he]
    exact h.misses e mem_cons_self q hq fb
  · intro hp hps fb
    rw [← h.run hp hps fb]
    exact congrFun (congrFun he fb) p

theorem draws_clrdst :
    Draws M params.screen c p (fun _ => M.clear) [rgz_out_clrdst params c .zero] :=
  Draws.single (fun q => q ∈ c) (fun _ _ => M.clear) (fun _ _ => execute_clrdst)
    (fun hp _ => hp) fun _ => rfl

/-- A pixel of the cell is where a layer that covers it is drawn. -/
theorem mem_drawnRect (hp : p ∈ l.hwc_layer.displayFrame) (hc : p ∈ c) :
    p ∈ drawnRect l.hwc_layer c := by
  rw [drawnRect]
  split
  · exact hp
  · exact hc

variable (hl : p ∈ c → p ∈ params.screen.rect → p ∈ l.hwc_layer.displayFrame)

include hl

theorem draws_copy :
    Draws M params.screen c p (fun _ => layerValue M params l handle c p)
      [rgz_hwc_subregion_copy params c l handle .zero] :=
  Draws.single (fun q => q ∈ drawnRect l.hwc_layer c)
    (fun q _ => layerValue M params l handle c q) (fun _ _ => execute_copy)
    (fun hp hps => mem_drawnRect (hl hp hps) hp) fun _ => rfl

theorem draws_blend :
    Draws M params.screen c p (fun d => M.srcOver (layerValue M params l handle c p) d)
      [rgz_hwc_subregion_blend params c l handle none .zero] :=
  Draws.single (fun q => q ∈ drawnRect l.hwc_layer c)
    (fun q fb => M.srcOver (layerValue M params l handle c q) (fb q))
    (fun _ _ => execute_blend) (fun hp hps => mem_drawnRect (hl hp hps) hp) fun _ => rfl

omit hl

theorem draws_blend_pair (h : rgz_can_blend_together (l, handle) (l₂, handle₂)) :
    Draws M params.screen c p
      (fun _ => M.srcOver (layerValue M params l handle c p) (layerValue M params l₂ handle₂ c p))
      [rgz_hwc_subregion_blend params c l handle (some (l₂, handle₂)) .zero] :=
  Draws.single (fun q => q ∈ c)
    (fun q _ =>
      M.srcOver (layerValue M params l handle c q) (layerValue M params l₂ handle₂ c q))
    (fun _ _ => execute_blend_pair h) (fun hp _ => hp) fun _ => rfl

end Draws

section Operations

variable {M : Blender V} {params : OutParams} {c : Rect} {p : Int × Int}
  {b : RgzLayer × NativeHandle} {bs : List (RgzLayer × NativeHandle)}

/-- Layers blended over a value, bottom first. -/
def blendAll (M : Blender V) (params : OutParams) (c : Rect) (p : Int × Int)
    (bs : List (RgzLayer × NativeHandle)) (d : V) : V :=
  bs.foldl (fun d b => M.srcOver (layerValue M params b.1 b.2 c p) d) d

/-- The blits of these layers show the pixel if it is in the cell and on the screen. -/
def CoverPixel (screen : ScreenGeom) (c : Rect) (p : Int × Int)
    (bs : List (RgzLayer × NativeHandle)) : Prop :=
  ∀ b ∈ bs, p ∈ c → p ∈ screen.rect → p ∈ b.1.hwc_layer.displayFrame

theorem draws_restBlits (hp : CoverPixel params.screen c p bs)
    (first_batchflags : List BatchFlag) (scaled nv12 : Bool) :
    Draws M params.screen c p (blendAll M params c p bs)
      (restBlits params c bs first_batchflags scaled nv12) := by
  induction bs generalizing first_batchflags scaled nv12 with
  | nil => exact Draws.nil
  | cons b bs ih =>
    have hblend : Draws M params.screen c p
        (fun d => M.srcOver (layerValue M params b.1 b.2 c p) d)
        [rgz_hwc_subregion_blend params c b.1 b.2 none .zero] :=
      draws_blend (hp b mem_cons_self)
    have hfirst := hblend.congr (execute_rgz_batch_entry .CONTINUE (restBatchflags first_batchflags
        (rgz_hwc_scaled b.1.hwc_layer || scaled) (is_NV12 b.2.iFormat || nv12)) _)
    exact hfirst.append (ih (fun b' hb' => hp b' (mem_cons_of_mem b hb')) _ _ _)

/-- A batch: a first blit, the layers over it, and the end of the batch. -/
theorem draws_batch {f : V → V} (he : Draws M params.screen c p f [e])
    (hp : CoverPixel params.screen c p bs) (first_batchflags : List BatchFlag)
    (scaled nv12 : Bool) :
    Draws M params.screen c p (fun d => blendAll M params c p bs (f d))
      (updateLast endBatch (rgz_batch_entry .BEGIN [] e ::
        restBlits params c bs first_batchflags scaled nv12)) :=
  ((he.congr (execute_rgz_batch_entry ..)).append (draws_restBlits hp _ _ _)).updateLast
    execute_endBatch

theorem layers_ne_nil (b : RgzLayer × NativeHandle) (bs : List (RgzLayer × NativeHandle)) :
    b :: bs ≠ [] := List.cons_ne_nil b bs

/-- The value that is drawn for these layers, bottom first: without blending the top one
only. -/
def drawnValue (M : Blender V) (params : OutParams) (c : Rect) (p : Int × Int)
    (b : RgzLayer × NativeHandle) (bs : List (RgzLayer × NativeHandle)) : V :=
  if params.noblend then
    layerValue M params ((b :: bs).getLast (layers_ne_nil b bs)).1
      ((b :: bs).getLast (layers_ne_nil b bs)).2 c p
  else blendAll M params c p bs (layerValue M params b.1 b.2 c p)

/-- A batch draws the second layer and those behind it over the first. -/
theorem draws_batchBlits {b' : RgzLayer × NativeHandle}
    (hp : CoverPixel params.screen c p (b :: b' :: bs)) :
    Draws M params.screen c p
      (fun _ => blendAll M params c p (b' :: bs) (layerValue M params b.1 b.2 c p))
      (batchBlits params c b b' bs) := by
  have hprest : CoverPixel params.screen c p (b' :: bs) := fun x hx =>
    hp x (mem_cons_of_mem b hx)
  rw [batchBlits]
  cases hpair : rgz_can_blend_together b' b with
  | true =>
    exact draws_batch (draws_blend_pair hpair) (fun x hx => hprest x (mem_cons_of_mem b' hx))
      _ _ _
  | false => exact draws_batch (draws_copy (hp b mem_cons_self)) hprest _ _ _

/-- The blits of a cell draw the layers with a buffer. -/
theorem draws_cellBlits (hp : CoverPixel params.screen c p (b :: bs)) :
    Draws M params.screen c p (fun _ => drawnValue M params c p b bs)
      (cellBlits params c (b :: bs)) := by
  rw [drawnValue]
  cases bs with
  | nil =>
    rw [getLast_singleton]
    exact (ite_self (c := params.noblend) (layerValue M params b.1 b.2 c p)).symm ▸
      draws_copy (hp b mem_cons_self)
  | cons b' bs =>
    rw [cellBlits]
    split
    · rw [getLast_cons_cons]
      exact draws_copy (hp _ (mem_cons_of_mem b (getLast_mem _)))
    · exact draws_batchBlits hp

/-- The value that is drawn where these layers are visible, bottom first. -/
def cellValue (M : Blender V) (params : OutParams) (c : Rect) (p : Int × Int)
    (xs : List RgzLayer) : V :=
  match buffersOf xs with
  | [] => M.clear
  | b :: bs => drawnValue M params c p b bs

theorem coverPixel_buffersOf
    (h : ∀ x ∈ xs, p ∈ c → p ∈ screen.rect → p ∈ x.hwc_layer.displayFrame) :
    CoverPixel screen c p (buffersOf xs) := by
  intro b hb
  obtain ⟨x, hx, hxb⟩ := mem_filterMap.mp hb
  obtain ⟨handle, -, rfl⟩ := Option.map_eq_some_iff.mp hxb
  exact h x hx

/-- The blits of a cell draw the layers that are visible in it. -/
theorem draws_cellBlits_buffersOf
    (hp : ∀ x ∈ xs, p ∈ c → p ∈ params.screen.rect → p ∈ x.hwc_layer.displayFrame) :
    Draws M params.screen c p (fun _ => cellValue M params c p xs)
      (cellBlits params c (buffersOf xs)) := by
  have hcover := coverPixel_buffersOf hp
  rw [cellValue]
  cases hbs : buffersOf xs with
  | nil => exact draws_clrdst
  | cons b bs => exact draws_cellBlits (hbs ▸ hcover)

end Operations

end OmapHal.Regionizer
