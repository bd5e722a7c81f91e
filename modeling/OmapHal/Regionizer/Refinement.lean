import OmapHal.Regionizer.PaintOutput

/-!
# Regions and painting draw the same pixels

Where every layer is dirty, `rgz_out_region` and `rgz_out_bvcmd_paint` both write every
pixel of the screen. `DrawsAlike` says when the values agree whatever the layers show:
the mirroring of a layer must not depend on the cell, and painting must not clear what a
layer with the clear hint does not cover.
-/

namespace OmapHal.Regionizer

open OmapHal.Hwc OmapHal.Core List Bool Option

/-- Of the visible layers, top first, those that are drawn: without blending the top one
only. -/
def shown (params : OutParams) (vs : List RgzLayer) : List RgzLayer :=
  if params.noblend then vs.take 1 else vs

/-- Both operations draw the visible layers of a pixel alike: a layer is mirrored in its
cells as in its display frame, and painting clears the pixel for no layer in front of
it. -/
def DrawsAlike (params : OutParams) (rgz : Rgz) : Prop :=
  ∀ i s c, cell? params.screen rgz i s = some c → ∀ p ∈ c, p ∈ params.screen.rect →
    ∀ vs, visibleAt rgz.cur_fb_state p = some vs → ∀ l ∈ shown params vs, 0 ≤ l.buffidx →
      MirrorsAlike l.hwc_layer c l.hwc_layer.displayFrame ∧
        ∀ l', [l, l'].Sublist rgz.cur_fb_state → l'.buffidx = RGZ_CLEARHINT_BUFFIDX →
          p ∉ clipRect params.screen l'.hwc_layer.displayFrame

section Visible

variable {V : Type} {M : Blender V} {params : OutParams} {screen : ScreenGeom} {rgz : Rgz}
  {p : Int × Int} {l : RgzLayer} {vs xs : List RgzLayer} {c : Rect} {d : V}

/-- The bottom visible layer ends the operations, the layers above it are blended. -/
theorem Checked.visible_split (hc : Checked screen rgz) (hps : p ∈ screen.rect)
    (hv : visibleAt rgz.cur_fb_state p = some vs) :
    ∃ init x, vs = init ++ [x] ∧ endsOps x.hwc_layer = some true ∧
      ∀ y ∈ init, endsOps y.hwc_layer = some false := by
  have hwalk : walk (fun l : RgzLayer => endsOps l.hwc_layer)
      (stackAt rgz.cur_fb_state p).reverse = some vs := hv
  rcases walk_last hwalk with heq | ⟨init, x, rfl, hx⟩
  · obtain ⟨bg, ls, hcur, hbg⟩ := hc.background
    have hp : p ∈ bg.hwc_layer.displayFrame := by
      rw [hbg]
      exact hps
    have hends : endsOps bg.hwc_layer = some true := by
      rw [hbg]
      rfl
    rw [hcur, stackAt, filter_cons, if_pos (decide_eq_true hp), reverse_cons] at heq
    refine ⟨_, bg, heq, hends, fun y hy => ?_⟩
    rw [heq] at hwalk
    have hy' := walk_init hwalk hy
    exact hy'
  · refine ⟨init, x, rfl, hx, fun y hy => ?_⟩
    have hy' := walk_init hwalk hy
    exact hy'

/-- The two names of the formats without alpha. -/
theorem isOpaque_hal_to_ocd (f : PixelFormat) : (hal_to_ocd f).isOpaque = is_OPAQUE f := by
  cases f <;> rfl

/-- A layer that ends the operations hides what is behind it. -/
theorem layerInk_opaque (h : endsOps l.hwc_layer = some true) :
    (layerInk M params c p l).Opaque M.srcOver := by
  rw [layerInk]
  cases hh : l.hwc_layer.handle.deref? with
  | none => exact Ink.opaque_put _
  | some handle =>
    dsimp only
    split
    · rename_i hblend
      rw [and_eq_true, beq_iff_eq] at hblend
      rw [endsOps, if_neg (not_not.mpr hblend.2), hh, map_some, some.injEq] at h
      have hformat : (hal_to_ocd handle.iFormat).isOpaque = true := by
        rw [isOpaque_hal_to_ocd, h]
      intro d d'
      rw [Ink.apply, Ink.apply, srcOver_layerValue hformat, srcOver_layerValue hformat]
    · exact Ink.opaque_put _

/-- A layer that does not end the operations is blended. -/
theorem layerInk_eq_blend (hn : params.noblend = false) (h : endsOps l.hwc_layer = some false)
    {handle : NativeHandle} (hh : l.hwc_layer.handle.deref? = some handle) :
    layerInk M params c p l = .blend (layerValue M params l handle c p) := by
  have hblend := (of_endsOps_eq_false h).1
  rw [layerInk, hh]
  exact if_pos (by rw [hn, hblend]; rfl)

/-- Without blending a layer with a buffer is copied. -/
theorem layerInk_eq_put (hn : params.noblend) {handle : NativeHandle}
    (hh : l.hwc_layer.handle.deref? = some handle) :
    layerInk M params c p l = .put (layerValue M params l handle c p) := by
  rw [layerInk, hh]
  exact if_neg (by rw [hn]; exact false_ne_true)

/-- Layers with a buffer are blended one after the other. -/
theorem blendAll_buffersOf (hn : params.noblend = false)
    (hxs : ∀ y ∈ xs, endsOps y.hwc_layer = some false) :
    blendAll M params c p (buffersOf xs) d =
      paint M.srcOver (xs.map (layerInk M params c p)) d := by
  induction xs generalizing d with
  | nil => rfl
  | cons y ys ih =>
    obtain ⟨-, handle, hh, -⟩ := of_endsOps_eq_false (hxs y mem_cons_self)
    rw [buffersOf_cons_of_some hh, map_cons, paint_cons,
      layerInk_eq_blend hn (hxs y mem_cons_self) hh]
    exact ih fun z hz => hxs z (mem_cons_of_mem y hz)

/-- Without blending the top layer is copied. -/
theorem cellValue_concat (hn : params.noblend) {handle : NativeHandle}
    (hh : l.hwc_layer.handle.deref? = some handle) :
    cellValue M params c p (xs ++ [l]) = layerValue M params l handle c p := by
  have hbuffers : buffersOf (xs ++ [l]) = buffersOf xs ++ [(l, handle)] := by
    rw [buffersOf, filterMap_append]
    exact congrArg _ (buffersOf_cons_of_some hh)
  rw [cellValue, hbuffers]
  cases buffersOf xs with
  | nil =>
    dsimp only [nil_append]
    rw [drawnValue, if_pos hn]
    rfl
  | cons b bs =>
    dsimp only [cons_append]
    have hlast : (b :: (bs ++ [(l, handle)])).getLast (cons_ne_nil _ _) = (l, handle) := by
      rw [getLast_cons (append_ne_nil_of_right_ne_nil _ (cons_ne_nil _ _)),
        getLast_append_singleton]
    rw [drawnValue, if_pos hn, hlast]

/-- The value of a cell is painted by the layers that are shown in it. -/
theorem Checked.cellValue_eq (hc : Checked screen rgz) (hps : p ∈ screen.rect)
    (hv : visibleAt rgz.cur_fb_state p = some vs) :
    cellValue M params c p vs.reverse =
      paint M.srcOver ((shown params vs).reverse.map (layerInk M params c p)) M.clear := by
  obtain ⟨init, x, rfl, hx, hinit⟩ := hc.visible_split hps hv
  cases hn : params.noblend with
  | true =>
    have hshown : shown params (init ++ [x]) = (init ++ [x]).take 1 := if_pos hn
    rw [hshown]
    cases init with
    | nil =>
      cases hh : x.hwc_layer.handle.deref? with
      | none =>
        have hink : layerInk M params c p x = .put M.clear := by rw [layerInk, hh]
        rw [cellValue, nil_append, reverse_singleton, buffersOf_cons_of_none hh]
        exact congrArg (fun i => Ink.apply M.srcOver i M.clear) hink.symm
      | some handle =>
        have hput := layerInk_eq_put (M := M) (c := c) (p := p) hn hh
        rw [nil_append, reverse_singleton, ← nil_append [x], cellValue_concat hn hh]
        exact congrArg (fun i => Ink.apply M.srcOver i M.clear) hput.symm
    | cons y init =>
      obtain ⟨-, handle, hh, -⟩ := of_endsOps_eq_false (hinit y mem_cons_self)
      have hput := layerInk_eq_put (M := M) (c := c) (p := p) hn hh
      rw [cons_append, reverse_cons, cellValue_concat hn hh]
      exact congrArg (fun i => Ink.apply M.srcOver i M.clear) hput.symm
  | false =>
    have hshown : shown params (init ++ [x]) = init ++ [x] :=
      if_neg (by rw [hn]; exact false_ne_true)
    rw [hshown, reverse_append, reverse_singleton, singleton_append, map_cons,
      paint_cons, ← blendAll_buffersOf hn fun y hy => hinit y (mem_reverse.mp hy), cellValue]
    have hblend : ¬ params.noblend := by
      rw [hn]
      exact false_ne_true
    cases hh : x.hwc_layer.handle.deref? with
    | none =>
      have hink : layerInk M params c p x = .put M.clear := by rw [layerInk, hh]
      rw [buffersOf_cons_of_none hh, hink]
      cases buffersOf init.reverse with
      | nil => rfl
      | cons b bs =>
        have hunit := M.srcOver_clear (layerValue M params b.1 b.2 c p)
        exact (if_neg hblend).trans (congrArg (blendAll M params c p bs) hunit.symm)
    | some handle =>
      have hvalue : (layerInk M params c p x).apply M.srcOver M.clear =
          layerValue M params x handle c p := by
        rw [layerInk, hh]
        dsimp only
        split
        · exact M.srcOver_clear _
        · rfl
      rw [buffersOf_cons_of_some hh, hvalue]
      exact if_neg hblend

/-- The bottom shown layer hides what is behind it; the layers above it are blended, are
those that cover the pixel behind it in the list, and are shown only with blending. -/
theorem Checked.shown_split (hc : Checked screen rgz) (M : Blender V) (params : OutParams)
    (hps : p ∈ screen.rect) (hv : visibleAt rgz.cur_fb_state p = some vs) :
    ∃ init x pre post, shown params vs = init ++ [x] ∧ rgz.cur_fb_state = pre ++ x :: post ∧
      p ∈ x.hwc_layer.displayFrame ∧ stackAt post p = init.reverse ∧
      (∀ c, (layerInk M params c p x).Opaque M.srcOver) ∧
      ∀ y ∈ init, params.noblend = false ∧ endsOps y.hwc_layer = some false := by
  obtain ⟨init, x, hsplit, hopaque, hinit⟩ : ∃ init x, shown params vs = init ++ [x] ∧
      (∀ c, (layerInk M params c p x).Opaque M.srcOver) ∧
      ∀ y ∈ init, params.noblend = false ∧ endsOps y.hwc_layer = some false := by
    obtain ⟨init, x, rfl, hx, hinit⟩ := hc.visible_split hps hv
    cases hn : params.noblend with
    | false =>
      exact ⟨init, x, if_neg (by rw [hn]; exact false_ne_true),
        fun c => layerInk_opaque hx, fun y hy => ⟨rfl, hinit y hy⟩⟩
    | true =>
      cases init with
      | nil => exact ⟨[], x, if_pos hn, fun c => layerInk_opaque hx, fun y hy => by cases hy⟩
      | cons y init =>
        obtain ⟨-, handle, hh, -⟩ := of_endsOps_eq_false (hinit y mem_cons_self)
        refine ⟨[], y, if_pos hn, fun c => ?_, fun z hz => by cases hz⟩
        rw [layerInk_eq_put hn hh]
        exact Ink.opaque_put _
  have hprefix : shown params vs <+: vs := by
    rw [shown]
    split
    · exact take_prefix 1 vs
    · exact prefix_rfl
  obtain ⟨below, hbelow⟩ := hprefix.trans (prefix_of_walk hv)
  have hstack : stackAt rgz.cur_fb_state p = below.reverse ++ x :: init.reverse := by
    have hrev := congrArg reverse hbelow
    rw [reverse_reverse, reverse_append, hsplit, reverse_append,
      reverse_singleton, singleton_append] at hrev
    exact hrev.symm
  obtain ⟨k₁, k₂, hcur, -, hk₂⟩ := filter_eq_append_iff.mp hstack
  obtain ⟨l₁, l₂, rfl, -, hx, hl₂⟩ := filter_eq_cons_iff.mp hk₂
  exact ⟨init, x, k₁ ++ l₁, l₂, hsplit, by rw [hcur, append_assoc], of_decide_eq_true hx, hl₂,
    hopaque, hinit⟩

/-- Painting the list from the background on. -/
theorem Checked.foldl_paintStep_tail (hc : Checked params.screen rgz)
    (hps : p ∈ params.screen.rect) :
    rgz.cur_fb_state.tail.foldl (paintStep M params p) M.clear =
      rgz.cur_fb_state.foldl (paintStep M params p) d := by
  obtain ⟨bg, ls, hcur, hbg⟩ := hc.background
  have hidx := hc.wellFormed.1
  rw [hcur] at hidx ⊢
  have hne : bg.buffidx ≠ RGZ_CLEARHINT_BUFFIDX := by
    rw [hidx bg rfl]
    decide
  have hp : p ∈ bg.hwc_layer.displayFrame := by
    rw [hbg]
    exact hps
  have hstep : paintStep M params p d bg = M.clear := by
    rw [paintStep, if_neg hne, if_pos hp, layerInk, hbg]
    rfl
  rw [tail_cons, foldl_cons, hstep]

/-- As long as nothing in front of a layer that covers the pixel is cleared there, painting
applies the inks of the layers that cover it. -/
theorem foldl_paintStep_eq {post : List RgzLayer}
    (hbuf : ∀ y ∈ post, p ∈ y.hwc_layer.displayFrame → y.buffidx ≠ RGZ_CLEARHINT_BUFFIDX)
    (hd : d = M.clear ∨ ∀ l' ∈ post, l'.buffidx = RGZ_CLEARHINT_BUFFIDX →
      p ∉ clipRect params.screen l'.hwc_layer.displayFrame)
    (hfront : ∀ y l', [y, l'].Sublist post → p ∈ y.hwc_layer.displayFrame →
      l'.buffidx = RGZ_CLEARHINT_BUFFIDX → p ∉ clipRect params.screen l'.hwc_layer.displayFrame) :
    post.foldl (paintStep M params p) d =
      paint M.srcOver
        ((stackAt post p).map fun l => layerInk M params l.hwc_layer.displayFrame p l) d := by
  induction post generalizing d with
  | nil => rfl
  | cons a post ih =>
    have hbuf' := fun y hy => hbuf y (mem_cons_of_mem a hy)
    have hfront' : ∀ y l', [y, l'].Sublist post → p ∈ y.hwc_layer.displayFrame →
        l'.buffidx = RGZ_CLEARHINT_BUFFIDX →
          p ∉ clipRect params.screen l'.hwc_layer.displayFrame :=
      fun y l' h => hfront y l' (h.cons a)
    rw [foldl_cons, stackAt, filter_cons]
    by_cases hp : p ∈ a.hwc_layer.displayFrame
    · have hfirst := hbuf a mem_cons_self hp
      rw [if_pos (decide_eq_true hp), map_cons, paint_cons, paintStep, if_neg hfirst, if_pos hp]
      refine ih hbuf' (.inr fun l' hl' => ?_) hfront'
      exact hfront a l' (singleton_sublist.mpr hl' |>.cons_cons a) hp
    · have hstep : paintStep M params p d a = d := by
        rw [paintStep]
        split
        · rename_i hidx
          split
          · rename_i hclip
            rcases hd with rfl | hd
            · rfl
            · exact absurd hclip (hd a mem_cons_self hidx)
          · rfl
        · rfl
      rw [if_neg (by rw [decide_eq_false hp]; exact false_ne_true), hstep]
      exact ih hbuf' (hd.imp_right fun hd l' hl' => hd l' (mem_cons_of_mem a hl')) hfront'

end Visible

section Alike

variable {V : Type} {M : Blender V} {params : OutParams} {rgz : Rgz} {p : Int × Int}
  {l : RgzLayer} {vs : List RgzLayer} {c : Rect}

/-- A layer with a buffer is one of the list, which may be blitted. -/
theorem Checked.valid_of_nonneg (hc : Checked params.screen rgz) (hl : l ∈ rgz.cur_fb_state)
    (hidx : 0 ≤ l.buffidx) :
    l ∈ rgz.cur_fb_state.tail ∧ rgz_in_valid_hwc_layer l.hwc_layer = true := by
  obtain ⟨bg, ls, hcur, -⟩ := hc.background
  have hfirst := hc.wellFormed.1
  have htail := hc.fromList
  rw [hcur] at hl hfirst htail ⊢
  rcases mem_cons.mp hl with rfl | hl
  · rw [hfirst l rfl] at hidx
    exact absurd hidx (by decide)
  · refine ⟨hl, ?_⟩
    rcases htail l hl with ⟨-, hvalid⟩ | ⟨hmark, -⟩
    · exact hvalid
    · rw [hmark] at hidx
      exact absurd hidx (by decide)

/-- A layer that is mirrored alike has the same ink for both cells. -/
theorem layerInk_congr {c' : Rect} (hvalid : rgz_in_valid_hwc_layer l.hwc_layer)
    (h : MirrorsAlike l.hwc_layer c c') :
    layerInk M params c p l = layerInk M params c' p l := by
  obtain ⟨handle, hh, hf⟩ := of_rgz_in_valid_hwc_layer hvalid
  rw [layerInk, layerInk, hh]
  dsimp only
  rw [layerValue_congr hf h]

/-- Where the layers are drawn alike, painting leaves what the regions leave. -/
theorem Checked.foldl_paintStep_eq_cellValue (hc : Checked params.screen rgz)
    (hps : p ∈ params.screen.rect) (hv : visibleAt rgz.cur_fb_state p = some vs)
    (halike : ∀ l ∈ shown params vs, 0 ≤ l.buffidx →
      MirrorsAlike l.hwc_layer c l.hwc_layer.displayFrame ∧
        ∀ l', [l, l'].Sublist rgz.cur_fb_state → l'.buffidx = RGZ_CLEARHINT_BUFFIDX →
          p ∉ clipRect params.screen l'.hwc_layer.displayFrame) :
    rgz.cur_fb_state.tail.foldl (paintStep M params p) M.clear =
      cellValue M params c p vs.reverse := by
  obtain ⟨init, x, pre, post, hshown, hcur, hx, hpost, hopaque, hinit⟩ :=
    hc.shown_split M params hps hv
  have hpostcur : ∀ y ∈ post, y ∈ rgz.cur_fb_state := fun y hy => by
    rw [hcur]
    exact mem_append_right _ (mem_cons_of_mem x hy)
  have hmem : ∀ y ∈ shown params vs, y = x ∨ y ∈ post := by
    intro y hy
    rw [hshown] at hy
    rcases mem_append.mp hy with hy | hy
    · rw [← mem_reverse, ← hpost] at hy
      exact .inr (mem_stackAt.mp hy).1
    · exact .inl (mem_singleton.mp hy)
  have hxcur : x ∈ rgz.cur_fb_state := by
    rw [hcur]
    exact mem_append_right _ mem_cons_self
  have hxshown : x ∈ shown params vs := by
    rw [hshown]
    exact mem_append_right _ mem_cons_self
  -- in the cell and in the display frame a shown layer has the same ink
  have hink : ∀ y ∈ shown params vs,
      layerInk M params c p y = layerInk M params y.hwc_layer.displayFrame p y := by
    intro y hy
    have hycur : y ∈ rgz.cur_fb_state := (hmem y hy).elim (fun h => h ▸ hxcur) (hpostcur y)
    rcases hc.isMark_or_hasBuffer hycur with ⟨-, hnone⟩ | hbuf
    · rw [layerInk, layerInk, hnone]
    · exact layerInk_congr (hc.valid_of_nonneg hycur hbuf.1).2 (halike y hy hbuf.1).1
  have hpaint : (shown params vs).reverse.map (layerInk M params c p) =
      layerInk M params x.hwc_layer.displayFrame p x ::
        (stackAt post p).map fun l => layerInk M params l.hwc_layer.displayFrame p l := by
    rw [map_congr_left fun y hy => hink y (mem_reverse.mp hy), hshown,
      reverse_append, reverse_singleton, singleton_append, map_cons, hpost]
  -- the bottom layer covers what was painted before it
  have hbottom : ∀ d, paintStep M params p d x =
      (layerInk M params x.hwc_layer.displayFrame p x).apply M.srcOver M.clear := by
    intro d
    rw [paintStep]
    split
    · rename_i hidx
      rcases hc.isMark_or_hasBuffer hxcur with ⟨-, hnone⟩ | hbuf
      · rw [if_pos (mem_clipRect hps hx), layerInk, hnone]
        rfl
      · exact absurd hidx hbuf.ne_mark.2
    · exact hopaque _ d M.clear
  -- the layers in front of it that cover the pixel are shown
  have hpostshown : ∀ y ∈ post, p ∈ y.hwc_layer.displayFrame →
      y ∈ shown params vs ∧ y.HasBuffer := by
    intro y hy hpy
    have hin : y ∈ init := by
      rw [← mem_reverse, ← hpost]
      exact mem_stackAt.mpr ⟨hy, hpy⟩
    refine ⟨hshown ▸ mem_append_left [x] hin, ?_⟩
    obtain ⟨-, handle, hh, -⟩ := of_endsOps_eq_false (hinit y hin).2
    rcases hc.isMark_or_hasBuffer (hpostcur y hy) with ⟨-, hnone⟩ | hbuf
    · rw [hh] at hnone
      cases hnone
    · exact hbuf
  have hsub : (x :: post).Sublist rgz.cur_fb_state := by
    rw [hcur]
    exact sublist_append_right pre _
  rw [hc.foldl_paintStep_tail (d := M.clear) hps, hc.cellValue_eq hps hv, hpaint, hcur,
    foldl_append, foldl_cons, hbottom, paint_cons]
  refine foldl_paintStep_eq (fun y hy hpy => ?_) ?_ fun y l' hyl' hpy hidx => ?_
  · exact (hpostshown y hy hpy).2.ne_mark.2
  · rcases hc.isMark_or_hasBuffer hxcur with ⟨-, hnone⟩ | hbuf
    · refine .inl ?_
      rw [layerInk, hnone]
      rfl
    · refine .inr fun l' hl' => (halike x hxshown hbuf.1).2 l' ?_
      exact ((singleton_sublist.mpr hl').cons_cons x).trans hsub
  · have hy := hyl'.subset mem_cons_self
    obtain ⟨hyshown, hybuf⟩ := hpostshown y hy hpy
    exact (halike y hyshown hybuf.1).2 l' (hyl'.trans ((sublist_cons_self x post).trans hsub))
      hidx

end Alike

section Tracer

variable {params : OutParams} {screen : ScreenGeom} {rgz : Rgz} {p : Int × Int} {l : RgzLayer}
  {handle : NativeHandle} {vs xs : List RgzLayer} {c : Rect} {buffidx : Int}
  {seen : Int × Int → Bool} {d : Bool × Bool}

/-- Pixel values that tell whether they are opaque, and whether such a texel of the buffer
shows in them. -/
def tracer (buffidx : Int) (seen : Int × Int → Bool) : Blender (Bool × Bool) where
  srcOver v d := if v.1 then v else (d.1, v.2 || d.2)
  clear := (false, false)
  texel b f x := (f.isOpaque, b == buffidx && seen x)
  scaled s _ _ _ _ _ := (s.geom.format.isOpaque, decide (s.desc = .buffer buffidx))
  srcOver_clear v := by
    obtain ⟨o, t⟩ := v
    cases o <;> cases t <;> rfl
  srcOver_texel b f x d h := if_pos h
  srcOver_scaled s f m z o x d h := if_pos h

/-- A value is opaque if its format is. -/
theorem layerValue_tracer_fst :
    (layerValue (tracer buffidx seen) params l handle c p).1 =
      (hal_to_ocd handle.iFormat).isOpaque := by
  simp only [layerValue, tmpValue, fetch, rgz_set_src_data_desc, tracer]
  split
  · rw [rgz_set_src_data_format]
  · rw [rgz_set_src_data_format]

/-- Another buffer shows nothing. -/
theorem layerValue_tracer_snd_of_ne (h : l.buffidx ≠ buffidx) :
    (layerValue (tracer buffidx seen) params l handle c p).2 = false := by
  simp only [layerValue, tmpValue, fetch, rgz_set_src_data_desc, tracer]
  split
  · rw [beq_false_of_ne h, Bool.false_and]
  · exact decide_eq_false fun heq => h (Desc.buffer.inj heq)

/-- The buffer shows somewhere. -/
theorem layerValue_tracer_snd :
    (layerValue (tracer l.buffidx fun _ => true) params l handle c p).2 = true := by
  simp only [layerValue, tmpValue, fetch, rgz_set_src_data_desc, tracer]
  split
  · rw [beq_self_eq_true, Bool.true_and]
  · exact decide_eq_true trivial

/-- A layer that shows its texel keeps it over whatever is behind it. -/
theorem apply_layerInk_snd (hh : l.hwc_layer.handle.deref? = some handle)
    (h : (layerValue (tracer buffidx seen) params l handle c p).2) :
    ((layerInk (tracer buffidx seen) params c p l).apply (tracer buffidx seen).srcOver d).2 =
      true := by
  rw [layerInk, hh]
  dsimp only
  split
  · simp only [Ink.apply, tracer]
    split
    · exact h
    · exact or_eq_true_iff.mpr (.inl h)
  · exact h

/-- What shows stays visible behind layers that do not end the operations. -/
theorem paint_snd (hn : ∀ y ∈ xs, params.noblend = false ∧ endsOps y.hwc_layer = some false)
    (hd : d.2 = true) :
    (paint (tracer buffidx seen).srcOver (xs.map (layerInk (tracer buffidx seen) params c p)) d).2 =
      true := by
  induction xs generalizing d with
  | nil => exact hd
  | cons y ys ih =>
    obtain ⟨hnb, hends⟩ := hn y mem_cons_self
    obtain ⟨-, handle, hh, hopaque⟩ := of_endsOps_eq_false hends
    rw [map_cons, paint_cons]
    refine ih (fun z hz => hn z (mem_cons_of_mem y hz)) ?_
    rw [layerInk_eq_blend hnb hends hh]
    have hfst : (layerValue (tracer buffidx seen) params y handle c p).1 = _ :=
      layerValue_tracer_fst
    rw [isOpaque_hal_to_ocd, hopaque] at hfst
    have happly : ∀ v : Bool × Bool, v.1 = false →
        ((Ink.blend v).apply (tracer buffidx seen).srcOver d).2 = (v.2 || d.2) := by
      intro v hv
      simp only [Ink.apply, tracer, hv, false_eq_true, if_false]
    rw [happly _ hfst, hd, Bool.or_true]

/-- Layers that show no such texel paint none. -/
theorem foldl_paintStep_snd (hxs : ∀ y ∈ xs, ∀ handle, y.hwc_layer.handle.deref? = some handle →
      (layerValue (tracer buffidx seen) params y handle y.hwc_layer.displayFrame p).2 = false)
    (hd : d.2 = false) :
    (xs.foldl (paintStep (tracer buffidx seen) params p) d).2 = false := by
  induction xs generalizing d with
  | nil => exact hd
  | cons y ys ih =>
    rw [foldl_cons]
    refine ih (fun z hz => hxs z (mem_cons_of_mem y hz)) ?_
    rw [paintStep]
    split
    · split
      · rfl
      · exact hd
    · split
      · rw [layerInk]
        cases hh : y.hwc_layer.handle.deref? with
        | none => rfl
        | some handle =>
          have hfalse := hxs y mem_cons_self handle hh
          dsimp only
          split
          · simp only [Ink.apply, tracer]
            split
            · exact hfalse
            · exact or_eq_false_iff.mpr ⟨hfalse, hd⟩
          · exact hfalse
      · exact hd

/-- The element behind another one in a list comes behind its only occurrence. -/
theorem mem_of_pair_sublist {α : Type} {a b : α} {as bs : List α}
    (h : [a, b].Sublist (as ++ a :: bs)) (ha : a ∉ as) : b ∈ bs := by
  induction as with
  | nil =>
    rw [nil_append] at h
    cases h with
    | cons _ h => exact h.subset (mem_cons_of_mem a mem_cons_self)
    | cons_cons _ h => exact singleton_sublist.mp h
  | cons c as ih =>
    rw [cons_append] at h
    cases h with
    | cons _ h => exact ih h fun hmem => ha (mem_cons_of_mem c hmem)
    | cons_cons _ h => exact absurd mem_cons_self ha

/-- Where every blender gives the same values, the layers are drawn alike. -/
theorem Checked.alike_of_values (hc : Checked params.screen rgz) (hps : p ∈ params.screen.rect)
    (hv : visibleAt rgz.cur_fb_state p = some vs)
    (h : ∀ M : Blender (Bool × Bool), rgz.cur_fb_state.tail.foldl (paintStep M params p) M.clear =
      cellValue M params c p vs.reverse)
    (hl : l ∈ shown params vs) (hidx : 0 ≤ l.buffidx) :
    MirrorsAlike l.hwc_layer c l.hwc_layer.displayFrame ∧
      ∀ l', [l, l'].Sublist rgz.cur_fb_state → l'.buffidx = RGZ_CLEARHINT_BUFFIDX →
        p ∉ clipRect params.screen l'.hwc_layer.displayFrame := by
  have hlcur : l ∈ rgz.cur_fb_state := by
    have hsub : shown params vs ⊆ vs := by
      rw [shown]
      split
      · exact take_subset 1 vs
      · exact Subset.refl vs
    exact (mem_stackAt.mp (mem_stackAt_of_visibleAt hv (hsub hl))).1
  obtain ⟨htail, hvalid⟩ := hc.valid_of_nonneg hlcur hidx
  obtain ⟨handle, hh, hflips⟩ := of_rgz_in_valid_hwc_layer hvalid
  obtain ⟨bg, ls, hcur, -⟩ := hc.background
  have hbg := hc.wellFormed.1
  have hdistinct := hc.distinct
  rw [hcur, tail_cons] at htail hdistinct
  rw [hcur] at hbg
  -- the regions show what the layer shows in the cell, and so does painting
  have hpainted : ∀ seen, (layerValue (tracer l.buffidx seen) params l handle c p).2 →
      (ls.foldl (paintStep (tracer l.buffidx seen) params p) (tracer l.buffidx seen).clear).2 =
        true := by
    intro seen hseen
    obtain ⟨init, x, -, -, hshown, -, -, -, -, hinit⟩ :=
      hc.shown_split (tracer l.buffidx seen) params hps hv
    obtain ⟨below, above, hsplit, habove⟩ : ∃ below above,
        (shown params vs).reverse = below ++ l :: above ∧ ∀ y ∈ above, y ∈ init := by
      rw [hshown] at hl
      rw [hshown, reverse_append, reverse_singleton, singleton_append]
      rcases mem_append.mp hl with hl | hl
      · obtain ⟨front, back, hfront⟩ := append_of_mem (mem_reverse.mpr hl)
        refine ⟨x :: front, back, by rw [hfront, cons_append], fun y hy => ?_⟩
        rw [← mem_reverse, hfront]
        exact mem_append_right _ (mem_cons_of_mem l hy)
      · rw [mem_singleton.mp hl]
        exact ⟨[], init.reverse, rfl, fun y hy => mem_reverse.mp hy⟩
    have hvalue := h (tracer l.buffidx seen)
    rw [hc.cellValue_eq hps hv, hsplit, map_append, paint_append, map_cons, paint_cons,
      hcur, tail_cons] at hvalue
    rw [hvalue]
    exact paint_snd (fun y hy => hinit y (habove y hy)) (apply_layerInk_snd hh hseen)
  -- no other layer has this buffer
  obtain ⟨pre, post, hls⟩ := append_of_mem htail
  rw [hls] at hdistinct
  have hpre : ∀ y ∈ pre, y.buffidx ≠ l.buffidx := fun y hy heq =>
    (pairwise_append.mp hdistinct).2.2 y hy l mem_cons_self (heq ▸ hidx) heq
  have hpost : ∀ y ∈ post, y.buffidx ≠ l.buffidx := fun y hy heq =>
    (pairwise_cons.mp (pairwise_append.mp hdistinct).2.1).1 y hy hidx heq.symm
  constructor
  · by_contra hne
    cases hs : rgz_hwc_scaled l.hwc_layer with
    | true =>
      refine hne ⟨fun _ => ?_, fun _ => ?_⟩
      · simp only [rgz_get_src_rect, hs, if_true]
      · simp only [rgz_get_src_rect, hs, if_true]
    | false =>
      -- the texel that shows in the cell is not the one of the display frame
      have hrect : ∀ r, drawnRect l.hwc_layer r = r := fun r =>
        if_neg (by rw [hs]; exact false_ne_true)
      have hpoint : mirror (rgz_get_flip_flags l.hwc_layer.transform)
          (rgz_get_src_rect l.hwc_layer l.hwc_layer.displayFrame) (bufferPoint l.hwc_layer p) ≠
          mirror (rgz_get_flip_flags l.hwc_layer.transform) (rgz_get_src_rect l.hwc_layer c)
            (bufferPoint l.hwc_layer p) := fun heq => hne (mirror_eq_iff.mp heq.symm)
      have htrue := hpainted (fun x => x == mirror (rgz_get_flip_flags l.hwc_layer.transform)
        (rgz_get_src_rect l.hwc_layer c) (bufferPoint l.hwc_layer p)) (by
          rw [layerValue, hrect, tmpValue_of_unscaled hs hflips]
          simp only [tracer, beq_self_eq_true, Bool.and_self])
      rw [foldl_paintStep_snd (fun y hy handle' hh' => ?_) rfl] at htrue
      · cases htrue
      · rw [hls] at hy
        rcases mem_append.mp hy with hy | hy
        · exact layerValue_tracer_snd_of_ne (hpre y hy)
        · rcases mem_cons.mp hy with rfl | hy
          · obtain rfl := some.inj (hh.symm.trans hh')
            rw [layerValue, hrect, tmpValue_of_unscaled hs hflips]
            simp only [tracer, beq_false_of_ne hpoint, Bool.and_false]
          · exact layerValue_tracer_snd_of_ne (hpost y hy)
  · intro l' hsub hmark hclip
    have hnot : l ∉ bg :: pre := by
      intro hmem
      rcases mem_cons.mp hmem with rfl | hmem
      · rw [hbg l rfl] at hidx
        exact absurd hidx (by decide)
      · exact hpre l hmem rfl
    rw [hcur, hls] at hsub
    obtain ⟨between, front, hfront⟩ := append_of_mem (mem_of_pair_sublist hsub hnot)
    have htrue := hpainted (fun _ => true) layerValue_tracer_snd
    have hclear : ∀ d, paintStep (tracer l.buffidx fun _ => true) params p d l' =
        (false, false) := by
      intro d
      rw [paintStep, if_pos hmark, if_pos hclip]
      rfl
    rw [hls, foldl_append, foldl_cons, hfront, foldl_append, foldl_cons, hclear,
      foldl_paintStep_snd (fun y hy _ _ => layerValue_tracer_snd_of_ne (hpost y ?_)) rfl] at htrue
    · cases htrue
    · rw [hfront]
      exact mem_append_right _ (mem_cons_of_mem l' hy)

end Tracer

section Refinement

variable {params : OutParams} {layers : List InLayer} {rgz₀ rgz r : Rgz}

/-- The regions give every pixel of the screen the value that painting gives it. -/
def RegionRefinesPaint (params : OutParams) (rgz : Rgz) : Prop :=
  ∃ R P, rgz_out_region params rgz = .ok R ∧ rgz_out_bvcmd_paint params rgz = .ok P ∧
    ∀ (V : Type) (M : Blender V) (fb fb' : Int × Int → V), ∀ p ∈ params.screen.rect,
      run M R.cmdp fb p = run M P.cmdp fb' p

/-- For an accepted list of dirty layers whose regions are not refused with `-1`, region
blits and painting agree exactly when the visible layers are drawn alike. -/
theorem regionRefinesPaint_iff (hcheck : rgz_in_hwccheck params.screen layers rgz₀ = some rgz)
    (hdirty : ∀ l ∈ rgz.cur_fb_state, l.dirty_count ≠ 0)
    (hin : rgz_in_hwc params.screen rgz = some r)
    (hregion : rgz_out_region params r ≠ .error .failed) :
    RegionRefinesPaint params r ↔ ReadsNoDummy r ∧ DrawsAlike params r := by
  have hc := checked_of_rgz_in_hwccheck hcheck
  obtain ⟨-, -, rfl⟩ := rgz_in_hwc_eq_some.mp hin
  have hpaint : ∃ P, rgz_out_bvcmd_paint params (rgz.withRegions params.screen) = .ok P ∧
      ∀ (V : Type) (M : Blender V) (fb : Int × Int → V) (p : Int × Int), p ∈ params.screen.rect →
        run M P.cmdp fb p = rgz.cur_fb_state.tail.foldl (paintStep M params p) M.clear :=
    hc.rgz_out_bvcmd_paint_eq
  obtain ⟨P, hP, hpaint⟩ := hpaint
  constructor
  · rintro ⟨R, P', hR, hP', h⟩
    obtain rfl := Except.ok.inj (hP.symm.trans hP')
    have hnd := readsNoDummy_of_rgz_out_region hR
    refine ⟨hnd, fun i s c hcell p hp hps vs hv l hl hidx => ?_⟩
    refine hc.alike_of_values hps hv (fun M => ?_) hl hidx
    obtain ⟨vs', hv', hvalue⟩ := hc.run_rgz_out_region (M := M) hdirty hnd hR hcell hp hps
    obtain rfl := some.inj (hv.symm.trans hv')
    rw [← hpaint _ M (fun _ => M.clear) p hps, ← hvalue fun _ => M.clear]
    exact (h _ M _ _ p hps).symm
  · rintro ⟨hnd, halike⟩
    cases hR : rgz_out_region params (rgz.withRegions params.screen) with
    | error stop =>
      cases stop with
      | fault => exact absurd hR (hc.rgz_out_region_ne_fault hdirty hnd)
      | failed => exact absurd hR hregion
    | ok R =>
      refine ⟨R, P, hR, hP, fun V M fb fb' p hps => ?_⟩
      obtain ⟨i, s, c, hcell, hp⟩ := hc.exists_cell hps
      obtain ⟨vs, hv, hvalue⟩ := hc.run_rgz_out_region (M := M) hdirty hnd hR hcell hp hps
      rw [hvalue, hpaint V M fb' p hps]
      exact (hc.foldl_paintStep_eq_cellValue hps hv (halike i s c hcell p hp hps vs hv)).symm

/-- Without flips and clear hints the layers are drawn alike. -/
theorem drawsAlike_of_plain (h : ∀ l ∈ rgz.cur_fb_state, l.buffidx ≠ RGZ_CLEARHINT_BUFFIDX ∧
      rgz_get_flip_flags l.hwc_layer.transform = ⟨false, false⟩) : DrawsAlike params rgz := by
  intro i s c _ p _ _ vs hv l hl _
  have hsub : shown params vs ⊆ vs := by
    rw [shown]
    split
    · exact take_subset 1 vs
    · exact Subset.refl vs
  have hcur := (mem_stackAt.mp (mem_stackAt_of_visibleAt hv (hsub hl))).1
  constructor
  · rw [MirrorsAlike, (h l hcur).2]
    exact ⟨fun hf => absurd hf false_ne_true, fun hf => absurd hf false_ne_true⟩
  · intro l' hsub' hidx
    exact absurd hidx (h l' (hsub'.subset (mem_cons_of_mem l mem_cons_self))).1

theorem ne_error_of_isOk {ε α : Type} {x : Except ε α} {stop : ε} (h : x.isOk) :
    x ≠ .error stop := by
  rintro rfl
  cases h

/-- One pixel with two values. -/
theorem not_refined_of_pixel {V : Type} (M : Blender V) (fb : Int × Int → V) (p : Int × Int)
    (v v' : V)
    (hR : (rgz_out_region params r).toOption.map (fun R => run M R.cmdp fb p) = some v)
    (hP : (rgz_out_bvcmd_paint params r).toOption.map (fun P => run M P.cmdp fb p) = some v')
    (hne : v ≠ v') (hp : p ∈ params.screen.rect) :
    ∃ R P, rgz_out_region params r = .ok R ∧ rgz_out_bvcmd_paint params r = .ok P ∧
      ¬ ∀ (V : Type) (M : Blender V) (fb : Int × Int → V), ∀ p ∈ params.screen.rect,
        run M R.cmdp fb p = run M P.cmdp fb p := by
  cases hregion : rgz_out_region params r with
  | error stop =>
    rw [hregion] at hR
    cases hR
  | ok R =>
    cases hpaint : rgz_out_bvcmd_paint params r with
    | error stop =>
      rw [hpaint] at hP
      cases hP
    | ok P =>
      rw [hregion] at hR
      rw [hpaint] at hP
      refine ⟨R, P, rfl, rfl, fun h => hne ?_⟩
      rw [← some.inj hR, ← some.inj hP]
      exact h V M fb p hp

/-- Two layers that overlap. -/
theorem regionRefinesPaint_iff_sample :
    ∃ rgz r, rgz_in_hwccheck sampleParams.screen overlappingLayers Rgz.released =
        some rgz ∧ rgz_in_hwc sampleParams.screen rgz = some r ∧
      RegionRefinesPaint sampleParams r := by
  refine ⟨_, _, rfl, rfl, ?_⟩
  refine (@regionRefinesPaint_iff sampleParams overlappingLayers Rgz.released _ _ rfl
    (by decide +kernel) rfl (ne_error_of_isOk (by decide +kernel))).mpr
    ⟨fun h hh s hs => ne_error_of_isOk ?_, drawsAlike_of_plain (by decide +kernel)⟩
  revert h s
  decide +kernel

/-- An unscaled NV12 layer of twenty by ten pixels in the corner, mirrored. -/
def mirroredLayer : InLayer where
  layer :=
    { compositionType := .framebuffer
      hintClearFb := false
      hintTripleBuffer := false
      skip := false
      handle := .img 100 ⟨20, 10, .TI_NV12, false, false⟩
      transform := 1
      blending := HWC_BLENDING_NONE
      sourceCrop := ⟨0, 0, 20, 10⟩
      displayFrame := ⟨0, 0, 20, 10⟩ }
  identity := 1

/-- A layer over the right half of a mirrored one: the left half is mirrored by itself. -/
theorem mirroredLayer_not_refined :
    ∃ rgz r, rgz_in_hwccheck sampleParams.screen [mirroredLayer, sampleLayer 2 200 10 0]
        Rgz.released = some rgz ∧ rgz_in_hwc sampleParams.screen rgz = some r ∧
      (∀ l ∈ rgz.cur_fb_state, l.dirty_count ≠ 0) ∧
      ∃ R P, rgz_out_region sampleParams r = .ok R ∧ rgz_out_bvcmd_paint sampleParams r = .ok P ∧
        ¬ ∀ (V : Type) (M : Blender V) (fb : Int × Int → V), ∀ p ∈ sampleParams.screen.rect,
          run M R.cmdp fb p = run M P.cmdp fb p := by
  refine ⟨_, _, rfl, rfl, by decide +kernel, ?_⟩
  -- the texel at (9, 0) shows at the pixel (0, 0) of the regions only
  exact not_refined_of_pixel (tracer 0 fun x => x == (9, 0)) (fun _ => (false, false)) (0, 0)
    (false, true) (false, false) (by decide +kernel) (by decide +kernel) (by decide) (by decide)

end Refinement

end OmapHal.Regionizer
