import OmapHal.Core.Emission
import OmapHal.Regionizer.Output

/-!
# The blits of a subregion

The blits that the operations of a subregion generate, as a list over the layers with a buffer.
The functions that fill the blit pool append exactly this list, and leave the pool full where it
has no room for it.
-/

namespace OmapHal.Regionizer

open OmapHal.Hwc OmapHal.Core List

/-! ### Lists of blits -/

/-- The blits that blend layers over the framebuffer, behind the first one of a batch. -/
def restBlits (params : OutParams) (rect : Rect) :
    List (RgzLayer × NativeHandle) → (first_batchflags : List BatchFlag) →
      (prev_layer_scaled prev_layer_nv12 : Bool) → Blts
  | [], _, _, _ => []
  | b :: bs, first_batchflags, prev_layer_scaled, prev_layer_nv12 =>
    rgz_batch_entry .CONTINUE
        (restBatchflags first_batchflags (rgz_hwc_scaled b.1.hwc_layer || prev_layer_scaled)
          (is_NV12 b.2.iFormat || prev_layer_nv12))
        (rgz_hwc_subregion_blend params rect b.1 b.2 none .zero) ::
      restBlits params rect bs [] (rgz_hwc_scaled b.1.hwc_layer) (is_NV12 b.2.iFormat)

/-- The batch for two layers and those over them: the first two are blended together, or the first
one is copied. -/
def batchBlits (params : OutParams) (rect : Rect) (b b' : RgzLayer × NativeHandle)
    (bs : List (RgzLayer × NativeHandle)) : Blts :=
  let second_batchflags : List BatchFlag := [.SRC2, .SRC2RECT_ORIGIN, .SRC2RECT_SIZE]
  updateLast endBatch
    (if rgz_can_blend_together b' b then
      rgz_batch_entry .BEGIN [] (rgz_hwc_subregion_blend params rect b'.1 b'.2 (some b) .zero) ::
        restBlits params rect bs second_batchflags false false
    else
      rgz_batch_entry .BEGIN [] (rgz_hwc_subregion_copy params rect b.1 b.2 .zero) ::
        restBlits params rect (b' :: bs) (.OP :: second_batchflags)
          (rgz_hwc_scaled b.1.hwc_layer) (is_NV12 b.2.iFormat))

/-- The blits for a cell in which these layers are drawn, bottom first. -/
def cellBlits (params : OutParams) (rect : Rect) : List (RgzLayer × NativeHandle) → Blts
  | [] => [rgz_out_clrdst params rect .zero]
  | [b] => [rgz_hwc_subregion_copy params rect b.1 b.2 .zero]
  | b :: b' :: bs =>
    if params.noblend then
      let top := (b' :: bs).getLast (List.cons_ne_nil b' bs)
      [rgz_hwc_subregion_copy params rect top.1 top.2 .zero]
    else batchBlits params rect b b' bs

theorem length_restBlits (params : OutParams) (rect : Rect) (bs : List (RgzLayer × NativeHandle))
    (first_batchflags : List BatchFlag) (scaled nv12 : Bool) :
    (restBlits params rect bs first_batchflags scaled nv12).length = bs.length := by
  induction bs generalizing first_batchflags scaled nv12 with
  | nil => rfl
  | cons b bs ih => rw [restBlits, length_cons, length_cons, ih]

theorem length_updateLast (update : BltEntry → BltEntry) (blts : Blts) :
    (updateLast update blts).length = blts.length := length_modify ..

/-- A batch has a blit for each layer, and one less where the first two are blended together. -/
theorem length_batchBlits (params : OutParams) (rect : Rect) (b b' : RgzLayer × NativeHandle)
    (bs : List (RgzLayer × NativeHandle)) : (batchBlits params rect b b' bs).length =
      if rgz_can_blend_together b' b then bs.length + 1 else bs.length + 2 := by
  rw [batchBlits, length_updateLast]
  split
  · rw [length_cons, length_restBlits]
  · rw [length_cons, length_restBlits, length_cons]

/-! ### Programs that append them -/

section Pool

variable {prog : Blts → Except Stop Blts}

/-- What a program appends to the blit pool. -/
abbrev AppendsBlits (gen : Except Stop Blts) (prog : Blts → Except Stop Blts) : Prop :=
  Appends RGZ_MAX_BLITS gen prog

theorem appends_emit (fill : BltEntry → BltEntry) :
    AppendsBlits (.ok [fill .zero]) fun blts => .ok (emit fill blts) := by
  intro blts
  refine ⟨_, rfl, ?_, fun hroom => ?_⟩
  · rw [emit, length_singleton]
    split
    · rw [length_append, length_singleton]
      omega
    · rw [length_modify]
      omega
  · rw [length_singleton] at hroom
    exact if_pos hroom

theorem updateLast_append {update : BltEntry → BltEntry} {blts es : Blts} (h : es ≠ []) :
    updateLast update (blts ++ es) = blts ++ updateLast update es := by
  have hlen : 0 < es.length := length_pos_iff.mpr h
  rw [updateLast, updateLast, length_append,
    show blts.length + es.length - 1 = blts.length + (es.length - 1) by omega]
  exact modifyTailIdx_add _ _ blts es

/-- A program that changes its last blit. -/
theorem appends_updateLast {es : Blts} (update : BltEntry → BltEntry)
    (h : AppendsBlits (.ok es) prog) (hne : es ≠ []) :
    AppendsBlits (.ok (updateLast update es)) fun blts =>
      (prog blts).bind fun blts => .ok (updateLast update blts) := by
  intro blts
  obtain ⟨blts', hblts, hlen, hroom⟩ := h blts
  refine ⟨updateLast update blts', ?_, ?_, fun hcap => ?_⟩
  · dsimp only
    rw [hblts]
    rfl
  · rw [length_updateLast, length_updateLast, hlen]
  · rw [length_updateLast] at hcap
    rw [hroom hcap, updateLast_append hne]

end Pool

section Operations

variable {params : OutParams} {hregion : BlitHregion} {s l l' : Nat} {c : Rect}
  {pre rest : List Nat} {b b' : RgzLayer × NativeHandle} {bs : List (RgzLayer × NativeHandle)}

theorem appends_blendRest {ls : List Nat} (hbs : ls.map hregion.bufferAt = bs.map .ok)
    (first_batchflags : List BatchFlag) (scaled nv12 : Bool) :
    AppendsBlits (.ok (restBlits params c bs first_batchflags scaled nv12))
      (blendRest params hregion c ls first_batchflags scaled nv12) := by
  induction ls generalizing bs first_batchflags scaled nv12 with
  | nil =>
    cases bs with
    | nil => exact Appends.nil
    | cons b bs => cases hbs
  | cons l ls ih =>
    cases bs with
    | nil => cases hbs
    | cons b bs =>
      obtain ⟨hb, hbs⟩ := cons.inj hbs
      have hboth := (appends_emit fun e => rgz_batch_entry .CONTINUE
        (restBatchflags first_batchflags (rgz_hwc_scaled b.1.hwc_layer || scaled)
          (is_NV12 b.2.iFormat || nv12))
        (rgz_hwc_subregion_blend params c b.1 b.2 none e)).bind
          (ih hbs [] (rgz_hwc_scaled b.1.hwc_layer) (is_NV12 b.2.iFormat))
      have hprog : blendRest params hregion c (l :: ls) first_batchflags scaled nv12 =
          fun blts => (Except.ok (emit (fun e => rgz_batch_entry .CONTINUE
            (restBatchflags first_batchflags (rgz_hwc_scaled b.1.hwc_layer || scaled)
              (is_NV12 b.2.iFormat || nv12))
            (rgz_hwc_subregion_blend params c b.1 b.2 none e)) blts)).bind
              (blendRest params hregion c ls [] (rgz_hwc_scaled b.1.hwc_layer)
                (is_NV12 b.2.iFormat)) := by
        funext blts
        rw [blendRest, hb]
        rfl
      rw [hprog]
      exact hboth

/-- A batch: a first blit, the layers over it, and the end of the batch. -/
theorem appends_batch {fill : BltEntry → BltEntry} {ls : List Nat}
    (hbs : ls.map hregion.bufferAt = bs.map .ok) (first_batchflags : List BatchFlag)
    (scaled nv12 : Bool) :
    AppendsBlits (.ok (updateLast endBatch (rgz_batch_entry .BEGIN [] (fill .zero) ::
      restBlits params c bs first_batchflags scaled nv12))) fun blts =>
        ((Except.ok (emit (fun e => rgz_batch_entry .BEGIN [] (fill e)) blts)).bind
          (blendRest params hregion c ls first_batchflags scaled nv12)).bind
            fun blts => .ok (updateLast endBatch blts) :=
  appends_updateLast endBatch ((appends_emit fun e => rgz_batch_entry .BEGIN [] (fill e)).bind
    (appends_blendRest hbs first_batchflags scaled nv12)) (cons_ne_nil _ _)

/-- The `BLEND` branch appends the batch of the layers from the bottom one on. -/
theorem appends_blendOps (hdrawn : drawn hregion s = pre ++ l :: l' :: rest)
    (hrect : hregion.blitrect l s = c)
    (hbs : (l :: l' :: rest).map hregion.bufferAt = (b :: b' :: bs).map .ok) :
    AppendsBlits (.ok (batchBlits params c b b' bs)) (blendOps params hregion s l) := by
  have hdrawn' : drawn hregion s = (pre ++ [l]) ++ l' :: rest := by
    rw [hdrawn, append_assoc, singleton_append]
  obtain ⟨-, hafter, hnext, -⟩ := of_drawn_eq hdrawn
  obtain ⟨-, hafter', -, -⟩ := of_drawn_eq hdrawn'
  obtain ⟨hb, hrest⟩ := cons.inj hbs
  obtain ⟨hb', hbs'⟩ := cons.inj hrest
  rw [batchBlits]
  cases hpair : rgz_can_blend_together b' b with
  | true =>
    have hprog : blendOps params hregion s l = fun blts =>
        ((Except.ok (emit (fun e => rgz_batch_entry .BEGIN []
          (rgz_hwc_subregion_blend params c b'.1 b'.2 (some b) e)) blts)).bind
            (blendRest params hregion c rest [.SRC2, .SRC2RECT_ORIGIN, .SRC2RECT_SIZE] false
              false)).bind fun blts => .ok (updateLast endBatch blts) := by
      funext blts
      rw [blendOps, hrect, hnext, head?_cons]
      dsimp only
      rw [hb, hb', hafter']
      exact if_pos hpair
    rw [hprog]
    exact appends_batch hbs' _ _ _
  | false =>
    have hprog : blendOps params hregion s l = fun blts =>
        ((Except.ok (emit (fun e => rgz_batch_entry .BEGIN []
          (rgz_hwc_subregion_copy params c b.1 b.2 e)) blts)).bind
            (blendRest params hregion c (l' :: rest) [.OP, .SRC2, .SRC2RECT_ORIGIN, .SRC2RECT_SIZE]
              (rgz_hwc_scaled b.1.hwc_layer) (is_NV12 b.2.iFormat))).bind
              fun blts => .ok (updateLast endBatch blts) := by
      funext blts
      rw [blendOps, hrect, hnext, head?_cons]
      dsimp only
      rw [hb, hb', hafter]
      exact if_neg (by rw [hpair]; exact Bool.false_ne_true)
    rw [hprog]
    exact appends_batch hrest _ _ _

/-- The `COPY` branch appends a copy of the top layer, or of the only one. -/
theorem appends_copyOp (hdrawn : drawn hregion s = pre ++ l :: rest)
    (hrect : ∀ j ∈ l :: rest, hregion.blitrect j s = c)
    (hbs : (l :: rest).map hregion.bufferAt = (b :: bs).map .ok)
    (hn : params.noblend ∨ rest = []) :
    AppendsBlits (.ok (cellBlits params c (b :: bs))) (copyOp params hregion s l) := by
  obtain ⟨-, -, -, htop⟩ := of_drawn_eq hdrawn
  have hlast : (if params.noblend then get_top_rect hregion s else some l) =
      some ((l :: rest).getLast (cons_ne_nil l rest)) := by
    cases hnb : params.noblend with
    | true => rw [if_pos rfl, htop, getLast?_eq_some_getLast]
    | false =>
      rw [if_neg Bool.false_ne_true]
      rcases hn with hn | rfl
      · rw [hnb] at hn
        cases hn
      · rfl
  have hblits : cellBlits params c (b :: bs) = [rgz_hwc_subregion_copy params c
      ((b :: bs).getLast (cons_ne_nil b bs)).1 ((b :: bs).getLast (cons_ne_nil b bs)).2 .zero] := by
    cases bs with
    | nil => rfl
    | cons b' bs =>
      rcases hn with hn | rfl
      · exact if_pos hn
      · cases (cons.inj hbs).2
  have hbuffer : hregion.bufferAt ((l :: rest).getLast (cons_ne_nil l rest)) =
      .ok ((b :: bs).getLast (cons_ne_nil b bs)) := by
    have hlasts := congrArg getLast? hbs
    rw [getLast?_map, getLast?_map, getLast?_eq_some_getLast (cons_ne_nil l rest),
      getLast?_eq_some_getLast (cons_ne_nil b bs)] at hlasts
    exact Option.some.inj hlasts
  have hprog : copyOp params hregion s l = fun blts =>
      Except.ok (emit (rgz_hwc_subregion_copy params c ((b :: bs).getLast (cons_ne_nil b bs)).1
        ((b :: bs).getLast (cons_ne_nil b bs)).2) blts) := by
    funext blts
    rw [copyOp, hlast]
    dsimp only
    rw [hbuffer, hrect _ (getLast_mem _)]
    rfl
  rw [hprog, hblits]
  exact appends_emit _

/-- The operations behind the marks append the blits of the layers with a buffer. -/
theorem appends_bufferOps (hdrawn : drawn hregion s = pre ++ l :: rest)
    (hrect : ∀ j ∈ l :: rest, hregion.blitrect j s = c)
    (hbs : (l :: rest).map hregion.bufferAt = (b :: bs).map .ok) :
    AppendsBlits (.ok (cellBlits params c (b :: bs))) fun blts =>
      if !params.noblend && (l :: rest).length > 1 then blendOps params hregion s l blts
      else copyOp params hregion s l blts := by
  cases hnb : params.noblend with
  | true => exact appends_copyOp hdrawn hrect hbs (Or.inl hnb)
  | false =>
    cases rest with
    | nil => exact appends_copyOp hdrawn hrect hbs (Or.inr rfl)
    | cons l' rest =>
      cases bs with
      | nil => cases (cons.inj hbs).2
      | cons b' bs =>
        have hblits : cellBlits params c (b :: b' :: bs) = batchBlits params c b b' bs :=
          if_neg (by rw [hnb]; exact Bool.false_ne_true)
        rw [hblits]
        exact appends_blendOps hdrawn (hrect l mem_cons_self) hbs

variable {x : RgzLayer} {xs : List RgzLayer} {buffidx : Int}

/-- `skipBottom` on the operations from `l` on. -/
theorem skipBottom_eq (hdrawn : drawn hregion s = pre ++ l :: rest)
    (hl : hregion.rgz_layers[l]? = some x) :
    skipBottom hregion s buffidx (l :: rest).length l =
      if x.buffidx = buffidx then
        match rest with
        | [] => .ok (.inl l)
        | l' :: _ => .ok (.inr (rest.length, l'))
      else .ok (.inr ((l :: rest).length, l)) := by
  obtain ⟨-, -, hnext, -⟩ := of_drawn_eq hdrawn
  rw [skipBottom, hl, hnext]
  cases rest with
  | nil => rfl
  | cons l' rest => rfl

/-- A layer without a buffer: the background, or one with the clear hint. -/
def RgzLayer.IsMark (l : RgzLayer) : Prop :=
  (l.buffidx = RGZ_BACKGROUND_BUFFIDX ∨ l.buffidx = RGZ_CLEARHINT_BUFFIDX) ∧
    l.hwc_layer.handle.deref? = none

/-- A layer with a buffer of the frame. -/
def RgzLayer.HasBuffer (l : RgzLayer) : Prop :=
  0 ≤ l.buffidx ∧ ∃ handle, l.hwc_layer.handle.deref? = some handle

/-- The layers with a buffer, and the buffers. -/
def buffersOf (xs : List RgzLayer) : List (RgzLayer × NativeHandle) :=
  xs.filterMap fun x => x.hwc_layer.handle.deref?.map fun handle => (x, handle)

theorem buffersOf_cons_of_none (h : x.hwc_layer.handle.deref? = none) :
    buffersOf (x :: xs) = buffersOf xs :=
  filterMap_cons_none (by rw [h]; rfl)

theorem buffersOf_cons_of_some {handle : NativeHandle}
    (h : x.hwc_layer.handle.deref? = some handle) :
    buffersOf (x :: xs) = (x, handle) :: buffersOf xs :=
  filterMap_cons_some (by rw [h]; rfl)

theorem RgzLayer.HasBuffer.ne_mark (h : x.HasBuffer) :
    x.buffidx ≠ RGZ_BACKGROUND_BUFFIDX ∧ x.buffidx ≠ RGZ_CLEARHINT_BUFFIDX := by
  constructor
  · exact fun h' => absurd (h' ▸ h.1) (by decide)
  · exact fun h' => absurd (h' ▸ h.1) (by decide)

/-- Layers with a buffer are read as such. -/
theorem map_bufferAt {ls : List Nat}
    (hls : ls.map (fun j => hregion.rgz_layers[j]?) = xs.map some)
    (hxs : ∀ x ∈ xs, x.HasBuffer) : ls.map hregion.bufferAt = (buffersOf xs).map .ok := by
  induction ls generalizing xs with
  | nil =>
    cases xs with
    | nil => rfl
    | cons x xs => cases hls
  | cons l ls ih =>
    cases xs with
    | nil => cases hls
    | cons x xs =>
      obtain ⟨hl, hls⟩ := cons.inj hls
      dsimp only at hl
      obtain ⟨-, handle, hh⟩ := hxs x mem_cons_self
      have hrest := ih hls fun y hy => hxs y (mem_cons_of_mem x hy)
      rw [map_cons, hrest, buffersOf_cons_of_some hh, map_cons, BlitHregion.bufferAt, hl]
      dsimp only
      rw [hh]

/-- The operations on layers with a buffer append their blits. -/
theorem appends_subregionOps_of_buffers (hdrawn : drawn hregion s = pre ++ l :: rest)
    (hrect : ∀ j ∈ l :: rest, hregion.blitrect j s = c)
    (hlayers : (l :: rest).map (fun j => hregion.rgz_layers[j]?) = (x :: xs).map some)
    (hxs : ∀ y ∈ x :: xs, y.HasBuffer) :
    AppendsBlits (.ok (cellBlits params c (buffersOf (x :: xs)))) fun blts =>
      if !params.noblend && (l :: rest).length > 1 then blendOps params hregion s l blts
      else copyOp params hregion s l blts := by
  obtain ⟨-, handle, hh⟩ := hxs x mem_cons_self
  have hbs := map_bufferAt hlayers hxs
  rw [buffersOf_cons_of_some hh] at hbs ⊢
  exact appends_bufferOps hdrawn hrect hbs

/-- The operations of a subregion append the blits of the layers that are drawn in it; a mark at
the bottom is left out. -/
theorem appends_subregionOps (hdrawn : drawn hregion s = pre ++ l :: rest)
    (hrect : ∀ j ∈ l :: rest, hregion.blitrect j s = c)
    (hlayers : (l :: rest).map (fun j => hregion.rgz_layers[j]?) = (x :: xs).map some)
    (hx : x.IsMark ∨ x.HasBuffer) (hxs : ∀ y ∈ xs, y.HasBuffer) :
    AppendsBlits (.ok (cellBlits params c (buffersOf (x :: xs))))
      (subregionOps params hregion s (l :: rest).length l) := by
  obtain ⟨hl, hrest⟩ := cons.inj hlayers
  have hskip : ∀ buffidx, skipBottom hregion s buffidx (l :: rest).length l = _ := fun _ =>
    skipBottom_eq hdrawn hl
  rcases hx with ⟨hidx, hnone⟩ | hx
  · rw [buffersOf_cons_of_none hnone]
    cases rest with
    | nil =>
      -- nothing but the mark: the subregion is cleared
      cases xs with
      | cons y ys => cases hrest
      | nil =>
        have hprog : subregionOps params hregion s [l].length l = fun blts =>
            Except.ok (emit (rgz_out_clrdst params c) blts) := by
          funext blts
          rw [← hrect l mem_cons_self]
          rcases hidx with hidx | hidx
          · rw [subregionOps, hskip, if_pos hidx]
            rfl
          · have hne : x.buffidx ≠ RGZ_BACKGROUND_BUFFIDX := by
              rw [hidx]
              decide
            rw [subregionOps, hskip, if_neg hne]
            dsimp only [bind, Except.bind]
            rw [hskip, if_pos hidx]
            rfl
        rw [hprog]
        exact appends_emit _
    | cons l' rest =>
      cases xs with
      | nil => cases hrest
      | cons y ys =>
        have hdrawn' : drawn hregion s = (pre ++ [l]) ++ l' :: rest := by
          rw [hdrawn, append_assoc, singleton_append]
        have hy := (hxs y mem_cons_self).ne_mark
        have hskip' : ∀ buffidx, skipBottom hregion s buffidx (l' :: rest).length l' = _ :=
          fun _ => skipBottom_eq hdrawn' (cons.inj hrest).1
        have hprog : subregionOps params hregion s (l :: l' :: rest).length l = fun blts =>
            if !params.noblend && (l' :: rest).length > 1 then blendOps params hregion s l' blts
            else copyOp params hregion s l' blts := by
          funext blts
          rcases hidx with hidx | hidx
          · rw [subregionOps, hskip, if_pos hidx]
            dsimp only [bind, Except.bind]
            rw [hskip', if_neg hy.2]
          · have hne : x.buffidx ≠ RGZ_BACKGROUND_BUFFIDX := by
              rw [hidx]
              decide
            rw [subregionOps, hskip, if_neg hne]
            dsimp only [bind, Except.bind]
            rw [hskip, if_pos hidx]
        rw [hprog]
        exact appends_subregionOps_of_buffers hdrawn'
          (fun j hj => hrect j (mem_cons_of_mem l hj)) hrest hxs
  · have hne := hx.ne_mark
    have hprog : subregionOps params hregion s (l :: rest).length l = fun blts =>
        if !params.noblend && (l :: rest).length > 1 then blendOps params hregion s l blts
        else copyOp params hregion s l blts := by
      funext blts
      rw [subregionOps, hskip, if_neg hne.1]
      dsimp only [bind, Except.bind]
      rw [hskip, if_neg hne.2]
    rw [hprog]
    exact appends_subregionOps_of_buffers hdrawn hrect hlayers (forall_mem_cons.mpr ⟨hx, hxs⟩)

end Operations

end OmapHal.Regionizer
