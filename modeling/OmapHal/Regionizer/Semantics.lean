import OmapHal.Regionizer.Output

/-!
# What a blit does to the framebuffer

The view of a geometry turned by its orientation has one point for each pixel. A blit
writes the pixels whose points lie in the destination and the clipping rectangle. A
source of the size of the destination gives its texel at the same offset; any other one
is scaled, by a function of everything the blit says about source and destination.
-/

namespace OmapHal.Regionizer

open OmapHal.Hwc OmapHal.Core

/-- The formats without alpha that `is_OPAQUE` names. -/
def OcdFormat.isOpaque : OcdFormat → Bool
  | .BGR124 | .RGB124 | .RGB16 => true
  | _ => false

/-- Pixel values: a blend operator with a transparent unit, the texels of the buffers and
a scaler. Values read from an opaque format ignore what they are blended over. -/
structure Blender (V : Type) where
  srcOver : V → V → V
  clear : V
  texel : (buffidx : Int) → OcdFormat → Int × Int → V
  scaled : Source → Flips → ScaleMode → (size : Int × Int) → (orientation : Int) →
    (offset : Int × Int) → V
  srcOver_clear : ∀ v, srcOver v clear = v
  srcOver_texel : ∀ b f x d, f.isOpaque = true → srcOver (texel b f x) d = texel b f x
  srcOver_scaled : ∀ s f m z o x d, s.geom.format.isOpaque = true →
    srcOver (scaled s f m z o x) d = scaled s f m z o x

/-- One value for everything. -/
def Blender.trivial : Blender Unit where
  srcOver _ _ := ()
  clear := ()
  texel _ _ _ := ()
  scaled _ _ _ _ _ _ := ()
  srcOver_clear _ := rfl
  srcOver_texel _ _ _ _ _ := rfl
  srcOver_scaled _ _ _ _ _ _ _ _ := rfl

/-- The point of a pixel in the view of a geometry. -/
def toView (g : Geom) (p : Int × Int) : Int × Int :=
  if g.orientation % 360 = 90 then (g.width - 1 - p.2, p.1)
  else if g.orientation % 360 = 180 then (g.width - 1 - p.1, g.height - 1 - p.2)
  else if g.orientation % 360 = 270 then (p.2, g.height - 1 - p.1)
  else p

/-- The pixel at a point of the view. -/
def fromView (g : Geom) (q : Int × Int) : Int × Int :=
  if g.orientation % 360 = 90 then (q.2, g.width - 1 - q.1)
  else if g.orientation % 360 = 180 then (g.width - 1 - q.1, g.height - 1 - q.2)
  else if g.orientation % 360 = 270 then (g.height - 1 - q.2, q.1)
  else q

variable {V : Type}

/-- The value that a source gives at an offset in a destination of this size. -/
def fetch (M : Blender V) (fb : Int × Int → V) (s : Source) (flips : Flips) (mode : ScaleMode)
    (size : Int × Int) (orientation : Int) (offset : Int × Int) : V :=
  let point : Int × Int :=
    (s.rect.left + if flips.horz then s.rect.width - 1 - offset.1 else offset.1,
      s.rect.top + if flips.vert then s.rect.height - 1 - offset.2 else offset.2)
  match s.desc with
  | .unset => M.clear
  | .fill => M.clear
  | .framebuffer => fb (fromView s.geom point)
  | .buffer b =>
    if (s.rect.width, s.rect.height) = size then M.texel b s.geom.format (fromView s.geom point)
    else M.scaled s flips mode size orientation offset

/-- The value of a source of a blit at a pixel. -/
def BltEntry.value (M : Blender V) (fb : Int × Int → V) (e : BltEntry) (s : Source) (flips : Flips)
    (p : Int × Int) : V :=
  fetch M fb s flips e.scalemode (e.dstrect.width, e.dstrect.height) e.dstgeom.orientation
    ((toView e.dstgeom p).1 - e.dstrect.left, (toView e.dstgeom p).2 - e.dstrect.top)

/-- The blit writes the pixel. -/
def BltEntry.Hits (e : BltEntry) (p : Int × Int) : Prop :=
  toView e.dstgeom p ∈ ofBvRect e.dstrect ∧ toView e.dstgeom p ∈ ofBvRect e.cliprect

instance (e : BltEntry) (p : Int × Int) : Decidable (e.Hits p) :=
  inferInstanceAs (Decidable (_ ∧ _))

/-- One blit on a framebuffer. -/
def execute (M : Blender V) (e : BltEntry) (fb : Int × Int → V) (p : Int × Int) : V :=
  if e.Hits p then
    match e.op with
    | .unset => fb p
    | .SRCCOPY => e.value M fb e.src1 e.src1Flips p
    | .SRC1OVER =>
      M.srcOver (e.value M fb e.src1 e.src1Flips p) (e.value M fb e.src2 e.src2Flips p)
  else fb p

/-- A command sequence on a framebuffer. -/
def run (M : Blender V) (cmds : Blts) (fb : Int × Int → V) : Int × Int → V :=
  cmds.foldl (fun fb e => execute M e fb) fb

section View

variable {p : Int × Int} {r tmp : Rect} {o : Int} {e : BltEntry} {params : OutParams}

theorem fromView_toView (g : Geom) (p : Int × Int) : fromView g (toView g p) = p := by
  simp only [fromView, toView]
  split
  · exact Prod.ext rfl (by dsimp only; omega)
  · split
    · exact Prod.ext (by dsimp only; omega) (by dsimp only; omega)
    · split
      · exact Prod.ext (by dsimp only; omega) rfl
      · rfl

theorem ofBvRect_toBvRect (r : Rect) : ofBvRect (toBvRect r) = r := by
  cases r
  simp only [ofBvRect, toBvRect, WIDTH, HEIGHT, Box.mk.injEq, true_and]
  omega

/-- The orientations that a destination may have. -/
def QuarterTurn (o : Int) : Prop := o = 0 ∨ o = 90 ∨ o = 180 ∨ o = 270 ∨ o = 360

/-- A rectangle and a pixel keep their relation in a view. -/
theorem mem_rotateRect (ho : QuarterTurn o) (g : Geom) (r : BvRect) :
    toView { rotateGeom g o with orientation := o } p ∈ ofBvRect (rotateRect g r o) ↔
      p ∈ ofBvRect r := by
  rcases ho with rfl | rfl | rfl | rfl | rfl
  all_goals
    simp only [toView, rotateGeom, rotateRect, rgz_get_rotated_view, ofBvRect, toBvRect, WIDTH,
      HEIGHT, Box.mem_def, Int.reduceMod, Int.reduceEq, ne_eq, ↓reduceIte, not_true_eq_false,
      not_false_eq_true]
    omega

/-- The pixels in the destination and in the clipping rectangle, whatever the view. -/
theorem hits_set_dst_data (ho : QuarterTurn o) :
    (rgz_set_dst_data params tmp o e).Hits p ↔ p ∈ tmp ∧ p ∈ ofBvRect e.cliprect := by
  by_cases h0 : o = 0
  · subst h0
    simp only [rgz_set_dst_data, ne_eq, not_true_eq_false, if_false, BltEntry.Hits, toView,
      ofBvRect_toBvRect]
    rfl
  · have hdst := fun r => @mem_rotateRect p o ho
      ⟨params.format, params.screen.width, params.screen.height, o, params.virtstride⟩ r
    simp only [rgz_set_dst_data, ne_eq, h0, not_false_eq_true, if_true, BltEntry.Hits,
      rgz_rotate_dst]
    have hgeom : ∀ g : Geom, g.orientation = o →
        { rotateGeom g o with orientation := o } = rotateGeom g o := by
      intro g hg
      subst hg
      simp only [rotateGeom]
      split <;> rfl
    rw [← hgeom _ rfl, hdst, hdst, ofBvRect_toBvRect]

end View

section Value

/-- The texel of an unscaled layer at a pixel. -/
def bufferPoint (layer : HwcLayer) (p : Int × Int) : Int × Int :=
  let dx := p.1 - layer.displayFrame.left
  let dy := p.2 - layer.displayFrame.top
  let left := layer.sourceCrop.left
  let top := layer.sourceCrop.top
  if rgz_get_orientation layer.transform = 90 then
    (left + dy, top + WIDTH layer.displayFrame - 1 - dx)
  else if rgz_get_orientation layer.transform = 180 then
    (left + WIDTH layer.displayFrame - 1 - dx, top + HEIGHT layer.displayFrame - 1 - dy)
  else if rgz_get_orientation layer.transform = 270 then
    (left + HEIGHT layer.displayFrame - 1 - dy, top + dx)
  else (left + dx, top + dy)

/-- The orientations of source and destination for a layer: an NV12 source stays as it is. -/
def orientations (layer : HwcLayer) (handle : NativeHandle) : Int × Int :=
  if is_NV12 handle.iFormat then (0, 360 - rgz_get_orientation layer.transform)
  else (rgz_get_orientation layer.transform, 0)

/-- The value of a layer at a pixel, drawn in a rectangle. -/
def tmpValue (M : Blender V) (params : OutParams) (l : RgzLayer) (handle : NativeHandle)
    (tmp : Rect) (p : Int × Int) : V :=
  let o := orientations l.hwc_layer handle
  let e := rgz_set_dst_data params tmp o.2 .zero
  let mode := if rgz_hwc_scaled l.hwc_layer then
    (if is_NV12 handle.iFormat then ScaleMode.TAP_9x9 else .BILINEAR) else .unset
  fetch M (fun _ => M.clear) (rgz_set_src_data l handle tmp o.1)
    (rgz_get_flip_flags l.hwc_layer.transform) mode
    (e.dstrect.width, e.dstrect.height) e.dstgeom.orientation
    ((toView e.dstgeom p).1 - e.dstrect.left, (toView e.dstgeom p).2 - e.dstrect.top)

variable {M : Blender V} {params : OutParams} {l : RgzLayer} {handle : NativeHandle} {tmp : Rect}
  {p : Int × Int}

/-- A layer is turned by a multiple of 90 degrees. -/
theorem rgz_get_orientation_cases (transform : Nat) :
    rgz_get_orientation transform = 0 ∨ rgz_get_orientation transform = 90 ∨
      rgz_get_orientation transform = 180 ∨ rgz_get_orientation transform = 270 := by
  rw [rgz_get_orientation]
  cases flipH transform && flipV transform <;> cases rot90 transform <;> decide

theorem quarterTurn_orientations : QuarterTurn (orientations l.hwc_layer handle).2 := by
  rw [orientations, QuarterTurn]
  rcases rgz_get_orientation_cases l.hwc_layer.transform with ho | ho | ho | ho <;>
    rw [ho] <;> cases is_NV12 handle.iFormat <;> decide

/-- A point mirrored in a rectangle. -/
def mirror (flips : Flips) (r : Rect) (q : Int × Int) : Int × Int :=
  (if flips.horz then r.left + r.right - 1 - q.1 else q.1,
    if flips.vert then r.top + r.bottom - 1 - q.2 else q.2)

/-- An unscaled layer gives one texel of its buffer, mirrored in the part that is read. -/
theorem tmpValue_of_unscaled (hs : rgz_hwc_scaled l.hwc_layer = false)
    (hf : is_NV12 handle.iFormat ∨
      rgz_get_flip_flags l.hwc_layer.transform = ⟨false, false⟩) :
    tmpValue M params l handle tmp p = M.texel l.buffidx (hal_to_ocd handle.iFormat)
      (mirror (rgz_get_flip_flags l.hwc_layer.transform) (rgz_get_src_rect l.hwc_layer tmp)
        (bufferPoint l.hwc_layer p)) := by
  cases hn : is_NV12 handle.iFormat with
  | false =>
    replace hf := hf.resolve_left (by rw [hn]; decide)
    rcases rgz_get_orientation_cases l.hwc_layer.transform with ho | ho | ho | ho
    all_goals
      simp only [tmpValue, bufferPoint, orientations, fetch, rgz_set_src_data, rgz_get_src_rect, hs,
        hf, ho, hn, rgz_rotate_src, rotateRect, rotateGeom, rgz_set_dst_data, rgz_get_rotated_view,
        toBvRect, ofBvRect, WIDTH, HEIGHT, toView, fromView, mirror, Bool.false_eq_true, ↓reduceIte,
        ne_eq, not_true_eq_false, not_false_eq_true, Prod.mk.injEq, Int.reduceEq, Int.reduceMod,
        Int.reduceSub]
      rw [if_pos (by omega)]
      exact congrArg _ (Prod.ext (by dsimp only; omega) (by dsimp only; omega))
  | true =>
    rcases rgz_get_orientation_cases l.hwc_layer.transform with ho | ho | ho | ho
    all_goals
      simp only [tmpValue, bufferPoint, orientations, fetch, rgz_set_src_data, rgz_get_src_rect, hs,
        ho, hn, rotateRect, rotateGeom, rgz_set_dst_data, rgz_rotate_dst, rgz_get_rotated_view,
        toBvRect, ofBvRect, WIDTH, HEIGHT, toView, fromView, mirror, Bool.false_eq_true, ↓reduceIte,
        ne_eq, not_true_eq_false, not_false_eq_true, Prod.mk.injEq, Int.reduceEq, Int.reduceMod,
        Int.reduceSub]
      rw [if_pos (by omega)]
      exact congrArg _ (Prod.ext (by dsimp only; split_ifs <;> omega)
        (by dsimp only; split_ifs <;> omega))

end Value

section Blits

variable {M : Blender V} {params : OutParams} {l l₂ : RgzLayer} {handle handle₂ : NativeHandle}
  {c : Rect} {p : Int × Int} {e : BltEntry} {fb : Int × Int → V} {o : Int} {r : Rect}

/-- The rectangle in which a layer is drawn for a cell: a scaled one is drawn whole. -/
def drawnRect (layer : HwcLayer) (c : Rect) : Rect :=
  if rgz_hwc_scaled layer then layer.displayFrame else c

/-- The value of a layer at a pixel when it is drawn for a cell. -/
def layerValue (M : Blender V) (params : OutParams) (l : RgzLayer) (handle : NativeHandle)
    (c : Rect) (p : Int × Int) : V :=
  tmpValue M params l handle (drawnRect l.hwc_layer c) p

theorem rgz_set_src_data_desc (l : RgzLayer) (handle : NativeHandle) (r : Rect) (o : Int) :
    (rgz_set_src_data l handle r o).desc = .buffer l.buffidx := by
  simp only [rgz_set_src_data]
  split <;> rfl

theorem rgz_set_src_data_format (l : RgzLayer) (handle : NativeHandle) (r : Rect) (o : Int) :
    (rgz_set_src_data l handle r o).geom.format = hal_to_ocd handle.iFormat := by
  simp only [rgz_set_src_data]
  split
  · simp only [rgz_rotate_src, rotateGeom]
    split <;> rfl
  · rfl

/-- The value of an opaque layer covers what is behind it. -/
theorem srcOver_layerValue (h : (hal_to_ocd handle.iFormat).isOpaque) (d : V) :
    M.srcOver (layerValue M params l handle c p) d = layerValue M params l handle c p := by
  simp only [layerValue, tmpValue, fetch, rgz_set_src_data_desc]
  split
  · exact M.srcOver_texel _ _ _ _ (by rw [rgz_set_src_data_format]; exact h)
  · exact M.srcOver_scaled _ _ _ _ _ _ _ (by rw [rgz_set_src_data_format]; exact h)

/-- The parts of a layer that are read for two cells are mirrored alike. -/
def MirrorsAlike (layer : HwcLayer) (c c' : Rect) : Prop :=
  ((rgz_get_flip_flags layer.transform).horz = true →
    (rgz_get_src_rect layer c).left + (rgz_get_src_rect layer c).right =
      (rgz_get_src_rect layer c').left + (rgz_get_src_rect layer c').right) ∧
  ((rgz_get_flip_flags layer.transform).vert = true →
    (rgz_get_src_rect layer c).top + (rgz_get_src_rect layer c).bottom =
      (rgz_get_src_rect layer c').top + (rgz_get_src_rect layer c').bottom)

theorem mirror_eq_iff {flips : Flips} {r r' : Rect} {q : Int × Int} :
    mirror flips r q = mirror flips r' q ↔
      (flips.horz → r.left + r.right = r'.left + r'.right) ∧
        (flips.vert → r.top + r.bottom = r'.top + r'.bottom) := by
  rw [mirror, mirror, Prod.mk.injEq]
  constructor
  · rintro ⟨hx, hy⟩
    constructor
    · intro h
      rw [if_pos h, if_pos h] at hx
      omega
    · intro h
      rw [if_pos h, if_pos h] at hy
      omega
  · rintro ⟨hx, hy⟩
    constructor
    · split
      · rename_i h
        have := hx h
        omega
      · rfl
    · split
      · rename_i h
        have := hy h
        omega
      · rfl

/-- The value of a layer is the same in cells that are mirrored alike. -/
theorem layerValue_congr {c' : Rect} (hf : is_NV12 handle.iFormat ∨
    rgz_get_flip_flags l.hwc_layer.transform = ⟨false, false⟩)
    (h : MirrorsAlike l.hwc_layer c c') :
    layerValue M params l handle c p = layerValue M params l handle c' p := by
  rw [layerValue, layerValue]
  cases hs : rgz_hwc_scaled l.hwc_layer with
  | true => simp only [drawnRect, hs, if_true]
  | false =>
    simp only [drawnRect, hs, Bool.false_eq_true, if_false]
    rw [tmpValue_of_unscaled hs hf, tmpValue_of_unscaled hs hf, mirror_eq_iff.mpr h]

/-- The destination is set whatever the entry holds. -/
theorem rgz_set_dst_data_dst (params : OutParams) (r : Rect) (o : Int) (e : BltEntry) :
    (rgz_set_dst_data params r o e).dstrect = (rgz_set_dst_data params r o .zero).dstrect ∧
      (rgz_set_dst_data params r o e).dstgeom = (rgz_set_dst_data params r o .zero).dstgeom := by
  by_cases h : o = 0
  · simp only [rgz_set_dst_data, h, ne_eq, not_true_eq_false, if_false, and_self]
  · simp only [rgz_set_dst_data, h, ne_eq, not_false_eq_true, if_true, rgz_rotate_dst, and_self]

/-- The destination leaves the operation and the sources of the entry alone. -/
theorem rgz_set_dst_data_src (params : OutParams) (r : Rect) (o : Int) (e : BltEntry) :
    (rgz_set_dst_data params r o e).op = e.op ∧ (rgz_set_dst_data params r o e).src1 = e.src1 ∧
      (rgz_set_dst_data params r o e).src1Flips = e.src1Flips ∧
      (rgz_set_dst_data params r o e).src2Flips = e.src2Flips ∧
      (rgz_set_dst_data params r o e).scalemode = e.scalemode := by
  by_cases h : o = 0
  · simp only [rgz_set_dst_data, h, ne_eq, not_true_eq_false, if_false, and_self]
  · simp only [rgz_set_dst_data, h, ne_eq, not_false_eq_true, if_true, rgz_rotate_dst, and_self]

/-- A buffer gives the same value whatever the framebuffer holds. -/
theorem fetch_of_buffer {s : Source} {b : Int} (hs : s.desc = .buffer b) (fb' : Int × Int → V)
    (flips : Flips) (mode : ScaleMode) (size : Int × Int) (x : Int × Int) :
    fetch M fb s flips mode size o x = fetch M fb' s flips mode size o x := by
  simp only [fetch, hs]

/-- The scale mode of a layer. -/
def layerMode (layer : HwcLayer) (handle : NativeHandle) : ScaleMode :=
  if rgz_hwc_scaled layer then (if is_NV12 handle.iFormat then .TAP_9x9 else .BILINEAR) else .unset

/-- `setSrc1AndDst` in terms of the orientations of a layer. -/
theorem setSrc1AndDst_eq (he : e.scalemode = .unset) :
    setSrc1AndDst params c l handle e =
      rgz_set_dst_data params (drawnRect l.hwc_layer c) (orientations l.hwc_layer handle).2
        { e with
          scalemode := layerMode l.hwc_layer handle
          cliprect := toBvRect (clipRect params.screen c)
          src1 := rgz_set_src_data l handle (drawnRect l.hwc_layer c)
            (orientations l.hwc_layer handle).1 } := by
  cases e
  cases he
  simp only [setSrc1AndDst, orientations, drawnRect, layerMode, rgz_set_clip_rect,
    rgz_cfg_scale_mode]
  cases is_NV12 handle.iFormat <;> cases rgz_hwc_scaled l.hwc_layer <;> rfl

/-- What `setSrc1AndDst` draws, and where. -/
theorem setSrc1AndDst_spec (he : e.scalemode = .unset)
    (hflips : e.src1Flips = rgz_get_flip_flags l.hwc_layer.transform) :
    ((setSrc1AndDst params c l handle e).Hits p ↔
        p ∈ drawnRect l.hwc_layer c ∧ p ∈ clipRect params.screen c) ∧
      (setSrc1AndDst params c l handle e).op = e.op ∧
      (setSrc1AndDst params c l handle e).src2Flips = e.src2Flips ∧
      (setSrc1AndDst params c l handle e).value M fb (setSrc1AndDst params c l handle e).src1
        (setSrc1AndDst params c l handle e).src1Flips p = layerValue M params l handle c p := by
  rw [setSrc1AndDst_eq he]
  generalize heq : BltEntry.mk .. = e'
  obtain ⟨hop, hsrc1, hflips1, hflips2, hmode⟩ := rgz_set_dst_data_src params
    (drawnRect l.hwc_layer c) (orientations l.hwc_layer handle).2 e'
  obtain ⟨hrect, hgeom⟩ := rgz_set_dst_data_dst params
    (drawnRect l.hwc_layer c) (orientations l.hwc_layer handle).2 e'
  subst heq
  refine ⟨?_, hop, hflips2, ?_⟩
  · rw [hits_set_dst_data quarterTurn_orientations, ofBvRect_toBvRect]
  · rw [BltEntry.value, hsrc1, hflips1, hrect, hgeom, hmode]
    rw [hflips, fetch_of_buffer (rgz_set_src_data_desc ..) fun _ => M.clear]
    rfl

/-- A clear sets the pixels of its rectangle. -/
theorem execute_clrdst :
    execute M (rgz_out_clrdst params r .zero) fb p =
      if p ∈ r ∧ p ∈ clipRect params.screen r then M.clear else fb p := by
  have hhits : (rgz_out_clrdst params r .zero).Hits p ↔ p ∈ r ∧ p ∈ clipRect params.screen r := by
    rw [rgz_out_clrdst, hits_set_dst_data (Or.inl rfl)]
    exact and_congr_right fun _ => by rw [rgz_set_clip_rect, ofBvRect_toBvRect]
  simp only [execute, hhits]
  rfl

/-- A copy puts the value of the layer. -/
theorem execute_copy :
    execute M (rgz_hwc_subregion_copy params c l handle .zero) fb p =
      if p ∈ drawnRect l.hwc_layer c ∧ p ∈ clipRect params.screen c
      then layerValue M params l handle c p else fb p := by
  obtain ⟨hhits, hop, -, hvalue⟩ := @setSrc1AndDst_spec V M params l handle c p { BltEntry.zero with
    op := .SRCCOPY
    src1Flips := rgz_get_flip_flags l.hwc_layer.transform
    src2Flips := ⟨false, false⟩
    async := true
    batch := .none } fb rfl rfl
  have hexecute : ∀ (e : BltEntry) (format : OcdFormat),
      execute M { e with dstgeom := { e.dstgeom with format := format } } fb p =
        execute M e fb p := fun e format => rfl
  simp only [rgz_hwc_subregion_copy]
  split
  · rw [hexecute, execute, hop]
    simp only [hhits, hvalue]
  · rw [execute, hop]
    simp only [hhits, hvalue]

/-- A blend with the framebuffer. -/
theorem execute_blend :
    execute M (rgz_hwc_subregion_blend params c l handle none .zero) fb p =
      if p ∈ drawnRect l.hwc_layer c ∧ p ∈ clipRect params.screen c
      then M.srcOver (layerValue M params l handle c p) (fb p) else fb p := by
  obtain ⟨hhits, hop, hflips2, hvalue⟩ := @setSrc1AndDst_spec V M params l handle c p
    { BltEntry.zero with
      op := .SRC1OVER
      src1Flips := rgz_get_flip_flags l.hwc_layer.transform
      src2Flips := ⟨false, false⟩
      async := true
      batch := .none } fb rfl rfl
  simp only [rgz_hwc_subregion_blend]
  generalize setSrc1AndDst params c l handle _ = e at *
  -- the second source is the framebuffer at the pixel itself
  have hfb : (rgz_set_src2_is_dst e).value M fb (rgz_set_src2_is_dst e).src2
      (rgz_set_src2_is_dst e).src2Flips p = fb p := by
    have hoff : ∀ a b : Int, a + (b - a) = b := fun a b => by omega
    simp only [BltEntry.value, fetch, rgz_set_src2_is_dst, hflips2, if_neg Bool.false_ne_true, hoff,
      Prod.mk.eta, fromView_toView]
  have hsame : (rgz_set_src2_is_dst e).Hits p ↔ e.Hits p := Iff.rfl
  have hop' : (rgz_set_src2_is_dst e).op = .SRC1OVER := hop
  rw [execute, hop']
  simp only [hsame, hhits, hfb]
  rw [← hvalue]
  rfl

/-- Layers that can be blended together are neither scaled nor NV12. -/
theorem rgz_can_blend_together_iff :
    rgz_can_blend_together (l, handle) (l₂, handle₂) ↔
      (rgz_hwc_scaled l.hwc_layer = false ∧ rgz_hwc_scaled l₂.hwc_layer = false) ∧
        is_NV12 handle.iFormat = false ∧ is_NV12 handle₂.iFormat = false := by
  simp only [rgz_can_blend_together]
  split
  · rename_i h
    rw [Bool.or_eq_true] at h
    constructor
    · exact fun h' => absurd h' Bool.false_ne_true
    · rintro ⟨⟨h1, h2⟩, -⟩
      rw [h1, h2] at h
      exact absurd h (by decide)
  · rename_i h
    rw [Bool.not_eq_true, Bool.or_eq_false_iff] at h
    rw [Bool.not_eq_true', Bool.or_eq_false_iff]
    exact (and_iff_right h).symm

/-- Two layers are blended with each other, and the result is put. -/
theorem execute_blend_pair (h : rgz_can_blend_together (l, handle) (l₂, handle₂)) :
    execute M (rgz_hwc_subregion_blend params c l handle (some (l₂, handle₂)) .zero) fb p =
      if p ∈ c ∧ p ∈ clipRect params.screen c
      then M.srcOver (layerValue M params l handle c p) (layerValue M params l₂ handle₂ c p)
      else fb p := by
  obtain ⟨⟨hs, hs₂⟩, hn, hn₂⟩ := rgz_can_blend_together_iff.mp h
  have hrect : drawnRect l.hwc_layer c = c := if_neg (by rw [hs]; exact Bool.false_ne_true)
  have hrect₂ : drawnRect l₂.hwc_layer c = c := if_neg (by rw [hs₂]; exact Bool.false_ne_true)
  obtain ⟨hhits, hop, hflips2, hvalue⟩ := @setSrc1AndDst_spec V M params l handle c p
    { BltEntry.zero with
      op := .SRC1OVER
      src1Flips := rgz_get_flip_flags l.hwc_layer.transform
      src2Flips := ⟨false, false⟩
      async := true
      batch := .none } fb rfl rfl
  have hvalue₂ : ∀ fb, (setSrc1AndDst params c l handle { BltEntry.zero with
      op := .SRC1OVER
      src1Flips := rgz_get_flip_flags l.hwc_layer.transform
      src2Flips := ⟨false, false⟩
      async := true
      batch := .none }).value M fb (rgz_set_src_data l₂ handle₂ c
        (rgz_get_orientation l₂.hwc_layer.transform))
        (rgz_get_flip_flags l₂.hwc_layer.transform) p =
      layerValue M params l₂ handle₂ c p := by
    intro fb
    rw [setSrc1AndDst_eq rfl, layerValue, hrect, hrect₂]
    simp only [BltEntry.value, orientations, hn, layerMode, hs, Bool.false_eq_true, if_false,
      tmpValue, hn₂, hs₂]
    exact fetch_of_buffer (rgz_set_src_data_desc ..) _ _ _ _ _
  simp only [rgz_hwc_subregion_blend]
  rw [hrect] at hhits
  generalize setSrc1AndDst params c l handle _ = e at *
  rw [← hvalue, ← hvalue₂ fb]
  simp only [execute, hop, ← hhits]
  rfl

end Blits

end OmapHal.Regionizer
