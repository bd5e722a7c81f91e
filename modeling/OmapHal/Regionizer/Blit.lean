import OmapHal.Regionizer.Ops

/-!
# Blit entries

The entries of the blit pool and the functions that fill one for a layer: the part of
the source to read, the part of the screen to write, and the clipping rectangle, each
in the view that the orientation asks for. The handle of the layer is an argument
where the source reads through it.
-/

namespace OmapHal.Regionizer

open OmapHal.Hwc OmapHal.Core

/-- `OCDFMT_*`. -/
inductive OcdFormat where
  | BGRA24
  | BGR124
  | RGB16
  | RGBA24
  | RGB124
  | NV12
  | YV12
  | UNKNOWN
  deriving DecidableEq, Repr

/-- `hal_to_ocd`. -/
def hal_to_ocd : PixelFormat → OcdFormat
  | .BGRA_8888 => .BGRA24
  | .BGRX_8888 => .BGR124
  | .RGB_565 => .RGB16
  | .RGBA_8888 => .RGBA24
  | .RGBX_8888 => .RGB124
  | .TI_NV12 => .NV12
  | .YV12 => .YV12
  | _ => .UNKNOWN

/-- `rgz_handle_to_stride`. -/
def rgz_handle_to_stride (h : NativeHandle) : Int :=
  let bpp := if is_NV12 h.iFormat then 0 else if h.iFormat = .RGB_565 then 2 else 4
  (h.iWidth + (HW_ALIGN - 1)) / HW_ALIGN * HW_ALIGN * bpp
where
  /-- The alignment of a line in pixels. -/
  HW_ALIGN : Int := 32

/-- `bvrect`. Extents are signed here: a negative one, which wraps in the source, holds
no pixel. -/
structure BvRect where
  left : Int
  top : Int
  width : Int
  height : Int
  deriving DecidableEq, Repr

/-- What the `auxptr` of a descriptor names: a buffer of the frame, the framebuffer, or
the pixel to fill with. -/
inductive Desc where
  | unset
  | buffer (buffidx : Int)
  | framebuffer
  | fill
  deriving DecidableEq, Repr

/-- `bvsurfgeom`. -/
structure Geom where
  format : OcdFormat
  width : Int
  height : Int
  orientation : Int
  virtstride : Int
  deriving DecidableEq, Repr

/-- A source of a blit: descriptor, geometry and rectangle. -/
structure Source where
  desc : Desc
  length : Int
  geom : Geom
  rect : BvRect
  deriving DecidableEq, Repr

/-- `BVFLAG_ROP` with `0xCCCC` and `BVFLAG_BLEND` with `BVBLEND_SRC1OVER`. -/
inductive BltOp where
  | unset
  | SRCCOPY
  | SRC1OVER
  deriving DecidableEq, Repr

/-- `BVFLAG_HORZ_FLIP_*` and `BVFLAG_VERT_FLIP_*` of one source. -/
structure Flips where
  horz : Bool
  vert : Bool
  deriving DecidableEq, Repr

/-- `BVFLAG_BATCH_*`. -/
inductive BatchMark where
  | none
  | BEGIN
  | CONTINUE
  | END
  deriving DecidableEq, Repr

/-- `BVBATCH_*`. -/
inductive BatchFlag where
  | OP
  | SRC1
  | SRC1RECT_ORIGIN
  | SRC1RECT_SIZE
  | SRC2
  | SRC2RECT_ORIGIN
  | SRC2RECT_SIZE
  | DST
  | DSTRECT_ORIGIN
  | DSTRECT_SIZE
  | CLIPRECT
  | SCALE
  deriving DecidableEq, Repr

/-- `scalemode`. -/
inductive ScaleMode where
  | unset
  | TAP_9x9
  | BILINEAR
  deriving DecidableEq, Repr

/-- `rgz_blt_entry`. -/
structure BltEntry where
  op : BltOp
  src1Flips : Flips
  src2Flips : Flips
  async : Bool
  batch : BatchMark
  batchflags : List BatchFlag
  scalemode : ScaleMode
  src1 : Source
  src2 : Source
  dstgeom : Geom
  dstrect : BvRect
  cliprect : BvRect
  deriving DecidableEq, Repr

/-- The slots of the pool after `rgz_blts_init`. -/
def BltEntry.zero : BltEntry :=
  let rect : BvRect := ⟨0, 0, 0, 0⟩
  let geom : Geom := ⟨.UNKNOWN, 0, 0, 0, 0⟩
  let source : Source := ⟨.unset, 0, geom, rect⟩
  { op := .unset, src1Flips := ⟨false, false⟩, src2Flips := ⟨false, false⟩, async := false,
    batch := .none, batchflags := [], scalemode := .unset, src1 := source, src2 := source,
    dstgeom := geom, dstrect := rect, cliprect := rect }

/-- The fields of `rgz_out_params` for the `BVCMD` operations. -/
structure OutParams where
  /-- `dstgeom`. -/
  screen : ScreenGeom
  format : OcdFormat
  virtstride : Int
  noblend : Bool

/-- `min` of an unsigned and a signed argument, which is compared as unsigned. -/
def minUnsigned (a : Nat) (b : Int) : Int := if b < 0 then a else min a b

/-- `rgz_hwc_scaled`. -/
def rgz_hwc_scaled (layer : HwcLayer) : Bool :=
  let (w, h) := if rot90 layer.transform then (HEIGHT layer.sourceCrop, WIDTH layer.sourceCrop)
    else (WIDTH layer.sourceCrop, HEIGHT layer.sourceCrop)
  WIDTH layer.displayFrame != w || HEIGHT layer.displayFrame != h

/-- `rgz_get_orientation`. -/
def rgz_get_orientation (transform : Nat) : Int :=
  (if flipH transform && flipV transform then 180 else 0) + if rot90 transform then 90 else 0

/-- `rgz_get_flip_flags`. -/
def rgz_get_flip_flags (transform : Nat) : Flips :=
  ⟨flipH transform && !flipV transform, flipV transform && !flipH transform⟩

/-- `rgz_get_rotated_view`. An orientation that is no multiple of 90 is only reported. -/
def rgz_get_rotated_view (outer_rect inner_rect : Rect) (orientation : Int) : Rect :=
  let delta_top := inner_rect.top - outer_rect.top
  let delta_left := inner_rect.left - outer_rect.left
  let (left, top) :=
    if orientation % 360 = 0 then (delta_left, delta_top)
    else if orientation % 360 = 180 then
      (WIDTH outer_rect - WIDTH inner_rect - delta_left,
        HEIGHT outer_rect - HEIGHT inner_rect - delta_top)
    else if orientation % 360 = 90 then
      (HEIGHT outer_rect - HEIGHT inner_rect - delta_top, delta_left)
    else if orientation % 360 = 270 then
      (delta_top, WIDTH outer_rect - WIDTH inner_rect - delta_left)
    else (0, 0)
  let (width, height) :=
    if orientation % 180 ≠ 0 then (HEIGHT inner_rect, WIDTH inner_rect)
    else (WIDTH inner_rect, HEIGHT inner_rect)
  ⟨left, top, left + width, top + height⟩

/-- `rgz_get_src_rect`. -/
def rgz_get_src_rect (layer : HwcLayer) (subregion_rect : Rect) : Rect :=
  if rgz_hwc_scaled layer then layer.sourceCrop
  else
    let res_rect := rgz_get_rotated_view layer.displayFrame subregion_rect
      (0 - rgz_get_orientation layer.transform)
    ⟨res_rect.left + layer.sourceCrop.left, res_rect.top + layer.sourceCrop.top,
      res_rect.right + layer.sourceCrop.left, res_rect.bottom + layer.sourceCrop.top⟩

/-- The rectangle as a `bvrect`. -/
def toBvRect (r : Rect) : BvRect := ⟨r.left, r.top, WIDTH r, HEIGHT r⟩

/-- The `bvrect` as a rectangle. -/
def ofBvRect (r : BvRect) : Rect := ⟨r.left, r.top, r.left + r.width, r.top + r.height⟩

/-- A rectangle in the rotated view of a geometry. -/
def rotateRect (geom : Geom) (r : BvRect) (orientation : Int) : BvRect :=
  toBvRect (rgz_get_rotated_view ⟨0, 0, geom.width, geom.height⟩ (ofBvRect r) orientation)

/-- The geometry in its rotated view. -/
def rotateGeom (geom : Geom) (orientation : Int) : Geom :=
  if orientation % 180 ≠ 0 then { geom with width := geom.height, height := geom.width } else geom

/-- `rgz_rotate_dst`. -/
def rgz_rotate_dst (dst_orientation : Int) (e : BltEntry) : BltEntry :=
  { e with
    dstrect := rotateRect e.dstgeom e.dstrect dst_orientation
    cliprect := rotateRect e.dstgeom e.cliprect dst_orientation
    dstgeom := rotateGeom e.dstgeom dst_orientation }

/-- `rgz_set_dst_data`. -/
def rgz_set_dst_data (params : OutParams) (subregion_rect : Rect) (dst_orientation : Int)
    (e : BltEntry) : BltEntry :=
  let e := { e with
    dstgeom := ⟨params.format, params.screen.width, params.screen.height, dst_orientation,
      params.virtstride⟩
    dstrect := toBvRect subregion_rect }
  if dst_orientation ≠ 0 then rgz_rotate_dst dst_orientation e else e

/-- `rgz_rotate_src`. -/
def rgz_rotate_src (src_orientation : Int) (s : Source) : Source :=
  { s with
    rect := rotateRect s.geom s.rect src_orientation
    geom := rotateGeom s.geom src_orientation }

/-- `rgz_set_src_data`: the source that it sets. -/
def rgz_set_src_data (rgz_layer : RgzLayer) (handle : NativeHandle) (subregion_rect : Rect)
    (src_orientation : Int) : Source :=
  let stride := rgz_handle_to_stride handle
  let s : Source :=
    { desc := .buffer rgz_layer.buffidx
      length := handle.iHeight * stride
      geom := ⟨hal_to_ocd handle.iFormat, handle.iWidth, handle.iHeight, src_orientation, stride⟩
      rect := toBvRect (rgz_get_src_rect rgz_layer.hwc_layer subregion_rect) }
  if src_orientation ≠ 0 then rgz_rotate_src src_orientation s else s

/-- The clipping rectangle of `rgz_set_clip_rect`. -/
def clipRect (screen : ScreenGeom) (subregion_rect : Rect) : Rect :=
  ⟨max 0 subregion_rect.left, max 0 subregion_rect.top,
    minUnsigned screen.width subregion_rect.right, minUnsigned screen.height subregion_rect.bottom⟩

/-- `rgz_set_clip_rect`. -/
def rgz_set_clip_rect (params : OutParams) (subregion_rect : Rect) (e : BltEntry) : BltEntry :=
  { e with cliprect := toBvRect (clipRect params.screen subregion_rect) }

/-- `rgz_set_src2_is_dst`. -/
def rgz_set_src2_is_dst (e : BltEntry) : BltEntry :=
  { e with src2 := { e.src2 with desc := .framebuffer, geom := e.dstgeom, rect := e.dstrect } }

/-- `rgz_cfg_scale_mode`. -/
def rgz_cfg_scale_mode (handle : NativeHandle) (e : BltEntry) : BltEntry :=
  { e with scalemode := if is_NV12 handle.iFormat then .TAP_9x9 else .BILINEAR }

/-- The common part of `rgz_hwc_subregion_copy` and `rgz_hwc_subregion_blend`: `src1` and
the destination. A scaled layer is drawn whole and clipped. The destination is rotated in
place of an NV12 source. -/
def setSrc1AndDst (params : OutParams) (subregion_rect : Rect) (rgz_src1 : RgzLayer)
    (handle : NativeHandle) (e : BltEntry) : BltEntry :=
  let hwc_src1 := rgz_src1.hwc_layer
  let e := if rgz_hwc_scaled hwc_src1 then rgz_cfg_scale_mode handle e else e
  let tmp_rect := if rgz_hwc_scaled hwc_src1 then hwc_src1.displayFrame else subregion_rect
  let orientation := rgz_get_orientation hwc_src1.transform
  let (src1_orientation, dst_orientation) :=
    if is_NV12 handle.iFormat then (0, 360 - orientation) else (orientation, 0)
  let e := { e with src1 := rgz_set_src_data rgz_src1 handle tmp_rect src1_orientation }
  rgz_set_dst_data params tmp_rect dst_orientation (rgz_set_clip_rect params subregion_rect e)

/-- `rgz_hwc_subregion_copy`. -/
def rgz_hwc_subregion_copy (params : OutParams) (subregion_rect : Rect) (rgz_src1 : RgzLayer)
    (handle : NativeHandle) (e : BltEntry) : BltEntry :=
  let e := { e with
    op := .SRCCOPY
    src1Flips := rgz_get_flip_flags rgz_src1.hwc_layer.transform
    src2Flips := ⟨false, false⟩
    async := true
    batch := .none }
  let e := setSrc1AndDst params subregion_rect rgz_src1 handle e
  if e.src1.geom.format = .BGR124 ∨ e.src1.geom.format = .RGB124 ∨ e.src1.geom.format = .RGB16 then
    { e with dstgeom := { e.dstgeom with format := .BGR124 } }
  else e

/-- `rgz_hwc_subregion_blend`, with the layer behind and its handle if it is no blend with
the framebuffer. -/
def rgz_hwc_subregion_blend (params : OutParams) (subregion_rect : Rect) (rgz_src1 : RgzLayer)
    (handle : NativeHandle) (rgz_src2 : Option (RgzLayer × NativeHandle)) (e : BltEntry) :
    BltEntry :=
  let e := { e with
    op := .SRC1OVER
    src1Flips := rgz_get_flip_flags rgz_src1.hwc_layer.transform
    src2Flips := ⟨false, false⟩
    async := true
    batch := .none }
  let e := setSrc1AndDst params subregion_rect rgz_src1 handle e
  match rgz_src2 with
  | some (rgz_src2, handle2) =>
    { e with
      src2Flips := rgz_get_flip_flags rgz_src2.hwc_layer.transform
      src2 := rgz_set_src_data rgz_src2 handle2 subregion_rect
        (rgz_get_orientation rgz_src2.hwc_layer.transform) }
  | none => rgz_set_src2_is_dst e

/-- `rgz_out_clrdst` for a rectangle; the whole screen stands for no rectangle. -/
def rgz_out_clrdst (params : OutParams) (clear_rect : Rect) (e : BltEntry) : BltEntry :=
  let e := { e with
    op := .SRCCOPY
    src1Flips := ⟨false, false⟩
    src2Flips := ⟨false, false⟩
    async := true
    batch := .none
    src1 := ⟨.fill, 4, ⟨.RGBA24, 1, 1, 0, e.src1.geom.virtstride⟩, ⟨0, 0, 1, 1⟩⟩ }
  rgz_set_dst_data params clear_rect 0 (rgz_set_clip_rect params clear_rect e)

end OmapHal.Regionizer
