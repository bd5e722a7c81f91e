import OmapHal.Regionizer.Blit

/-!
# Output operations

`rgz_out_region` and `rgz_out_bvcmd_paint` fill the blit pool for the operations
`RGZ_OUT_BVCMD_REGION` and `RGZ_OUT_BVCMD_PAINT`. The pool is the list of the slots in
use; once all are, `rgz_blts_get` hands out the last one again.
-/

namespace OmapHal.Regionizer

open OmapHal.Hwc OmapHal.Core

/-- `blts.bvcmds` up to `blts.idx`. -/
abbrev Blts := List BltEntry

/-- Fill the slot of `rgz_blts_get`. -/
def emit (fill : BltEntry → BltEntry) (blts : Blts) : Blts :=
  if blts.length < RGZ_MAX_BLITS then blts ++ [fill .zero]
  else blts.modify (blts.length - 1) fill

/-- Change the slot that was filled last. -/
def updateLast (update : BltEntry → BltEntry) (blts : Blts) : Blts :=
  blts.modify (blts.length - 1) update

/-- `rgz_set_async`. -/
def rgz_set_async (async : Bool) (e : BltEntry) : BltEntry := { e with async := async }

/-- `rgz_batch_entry`. -/
def rgz_batch_entry (flag : BatchMark) (set : List BatchFlag) (e : BltEntry) : BltEntry :=
  { e with batch := flag, batchflags := e.batchflags ++ set }

/-- A layer of a horizontal region with its buffer; a read through a handle that is no
buffer is a fault. -/
def BlitHregion.bufferAt (hregion : BlitHregion) (l : Nat) :
    Except Stop (RgzLayer × NativeHandle) :=
  match hregion.rgz_layers[l]? with
  | none => .error .fault
  | some layer =>
    match layer.hwc_layer.handle.deref? with
    | none => .error .fault
    | some handle => .ok (layer, handle)

/-- `rgz_can_blend_together`. -/
def rgz_can_blend_together (src1 src2 : RgzLayer × NativeHandle) : Bool :=
  if rgz_hwc_scaled src1.1.hwc_layer || rgz_hwc_scaled src2.1.hwc_layer then false
  else !(is_NV12 src1.2.iFormat || is_NV12 src2.2.iFormat)

/-- Leave out the bottom layer if it has this buffer index: the subregion to clear if it
is the only operation, the operations that are left otherwise. -/
def skipBottom (hregion : BlitHregion) (sidx : Nat) (buffidx : Int) (ldepth lix : Nat) :
    Except Stop (Nat ⊕ Nat × Nat) :=
  match hregion.rgz_layers[lix]? with
  | none => .error .fault
  | some layer =>
    if layer.buffidx = buffidx then
      if ldepth = 1 then .ok (.inl lix)
      else
        match get_layer_ops_next hregion sidx lix with
        | none => .error .fault
        | some lix => .ok (.inr (ldepth - 1, lix))
    else .ok (.inr (ldepth, lix))

/-- The batch flags of a blit behind the first one. -/
def restBatchflags (first_batchflags : List BatchFlag) (scaled nv12 : Bool) : List BatchFlag :=
  first_batchflags ++ [.SRC1, .SRC1RECT_ORIGIN, .SRC1RECT_SIZE] ++
    (if scaled then
      [.DSTRECT_ORIGIN, .DSTRECT_SIZE, .SRC2RECT_ORIGIN, .SRC2RECT_SIZE, .SCALE] else []) ++
    if nv12 then
      [.DST, .DSTRECT_ORIGIN, .DSTRECT_SIZE, .SRC2, .SRC2RECT_ORIGIN, .SRC2RECT_SIZE, .CLIPRECT]
    else []

/-- The rest of the layers, blended with the framebuffer. -/
def blendRest (params : OutParams) (hregion : BlitHregion) (rect : Rect) :
    List Nat → (first_batchflags : List BatchFlag) → (prev_layer_scaled prev_layer_nv12 : Bool) →
      Blts → Except Stop Blts
  | [], _, _, _, blts => .ok blts
  | lix :: rest, first_batchflags, prev_layer_scaled, prev_layer_nv12, blts => do
    let src1 ← hregion.bufferAt lix
    let cur_layer_scaled := rgz_hwc_scaled src1.1.hwc_layer
    let cur_layer_nv12 := is_NV12 src1.2.iFormat
    let batchflags := restBatchflags first_batchflags (cur_layer_scaled || prev_layer_scaled)
      (cur_layer_nv12 || prev_layer_nv12)
    blendRest params hregion rect rest [] cur_layer_scaled cur_layer_nv12
      (emit (fun e => rgz_batch_entry .CONTINUE batchflags
        (rgz_hwc_subregion_blend params rect src1.1 src1.2 none e)) blts)

/-- The end of a batch; a batch of one blit is none. -/
def endBatch (e : BltEntry) : BltEntry :=
  if e.batch = .BEGIN then rgz_batch_entry .none [] e else rgz_batch_entry .END [] e

/-- The `BLEND` branch of `rgz_hwc_subregion_blit`. -/
def blendOps (params : OutParams) (hregion : BlitHregion) (sidx s2lix : Nat) (blts : Blts) :
    Except Stop Blts := do
  let rect := hregion.blitrect s2lix sidx
  let second_batchflags : List BatchFlag := [.SRC2, .SRC2RECT_ORIGIN, .SRC2RECT_SIZE]
  match get_layer_ops_next hregion sidx s2lix with
  | none => .error .fault
  | some lix =>
    let src1 ← hregion.bufferAt lix
    let src2 ← hregion.bufferAt s2lix
    if rgz_can_blend_together src1 src2 then
      let blts := emit (fun e => rgz_batch_entry .BEGIN []
        (rgz_hwc_subregion_blend params rect src1.1 src1.2 (some src2) e)) blts
      let blts ← blendRest params hregion rect (opsAfter hregion sidx lix) second_batchflags
        false false blts
      return updateLast endBatch blts
    else
      -- the first layer is copied, and all behind it are blended with the framebuffer
      let blts := emit (fun e => rgz_batch_entry .BEGIN []
        (rgz_hwc_subregion_copy params rect src2.1 src2.2 e)) blts
      let blts ← blendRest params hregion rect (opsAfter hregion sidx s2lix)
        (.OP :: second_batchflags) (rgz_hwc_scaled src2.1.hwc_layer) (is_NV12 src2.2.iFormat) blts
      return updateLast endBatch blts

/-- The `COPY` branch of `rgz_hwc_subregion_blit`. -/
def copyOp (params : OutParams) (hregion : BlitHregion) (sidx lix : Nat) (blts : Blts) :
    Except Stop Blts := do
  let top := if params.noblend then get_top_rect hregion sidx else some lix
  match top with
  | none => .error .fault
  | some lix =>
    let src1 ← hregion.bufferAt lix
    return emit (rgz_hwc_subregion_copy params (hregion.blitrect lix sidx) src1.1 src1.2) blts

/-- The blits of `rgz_hwc_subregion_blit` for a dirty subregion with `ldepth` operations,
the bottom one at `lix`. -/
def subregionOps (params : OutParams) (hregion : BlitHregion) (sidx ldepth lix : Nat)
    (blts : Blts) : Except Stop Blts := do
  match ← skipBottom hregion sidx RGZ_BACKGROUND_BUFFIDX ldepth lix with
  | .inl lix => return emit (rgz_out_clrdst params (hregion.blitrect lix sidx)) blts
  | .inr (ldepth, lix) =>
    match ← skipBottom hregion sidx RGZ_CLEARHINT_BUFFIDX ldepth lix with
    | .inl lix => return emit (rgz_out_clrdst params (hregion.blitrect lix sidx)) blts
    | .inr (ldepth, lix) =>
      if !params.noblend && ldepth > 1 then blendOps params hregion sidx lix blts
      else copyOp params hregion sidx lix blts

/-- `rgz_hwc_subregion_blit`. -/
def rgz_hwc_subregion_blit (params : OutParams) (hregion : BlitHregion) (damaged_area : Rect)
    (sidx : Nat) (blts : Blts) : Except Stop Blts := do
  let (ldepth, bottom) ← get_layer_ops hregion sidx
  match bottom with
  | none => .error .failed
  | some lix =>
    if subregionDirty hregion sidx lix damaged_area then
      subregionOps params hregion sidx ldepth lix blts
    else return blts

/-- What an output operation returns: `cmdp` with `cmdlen` entries, and `out_hndls` with
`out_nhndls`. -/
structure BvCommands where
  cmdp : Blts
  out_hndls : List BufferHandle

/-- The end of both operations: the last blit is made sync, and a full pool is an error. -/
def finishBlts (blts : Blts) (out_hndls : List BufferHandle) : Except Stop BvCommands :=
  if blts.length ≥ RGZ_MAX_BLITS then .error .failed
  else .ok ⟨updateLast (rgz_set_async false) blts, out_hndls⟩

/-- The subregions of a horizontal region in `rgz_out_region`. -/
def hregionBlts (params : OutParams) (damaged_area : Rect) (hregion : BlitHregion) (blts : Blts) :
    Except Stop Blts :=
  if hregion.rgz_layers = [] then .error .failed
  else (List.range hregion.nsubregions).foldlM
    (fun blts s => rgz_hwc_subregion_blit params hregion damaged_area s blts) blts

/-- The pool as `rgz_out_region` fills it. -/
def regionBlts (params : OutParams) (rgz : Rgz) : Except Stop Blts :=
  if !rgz.regionData then .error .failed
  else rgz.hregions.foldlM (fun blts h => hregionBlts params rgz.damaged_area h blts) []

/-- `rgz_out_region`. -/
def rgz_out_region (params : OutParams) (rgz : Rgz) : Except Stop BvCommands := do
  let blts ← regionBlts params rgz
  finishBlts blts ((rgz.cur_fb_state.tail.filter fun l => l.buffidx != RGZ_CLEARHINT_BUFFIDX).map
    fun l => l.hwc_layer.handle)

/-- `rgz_hwc_layer_blit`. -/
def rgz_hwc_layer_blit (params : OutParams) (rgz_layer : RgzLayer) (handle : NativeHandle) :
    BltEntry → BltEntry :=
  let srcregion := rgz_layer.hwc_layer.displayFrame
  if !params.noblend && rgz_layer.hwc_layer.blending == HWC_BLENDING_PREMULT then
    rgz_hwc_subregion_blend params srcregion rgz_layer handle none
  else rgz_hwc_subregion_copy params srcregion rgz_layer handle

/-- A layer in the loop of `rgz_out_bvcmd_paint`: one with the clear hint is cleared. -/
def paintLayer (params : OutParams) (rgz_layer : RgzLayer) (blts : Blts) : Except Stop Blts :=
  if rgz_layer.buffidx = RGZ_CLEARHINT_BUFFIDX then
    .ok (emit (rgz_out_clrdst params
      (clipRect params.screen rgz_layer.hwc_layer.displayFrame)) blts)
  else
    match rgz_layer.hwc_layer.handle.deref? with
    | none => .error .fault
    | some handle => .ok (emit (rgz_hwc_layer_blit params rgz_layer handle) blts)

/-- The pool as `rgz_out_bvcmd_paint` fills it. -/
def paintBlts (params : OutParams) (rgz : Rgz) : Except Stop Blts :=
  rgz.cur_fb_state.tail.foldlM (fun blts l => paintLayer params l blts)
    (emit (rgz_out_clrdst params params.screen.rect) [])

/-- `rgz_out_bvcmd_paint`. -/
def rgz_out_bvcmd_paint (params : OutParams) (rgz : Rgz) : Except Stop BvCommands := do
  let blts ← paintBlts params rgz
  finishBlts blts ((rgz.cur_fb_state.tail.filter fun l => l.buffidx != RGZ_CLEARHINT_BUFFIDX).map
    fun l => l.hwc_layer.handle)

/-- A screen of 40 by 40 pixels, with blending. -/
def sampleParams : OutParams := ⟨⟨40, 40⟩, .RGBA24, 160, false⟩

end OmapHal.Regionizer
