import OmapHal.Regionizer.PaintOutput

/-!
# The buffers that blits read

The layer loop of `rgz_in_hwccheck` numbers the layers that may be blitted, behind the overlays.
The output operations hand out the buffers of these layers in the same order, and a blit names
the buffer of the layer that it was generated for by the number of the layer.
-/

namespace OmapHal.Regionizer

open OmapHal.Hwc OmapHal.Core List

/-! ### What the sources of a blit are set from -/

section Sources

variable {params : OutParams} {rect : Rect} {s : Source} {e : BltEntry} {es : Blts}
  {l : RgzLayer} {ls ls' : List RgzLayer} {handle : NativeHandle}
  {b b' : RgzLayer × NativeHandle} {bs : List (RgzLayer × NativeHandle)}

/-- The source was set from this layer. -/
def Source.Reads (s : Source) (l : RgzLayer) : Prop :=
  ∃ handle subregion_rect src_orientation, l.hwc_layer.handle.deref? = some handle ∧
    s = rgz_set_src_data l handle subregion_rect src_orientation

/-- The source names no buffer, or was set from one of these layers. -/
def Source.From (ls : List RgzLayer) (s : Source) : Prop :=
  (∀ buffidx, s.desc ≠ .buffer buffidx) ∨ ∃ l ∈ ls, s.Reads l

/-- Both sources of the blit do. -/
def BltEntry.From (ls : List RgzLayer) (e : BltEntry) : Prop := e.src1.From ls ∧ e.src2.From ls

theorem Source.From.mono (h : s.From ls) (hsub : ∀ l ∈ ls, l ∈ ls') : s.From ls' := by
  rcases h with h | ⟨l, hl, hreads⟩
  · exact .inl h
  · exact .inr ⟨l, hsub l hl, hreads⟩

theorem BltEntry.From.mono (h : e.From ls) (hsub : ∀ l ∈ ls, l ∈ ls') : e.From ls' :=
  ⟨h.1.mono hsub, h.2.mono hsub⟩

/-- A source that was set from a layer names its buffer. -/
theorem Source.Reads.desc (h : s.Reads l) : s.desc = .buffer l.buffidx := by
  obtain ⟨handle, subregion_rect, src_orientation, -, rfl⟩ := h
  rw [rgz_set_src_data]
  split <;> rfl

/-! The destination is set without the sources. -/

theorem rgz_set_dst_data_src1 (dst_orientation : Int) :
    (rgz_set_dst_data params rect dst_orientation e).src1 = e.src1 := by
  rw [rgz_set_dst_data]
  split <;> rfl

theorem rgz_set_dst_data_src2 (dst_orientation : Int) :
    (rgz_set_dst_data params rect dst_orientation e).src2 = e.src2 := by
  rw [rgz_set_dst_data]
  split <;> rfl

theorem setSrc1AndDst_src1 (hl : l.hwc_layer.handle.deref? = some handle) :
    (setSrc1AndDst params rect l handle e).src1.Reads l := by
  rw [setSrc1AndDst, rgz_set_dst_data_src1]
  exact ⟨handle, _, _, hl, rfl⟩

theorem setSrc1AndDst_src2 : (setSrc1AndDst params rect l handle e).src2 = e.src2 := by
  rw [setSrc1AndDst, rgz_set_dst_data_src2]
  show (if rgz_hwc_scaled l.hwc_layer then rgz_cfg_scale_mode handle e else e).src2 = e.src2
  split <;> rfl

/-- A copy reads its layer only. -/
theorem from_copy (hmem : l ∈ ls) (hl : l.hwc_layer.handle.deref? = some handle) :
    (rgz_hwc_subregion_copy params rect l handle .zero).From ls := by
  have hsrc1 : (rgz_hwc_subregion_copy params rect l handle .zero).src1.Reads l := by
    rw [rgz_hwc_subregion_copy]
    split <;> exact setSrc1AndDst_src1 hl
  have hsrc2 : (rgz_hwc_subregion_copy params rect l handle .zero).src2 = BltEntry.zero.src2 := by
    rw [rgz_hwc_subregion_copy]
    split <;> exact setSrc1AndDst_src2
  refine ⟨.inr ⟨l, hmem, hsrc1⟩, .inl fun buffidx hb => ?_⟩
  rw [hsrc2] at hb
  cases hb

/-- A blend with the framebuffer reads its layer and the framebuffer. -/
theorem from_blend (hmem : l ∈ ls) (hl : l.hwc_layer.handle.deref? = some handle) :
    (rgz_hwc_subregion_blend params rect l handle none .zero).From ls := by
  refine ⟨.inr ⟨l, hmem, setSrc1AndDst_src1 hl⟩, .inl fun buffidx hb => ?_⟩
  rw [rgz_hwc_subregion_blend, rgz_set_src2_is_dst] at hb
  cases hb

/-- A blend of two layers reads both. -/
theorem from_blend_pair (hmem : b.1 ∈ ls) (hl : b.1.hwc_layer.handle.deref? = some b.2)
    (hmem' : b'.1 ∈ ls) (hl' : b'.1.hwc_layer.handle.deref? = some b'.2) :
    (rgz_hwc_subregion_blend params rect b.1 b.2 (some b') .zero).From ls :=
  ⟨.inr ⟨b.1, hmem, setSrc1AndDst_src1 hl⟩, .inr ⟨b'.1, hmem', b'.2, _, _, hl', rfl⟩⟩

/-- A fill reads no buffer. -/
theorem from_clrdst : (rgz_out_clrdst params rect .zero).From ls := by
  refine ⟨.inl fun buffidx hb => ?_, .inl fun buffidx hb => ?_⟩
  · rw [rgz_out_clrdst, rgz_set_dst_data_src1] at hb
    cases hb
  · rw [rgz_out_clrdst, rgz_set_dst_data_src2] at hb
    cases hb

/-- The marks of a batch leave the sources alone. -/
theorem from_batch_entry {flag : BatchMark} {set : List BatchFlag} (h : e.From ls) :
    (rgz_batch_entry flag set e).From ls := h

theorem from_endBatch (h : e.From ls) : (endBatch e).From ls := by
  rw [endBatch]
  split <;> exact h

/-- Changes of the last blit that leave the sources alone. -/
theorem from_updateLast {update : BltEntry → BltEntry}
    (hu : ∀ e : BltEntry, e.From ls → (update e).From ls) (h : ∀ e ∈ es, e.From ls) :
    ∀ e ∈ updateLast update es, e.From ls := by
  intro e he
  obtain ⟨i, hi, hget⟩ := mem_iff_getElem.mp he
  rw [updateLast, length_modify] at hi
  have hmem := h es[i] (getElem_mem hi)
  simp only [updateLast, getElem_modify] at hget
  split at hget
  · exact hget ▸ hu _ hmem
  · exact hget ▸ hmem

/-! ### The blits of a frame -/

/-- Layers with their buffers. -/
def HaveBuffers (ls : List RgzLayer) (bs : List (RgzLayer × NativeHandle)) : Prop :=
  ∀ b ∈ bs, b.1 ∈ ls ∧ b.1.hwc_layer.handle.deref? = some b.2

theorem from_restBlits (hbs : HaveBuffers ls bs) (first_batchflags : List BatchFlag)
    (scaled nv12 : Bool) : ∀ e ∈ restBlits params rect bs first_batchflags scaled nv12,
      e.From ls := by
  induction bs generalizing first_batchflags scaled nv12 with
  | nil => exact fun e he => absurd he not_mem_nil
  | cons b bs ih =>
    obtain ⟨hmem, hl⟩ := hbs b mem_cons_self
    intro e he
    rw [restBlits] at he
    rcases mem_cons.mp he with rfl | he
    · exact from_batch_entry (from_blend hmem hl)
    · exact ih (fun b' hb' => hbs b' (mem_cons_of_mem b hb')) _ _ _ e he

theorem from_batchBlits (hbs : HaveBuffers ls (b :: b' :: bs)) :
    ∀ e ∈ batchBlits params rect b b' bs, e.From ls := by
  obtain ⟨hmem, hl⟩ := hbs b mem_cons_self
  have hrest : HaveBuffers ls (b' :: bs) := fun x hx => hbs x (mem_cons_of_mem b hx)
  obtain ⟨hmem', hl'⟩ := hrest b' mem_cons_self
  rw [batchBlits]
  refine from_updateLast (fun _ => from_endBatch) fun e he => ?_
  split at he
  · rcases mem_cons.mp he with rfl | he
    · exact from_batch_entry (from_blend_pair hmem' hl' hmem hl)
    · exact from_restBlits (fun x hx => hrest x (mem_cons_of_mem b' hx)) _ _ _ e he
  · rcases mem_cons.mp he with rfl | he
    · exact from_batch_entry (from_copy hmem hl)
    · exact from_restBlits hrest _ _ _ e he

/-- The blits of a cell read the layers that are drawn in it. -/
theorem from_cellBlits (hbs : HaveBuffers ls bs) : ∀ e ∈ cellBlits params rect bs, e.From ls := by
  cases bs with
  | nil =>
    intro e he
    rw [mem_singleton.mp he]
    exact from_clrdst
  | cons b bs =>
    cases bs with
    | nil =>
      obtain ⟨hmem, hl⟩ := hbs b mem_cons_self
      intro e he
      rw [mem_singleton.mp he]
      exact from_copy hmem hl
    | cons b' bs =>
      rw [cellBlits]
      split
      · obtain ⟨hmem, hl⟩ := hbs ((b' :: bs).getLast (cons_ne_nil b' bs))
          (mem_cons_of_mem b (getLast_mem _))
        intro e he
        rw [mem_singleton.mp he]
        exact from_copy hmem hl
      · exact from_batchBlits hbs

/-- The buffers of some of the layers. -/
theorem haveBuffers_buffersOf (h : ∀ l ∈ ls', l ∈ ls) : HaveBuffers ls (buffersOf ls') := by
  intro b hb
  obtain ⟨l, hl, hmap⟩ := mem_filterMap.mp hb
  obtain ⟨handle, hh, rfl⟩ := Option.map_eq_some_iff.mp hmap
  exact ⟨h l hl, hh⟩

/-- The blits of a subregion read layers of its band. -/
theorem from_subregionBlits {hregion : BlitHregion} {damaged_area : Rect} {sidx : Nat}
    (h : subregionBlits params hregion damaged_area sidx = .ok es) :
    ∀ e ∈ es, e.From hregion.rgz_layers := by
  rw [subregionBlits] at h
  cases hops : get_layer_ops hregion sidx with
  | error stop =>
    rw [hops] at h
    cases h
  | ok ops =>
    rw [hops] at h
    dsimp only [bind, Except.bind] at h
    split at h
    · cases h
    · split at h
      · rw [← Except.ok.inj h]
        refine from_cellBlits (haveBuffers_buffersOf fun l hl => ?_)
        obtain ⟨i, -, hi⟩ := mem_filterMap.mp hl
        exact mem_of_getElem? hi
      · rw [← Except.ok.inj h]
        exact fun e he => absurd he not_mem_nil

/-- The blits of the regions read layers of the frame. -/
theorem from_frameBlits {screen : ScreenGeom} {rgz : Rgz}
    (h : frameBlits params (rgz.withRegions screen) = .ok es) :
    ∀ e ∈ es, e.From rgz.cur_fb_state := by
  intro e he
  obtain ⟨hregion, hmem, es', hband, he⟩ := mem_gather h he
  obtain ⟨b, -, rfl⟩ := mem_map.mp hmem
  rw [bandBlits] at hband
  split at hband
  · cases hband
  · obtain ⟨sidx, -, es'', hcell, he⟩ := mem_gather hband he
    exact (from_subregionBlits hcell e he).mono fun l hl => (mem_filter.mp hl).1

/-- The blits of the paint operation read the layers that they paint. -/
theorem from_paintingBlits {rgz : Rgz} (h : ∀ l ∈ rgz.cur_fb_state.tail, l.FromList) :
    ∀ e ∈ paintingBlits params rgz, e.From rgz.cur_fb_state.tail := by
  intro e he
  rcases mem_cons.mp he with rfl | he
  · exact from_clrdst
  · obtain ⟨l, hl, rfl⟩ := mem_map.mp he
    rw [paintEntry]
    split
    · exact from_clrdst
    · next hidx =>
      rcases h l hl with ⟨-, hvalid⟩ | ⟨hclear, -⟩
      · obtain ⟨handle, hh, -⟩ := of_rgz_in_valid_hwc_layer hvalid
        rw [hh]
        dsimp only [rgz_hwc_layer_blit]
        split
        · exact from_blend hl hh
        · exact from_copy hl hh
      · exact absurd hclear hidx

end Sources

/-! ### The numbers of the buffers -/

section Numbers

variable {n : Nat} {l : RgzLayer} {ls : List RgzLayer} {layers : List InLayer} {s : CheckState}

/-- The layers with a buffer of their own: its number, and the layer. -/
def bufferTable (ls : List RgzLayer) : List (Int × HwcLayer) :=
  (ls.filter fun l => l.buffidx != RGZ_CLEARHINT_BUFFIDX).map fun l => (l.buffidx, l.hwc_layer)

theorem bufferTable_concat (hl : l.buffidx ≠ RGZ_CLEARHINT_BUFFIDX) :
    bufferTable (ls ++ [l]) = bufferTable ls ++ [(l.buffidx, l.hwc_layer)] := by
  simp [bufferTable, hl]

theorem bufferTable_concat_mark (hl : l.buffidx = RGZ_CLEARHINT_BUFFIDX) :
    bufferTable (ls ++ [l]) = bufferTable ls := by
  simp [bufferTable, hl]

/-- The table does not depend on the dirty counts. -/
theorem bufferTable_mapIdx {f : Nat → RgzLayer → RgzLayer}
    (hf : ∀ i l, (f i l).buffidx = l.buffidx ∧ (f i l).hwc_layer = l.hwc_layer) :
    bufferTable (ls.mapIdx f) = bufferTable ls := by
  induction ls generalizing f with
  | nil => rfl
  | cons l ls ih =>
    have hrest := ih fun i => hf (i + 1)
    simp only [bufferTable] at hrest
    simp only [bufferTable, mapIdx_cons, filter_cons, (hf 0 l).1]
    split
    · simp only [map_cons, hrest, (hf 0 l).1, (hf 0 l).2]
    · exact hrest

/-- The table numbers layers of the list from `n` on. -/
structure CheckState.Numbers (layers : List InLayer) (n : Nat) (s : CheckState) : Prop where
  memidx : s.memidx = n + (bufferTable s.blit).length
  number : ∀ (j : Nat) (p : Int × HwcLayer), (bufferTable s.blit)[j]? = some p → p.1 = n + j
  fromList : ∀ p ∈ bufferTable s.blit, p.2.compositionType = .framebuffer ∧
    ∃ l ∈ layers, l.layer = p.2

theorem CheckState.Numbers.checkLayer (h : s.Numbers layers n) {l : InLayer} (hl : l ∈ layers) :
    (checkLayer s l).Numbers layers n := by
  have hskip : ∀ candidates, CheckState.Numbers layers n { s with candidates := candidates } :=
    fun _ => ⟨h.memidx, h.number, h.fromList⟩
  rw [Regionizer.checkLayer]
  split
  · next hfb =>
    split
    · have hne : s.memidx ≠ RGZ_CLEARHINT_BUFFIDX := by
        have hmark : RGZ_CLEARHINT_BUFFIDX = -1 := rfl
        rw [h.memidx, hmark]
        omega
      constructor
      · dsimp only
        rw [bufferTable_concat hne, length_append, length_singleton, h.memidx]
        omega
      · intro j p hp
        rw [bufferTable_concat hne] at hp
        rcases Nat.lt_or_ge j (bufferTable s.blit).length with hlt | hge
        · rw [getElem?_append_left hlt] at hp
          exact h.number j p hp
        · rw [getElem?_append_right hge, getElem?_singleton] at hp
          split at hp
          · have hmemidx := h.memidx
            rw [← Option.some.inj hp]
            dsimp only
            omega
          · cases hp
      · intro p hp
        rw [bufferTable_concat hne] at hp
        rcases mem_append.mp hp with hp | hp
        · exact h.fromList p hp
        · rw [mem_singleton.mp hp]
          exact ⟨hfb, l, hl, rfl⟩
    · exact hskip _
  · split
    · split
      · have htable := @bufferTable_concat_mark
          ⟨{ l.layer with handle := .dummy }, l.identity, RGZ_CLEARHINT_BUFFIDX, 0⟩ s.blit rfl
        constructor
        · dsimp only
          rw [htable]
          exact h.memidx
        · dsimp only
          rw [htable]
          exact h.number
        · dsimp only
          rw [htable]
          exact h.fromList
      · exact hskip _
    · exact h

/-- The layer loop numbers the layers behind the overlays. -/
theorem numbers_checkLayers (layers : List InLayer) :
    (checkLayers layers).Numbers layers (overlayCount layers) := by
  have hfold : ∀ (ls : List InLayer) (s : CheckState), (∀ l ∈ ls, l ∈ layers) →
      s.Numbers layers (overlayCount layers) →
        (ls.foldl checkLayer s).Numbers layers (overlayCount layers) := by
    intro ls
    induction ls with
    | nil => exact fun s _ h => h
    | cons l ls ih =>
      exact fun s hls h => ih _ (fun l' hl' => hls l' (mem_cons_of_mem l hl'))
        (h.checkLayer (hls l mem_cons_self))
  refine hfold layers _ (fun l hl => hl) ⟨rfl, fun j p hp => ?_, fun p hp => ?_⟩
  · cases hp
  · cases hp

variable {screen : ScreenGeom} {rgz rgz' : Rgz}

/-- The table of an accepted frame is that of the layer loop. -/
theorem bufferTable_of_rgz_in_hwccheck (h : rgz_in_hwccheck screen layers rgz = some rgz') :
    bufferTable rgz'.cur_fb_state.tail = bufferTable (checkLayers layers).blit := by
  obtain ⟨s, hs, rfl⟩ := rgz_in_hwccheck_eq_some.mp h
  rw [rgz_handle_dirty_region_fst, acceptedLayers_eq_cons hs, mapIdx_cons, tail_cons]
  exact bufferTable_mapIdx fun _ _ => ⟨rfl, rfl⟩

end Numbers

/-! ### What the operations hand out -/

section Output

variable {params : OutParams} {layers : List InLayer} {rgz rgz' : Rgz} {R : BvCommands}

/-- The commands of an accepted frame: their sources are set from its layers, and the buffers
are those of its table. -/
structure BvCommands.OfFrame (rgz : Rgz) (R : BvCommands) : Prop where
  sources : ∀ e ∈ R.cmdp, e.From rgz.cur_fb_state
  out_hndls : R.out_hndls = (bufferTable rgz.cur_fb_state.tail).map fun p => p.2.handle

theorem from_set_async {e : BltEntry} {ls : List RgzLayer} {async : Bool} (h : e.From ls) :
    (rgz_set_async async e).From ls := h

theorem finishBlts_out_hndls {blts : Blts} {out_hndls : List BufferHandle}
    (h : finishBlts blts out_hndls = .ok R) : R.out_hndls = out_hndls := by
  rw [finishBlts] at h
  split at h
  · cases h
  · rw [← Except.ok.inj h]

/-- The handles in the order of the table. -/
theorem map_handle_bufferTable (ls : List RgzLayer) :
    (ls.filter fun l => l.buffidx != RGZ_CLEARHINT_BUFFIDX).map (fun l => l.hwc_layer.handle) =
      (bufferTable ls).map fun p => p.2.handle := by
  rw [bufferTable, map_map]
  rfl

theorem ofFrame_of_rgz_out_bvcmd_paint (hc : Checked params.screen rgz)
    (hR : rgz_out_bvcmd_paint params rgz = .ok R) : R.OfFrame rgz := by
  obtain ⟨out_hndls, hpaint⟩ := hc.rgz_out_bvcmd_paint_ok params
  constructor
  · rw [hpaint] at hR
    rw [← Except.ok.inj hR]
    refine from_updateLast (fun _ => from_set_async) fun e he => ?_
    exact (from_paintingBlits hc.fromList e he).mono fun l hl => mem_of_mem_tail hl
  · rw [rgz_out_bvcmd_paint] at hR
    cases hblts : paintBlts params rgz with
    | error stop =>
      rw [hblts] at hR
      cases hR
    | ok blts =>
      rw [hblts] at hR
      exact (finishBlts_out_hndls hR).trans (map_handle_bufferTable _)

theorem ofFrame_of_rgz_out_region (hc : Checked params.screen rgz)
    (hR : rgz_out_region params (rgz.withRegions params.screen) = .ok R) : R.OfFrame rgz := by
  obtain ⟨es, hes, hcmdp, -⟩ := hc.holds_frameBlits hR
  constructor
  · rw [hcmdp]
    exact from_updateLast (fun _ => from_set_async) (from_frameBlits hes)
  · rw [rgz_out_region] at hR
    cases hblts : regionBlts params (rgz.withRegions params.screen) with
    | error stop =>
      rw [hblts] at hR
      cases hR
    | ok blts =>
      rw [hblts] at hR
      exact (finishBlts_out_hndls hR).trans (map_handle_bufferTable _)

/-- The layer of the list that a source was set from, and the number of its buffer. -/
def Source.ReadsBuffer (s : Source) (buffidx : Int) (layer : HwcLayer) : Prop :=
  ∃ l : RgzLayer, l.hwc_layer = layer ∧ l.buffidx = buffidx ∧ s.Reads l

/-- A source that names a buffer was set from a layer of the list, and the buffer of this layer is
handed out at this number, counted behind the overlays. -/
theorem BvCommands.OfFrame.source (hR : R.OfFrame rgz')
    (h : rgz_in_hwccheck params.screen layers rgz = some rgz') {e : BltEntry} (he : e ∈ R.cmdp)
    {s : Source} (hs : s = e.src1 ∨ s = e.src2) {buffidx : Int} (hd : s.desc = .buffer buffidx) :
    ∃ l ∈ layers, l.layer.compositionType = .framebuffer ∧ s.ReadsBuffer buffidx l.layer ∧
      ∃ j : Nat, buffidx = overlayCount layers + j ∧ R.out_hndls[j]? = some l.layer.handle := by
  have hc := checked_of_rgz_in_hwccheck h
  have hfrom : s.From rgz'.cur_fb_state := by
    rcases hs with rfl | rfl
    · exact (hR.sources e he).1
    · exact (hR.sources e he).2
  obtain ⟨l, hl, hreads⟩ := hfrom.resolve_left fun hno => hno buffidx hd
  have hidx : l.buffidx = buffidx := Desc.buffer.inj (hreads.desc.symm.trans hd)
  -- a layer with a buffer is in the table
  have hbuf : l.HasBuffer := by
    obtain ⟨handle, -, -, hh, -⟩ := id hreads
    rcases hc.isMark_or_hasBuffer hl with ⟨-, hnone⟩ | hbuf
    · rw [hh] at hnone
      cases hnone
    · exact hbuf
  have htail : l ∈ rgz'.cur_fb_state.tail := by
    obtain ⟨bg, ls, hcur, -⟩ := hc.background
    have hfirst := hc.wellFormed.1
    rw [hcur] at hl hfirst ⊢
    rcases mem_cons.mp hl with rfl | hl
    · exact absurd (hfirst l rfl) hbuf.ne_mark.1
    · exact hl
  have hmem : (l.buffidx, l.hwc_layer) ∈ bufferTable rgz'.cur_fb_state.tail :=
    mem_map.mpr ⟨l, mem_filter.mpr ⟨htail, bne_iff_ne.mpr hbuf.ne_mark.2⟩, rfl⟩
  obtain ⟨j, hj⟩ := getElem?_of_mem hmem
  have htable := hj
  have hnumbers := numbers_checkLayers layers
  rw [bufferTable_of_rgz_in_hwccheck h] at hmem htable
  obtain ⟨hfb, il, hil, hlayer⟩ := hnumbers.fromList _ hmem
  refine ⟨il, hil, hlayer ▸ hfb, ⟨l, hlayer.symm, hidx, hreads⟩, j, ?_, ?_⟩
  · exact hidx.symm.trans (hnumbers.number j _ htable)
  · rw [hR.out_hndls, getElem?_map, hj, hlayer]
    rfl

end Output

end OmapHal.Regionizer
