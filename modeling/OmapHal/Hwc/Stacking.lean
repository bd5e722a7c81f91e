import OmapHal.Core.Planes
import OmapHal.Hwc.Coverage
import OmapHal.Hwc.Drawing

/-!
# Stacking with SGX

The overlays and the framebuffer among them show the layers in their order. SurfaceFlinger draws
the layers that are left to it one over the other, and clears the framebuffer where an overlay
layer has a hint to do so; the display blends the overlays by their z-orders.
-/

namespace OmapHal.Hwc

open OmapHal.Core Function List

variable {M : Type*} [Monoid M]

/-- What the layers of a list show at each pixel of the screen: nothing outside their rectangles,
and a layer that is not blended hides everything inside. -/
structure Pictures (M : Type*) [Monoid M] (layers : List HwcLayer) where
  content : Nat → Int × Int → M
  outside : ∀ i layer p, layers[i]? = some layer → p ∉ layer.displayFrame → content i p = 1
  hides : ∀ i layer p, layers[i]? = some layer → is_BLENDED layer = false →
    p ∈ layer.displayFrame → Hides (content i p)

/-- SurfaceFlinger takes one layer. -/
def drawLayer (content : Nat → M) (p : Int × Int) (canvas : M) (layer : HwcLayer × Nat) : M :=
  match layer.1.compositionType with
  | .framebuffer => content layer.2 * canvas
  | .overlay => if layer.1.hintClearFb ∧ p ∈ layer.1.displayFrame then 1 else canvas

/-- What SurfaceFlinger makes of a list at a pixel. -/
def drawFramebuffer (content : Nat → M) (p : Int × Int) (layers : List HwcLayer) : M :=
  layers.zipIdx.foldl (drawLayer content p) 1

/-- The overlays of the internal display, by their z-orders. -/
def SetupDispcData.internalOverlays (d : SetupDispcData) : List Nat :=
  ((List.range d.num_ovls).filter fun k => (d.ovls k).cfg.mgr_ix = 0).mergeSort
    fun j k => (d.ovls j).cfg.zorder ≤ (d.ovls k).cfg.zorder

/-- The pixels of the framebuffer. -/
def HwcDevice.fbRect (hwc_dev : HwcDevice) : Rect := ⟨0, 0, hwc_dev.fb_width, hwc_dev.fb_height⟩

/-- What is seen of the layers, of the framebuffer and of the overlays: whoever draws a layer's
buffer the way the layer asks for shows its picture, a part that is cut out in proportion shows that
part of it, the framebuffer drawn as it is shows what SurfaceFlinger put there, and the primary
display moves every drawing alike. -/
structure Screen (M : Type*) [Monoid M] (hwc_dev : HwcDevice) (layers : List HwcLayer) extends
    Pictures M layers where
  draw : Drawing → Int × Int → M
  /-- A drawing of the framebuffer when it holds a picture. -/
  scan : (Int × Int → M) → Drawing → Int × Int → M
  /-- Where the primary display shows a pixel of the framebuffer. -/
  place : Int × Int → Int × Int
  drawn : ∀ i layer handle p, layers[i]? = some layer → layer.handle.deref? = some handle →
    draw (layer.drawing handle) p = content i p
  clipped : ∀ d p, p ∉ d.win.toRect → draw d p = 1
  cut : ∀ (cfg cfg' : Dss2OvlCfg) buffer format swap_rb p,
    cfg' = { cfg with win := cfg'.win, crop := cfg'.crop } → cfg.InProportion cfg' →
    p ∈ cfg.win.toRect → p ∈ cfg'.win.toRect →
    draw (cfg'.drawing buffer format swap_rb) p = draw (cfg.drawing buffer format swap_rb) p
  whole : ∀ canvas, ∀ p ∈ hwc_dev.fbRect, scan canvas hwc_dev.fbDrawing p = canvas p
  moves : ∀ d, ∀ p ∈ hwc_dev.fbRect, draw (hwc_dev.moved d) (place p) = draw d p
  moves_canvas : ∀ canvas d, ∀ p ∈ hwc_dev.fbRect,
    scan canvas (hwc_dev.moved d) (place p) = scan canvas d p

/-- The format of a buffer; without one it is the framebuffer that is drawn. -/
def BufferHandle.formatOr (fb_format : PixelFormat) (buffer : BufferHandle) : PixelFormat :=
  (buffer.deref?.map NativeHandle.iFormat).getD fb_format

section

variable {hwc_dev : HwcDevice} {layers : List HwcLayer}

/-- What a drawing shows, of a buffer or of the framebuffer holding `canvas`. -/
def Screen.shows (scr : Screen M hwc_dev layers) (canvas : Int × Int → M) (d : Drawing)
    (q : Int × Int) : M :=
  if d.buffer = .null then scr.scan canvas d q else scr.draw d q

/-- What an overlay shows at a pixel of the display. -/
def Screen.overlayShows (scr : Screen M hwc_dev layers) (canvas : Int × Int → M)
    (posted : HwcDevice) (q : Int × Int) (k : Nat) : M :=
  let o := posted.dsscomp.ovls k
  let buffer := posted.buffers o.ba.toNat
  if o.cfg.enabled ∧ o.addressing = .layerIx then
    scr.shows canvas (o.cfg.drawing buffer (buffer.formatOr posted.fb_format)
      posted.dsscomp.swap_rb) q
  else 1

/-- What the primary display shows at a pixel: its overlays by their z-orders. -/
def Screen.display (scr : Screen M hwc_dev layers) (canvas : Int × Int → M) (posted : HwcDevice)
    (q : Int × Int) : M :=
  stack (posted.dsscomp.internalOverlays.map (scr.overlayShows canvas posted q))

/-- The transform of the display moves what is drawn. -/
theorem Screen.shows_moved (scr : Screen M hwc_dev layers) (canvas : Int × Int → M) (d : Drawing)
    {p : Int × Int} (hp : p ∈ hwc_dev.fbRect) :
    scr.shows canvas (hwc_dev.moved d) (scr.place p) = scr.shows canvas d p := by
  have hbuffer : (hwc_dev.moved d).buffer = d.buffer := by
    rw [HwcDevice.moved]
    split <;> rfl
  rw [Screen.shows, Screen.shows, hbuffer, scr.moves d p hp, scr.moves_canvas canvas d p hp]

/-- What an overlay shows does not depend on its pipe or its height. -/
theorem Screen.overlayShows_of_unplaced (scr : Screen M hwc_dev layers) (canvas : Int × Int → M)
    {posted : HwcDevice} {q : Int × Int} {k : Nat} {cfg : Dss2OvlCfg} {ba : Int}
    (ho : (posted.dsscomp.ovls k).unplaced = ⟨cfg, .layerIx, ba⟩) :
    scr.overlayShows canvas posted q k = if cfg.enabled then scr.shows canvas
      (cfg.drawing (posted.buffers ba.toNat) ((posted.buffers ba.toNat).formatOr posted.fb_format)
        posted.dsscomp.swap_rb) q else 1 := by
  have haddressing : (posted.dsscomp.ovls k).addressing = .layerIx :=
    congrArg Dss2OvlInfo.addressing ho
  have hba : (posted.dsscomp.ovls k).ba = ba := congrArg Dss2OvlInfo.ba ho
  have henabled : (posted.dsscomp.ovls k).cfg.enabled = cfg.enabled :=
    congrArg (fun o => o.cfg.enabled) ho
  have hdrawing : ∀ b f s, (posted.dsscomp.ovls k).cfg.drawing b f s = cfg.drawing b f s :=
    fun b f s => congrArg (fun o => o.cfg.drawing b f s) ho
  rw [Screen.overlayShows]
  simp only [haddressing, hba, henabled, hdrawing, and_true]

end

/-- The framebuffer on the first overlay, on every other one the layer it was set up from. -/
def overlayContent (canvas : M) (content : Nat → M) (source : Nat → Nat) (k : Nat) : M :=
  if k = 0 then canvas else content (source k)

/-! ### The loop -/

section Loop

variable {hwc_dev : HwcDevice} {p : Pipes} {layer : HwcLayer} {handle : NativeHandle}
  {layers done : List HwcLayer} {pixel : Int × Int} {content : Nat → M} {s : Nat}

theorem drawFramebuffer_concat (layers : List HwcLayer) (layer : HwcLayer) :
    drawFramebuffer content pixel (layers ++ [layer]) =
      drawLayer content pixel (drawFramebuffer content pixel layers) (layer, layers.length) := by
  rw [drawFramebuffer, zipIdx_append, foldl_append]
  simp [drawFramebuffer]

/-- What the overlays from `a` to before `b` show. -/
def Pipes.shown (content : Nat → M) (p : Pipes) (a b : Nat) : M :=
  stack ((List.range' a (b - a)).map fun k => content (p.source k))

theorem Pipes.shown_self (content : Nat → M) (p : Pipes) (a : Nat) : p.shown content a a = 1 := by
  rw [Pipes.shown, Nat.sub_self]
  rfl

theorem Pipes.shown_append {a b c : Nat} (hab : a ≤ b) (hbc : b ≤ c) :
    p.shown content a c = p.shown content b c * p.shown content a b := by
  rw [Pipes.shown, Pipes.shown, Pipes.shown, ← stack_append, ← map_append]
  have hlen : c - a = (b - a) + (c - b) := by omega
  have hsplit := @List.range'_append_1 a (b - a) (c - b)
  rw [Nat.add_sub_cancel' hab] at hsplit
  rw [hlen, hsplit]

theorem Pipes.shown_succ {a b : Nat} (hab : a ≤ b) :
    p.shown content a (b + 1) = content (p.source b) * p.shown content a b := by
  rw [Pipes.shown_append hab (Nat.le_succ b)]
  congr 1
  rw [Pipes.shown, Nat.succ_sub (le_refl b), Nat.sub_self]
  simp [stack]

theorem Pipes.shown_congr {q : Pipes} {a b : Nat}
    (h : ∀ k, a ≤ k → k < b → q.source k = p.source k) :
    q.shown content a b = p.shown content a b := by
  rw [Pipes.shown, Pipes.shown]
  congr 1
  refine map_congr_left fun k hk => ?_
  have hk' := mem_range'_1.mp hk
  rw [h k hk'.1 (by omega)]

/-- The first overlay above the framebuffer. -/
def Pipes.fbAbove (p : Pipes) : Nat := if p.fb_z < 0 then p.num_ovls else p.fb_z.toNat + 1

/-- The planes of the display: overlays below the framebuffer, the framebuffer, overlays above. -/
def Pipes.planes (content : Nat → M) (pixel : Int × Int) (p : Pipes) : Planes M where
  below := p.shown content 1 p.fbAbove
  canvas := drawFramebuffer content pixel p.visited
  above := p.shown content p.fbAbove p.num_ovls

/-- The planes show the layers visited so far. -/
structure Pipes.Composed (content : Nat → M) (pixel : Int × Int) (done : List HwcLayer)
    (p : Pipes) : Prop where
  visited : p.visited.length = done.length
  shown : (p.planes content pixel).shown = stack ((List.range done.length).map content)
  settled : (p.planes content pixel).Settled
  empty : p.fb_z < 0 → (p.planes content pixel).canvas = 1

theorem planes_start : ((Pipes.start hwc_dev true).Composed content pixel []) := by
  have hplanes : (Pipes.start hwc_dev true).planes content pixel = ⟨1, 1, 1⟩ := rfl
  refine ⟨rfl, ?_, ?_, fun _ => ?_⟩
  · rw [hplanes]
    simp [Planes.shown]
  · rw [hplanes]
    exact .inl rfl
  · rw [hplanes]

theorem stack_range_succ (n : Nat) :
    stack ((List.range (n + 1)).map content) = content n * stack ((List.range n).map content) := by
  rw [range_succ, map_append, map_singleton, stack_concat]

theorem add_overlay_source {k : Nat} (hk : k < p.num_ovls) :
    (p.add_overlay hwc_dev layer handle).source k = p.source k :=
  update_of_ne (Nat.ne_of_lt hk) ..

/-- What a new overlay adds to those from `a` on. -/
theorem add_overlay_shown {a : Nat} (ha : a ≤ p.num_ovls) :
    (p.add_overlay hwc_dev layer handle).shown content a (p.num_ovls + 1) =
      content p.visited.length * p.shown content a p.num_ovls := by
  have hnew : (p.add_overlay hwc_dev layer handle).source p.num_ovls = p.visited.length :=
    update_self ..
  rw [Pipes.shown_succ ha, hnew, Pipes.shown_congr fun k _ hk => add_overlay_source hk]

theorem add_overlay_canvas (hsgx : hwc_dev.use_sgx) :
    ((p.add_overlay hwc_dev layer handle).planes content pixel).canvas =
      if (layer.hintClearFb ∨ is_BLENDED layer = false) ∧ pixel ∈ layer.displayFrame then 1
      else (p.planes content pixel).canvas := by
  show drawFramebuffer content pixel (p.visited ++ [_]) = _
  rw [drawFramebuffer_concat, drawLayer, hsgx, Bool.true_and]
  simp only [Bool.or_eq_true, Bool.not_eq_true']
  rfl

/-- While nothing is drawn the overlay is the highest one below the framebuffer. -/
theorem add_overlay_planes_below (hs : p.Stacked 1) (hneg : p.fb_z < 0) :
    (p.add_overlay hwc_dev layer handle).planes content pixel =
      ⟨content p.visited.length * (p.planes content pixel).below,
        ((p.add_overlay hwc_dev layer handle).planes content pixel).canvas, 1⟩ := by
  have habove : p.fbAbove = p.num_ovls := if_pos hneg
  have habove' : (p.add_overlay hwc_dev layer handle).fbAbove = p.num_ovls + 1 := if_pos hneg
  have hbelow := @add_overlay_shown _ _ hwc_dev p layer handle content 1 hs.start
  have htopless := (p.add_overlay hwc_dev layer handle).shown_self content (p.num_ovls + 1)
  rw [← habove'] at hbelow htopless
  show (⟨_, _, _⟩ : Planes M) = ⟨_ * p.shown content 1 p.fbAbove, _, _⟩
  rw [habove, ← hbelow]
  exact congrArg (Planes.mk _ _) (habove' ▸ htopless)

/-- Above the framebuffer it is opaque, and makes a hole. -/
theorem add_overlay_planes_above (hs : p.Stacked 1) (hsgx : hwc_dev.use_sgx)
    (hneg : ¬p.fb_z < 0) (hblend : is_BLENDED layer = false) :
    (p.add_overlay hwc_dev layer handle).planes content pixel =
      (p.planes content pixel).cover (content p.visited.length)
        (decide (pixel ∈ layer.displayFrame)) := by
  have hfb := hs.fb
  have htop := hs.top
  have habove : p.fbAbove = p.fb_z.toNat + 1 := if_neg hneg
  have habove' : (p.add_overlay hwc_dev layer handle).fbAbove = p.fbAbove := by
    rw [habove]
    exact if_neg hneg
  have hle : p.fbAbove ≤ p.num_ovls := by
    rw [habove]
    rw [if_pos (by omega)] at htop
    omega
  have hb : (p.add_overlay hwc_dev layer handle).shown content 1 p.fbAbove =
      p.shown content 1 p.fbAbove :=
    Pipes.shown_congr fun k _ hk => add_overlay_source (by omega)
  have hc := @add_overlay_canvas _ _ hwc_dev p layer handle pixel content hsgx
  simp only [hblend, or_true, true_and] at hc
  rw [Planes.cover]
  simp only [decide_eq_true_eq]
  rw [← hc, ← show p.shown content 1 p.fbAbove = (p.planes content pixel).below from rfl, ← hb,
    ← show p.shown content p.fbAbove p.num_ovls = (p.planes content pixel).above from rfl,
    ← @add_overlay_shown _ _ hwc_dev p layer handle content _ hle, ← habove']
  rfl

/-- A new overlay is put on top. -/
theorem Pipes.Composed.add_overlay (h : p.Composed content pixel done) (hs : p.Stacked 1)
    (hsgx : hwc_dev.use_sgx) (htakes : takes_overlay hwc_dev p layer handle)
    (hout : pixel ∉ layer.displayFrame → content done.length = 1)
    (hin : is_BLENDED layer = false → pixel ∈ layer.displayFrame → Hides (content done.length)) :
    (p.add_overlay hwc_dev layer handle).Composed content pixel (done ++ [layer]) := by
  obtain ⟨hlen, hshown, hsettled, hempty⟩ := h
  have hlen' : (done ++ [layer]).length = done.length + 1 := by simp
  have hvisited : (p.add_overlay hwc_dev layer handle).visited.length =
      (done ++ [layer]).length := by
    rw [hlen', ← hlen]
    exact length_append
  by_cases hneg : p.fb_z < 0
  · have hplanes := @add_overlay_planes_below _ _ hwc_dev p layer handle pixel content hs hneg
    have hone : ((p.add_overlay hwc_dev layer handle).planes content pixel).canvas = 1 := by
      rw [add_overlay_canvas hsgx, hempty hneg, ite_self]
    have htopless : (p.planes content pixel).above = 1 := by
      show p.shown content p.fbAbove p.num_ovls = 1
      rw [Pipes.fbAbove, if_pos hneg, Pipes.shown_self]
    rw [hone, hlen] at hplanes
    refine ⟨hvisited, ?_, ?_, fun _ => hone⟩
    · rw [hplanes, hlen', stack_range_succ, ← hshown, Planes.shown, Planes.shown, htopless,
        hempty hneg]
      simp only [one_mul]
    · rw [hplanes]
      exact .inl rfl
  · -- with an overlay below the framebuffer only opaque layers get one
    have hopaque : is_BLENDED layer = false := by
      have hblend := (takes_overlay_iff.mp htakes).2.2.2.2
      cases hb : is_BLENDED layer with
      | false => rfl
      | true => exact absurd (hblend hb) hneg
    have hplanes := @add_overlay_planes_above _ _ hwc_dev p layer handle pixel content hs hsgx hneg
      hopaque
    rw [hlen] at hplanes
    have hcovers : if (decide (pixel ∈ layer.displayFrame)) = true then Hides (content done.length)
        else content done.length = 1 := by
      by_cases hmem : pixel ∈ layer.displayFrame
      · rw [if_pos (decide_eq_true hmem)]
        exact hin hopaque hmem
      · rw [if_neg (by simpa using hmem)]
        exact hout hmem
    refine ⟨hvisited, ?_, ?_, fun hneg' => absurd hneg' hneg⟩
    · rw [hplanes, Planes.shown_cover hcovers, hlen', stack_range_succ, hshown]
    · rw [hplanes]
      exact Planes.settled_cover hsettled hcovers

/-- A layer that is left is drawn on top of everything. -/
theorem Pipes.Composed.leave (h : p.Composed content pixel done) (hs : p.Stacked 1)
    (hsgx : hwc_dev.use_sgx) (hfb : layer.compositionType = .framebuffer) :
    (p.leave hwc_dev layer).Composed content pixel (done ++ [layer]) := by
  obtain ⟨hlen, hshown, hsettled, hempty⟩ := h
  have hstart := hs.start
  have hfbz := hs.fb
  have htop := hs.top
  have hqfb := leave_fb_z hwc_dev p layer
  rw [if_pos hsgx] at hqfb
  have hlen' : (done ++ [layer]).length = done.length + 1 := by simp
  have hcanvas : ((p.leave hwc_dev layer).planes content pixel).canvas =
      content done.length * (p.planes content pixel).canvas := by
    show drawFramebuffer content pixel (p.leave hwc_dev layer).visited = _
    rw [leave_visited, drawFramebuffer_concat, drawLayer, hfb, hlen]
    rfl
  have hcount : (p.leave hwc_dev layer).fbAbove = p.num_ovls := by
    rw [Pipes.fbAbove, hqfb, leave_num_ovls]
    by_cases hneg : p.fb_z < 0
    · rw [if_pos hneg]
      rw [if_neg (by omega)] at htop
      rw [if_neg (by omega)]
      omega
    · rw [if_neg hneg]
      rw [if_pos (by omega)] at htop
      rw [if_neg (by omega)]
      omega
  have hbelow : ((p.leave hwc_dev layer).planes content pixel).below =
      p.shown content 1 p.num_ovls := by
    show (p.leave hwc_dev layer).shown content 1 (p.leave hwc_dev layer).fbAbove = _
    rw [hcount]
    exact Pipes.shown_congr fun k _ _ => by rw [leave_source]
  have habove : ((p.leave hwc_dev layer).planes content pixel).above = 1 := by
    show (p.leave hwc_dev layer).shown content _ _ = 1
    rw [hcount, leave_num_ovls, Pipes.shown_self]
  -- the framebuffer is above all overlays, where it is or after it is moved
  have hraise : ∃ q : Planes M, q.shown = (p.planes content pixel).shown ∧ q.above = 1 ∧
      (p.leave hwc_dev layer).planes content pixel = q.draw (content done.length) := by
    have hdraw : ∀ q : Planes M, q.below = p.shown content 1 p.num_ovls →
        q.canvas = (p.planes content pixel).canvas → q.above = 1 →
          (p.leave hwc_dev layer).planes content pixel = q.draw (content done.length) := by
      intro q hb hc ha
      rw [Planes.draw, hb, hc, ha, ← hbelow, ← hcanvas, ← habove]
    by_cases hneg : p.fb_z < 0
    · have hwhole : p.fbAbove = p.num_ovls := if_pos hneg
      have ha : (p.planes content pixel).above = 1 := by
        show p.shown content p.fbAbove p.num_ovls = 1
        rw [hwhole, Pipes.shown_self]
      refine ⟨p.planes content pixel, rfl, ha, hdraw _ ?_ rfl ha⟩
      show p.shown content 1 p.fbAbove = _
      rw [hwhole]
    · have hle : 1 ≤ p.fbAbove ∧ p.fbAbove ≤ p.num_ovls := by
        rw [Pipes.fbAbove, if_neg hneg]
        rw [if_pos (by omega)] at htop
        omega
      refine ⟨(p.planes content pixel).raise, Planes.shown_raise hsettled, rfl, hdraw _ ?_ rfl rfl⟩
      show p.shown content p.fbAbove p.num_ovls * p.shown content 1 p.fbAbove = _
      rw [← Pipes.shown_append hle.1 hle.2]
  obtain ⟨q, hq, hq1, hdraw⟩ := hraise
  refine ⟨?_, ?_, .inl habove, fun hneg => ?_⟩
  · rw [leave_visited, length_append, hlen', hlen]
    rfl
  · rw [hdraw, Planes.shown_draw hq1, hq, hshown, hlen', stack_range_succ]
  · rw [hqfb] at hneg
    split at hneg
    · rw [if_neg (by omega)] at htop
      omega
    · omega

/-- What the loop keeps with SGX. -/
structure Pipes.Stack (content : Nat → M) (pixel : Int × Int) (hwc_dev : HwcDevice)
    (done : List HwcLayer) (p : Pipes) : Prop where
  inv : p.Inv hwc_dev 1 done
  composed : p.Composed content pixel done

theorem setup_pipes_stack (pics : Pictures M layers) (hsgx : hwc_dev.use_sgx)
    (hfb : ∀ l ∈ layers, l.compositionType = .framebuffer) :
    (setup_pipes hwc_dev true layers).Stack (fun i => pics.content i pixel) pixel hwc_dev
      layers := by
  suffices h : layers <+: layers → (setup_pipes hwc_dev true layers).Stack
      (fun i => pics.content i pixel) pixel hwc_dev layers from h prefix_rfl
  unfold setup_pipes
  refine foldl_consumed (P := fun done (p : Pipes) => done <+: layers →
    p.Stack (fun i => pics.content i pixel) pixel hwc_dev done) (fun _ => ?_) ?_
  · exact ⟨⟨stacked_start hwc_dev true, indexed_start hwc_dev true, bounded_start hwc_dev true⟩,
      planes_start⟩
  · intro done layer p ih hpre
    obtain ⟨⟨hs, hi, hb⟩, hcomposed⟩ := ih ((prefix_append done [layer]).trans hpre)
    have hat : layers[done.length]? = some layer := by
      obtain ⟨rest, rfl⟩ := hpre
      simp
    rcases visit_cases hwc_dev p layer with ⟨handle, hd, ht, he⟩ | ⟨-, he⟩
    · rw [he]
      exact ⟨⟨hs.add_overlay (takes_overlay_format ht), hi.add_overlay, hb.add_overlay hd ht⟩,
        hcomposed.add_overlay hs hsgx ht (pics.outside _ _ _ hat) (pics.hides _ _ _ hat)⟩
    · rw [he]
      have hmem := hpre.subset (mem_append_right done (mem_singleton_self layer))
      exact ⟨⟨hs.leave (by rw [hsgx]; rfl), hi.leave, hb.leave⟩,
        hcomposed.leave hs hsgx (hfb layer hmem)⟩

end Loop

end OmapHal.Hwc
