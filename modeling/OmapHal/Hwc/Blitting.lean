import OmapHal.Hwc.Session
import OmapHal.Hwc.Pipes
import OmapHal.Regionizer.Sources

/-!
# Blitting a frame

`blit_layers` with the regionizer behind it, and the buffers that `hwc_set` assembles from it.
The regionizer numbers buffers, `hwc_prepare` stores them behind those of the overlays, and
`hwc_set` moves the array down by the null entry of the framebuffer.
-/

namespace OmapHal.Hwc

open OmapHal.Core List Nat Option
open OmapHal.Regionizer (InLayer Rgz BvCommands OutParams OcdFormat RgzLayer Source overlayCount
  rgz_in_hwccheck rgz_in_hwc rgz_out_bvcmd_paint rgz_out_region RGZ_INPUT_MAXLAYERS
  rgz_in_hwc_eq_some checked_of_rgz_in_hwccheck ofFrame_of_rgz_out_bvcmd_paint
  ofFrame_of_rgz_out_region)

/-- `enum bltmode`. -/
inductive BltMode where
  | paint
  | region
  deriving DecidableEq, Repr

/-- What `blit_layers` reads, apart from the device and the list. -/
structure BlitEnv where
  blt_mode : BltMode
  /-- The list has `HWC_EXTENDED_API`, and SurfaceFlinger knows `HWC_EXTENDED_OP_LAYERDATA`. -/
  extended_api : Bool
  /-- The identity that it gives to the layer at this index. -/
  identity : Nat → Option Nat
  /-- `gscrngeom`. -/
  screen : ScreenGeom
  format : OcdFormat
  virtstride : Int
  /-- `grgz`, as the last frame left it. -/
  grgz : Rgz

/-- The output parameters: layers are blended. -/
def BlitEnv.params (env : BlitEnv) : OutParams := ⟨env.screen, env.format, env.virtstride, false⟩

/-- The layers with the identities in `grgz_ext_layer_list`, from this index on. -/
def BlitEnv.extlayers (env : BlitEnv) : Nat → List HwcLayer → Option (List InLayer)
  | _, [] => some []
  | i, layer :: layers => do
    let identity ← env.identity i
    let rest ← env.extlayers (i + 1) layers
    return ⟨layer, identity⟩ :: rest

/-- `rgz_in`; painting begins with a cleared state. -/
def BlitEnv.rgz_in (env : BlitEnv) (layers : List InLayer) : Option Rgz :=
  match env.blt_mode with
  | .paint => rgz_in_hwccheck env.screen layers .released
  | .region => (rgz_in_hwccheck env.screen layers env.grgz).bind (rgz_in_hwc env.screen)

/-- `rgz_out`. -/
def BlitEnv.rgz_out (env : BlitEnv) (rgz : Rgz) : Option BvCommands :=
  match env.blt_mode with
  | .paint => (rgz_out_bvcmd_paint env.params rgz).toOption
  | .region => (rgz_out_region env.params rgz).toOption

/-- The commands that `blit_layers` gets for a list. -/
def BlitEnv.commands (env : BlitEnv) (layers : List HwcLayer) : Option BvCommands :=
  if !env.extended_api || layers.length > RGZ_INPUT_MAXLAYERS then none
  else do
    let extlayers ← env.extlayers 0 layers
    let rgz ← env.rgz_in extlayers
    let out ← env.rgz_out rgz
    -- buffers to synchronize with, but no blits
    if env.blt_mode ≠ .region ∧ out.cmdp = [] ∧ out.out_hndls ≠ [] then none else some out

/-- The answers to a call of `hwc_prepare` in which the regionizer generates the blits. -/
def BlitEnv.answers (blit : BlitEnv) (env : PrepareEnv) : PrepareEnv :=
  { env with blits := fun layers =>
      (blit.commands layers).map fun out => (out.cmdp.length, out.out_hndls) }

/-- The list that a frame hands to `blit_layers`, if it may be blitted. -/
def blitInput (hwc_dev : HwcDevice) (list : Option (List HwcLayer)) : Option (List HwcLayer) :=
  let d := (begin_frame hwc_dev list).1
  let list := (begin_frame hwc_dev list).2
  if d.ext.mirror.enabled then none
  else
    match d.blt_policy with
    | .disabled => none
    | .default => if d.use_sgx then (overlayFrame d list).list else none
    | .all => list

/-- `nbufs`. -/
def nbufs (hwc_dev : HwcDevice) : Nat :=
  if hwc_dev.post2_blit_buffers ≠ 0 then hwc_dev.post2_layers + hwc_dev.post2_blit_buffers - 1
  else hwc_dev.post2_layers

/-- The buffers that `hwc_set` hands to `Post2`. -/
def post2_buffers (env : SetEnv) (hwc_dev : HwcDevice) : List BufferHandle :=
  (List.range (nbufs hwc_dev)).map (hwc_set env hwc_dev).1.buffers

section Input

variable {hwc_dev d : HwcDevice} {p : Pipes} {layer : HwcLayer} {layers : List HwcLayer}
  {blit : BlitEnv} {inLayers : List InLayer} {s : Nat}

theorem layers_of_extlayers {i : Nat} (h : blit.extlayers i layers = some inLayers) :
    inLayers.map InLayer.layer = layers := by
  induction layers generalizing i inLayers with
  | nil =>
    cases h
    rfl
  | cons layer layers ih =>
    rw [BlitEnv.extlayers] at h
    cases hid : blit.identity i with
    | none =>
      rw [hid] at h
      cases h
    | some identity =>
      cases hrest : blit.extlayers (i + 1) layers with
      | none =>
        rw [hid, hrest] at h
        cases h
      | some rest =>
        rw [hid, hrest] at h
        cases h
        rw [map_cons, ih hrest]

/-- The overlays of a list. -/
def overlays (layers : List HwcLayer) : Nat :=
  layers.countP fun layer => layer.compositionType = .overlay

theorem overlays_concat : overlays (layers ++ [layer]) =
    overlays layers + if layer.compositionType = .overlay then 1 else 0 := by
  simp [overlays, countP_append, countP_singleton]

/-- A list without overlays. -/
theorem overlays_eq_zero (h : ∀ layer ∈ layers, layer.compositionType = .framebuffer) :
    overlays layers = 0 := by
  refine countP_eq_zero.mpr fun layer hl => ?_
  rw [h layer hl]
  decide

theorem overlayCount_eq (h : inLayers.map InLayer.layer = layers) :
    overlayCount inLayers = overlays layers := by
  rw [overlayCount, overlays, ← h, countP_map]
  rfl

/-- The loop has marked a layer for every overlay that it has set up. -/
theorem visit_overlays (h : p.num_ovls = s + overlays p.visited)
    (hfb : layer.compositionType = .framebuffer) :
    (p.visit hwc_dev layer).num_ovls = s + overlays (p.visit hwc_dev layer).visited := by
  rcases visit_cases hwc_dev p layer with ⟨handle, -, -, he⟩ | ⟨-, he⟩
  · rw [he]
    show p.num_ovls + 1 = s + overlays (p.visited ++ [_])
    rw [overlays_concat, if_pos rfl, h, add_assoc]
  · have hne : layer.compositionType ≠ .overlay := by
      rw [hfb]
      decide
    rw [he, leave_num_ovls, leave_visited, overlays_concat, if_neg hne]
    exact h

theorem setup_pipes_overlays (needs_fb : Bool)
    (hfb : ∀ layer ∈ layers, layer.compositionType = .framebuffer) :
    (setup_pipes hwc_dev needs_fb layers).num_ovls =
      needs_fb.toNat + overlays (setup_pipes hwc_dev needs_fb layers).visited := by
  have hfold : ∀ (ls : List HwcLayer) (p : Pipes),
      (∀ layer ∈ ls, layer.compositionType = .framebuffer) →
        p.num_ovls = needs_fb.toNat + overlays p.visited →
          (ls.foldl (Pipes.visit hwc_dev) p).num_ovls =
            needs_fb.toNat + overlays (ls.foldl (Pipes.visit hwc_dev) p).visited := by
    intro ls
    induction ls with
    | nil => exact fun p _ h => h
    | cons layer ls ih =>
      exact fun p hls h => ih _ (fun l hl => hls l (mem_cons_of_mem layer hl))
        (visit_overlays h (hls layer mem_cons_self))
  refine hfold layers _ hfb ?_
  cases needs_fb <;> rfl

end Input

/-! ### The buffers in the device -/

section Posting

variable {env : PrepareEnv} {hwc_dev d : HwcDevice} {ix : Nat} {f : Frame}

/-- What `hwc_set` assembles the buffers from. -/
structure BlitPost where
  use_sgx : Bool
  blit_num : Nat
  post2_layers : Nat
  post2_blit_buffers : Nat
  buffers : Nat → BufferHandle

def HwcDevice.blitPost (hwc_dev : HwcDevice) : BlitPost :=
  ⟨hwc_dev.use_sgx, hwc_dev.blit_num, hwc_dev.post2_layers, hwc_dev.post2_blit_buffers,
    hwc_dev.buffers⟩

theorem clone_layer_blitPost (h : clone_layer hwc_dev ix = some d) :
    d.blitPost = hwc_dev.blitPost := by
  rw [clone_layer] at h
  split at h
  · cases h
  · cases h
    rfl

theorem clone_external_layer_blitPost :
    (clone_external_layer env hwc_dev ix).1.blitPost = hwc_dev.blitPost := by
  rw [clone_external_layer]
  dsimp only
  split
  · rfl
  · split
    · rfl
    · next hclone => exact (clone_layer_blitPost hclone).trans rfl

theorem clone_layers_blitPost (n : Nat) : (clone_layers n ix hwc_dev).blitPost = hwc_dev.blitPost :=
  by
  induction n generalizing ix hwc_dev with
  | zero => rfl
  | succ n ih =>
    rw [clone_layers]
    split
    · rfl
    · next hclone => exact ih.trans (clone_layer_blitPost hclone)

theorem mirror_layers_blitPost : (mirror_layers env hwc_dev).blitPost = hwc_dev.blitPost := by
  rw [mirror_layers]
  split
  · rfl
  · next d hd =>
    refine (clone_layers_blitPost _).trans ?_
    split at hd
    · rw [setup_mirroring] at hd
      split at hd
      · cases hd
      · cases hd
        rfl
    · cases hd
      rfl

theorem clone_docked_layer_blitPost (z : Int) :
    (clone_docked_layer env hwc_dev ix z).blitPost = hwc_dev.blitPost := by
  have hclone := @clone_external_layer_blitPost env hwc_dev ix
  rw [clone_docked_layer]
  split <;> next hd =>
    rw [hd] at hclone
    exact hclone

theorem clone_dock_image_blitPost : (clone_dock_image env hwc_dev).blitPost = hwc_dev.blitPost := by
  rw [clone_dock_image]
  split <;> next hd =>
    have hclone := congrArg (fun r : HwcDevice × Bool => r.1.blitPost) hd
    exact hclone.symm.trans clone_external_layer_blitPost

/-- Cloning leaves the buffers alone; the overlays before it are those with a buffer. -/
theorem clone_for_external_blitPost : (clone_for_external env f).blitPost =
    { f.hwc_dev.blitPost with post2_layers := f.hwc_dev.dsscomp.num_ovls } := by
  rw [clone_for_external]
  split
  · split
    · exact clone_docked_layer_blitPost _
    · split
      · exact clone_dock_image_blitPost
      · split
        · exact mirror_layers_blitPost
        · rfl
  · rfl

theorem transform_primary_blitPost : (transform_primary hwc_dev).blitPost = hwc_dev.blitPost := by
  rw [transform_primary]
  split <;> rfl

/-- What `hwc_prepare` leaves for `hwc_set`. -/
theorem hwc_prepare_blitPost (env : PrepareEnv) (hwc_dev : HwcDevice)
    (list : Option (List HwcLayer)) : (hwc_prepare env hwc_dev list).1.blitPost =
      { (internal_frame env hwc_dev list).hwc_dev.blitPost with
        post2_layers := (internal_frame env hwc_dev list).hwc_dev.dsscomp.num_ovls } :=
  transform_primary_blitPost.trans clone_for_external_blitPost

end Posting

/-! ### The frame that is blitted -/

section Frame

variable (env : PrepareEnv) {blit : BlitEnv} {hwc_dev d : HwcDevice} {R : BvCommands}
  {list : Option (List HwcLayer)} {layers : List HwcLayer} {n bufoff : Nat}

/-- The device holds these blits behind the buffers of `n` overlays. -/
structure BlitPost.Holds (R : BvCommands) (n : Nat) (p : BlitPost) : Prop where
  use_sgx : p.use_sgx = false
  blit_num : p.blit_num = R.cmdp.length
  post2_layers : p.post2_layers = n + 1
  post2_blit_buffers : p.post2_blit_buffers = R.out_hndls.length
  buffers : ∀ j < R.out_hndls.length,
    p.buffers ((if n = 0 then 0 else n + 1) + j) = R.out_hndls.getD j .null

/-- A `blit_layers` that succeeds. -/
theorem blit_layers_eq_some (hm : hwc_dev.ext.mirror.enabled = false)
    (hR : blit.commands layers = some R) :
    blit_layers (blit.answers env) hwc_dev (some layers) bufoff =
      some ({ hwc_dev with
          blit_num := R.cmdp.length
          post2_blit_buffers := R.out_hndls.length
          buffers := fun i =>
            if bufoff ≤ i ∧ i < bufoff + R.out_hndls.length then R.out_hndls.getD (i - bufoff) .null
            else hwc_dev.buffers i },
        layers.map markBlitted) := by
  have hblits : (blit.answers env).blits layers = some (R.cmdp.length, R.out_hndls) := by
    show (blit.commands layers).map _ = _
    rw [hR]
    rfl
  rw [blit_layers, hm, hblits]
  rfl

/-- The entries that it writes. -/
theorem getD_shifted {R : BvCommands} {j : Nat} (hj : j < R.out_hndls.length)
    (buffers : Nat → BufferHandle) :
    (if bufoff ≤ bufoff + j ∧ bufoff + j < bufoff + R.out_hndls.length then
      R.out_hndls.getD (bufoff + j - bufoff) .null else buffers (bufoff + j)) =
        R.out_hndls.getD j .null := by
  rw [if_pos ⟨Nat.le_add_right .., Nat.add_lt_add_left hj _⟩, Nat.add_sub_cancel_left]

theorem begin_frame_framebuffer {ls : List HwcLayer} (h : (begin_frame hwc_dev list).2 = some ls) :
    ∀ layer ∈ ls, layer.compositionType = .framebuffer := by
  obtain ⟨ls', -, rfl⟩ := map_eq_some_iff.mp h
  intro layer hl
  obtain ⟨layer', -, rfl⟩ := mem_map.mp hl
  rfl

/-- Where SGX has no part, the framebuffer has an overlay but no buffer. -/
theorem setup_framebuffer_blitPost {f : Frame} (h : f.hwc_dev.use_sgx = false) :
    (setup_framebuffer f).hwc_dev.blitPost = f.hwc_dev.blitPost ∧
      (setup_framebuffer f).hwc_dev.dsscomp.num_ovls = f.hwc_dev.dsscomp.num_ovls := by
  rw [setup_framebuffer]
  split
  · rw [h]
    exact ⟨rfl, rfl⟩
  · exact ⟨rfl, rfl⟩

/-- The frame in which everything is blitted. -/
theorem holds_of_blitFrame (hm : d.ext.mirror.enabled = false) (hp : d.blt_policy = .all)
    (hfb : ∀ layer ∈ layers, layer.compositionType = .framebuffer)
    (hR : blit.commands layers = some R) :
    let f := setup_framebuffer (blit_rest (blit.answers env)
      (setup_overlays (blit.answers env) d (some layers)))
    { f.hwc_dev.blitPost with post2_layers := f.hwc_dev.dsscomp.num_ovls }.Holds R
      (overlays layers) := by
  have hrest : ∀ f : Frame, f.hwc_dev.blt_policy = .all → blit_rest (blit.answers env) f = f := by
    intro f hf
    refine if_neg fun h => ?_
    rw [hf] at h
    cases h.1
  rw [setup_overlays, if_pos hp, blit_layers_eq_some env hm hR]
  dsimp only
  rw [hrest _ hp]
  obtain ⟨hpost, hnum⟩ := setup_framebuffer_blitPost (f := blitFrame _ _) rfl
  rw [hpost, hnum, overlays_eq_zero hfb]
  exact ⟨rfl, rfl, rfl, rfl, fun j hj => getD_shifted hj _⟩

/-- The frame after the blitter took over the layers that SGX would have drawn. -/
theorem blit_rest_blitPost {f : Frame} (hm : f.hwc_dev.ext.mirror.enabled = false)
    (hp : f.hwc_dev.blt_policy = .default) (hsgx : f.hwc_dev.use_sgx)
    (hl : f.list = some layers) (hR : blit.commands layers = some R)
    (hbufoff : (if f.hwc_dev.dsscomp.num_ovls = 1 then 0 else f.hwc_dev.dsscomp.num_ovls) =
      bufoff) :
    (blit_rest (blit.answers env) f).hwc_dev.dsscomp.num_ovls = f.hwc_dev.dsscomp.num_ovls ∧
      (blit_rest (blit.answers env) f).hwc_dev.blitPost =
        { use_sgx := false
          blit_num := R.cmdp.length
          post2_layers := f.hwc_dev.post2_layers
          post2_blit_buffers := R.out_hndls.length
          buffers := fun i =>
            if bufoff ≤ i ∧ i < bufoff + R.out_hndls.length then R.out_hndls.getD (i - bufoff) .null
            else f.hwc_dev.buffers i } := by
  rw [blit_rest, if_pos ⟨hp, hsgx⟩, hl, hbufoff, blit_layers_eq_some env hm hR]
  exact ⟨rfl, rfl⟩

/-- The frame in which the layers without an overlay are blitted. -/
theorem holds_of_overlayFrame (hm : d.ext.mirror.enabled = false) (hp : d.blt_policy = .default)
    (hsgx : d.use_sgx) {list : Option (List HwcLayer)}
    (hfb : ∀ ls, list = some ls → ∀ layer ∈ ls, layer.compositionType = .framebuffer)
    (hin : (overlayFrame d list).list = some layers) (hR : blit.commands layers = some R) :
    let f := setup_framebuffer (blit_rest (blit.answers env)
      (setup_overlays (blit.answers env) d list))
    { f.hwc_dev.blitPost with post2_layers := f.hwc_dev.dsscomp.num_ovls }.Holds R
      (overlays layers) := by
  have hnum_ovls : (overlayFrame d list).hwc_dev.dsscomp.num_ovls = overlays layers + 1 := by
    obtain ⟨ls, hls, rfl⟩ := map_eq_some_iff.mp hin
    have hcount := @setup_pipes_overlays d ls d.use_sgx (hfb ls hls)
    rw [hls]
    refine hcount.trans ?_
    rw [hsgx, Bool.toNat_true, add_comm]
    rfl
  have hall : d.blt_policy ≠ .all := by
    rw [hp]
    decide
  have hbufoff : (if (overlayFrame d list).hwc_dev.dsscomp.num_ovls = 1 then 0
      else (overlayFrame d list).hwc_dev.dsscomp.num_ovls) =
        if overlays layers = 0 then 0 else overlays layers + 1 := by
    rw [hnum_ovls]
    simp only [add_eq_right]
  obtain ⟨hnum, hpost⟩ := blit_rest_blitPost env (f := overlayFrame d list) hm hp hsgx hin hR
    hbufoff
  have hsgx' : (blit_rest (blit.answers env) (overlayFrame d list)).hwc_dev.use_sgx = false :=
    congrArg BlitPost.use_sgx hpost
  obtain ⟨hpost', hnum'⟩ := setup_framebuffer_blitPost hsgx'
  rw [setup_overlays, if_neg hall]
  dsimp only
  rw [hpost', hnum', hpost, hnum, hnum_ovls]
  exact ⟨rfl, rfl, rfl, rfl, fun j hj => getD_shifted hj _⟩

/-- A frame whose list is blitted. -/
theorem internal_frame_holds (hin : blitInput hwc_dev list = some layers)
    (hR : blit.commands layers = some R) :
    let f := internal_frame (blit.answers env) hwc_dev list
    { f.hwc_dev.blitPost with post2_layers := f.hwc_dev.dsscomp.num_ovls }.Holds R
      (overlays layers) := by
  have hfb : ∀ ls, (begin_frame hwc_dev list).2 = some ls →
      ∀ layer ∈ ls, layer.compositionType = .framebuffer := fun _ => begin_frame_framebuffer
  rw [blitInput] at hin
  split at hin
  · cases hin
  · next hm =>
    rw [Bool.not_eq_true] at hm
    split at hin
    · cases hin
    · next hp =>
      split at hin
      · next hsgx => exact holds_of_overlayFrame env hm hp hsgx hfb hin hR
      · cases hin
    · next hp =>
      have hframe := holds_of_blitFrame env hm hp (hfb layers hin) hR
      rw [← hin] at hframe
      exact hframe

/-- What `hwc_prepare` leaves for `hwc_set` when it blits. -/
theorem hwc_prepare_holds (hin : blitInput hwc_dev list = some layers)
    (hR : blit.commands layers = some R) :
    (hwc_prepare (blit.answers env) hwc_dev list).1.blitPost.Holds R (overlays layers) := by
  rw [hwc_prepare_blitPost]
  exact internal_frame_holds env hin hR

end Frame

/-! ### What is posted -/

section Posted

variable {s : SetEnv} {hwc_dev d : HwcDevice} {R : BvCommands} {n : Nat}

/-- The calls that come between `hwc_prepare` and `hwc_set`. -/
def Event.Between : Event → Prop
  | .prepare _ _ => False
  | .set _ => False
  | _ => True

theorem handle_hotplug_blitPost (env : HotplugEnv) :
    (handle_hotplug env hwc_dev).blitPost = hwc_dev.blitPost := by
  rw [handle_hotplug]
  split
  · split <;> rfl
  · split <;> rfl

theorem idle_timeout_blitPost : (idle_timeout hwc_dev).blitPost = hwc_dev.blitPost := by
  rw [idle_timeout]
  split <;> rfl

/-- They leave the buffers alone. -/
theorem step_blitPost {t : Session} {e : Event} (he : e.Between) :
    (t.step e).dev.blitPost = t.dev.blitPost := by
  cases e with
  | idleCall => rfl
  | prepare => exact he.elim
  | set => exact he.elim
  | dockSwitch state env => exact (handle_hotplug_blitPost env).trans rfl
  | hdmiSwitch state env => exact (handle_hotplug_blitPost env).trans rfl
  | timeout => exact idle_timeout_blitPost

theorem run_blitPost {t : Session} {events : List Event} (h : ∀ e ∈ events, e.Between) :
    (t.run events).dev.blitPost = t.dev.blitPost := by
  induction events generalizing t with
  | nil => rfl
  | cons e events ih =>
    have hrest : ((t.step e).run events).dev.blitPost = (t.step e).dev.blitPost :=
      ih fun e' he' => h e' (mem_cons_of_mem e he')
    exact hrest.trans (step_blitPost (h e mem_cons_self))

/-- The buffers after the null entry of the framebuffer is taken out. -/
theorem fix_up_buffers_buffers (hwc_dev : HwcDevice) (i : Nat) :
    (fix_up_buffers hwc_dev).buffers i =
      if hwc_dev.post2_blit_buffers ≠ 0 ∧ hwc_dev.post2_layers > 1 ∧ i < nbufs hwc_dev then
        hwc_dev.buffers (i + 1)
      else hwc_dev.buffers i := by
  rw [fix_up_buffers, nbufs]
  by_cases h : hwc_dev.post2_blit_buffers ≠ 0 ∧ hwc_dev.post2_layers > 1
  · rw [if_pos h, if_pos h.1]
    simp only [ne_eq, h.1, h.2, not_false_eq_true, true_and]
  · have h' : ∀ P, ¬(hwc_dev.post2_blit_buffers ≠ 0 ∧ hwc_dev.post2_layers > 1 ∧ P) :=
      fun _ hc => h ⟨hc.1, hc.2.1⟩
    rw [if_neg h, if_neg (h' _)]

theorem hwc_set_buffers (hs : s.shows) (hsgx : hwc_dev.use_sgx = false) :
    (hwc_set s hwc_dev).1.buffers = (fix_up_buffers hwc_dev).buffers := by
  have hreaches : reaches_post2 s hwc_dev := by
    rw [reaches_post2, hs, hsgx]
    rfl
  rw [hwc_set, if_pos hreaches]
  funext i
  rw [fix_up_buffers_buffers]
  exact fix_up_buffers_buffers _ i

/-- The blits are posted behind the overlays. -/
theorem BlitPost.Holds.posted (h : hwc_dev.blitPost.Holds R n) (hs : s.shows) {j : Nat}
    {handle : BufferHandle} (hj : R.out_hndls[j]? = some handle) :
    (post2_buffers s hwc_dev)[n + j]? = some handle := by
  obtain ⟨hlt, hget⟩ := List.getElem?_eq_some_iff.mp hj
  have hlayers : hwc_dev.post2_layers = n + 1 := h.post2_layers
  have hbufs : hwc_dev.post2_blit_buffers = R.out_hndls.length := h.post2_blit_buffers
  have hne : hwc_dev.post2_blit_buffers ≠ 0 := by omega
  have hnbufs : nbufs hwc_dev = n + R.out_hndls.length := by
    rw [nbufs, if_pos hne]
    omega
  have hstored : hwc_dev.buffers ((if n = 0 then 0 else n + 1) + j) = handle := by
    refine (h.buffers j hlt).trans ?_
    rw [getD_eq_getElem?_getD, hj]
    rfl
  rw [post2_buffers, getElem?_map, hnbufs, getElem?_range (Nat.add_lt_add_left hlt n),
    map_some, hwc_set_buffers hs h.use_sgx, fix_up_buffers_buffers, hnbufs, hlayers]
  congr 1
  by_cases hn : n = 0
  · rw [if_neg (by omega), ← hstored, if_pos hn, hn]
  · rw [if_pos ⟨hne, by omega, by omega⟩, ← hstored, if_neg hn, add_right_comm]

end Posted

/-! ### Every blit reads the buffer of its layer -/

section Commands

variable {blit : BlitEnv} {layers : List HwcLayer} {R : BvCommands}

theorem ok_of_toOption_eq_some {ε α : Type} {x : Except ε α} {a : α} (h : x.toOption = some a) :
    x = .ok a := by
  cases x with
  | error e => cases h
  | ok b => exact congrArg Except.ok (some.inj h)

/-- The commands come from an accepted frame. -/
theorem ofFrame_of_commands (h : blit.commands layers = some R) :
    ∃ inLayers rgz rgz', inLayers.map InLayer.layer = layers ∧
      rgz_in_hwccheck blit.params.screen inLayers rgz = some rgz' ∧ R.OfFrame rgz' := by
  rw [BlitEnv.commands] at h
  split at h
  · cases h
  · obtain ⟨inLayers, hext, h⟩ := bind_eq_some_iff.mp h
    obtain ⟨rgz, hin, h⟩ := bind_eq_some_iff.mp h
    obtain ⟨out, hout, h⟩ := bind_eq_some_iff.mp h
    split at h
    · cases h
    · cases h
      refine ⟨inLayers, ?_⟩
      rw [BlitEnv.rgz_in] at hin
      rw [BlitEnv.rgz_out] at hout
      cases hmode : blit.blt_mode with
      | paint =>
        rw [hmode] at hin hout
        exact ⟨_, _, layers_of_extlayers hext, hin, ofFrame_of_rgz_out_bvcmd_paint
          (checked_of_rgz_in_hwccheck hin) (ok_of_toOption_eq_some hout)⟩
      | region =>
        rw [hmode] at hin hout
        obtain ⟨rgz₁, hcheck, hregions⟩ := bind_eq_some_iff.mp hin
        obtain ⟨-, -, rfl⟩ := rgz_in_hwc_eq_some.mp hregions
        exact ⟨_, _, layers_of_extlayers hext, hcheck, ofFrame_of_rgz_out_region
          (checked_of_rgz_in_hwccheck hcheck) (ok_of_toOption_eq_some hout)⟩

end Commands

/-- In every frame that is blitted, from any state of the device and with any calls between
`hwc_prepare` and `hwc_set`: a source of a blit that names a buffer was set from a layer of the
list without an overlay, and the buffer that is posted at this index is the one of the layer. -/
theorem blit_buffers_posted {t : Session} {env : PrepareEnv} {blit : BlitEnv}
    {list : Option (List HwcLayer)} {layers : List HwcLayer} {R : BvCommands}
    {events : List Event} {s : SetEnv} (hin : blitInput t.dev list = some layers)
    (hR : blit.commands layers = some R) (hevents : ∀ e ∈ events, e.Between)
    (hs : s.shows = true) :
    let d := (t.run (.prepare (blit.answers env) list :: events)).dev
    d.blit_num = R.cmdp.length ∧ d.use_sgx = false ∧
      ∀ e ∈ R.cmdp, ∀ source, source = e.src1 ∨ source = e.src2 →
        ∀ buffidx, source.desc = .buffer buffidx →
          0 ≤ buffidx ∧ buffidx < (post2_buffers s d).length ∧
            ∃ layer ∈ layers, layer.compositionType = .framebuffer ∧
              source.ReadsBuffer buffidx layer ∧
              (post2_buffers s d)[buffidx.toNat]? = some layer.handle := by
  have hholds : ((t.run (.prepare (blit.answers env) list :: events)).dev).blitPost.Holds R
      (overlays layers) := by
    have hrun : ((t.step (.prepare (blit.answers env) list)).run events).dev.blitPost = _ :=
      run_blitPost hevents
    show (((t.step (.prepare (blit.answers env) list)).run events).dev).blitPost.Holds R _
    rw [hrun]
    exact hwc_prepare_holds env hin hR
  obtain ⟨inLayers, rgz, rgz', hlayers, hcheck, hframe⟩ := ofFrame_of_commands hR
  refine ⟨hholds.blit_num, hholds.use_sgx, fun e he source hsource buffidx hd => ?_⟩
  obtain ⟨l, hl, hfb, hreads, j, hidx, hhandle⟩ := hframe.source hcheck he hsource hd
  rw [overlayCount_eq hlayers] at hidx
  have hposted := hholds.posted hs hhandle
  have hlt := (List.getElem?_eq_some_iff.mp hposted).1
  have hnat : buffidx.toNat = overlays layers + j := by omega
  refine ⟨by omega, by omega, l.layer, hlayers ▸ List.mem_map_of_mem hl, hfb, hreads, ?_⟩
  rw [hnat]
  exact hposted

/-- Painting on that screen. -/
def samplePaint : BlitEnv where
  blt_mode := .paint
  extended_api := true
  identity i := some i
  screen := ⟨40, 40⟩
  format := .RGBA24
  virtstride := 160
  grgz := .released

/-- Two layers of ten by ten pixels. -/
def sampleList : List HwcLayer :=
  [(Regionizer.sampleLayer 1 100 0 0).layer, (Regionizer.sampleLayer 2 200 5 5).layer]

/-- The first layer has an overlay, the second one is blitted. -/
theorem blit_buffers_posted_behind_overlay : ∃ layers R,
    blitInput sampleDevice (some sampleList) = some layers ∧ samplePaint.commands layers = some R ∧
      overlays layers = 1 ∧ R.out_hndls.length = 1 ∧
      let d := ((Session.start sampleDevice).run
        [.prepare (samplePaint.answers sampleAnswers) (some sampleList), .timeout]).dev
      d.blit_num = R.cmdp.length ∧ d.use_sgx = false ∧
        ∀ e ∈ R.cmdp, ∀ source, source = e.src1 ∨ source = e.src2 →
          ∀ buffidx, source.desc = .buffer buffidx →
            0 ≤ buffidx ∧ buffidx < (post2_buffers ⟨true, true, true⟩ d).length ∧
              ∃ layer ∈ layers, layer.compositionType = .framebuffer ∧
                source.ReadsBuffer buffidx layer ∧
                (post2_buffers ⟨true, true, true⟩ d)[buffidx.toNat]? = some layer.handle :=
  ⟨_, _, rfl, rfl, rfl, rfl, @blit_buffers_posted (Session.start sampleDevice) sampleAnswers
    samplePaint (some sampleList) _ _ [.timeout] ⟨true, true, true⟩ rfl rfl
    (forall_mem_singleton.mpr trivial) rfl⟩

end OmapHal.Hwc
