import OmapHal.Hwc.Outcome

/-!
# When every layer has an overlay

Without SGX the loop gives an overlay to every layer exactly if each layer passes
`can_dss_render_layer` and the TILER slot is never exceeded on the way.
-/

namespace OmapHal.Hwc

open OmapHal.Core List Option

variable {hwc_dev : HwcDevice} {p : Pipes} {layer : HwcLayer} {handle : NativeHandle}
  {layers done : List HwcLayer}

/-- The layer has a buffer and passes `can_dss_render_layer`. -/
def renders (hwc_dev : HwcDevice) (layer : HwcLayer) : Bool :=
  layer.handle.deref?.any (can_dss_render_layer hwc_dev layer)

theorem renders_of_rendersScaled (h : rendersScaled hwc_dev layer) :
    renders hwc_dev layer = true := by
  unfold rendersScaled at h
  unfold renders
  obtain ⟨handle, hd, hr⟩ := (any_eq_true _ _).mp h
  rw [Bool.and_eq_true] at hr
  exact (any_eq_true _ _).mpr ⟨handle, hd, hr.1⟩

theorem validMem_append_of_valid (hd : layer.handle.deref? = some handle)
    (hv : is_valid_layer hwc_dev layer handle) :
    validMem hwc_dev (done ++ [layer]) = u32 (validMem hwc_dev done + mem1d handle) := by
  have h : validBuffer? hwc_dev layer = some handle := validBuffer?_eq_some.mpr ⟨hd, hv⟩
  unfold validMem
  rw [foldl_append, foldl_cons, foldl_nil, h]

/-- The slot is not exceeded by any first part of the list. -/
def MemFits (hwc_dev : HwcDevice) (layers : List HwcLayer) : Prop :=
  ∀ part, part <+: layers → validMem hwc_dev part ≤ hwc_dev.limits.tiler1d_slot_size

/-- Every layer so far has an overlay. -/
structure Pipes.Full (hwc_dev : HwcDevice) (done : List HwcLayer) (p : Pipes) : Prop where
  num_ovls : p.num_ovls = done.length
  fb_z : p.fb_z = -1
  mem_used : p.mem_used = validMem hwc_dev done
  overlays : ∀ layer ∈ p.visited, layer.compositionType = .overlay
  gfx : hwc_dev.primary_transform = false → done ≠ [] →
    (∀ l ∈ done, rendersScaled hwc_dev l = true) →
    p.scaled_gfx = true

theorem full_start (hwc_dev : HwcDevice) : (Pipes.start hwc_dev false).Full hwc_dev [] :=
  ⟨rfl, rfl, rfl, fun _ hl => absurd hl not_mem_nil, fun _ h => absurd rfl h⟩

theorem Pipes.Full.add_overlay (h : p.Full hwc_dev done) (hd : layer.handle.deref? = some handle)
    (hv : is_valid_layer hwc_dev layer handle) :
    (p.add_overlay hwc_dev layer handle).Full hwc_dev (done ++ [layer]) := by
  obtain ⟨hn, hf, hm, ho, hg⟩ := h
  refine ⟨?_, hf, ?_, ?_, ?_⟩
  · rw [length_append]
    exact congrArg (· + 1) hn
  · rw [validMem_append_of_valid hd hv, ← hm]
    rfl
  · intro l hl
    rcases mem_append.mp hl with hl | hl
    · exact ho l hl
    · rw [mem_singleton.mp hl]
  · intro hpt _ hall
    have hthis := hall layer (mem_append_right _ (mem_singleton_self _))
    have hsc : scales layer handle := by
      unfold rendersScaled at hthis
      rw [hd, any_some, Bool.and_eq_true] at hthis
      exact hthis.2
    rw [add_overlay_scaled_gfx]
    split
    · exact hsc
    · rename_i h0
      have hne : done ≠ [] := by
        rintro rfl
        exact h0 ⟨hn, hpt⟩
      rw [hg hpt hne fun l hl => hall l (mem_append_left _ hl), hsc]
      rfl

/-- In a list that can be rendered, the next layer takes an overlay. -/
theorem Pipes.Full.takes (h : p.Full hwc_dev done) (hforce : hwc_dev.force_sgx = 0)
    (hhw : done.length < hwc_dev.counts.max_hw_overlays) (hd : layer.handle.deref? = some handle)
    (hr : can_dss_render_layer hwc_dev layer handle)
    (hmem : validMem hwc_dev (done ++ [layer]) ≤ hwc_dev.limits.tiler1d_slot_size) :
    takes_overlay hwc_dev p layer handle = true := by
  rw [validMem_append_of_valid hd (can_dss_render_layer_valid hr), ← h.mem_used] at hmem
  refine takes_overlay_iff.mpr ⟨?_, hr, Or.inl hforce, hmem, fun _ => ?_⟩
  · rw [h.num_ovls]
    exact hhw
  · rw [h.fb_z]
    decide

/-- Every layer that can be rendered, within the limits, is rendered. -/
theorem full_of_renders (hforce : hwc_dev.force_sgx = 0)
    (hhw : layers.length ≤ hwc_dev.counts.max_hw_overlays)
    (hr : ∀ l ∈ layers, renders hwc_dev l) (hmem : MemFits hwc_dev layers) :
    (setup_pipes hwc_dev false layers).Full hwc_dev layers := by
  suffices h : layers <+: layers → (setup_pipes hwc_dev false layers).Full hwc_dev layers from
    h prefix_rfl
  unfold setup_pipes
  refine foldl_consumed (P := fun done (p : Pipes) => done <+: layers → p.Full hwc_dev done)
    (fun _ => full_start hwc_dev) ?_
  intro done layer p ih hpre
  have hfull := ih ((prefix_append done [layer]).trans hpre)
  obtain ⟨handle, hd, hrender⟩ := (any_eq_true _ _).mp (hr layer
    (hpre.subset (mem_append_right _ (mem_singleton_self _))))
  have hlen : done.length < hwc_dev.counts.max_hw_overlays := by
    have := hpre.length_le
    rw [length_append, length_singleton] at this
    omega
  have htakes := hfull.takes hforce hlen hd hrender (hmem _ hpre)
  rcases visit_cases hwc_dev p layer with ⟨handle', hd', -, he⟩ | ⟨hno, -⟩
  · obtain rfl : handle' = handle := some.inj (hd'.symm.trans hd)
    rw [he]
    exact hfull.add_overlay hd (can_dss_render_layer_valid hrender)
  · rw [hno handle hd] at htakes
    cases htakes

/-- A layer that the loop leaves keeps its composition type. -/
theorem visited_overlay (h : ∀ l ∈ (p.visit hwc_dev layer).visited, l.compositionType = .overlay) :
    (∀ l ∈ p.visited, l.compositionType = .overlay) ∧
      (layer.compositionType = .framebuffer → ∃ handle, layer.handle.deref? = some handle ∧
        takes_overlay hwc_dev p layer handle ∧
        p.visit hwc_dev layer = p.add_overlay hwc_dev layer handle) := by
  rcases visit_cases hwc_dev p layer with ⟨handle, hd, ht, he⟩ | ⟨-, he⟩
  · rw [he] at h ⊢
    exact ⟨fun l hl => h l (mem_append_left _ hl), fun _ => ⟨handle, hd, ht, rfl⟩⟩
  · rw [he, leave_visited] at h
    refine ⟨fun l hl => h l (mem_append_left _ hl), fun hfb => ?_⟩
    have := h layer (mem_append_right _ (mem_singleton_self _))
    rw [hfb] at this
    cases this

/-- When every layer has an overlay, each could be rendered within the limits. -/
theorem renders_of_overlays (hfb : ∀ l ∈ layers, l.compositionType = .framebuffer)
    (h : ∀ l ∈ (setup_pipes hwc_dev false layers).visited, l.compositionType = .overlay) :
    (∀ l ∈ layers, renders hwc_dev l) ∧ MemFits hwc_dev layers := by
  suffices hs : layers <+: layers →
      (∀ l ∈ (setup_pipes hwc_dev false layers).visited, l.compositionType = .overlay) →
      (setup_pipes hwc_dev false layers).Full hwc_dev layers ∧
      (∀ l ∈ layers, renders hwc_dev l) ∧ MemFits hwc_dev layers from
    (hs prefix_rfl h).2
  unfold setup_pipes
  refine foldl_consumed (P := fun done (p : Pipes) => done <+: layers →
    (∀ l ∈ p.visited, l.compositionType = .overlay) →
    p.Full hwc_dev done ∧ (∀ l ∈ done, renders hwc_dev l) ∧ MemFits hwc_dev done) ?_ ?_
  · refine fun _ _ =>
      ⟨full_start hwc_dev, fun _ hl => absurd hl not_mem_nil, fun part hp => ?_⟩
    rw [prefix_nil.mp hp]
    exact Nat.zero_le _
  · intro done layer p ih hpre hov
    obtain ⟨hov', htake⟩ := visited_overlay hov
    obtain ⟨hfull, hrender, hmem⟩ := ih ((prefix_append done [layer]).trans hpre) hov'
    obtain ⟨handle, hd, ht, he⟩ := htake (hfb layer
      (hpre.subset (mem_append_right _ (mem_singleton_self _))))
    obtain ⟨-, hr, -, hslot, -⟩ := takes_overlay_iff.mp ht
    have hv := can_dss_render_layer_valid hr
    rw [he]
    refine ⟨hfull.add_overlay hd hv, fun l hl => ?_, fun part hp => ?_⟩
    · rcases mem_append.mp hl with hl | hl
      · exact hrender l hl
      · rw [mem_singleton.mp hl]
        exact (any_eq_true _ _).mpr ⟨handle, hd, hr⟩
    · rcases prefix_concat_iff.mp hp with rfl | hp
      · rw [validMem_append_of_valid hd hv, ← hfull.mem_used]
        exact hslot
      · exact hmem part hp

end OmapHal.Hwc
