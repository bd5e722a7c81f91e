import OmapHal.Regionizer.Semantics

/-!
# Source rectangles under rotation

The part of the buffer that `rgz_get_src_rect` reads for a part of the screen. A layer shows its
crop rectangle turned clockwise; the rectangles are mapped against this turn.
-/

namespace OmapHal.Regionizer

open OmapHal.Hwc OmapHal.Core

variable {layer : HwcLayer} {r : Rect} {q : Int × Int}

/-- Where a pixel of the crop rectangle goes when it is turned clockwise onto the display frame. -/
def rotateOnto (layer : HwcLayer) (q : Int × Int) : Int × Int :=
  let dx := q.1 - layer.sourceCrop.left
  let dy := q.2 - layer.sourceCrop.top
  let frame := layer.displayFrame
  if rgz_get_orientation layer.transform = 90 then (frame.right - 1 - dy, frame.top + dx)
  else if rgz_get_orientation layer.transform = 180 then
    (frame.right - 1 - dx, frame.bottom - 1 - dy)
  else if rgz_get_orientation layer.transform = 270 then (frame.left + dy, frame.bottom - 1 - dx)
  else (frame.left + dx, frame.top + dy)

theorem rot90_iff_orientation (transform : Nat) : rot90 transform ↔
    rgz_get_orientation transform = 90 ∨ rgz_get_orientation transform = 270 := by
  rw [rgz_get_orientation]
  cases flipH transform && flipV transform <;> cases rot90 transform <;> decide

/-- An unscaled layer is as large on the screen as its crop rectangle is in the buffer. -/
theorem size_of_unscaled (h : rgz_hwc_scaled layer = false) :
    if rgz_get_orientation layer.transform = 90 ∨ rgz_get_orientation layer.transform = 270 then
      WIDTH layer.displayFrame = HEIGHT layer.sourceCrop ∧
        HEIGHT layer.displayFrame = WIDTH layer.sourceCrop
    else
      WIDTH layer.displayFrame = WIDTH layer.sourceCrop ∧
        HEIGHT layer.displayFrame = HEIGHT layer.sourceCrop := by
  rw [rgz_hwc_scaled] at h
  split
  · next hturn =>
    rw [if_pos ((rot90_iff_orientation _).mpr hturn)] at h
    simpa using h
  · next hturn =>
    rw [if_neg fun hrot => hturn ((rot90_iff_orientation _).mp hrot)] at h
    simpa using h

/-- A rectangle of the buffer holds the pixels that are turned into the rectangle it is for. -/
theorem mem_rgz_get_src_rect (h : rgz_hwc_scaled layer = false) :
    q ∈ rgz_get_src_rect layer r ↔ rotateOnto layer q ∈ r := by
  rw [rgz_get_src_rect, h, if_neg Bool.false_ne_true]
  rcases rgz_get_orientation_cases layer.transform with ho | ho | ho | ho
  all_goals
    simp only [rotateOnto, ho, rgz_get_rotated_view, WIDTH, HEIGHT, Box.mem_def, Int.reduceMod,
      Int.reduceEq, Int.reduceSub, ne_eq, ↓reduceIte, not_true_eq_false, not_false_eq_true]
    omega

/-- The crop rectangle is turned onto the display frame. -/
theorem mem_sourceCrop (h : rgz_hwc_scaled layer = false) :
    q ∈ layer.sourceCrop ↔ rotateOnto layer q ∈ layer.displayFrame := by
  have hsize := size_of_unscaled h
  simp only [WIDTH, HEIGHT] at hsize
  rcases rgz_get_orientation_cases layer.transform with ho | ho | ho | ho
  all_goals
    simp only [ho, Int.reduceEq, or_false, or_true, ↓reduceIte] at hsize
    simp only [rotateOnto, ho, Box.mem_def, Int.reduceEq, ↓reduceIte]
    omega

theorem rotateOnto_inverse (layer : HwcLayer) (q : Int × Int) :
    bufferPoint layer (rotateOnto layer q) = q ∧ rotateOnto layer (bufferPoint layer q) = q := by
  constructor <;> rcases rgz_get_orientation_cases layer.transform with ho | ho | ho | ho
  all_goals
    simp only [rotateOnto, bufferPoint, ho, WIDTH, HEIGHT, Int.reduceEq, ↓reduceIte]
    exact Prod.ext (by dsimp only; omega) (by dsimp only; omega)

/-- Turning the crop rectangle gives each pixel of the display frame once. -/
theorem bijOn_rotateOnto (h : rgz_hwc_scaled layer = false) :
    Set.BijOn (rotateOnto layer) {q | q ∈ layer.sourceCrop} {p | p ∈ layer.displayFrame} := by
  have hinv : Set.InvOn (bufferPoint layer) (rotateOnto layer) {q | q ∈ layer.sourceCrop}
      {p | p ∈ layer.displayFrame} :=
    ⟨fun q _ => (rotateOnto_inverse layer q).1, fun p _ => (rotateOnto_inverse layer p).2⟩
  apply hinv.bijOn
  · exact fun q hq => (mem_sourceCrop h).mp hq
  · intro p hp
    apply (mem_sourceCrop h).mpr
    rw [(rotateOnto_inverse layer p).2]
    exact hp

theorem rgz_get_src_rect_injective (h : rgz_hwc_scaled layer = false) :
    Function.Injective (rgz_get_src_rect layer) := by
  rintro ⟨left, top, right, bottom⟩ ⟨left', top', right', bottom'⟩ heq
  rw [rgz_get_src_rect, rgz_get_src_rect, h] at heq
  rcases rgz_get_orientation_cases layer.transform with ho | ho | ho | ho
  all_goals
    simp only [ho, rgz_get_rotated_view, WIDTH, HEIGHT, Int.reduceMod, Int.reduceEq, Int.reduceSub,
      ne_eq, ↓reduceIte, not_true_eq_false, not_false_eq_true, Bool.false_eq_true,
      Box.mk.injEq] at heq ⊢
    omega

/-- For an unscaled layer the parts of the screen and the parts of the buffer belong together one
to one, as the crop rectangle is turned onto the display frame, and where the former tile the
display frame the latter tile the crop rectangle. -/
theorem rgz_get_src_rect_tiles (h : rgz_hwc_scaled layer = false) :
    Set.BijOn (rotateOnto layer) {q | q ∈ layer.sourceCrop} {p | p ∈ layer.displayFrame} ∧
      (∀ r q, q ∈ rgz_get_src_rect layer r ↔ rotateOnto layer q ∈ r) ∧
      Function.Injective (rgz_get_src_rect layer) ∧
      ∀ tiles : List Rect, Box.Tiles tiles layer.displayFrame →
        Box.Tiles (tiles.map (rgz_get_src_rect layer)) layer.sourceCrop :=
  ⟨bijOn_rotateOnto h, fun _ _ => mem_rgz_get_src_rect h, rgz_get_src_rect_injective h,
    fun _ htiles => htiles.preimage (fun _ _ _ => mem_rgz_get_src_rect h)
      fun _ => mem_sourceCrop h⟩

/-- A layer of ten by four pixels, turned by a quarter. -/
def turnedLayer : HwcLayer :=
  { (sampleLayer 1 100 0 0).layer with
    transform := 4
    sourceCrop := ⟨0, 0, 10, 4⟩
    displayFrame := ⟨20, 30, 24, 40⟩ }

/-- The upper and the lower part of a turned layer are the left and the right part of its crop
rectangle. -/
theorem rgz_get_src_rect_tiles_turned :
    [(⟨20, 30, 24, 33⟩ : Rect), ⟨20, 33, 24, 40⟩].map (rgz_get_src_rect turnedLayer) =
        [⟨0, 0, 3, 4⟩, ⟨3, 0, 10, 4⟩] ∧
      Box.Tiles [(⟨0, 0, 3, 4⟩ : Rect), ⟨3, 0, 10, 4⟩] turnedLayer.sourceCrop := by
  refine ⟨rfl, (@rgz_get_src_rect_tiles turnedLayer rfl).2.2.2
    [⟨20, 30, 24, 33⟩, ⟨20, 33, 24, 40⟩] ⟨?_, fun p => ?_⟩⟩
  · refine List.pairwise_pair.mpr fun p => ?_
    simp only [Box.mem_def]
    omega
  · simp only [turnedLayer, Box.mem_def, List.mem_cons, List.not_mem_nil, or_false,
      exists_eq_or_imp, exists_eq_left]
    omega

end OmapHal.Regionizer
