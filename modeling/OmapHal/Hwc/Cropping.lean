import Mathlib.Algebra.Order.Group.Int
import OmapHal.Hwc.Overlay

/-!
# Cropping an overlay

What `crop_to_rect` leaves of an overlay, first along one axis of the window and the crop axis that
goes with it, then in the coordinates of screen and buffer, and at last in numbers of 32 bits.
-/

namespace OmapHal.Hwc

open Function Option

variable {k w s x : Int} {cfg : Dss2OvlCfg} {vis : Rect} {win crop : Axes}

/-! ### One axis -/

/-- A part of a product is smaller than the whole. -/
theorem tdiv_part (hk : 0 ≤ k) (hkw : k < w) (hs : 0 < s) :
    0 ≤ (k * s).tdiv w ∧ (k * s).tdiv w < s := by
  have hw : 0 < w := Int.lt_of_le_of_lt hk hkw
  have hpart : 0 ≤ k * s := Int.mul_nonneg hk (Int.le_of_lt hs)
  rw [Int.tdiv_eq_ediv_of_nonneg hpart]
  refine ⟨Int.ediv_nonneg hpart (Int.le_of_lt hw), Int.ediv_lt_of_lt_mul hw ?_⟩
  rw [Int.mul_comm s w]
  exact Int.mul_lt_mul_of_pos_right hkw hs

/-- One span, of either direction, inside of another. -/
def SpanInside (x w x' w' : Int) : Prop :=
  (0 < w ∧ 0 < w' ∧ x ≤ x' ∧ x' + w' ≤ x + w) ∨ (w < 0 ∧ w' < 0 ∧ x' ≤ x ∧ x + w ≤ x' + w')

theorem SpanInside.refl (h : w ≠ 0) : SpanInside x w x w := by
  rw [SpanInside]
  omega

theorem SpanInside.trans {x' w' x'' w'' : Int} (h : SpanInside x w x' w')
    (h' : SpanInside x' w' x'' w'') : SpanInside x w x'' w'' := by
  rw [SpanInside] at h h' ⊢
  omega

/-- The parts that are taken off a span at its start. -/
theorem spanInside_drop (hk : 0 ≤ k) (hkw : k < w) (hs : s ≠ 0) :
    SpanInside x s (x + (k * s).tdiv w) (s - (k * s).tdiv w) := by
  rw [SpanInside]
  rcases Int.lt_or_gt_of_ne hs with hneg | hpos
  · have hpart := tdiv_part hk hkw (Int.neg_pos_of_neg hneg)
    rw [Int.mul_neg, Int.neg_tdiv] at hpart
    omega
  · have hpart := tdiv_part hk hkw hpos
    omega

/-- The part of a span that is kept at its start. -/
theorem spanInside_take (hk : 0 ≤ k) (hkw : k < w)
    (hs : s ≠ 0) (hleft : (s * k).tdiv w ≠ 0) : SpanInside x s x ((s * k).tdiv w) := by
  rw [Int.mul_comm] at hleft ⊢
  rw [SpanInside]
  rcases Int.lt_or_gt_of_ne hs with hneg | hpos
  · have hpart := tdiv_part hk hkw (Int.neg_pos_of_neg hneg)
    rw [Int.mul_neg, Int.neg_tdiv] at hpart
    omega
  · have hpart := tdiv_part hk hkw hpos
    omega

/-- The left or top part of an axis is cropped. -/
def cropStart (i : Int → Int) (lt : Int) (c d : Bool) (win crop : Axes) : Axes × Axes :=
  if win.xy c < lt then
    let a := (i (i (lt - win.xy c) * crop.wh d)).tdiv (win.wh c)
    (⟨update win.xy c lt, update win.wh c (i (win.wh c - i (lt - win.xy c)))⟩,
      ⟨update crop.xy d (i (crop.xy d + a)), update crop.wh d (i (crop.wh d - a))⟩)
  else (win, crop)

/-- The right or bottom part of an axis is cropped. -/
def cropEnd (i : Int → Int) (rb : Int) (c d : Bool) (win crop : Axes) : Axes × Axes :=
  if i (win.xy c + win.wh c) > rb then
    (⟨win.xy, update win.wh c (i (rb - win.xy c))⟩,
      ⟨crop.xy, update crop.wh d ((i (crop.wh d * i (rb - win.xy c))).tdiv (win.wh c))⟩)
  else (win, crop)

variable {lt rb : Int} {c d : Bool} {win crop win' crop' : Axes}

theorem cropAxis_eq (i : Int → Int) (lt rb : Int) (c d : Bool) (win crop : Axes) :
    cropAxis i lt rb c d win crop =
      if win.wh c ≤ 0 ∨ rb ≤ lt ∨ i (win.xy c + win.wh c) ≤ lt ∨ win.xy c ≥ rb ∨ crop.wh d = 0 then
        none
      else
        let p := cropStart i lt c d win crop
        let q := cropEnd i rb c d p.1 p.2
        if q.2.wh d = 0 ∨ q.1.wh c = 0 then none else some q := rfl

/-- What cropping along one axis keeps: how window and crop belong together where the axis is not
scaled, and all of the other axis. -/
structure Aligned (c d : Bool) (win crop win' crop' : Axes) : Prop where
  inside : SpanInside (crop.xy d) (crop.wh d) (crop'.xy d) (crop'.wh d)
  direct : crop.wh d = win.wh c →
    crop'.wh d = win'.wh c ∧ crop'.xy d - win'.xy c = crop.xy d - win.xy c
  reversed : crop.wh d = -win.wh c →
    crop'.wh d = -win'.wh c ∧ crop'.xy d + win'.xy c = crop.xy d + win.xy c
  win_xy : win'.xy (!c) = win.xy (!c)
  win_wh : win'.wh (!c) = win.wh (!c)
  crop_xy : crop'.xy (!d) = crop.xy (!d)
  crop_wh : crop'.wh (!d) = crop.wh (!d)

theorem Aligned.refl (h : crop.wh d ≠ 0) : Aligned c d win crop win crop :=
  ⟨.refl h, fun h => ⟨h, rfl⟩, fun h => ⟨h, rfl⟩, rfl, rfl, rfl, rfl⟩

theorem Aligned.trans {win'' crop'' : Axes} (h : Aligned c d win crop win' crop')
    (h' : Aligned c d win' crop' win'' crop'') : Aligned c d win crop win'' crop'' where
  inside := h.inside.trans h'.inside
  direct := fun hw => by
    obtain ⟨hw', hxy⟩ := h.direct hw
    obtain ⟨hw'', hxy'⟩ := h'.direct hw'
    exact ⟨hw'', hxy'.trans hxy⟩
  reversed := fun hw => by
    obtain ⟨hw', hxy⟩ := h.reversed hw
    obtain ⟨hw'', hxy'⟩ := h'.reversed hw'
    exact ⟨hw'', hxy'.trans hxy⟩
  win_xy := h'.win_xy.trans h.win_xy
  win_wh := h'.win_wh.trans h.win_wh
  crop_xy := h'.crop_xy.trans h.crop_xy
  crop_wh := h'.crop_wh.trans h.crop_wh

theorem update_not {f : Bool → Int} : update f c x (!c) = f (!c) :=
  update_of_ne (Bool.not_ne_self c) x f

theorem cropStart_aligned (hpos : 0 < win.wh c) (hvis : lt < win.xy c + win.wh c)
    (hcrop : crop.wh d ≠ 0) (h : cropStart id lt c d win crop = (win', crop')) :
    win'.xy c = max (win.xy c) lt ∧ win'.xy c + win'.wh c = win.xy c + win.wh c ∧
      Aligned c d win crop win' crop' := by
  simp only [cropStart, id] at h
  split at h
  · next hlt =>
    obtain ⟨rfl, rfl⟩ := Prod.mk.inj h
    have hk : 0 ≤ lt - win.xy c := by omega
    have hkw : lt - win.xy c < win.wh c := by omega
    refine ⟨?_, ?_, ⟨?_, ?_, ?_, update_not, update_not, update_not, update_not⟩⟩
    · simp only [update_self]
      omega
    · simp only [update_self]
      omega
    · simp only [update_self]
      exact spanInside_drop hk hkw hcrop
    · intro hw
      simp only [update_self]
      rw [hw, Int.mul_tdiv_cancel _ (by omega)]
      omega
    · intro hw
      simp only [update_self]
      rw [hw, Int.mul_neg, Int.neg_tdiv, Int.mul_tdiv_cancel _ (by omega)]
      omega
  · next hlt =>
    obtain ⟨rfl, rfl⟩ := Prod.mk.inj h
    exact ⟨by omega, rfl, .refl hcrop⟩

theorem cropEnd_aligned (hpos : 0 < win.wh c) (hvis : win.xy c < rb) (hcrop : crop.wh d ≠ 0)
    (hleft : crop'.wh d ≠ 0) (h : cropEnd id rb c d win crop = (win', crop')) :
    win'.xy c = win.xy c ∧ win'.xy c + win'.wh c = min (win.xy c + win.wh c) rb ∧
      Aligned c d win crop win' crop' := by
  simp only [cropEnd, id] at h
  split at h
  · next hgt =>
    obtain ⟨rfl, rfl⟩ := Prod.mk.inj h
    have hk : 0 ≤ rb - win.xy c := by omega
    have hkw : rb - win.xy c < win.wh c := by omega
    simp only [update_self] at hleft
    refine ⟨rfl, ?_, ⟨?_, ?_, ?_, rfl, update_not, rfl, update_not⟩⟩
    · simp only [update_self]
      omega
    · simp only [update_self]
      exact spanInside_take hk hkw hcrop hleft
    · intro hw
      simp only [update_self]
      rw [hw, Int.mul_tdiv_cancel_left _ (by omega)]
      exact ⟨rfl, trivial⟩
    · intro hw
      simp only [update_self]
      rw [hw, Int.neg_mul, Int.neg_tdiv, Int.mul_tdiv_cancel_left _ (by omega)]
      exact ⟨rfl, trivial⟩
  · next hgt =>
    obtain ⟨rfl, rfl⟩ := Prod.mk.inj h
    exact ⟨rfl, by omega, .refl hcrop⟩

/-- Along one axis the new window is the visible part of the old one. -/
theorem cropAxis_some (h : cropAxis id lt rb c d win crop = some (win', crop')) :
    (win'.xy c = max (win.xy c) lt ∧ win'.xy c + win'.wh c = min (win.xy c + win.wh c) rb) ∧
      0 < win'.wh c ∧ Aligned c d win crop win' crop' := by
  rw [cropAxis_eq] at h
  split at h
  · cases h
  · next hguard =>
    simp only [not_or, Int.not_le, ge_iff_le, id] at hguard
    obtain ⟨hpos, hvis, hlt, hrb, hcrop⟩ := hguard
    rcases hstart : cropStart id lt c d win crop with ⟨win₁, crop₁⟩
    rw [hstart] at h
    dsimp only at h
    split at h
    · cases h
    · next hleft =>
      obtain ⟨hxy, hend, halign⟩ := cropStart_aligned hpos hlt hcrop hstart
      have hcrop₁ : crop₁.wh d ≠ 0 := by
        have hinside := halign.inside
        rw [SpanInside] at hinside
        omega
      have hfinal := some.inj h
      rw [hfinal] at hleft
      obtain ⟨hxy', hend', halign'⟩ :=
        cropEnd_aligned (by omega) (by omega) hcrop₁ (fun h0 => hleft (.inl h0)) hfinal
      exact ⟨⟨by omega, by omega⟩, by omega, halign.trans halign'⟩

/-! ### Both axes -/

/-- The crop axis that goes with a window axis. -/
def Dss2OvlCfg.cropAxisOf (cfg : Dss2OvlCfg) (c : Bool) : Bool := xor c (cfg.rotation.testBit 0)

/-- What the two axes of a rectangle keep. -/
structure Cropped (cfg : Dss2OvlCfg) (vis : Rect) (win crop : Axes) : Prop where
  left : win.xy false = max cfg.win.x vis.left
  right : win.xy false + win.wh false = min (cfg.win.x + cfg.win.w) vis.right
  top : win.xy true = max cfg.win.y vis.top
  bottom : win.xy true + win.wh true = min (cfg.win.y + cfg.win.h) vis.bottom
  pos : ∀ c, 0 < win.wh c
  aligned : ∀ c, SpanInside
    ((cfg.displayCrop id).xy (cfg.cropAxisOf c)) ((cfg.displayCrop id).wh (cfg.cropAxisOf c))
    (crop.xy (cfg.cropAxisOf c)) (crop.wh (cfg.cropAxisOf c))
  direct : ∀ c, (cfg.displayCrop id).wh (cfg.cropAxisOf c) = (Axes.ofWindow cfg.win).wh c →
    crop.wh (cfg.cropAxisOf c) = win.wh c ∧ crop.xy (cfg.cropAxisOf c) - win.xy c =
      (cfg.displayCrop id).xy (cfg.cropAxisOf c) - (Axes.ofWindow cfg.win).xy c
  reversed : ∀ c, (cfg.displayCrop id).wh (cfg.cropAxisOf c) = -(Axes.ofWindow cfg.win).wh c →
    crop.wh (cfg.cropAxisOf c) = -win.wh c ∧ crop.xy (cfg.cropAxisOf c) + win.xy c =
      (cfg.displayCrop id).xy (cfg.cropAxisOf c) + (Axes.ofWindow cfg.win).xy c

theorem cropToRect_some {cfg' : Dss2OvlCfg}
    (h : cropToRect id cfg vis = some cfg') : ∃ win crop, Cropped cfg vis win crop ∧
      cfg' = { cfg with win := win.toWindow, crop := (cfg.bufferCrop id crop).toWindow } := by
  obtain ⟨⟨win₁, crop₁⟩, hfirst, h⟩ := bind_eq_some_iff.mp h
  obtain ⟨⟨win₂, crop₂⟩, hsecond, h⟩ := bind_eq_some_iff.mp h
  refine ⟨win₂, crop₂, ?_, (some.inj h).symm⟩
  obtain ⟨⟨hleft, hright⟩, hpos, halign⟩ := cropAxis_some hfirst
  obtain ⟨⟨htop, hbottom⟩, hpos', halign'⟩ := cropAxis_some hsecond
  change Aligned false (cfg.rotation.testBit 0) (.ofWindow cfg.win) (cfg.displayCrop id) win₁ crop₁
    at halign
  have hwx : win₂.xy false = win₁.xy false := halign'.win_xy
  have hww : win₂.wh false = win₁.wh false := halign'.win_wh
  have hcx := halign'.crop_xy
  have hcw := halign'.crop_wh
  rw [Bool.not_not] at hcx hcw
  have hwy : win₁.xy true = cfg.win.y := halign.win_xy
  have hwh : win₁.wh true = cfg.win.h := halign.win_wh
  rw [hwy] at htop
  rw [hwy, hwh] at hbottom
  have hfalse : cfg.cropAxisOf false = cfg.rotation.testBit 0 := Bool.false_xor _
  have htrue : cfg.cropAxisOf true = !cfg.rotation.testBit 0 := Bool.true_xor _
  refine ⟨hwx.trans hleft, ?_, htop, hbottom, ?_, ?_, ?_, ?_⟩
  · rw [hwx, hww]
    exact hright
  · rintro (_ | _)
    · rwa [hww]
    · exact hpos'
  · rintro (_ | _)
    · rw [hfalse, hcx, hcw]
      exact halign.inside
    · rw [htrue, ← halign.crop_xy, ← halign.crop_wh]
      exact halign'.inside
  · rintro (_ | _) hw
    · rw [hfalse] at hw ⊢
      rw [hcx, hcw, hwx, hww]
      exact halign.direct hw
    · rw [htrue] at hw ⊢
      rw [← halign.crop_wh] at hw
      rw [← halign.crop_xy]
      have hmain := halign'.direct (hw.trans hwh.symm)
      rwa [hwy] at hmain
  · rintro (_ | _) hw
    · rw [hfalse] at hw ⊢
      rw [hcx, hcw, hwx, hww]
      exact halign.reversed hw
    · rw [htrue] at hw ⊢
      rw [← halign.crop_wh] at hw
      rw [← halign.crop_xy]
      have hmain := halign'.reversed (hw.trans (congrArg Neg.neg hwh.symm))
      rwa [hwy] at hmain

/-! ### Pixels -/

def Window.box (w : Window) : Rect := ⟨w.x, w.y, w.x + w.w, w.y + w.h⟩

/-- Each pixel of the crop window takes one pixel of the screen. -/
def Dss2OvlCfg.Unscaled (cfg : Dss2OvlCfg) : Prop :=
  if cfg.rotation.testBit 0 then cfg.crop.h = cfg.win.w ∧ cfg.crop.w = cfg.win.h
  else cfg.crop.w = cfg.win.w ∧ cfg.crop.h = cfg.win.h

/-- The pixel of the buffer that an unscaled overlay shows at a place of the screen: the crop
window is turned clockwise by quarters, then mirrored from left to right. -/
def Dss2OvlCfg.sourcePixel (cfg : Dss2OvlCfg) (p : Int × Int) : Int × Int :=
  let x := p.1 - cfg.win.x
  let y := p.2 - cfg.win.y
  let x := if cfg.mirror then cfg.win.w - 1 - x else x
  match cfg.rotation.testBit 1, cfg.rotation.testBit 0 with
  | false, false => (cfg.crop.x + x, cfg.crop.y + y)
  | false, true => (cfg.crop.x + y, cfg.crop.y + cfg.crop.h - 1 - x)
  | true, false => (cfg.crop.x + cfg.crop.w - 1 - x, cfg.crop.y + cfg.crop.h - 1 - y)
  | true, true => (cfg.crop.x + cfg.crop.w - 1 - y, cfg.crop.y + x)

/-- Whether the crop window runs against an axis of the buffer. -/
def Dss2OvlCfg.runsBack (cfg : Dss2OvlCfg) (d : Bool) : Bool :=
  match cfg.rotation.testBit 1, cfg.rotation.testBit 0 with
  | false, false => cfg.mirror && !d
  | false, true => !cfg.mirror && d
  | true, false => d || !cfg.mirror
  | true, true => cfg.mirror && d || !d

/-- A crop window between buffer and display: the same axes, some of them from the other end. -/
def Axes.turned (back : Bool → Bool) (a : Axes) : Axes :=
  ⟨fun d => if back d then a.xy d + a.wh d else a.xy d,
    fun d => if back d then -a.wh d else a.wh d⟩

theorem Axes.ext {a b : Axes} (hxy : ∀ c, a.xy c = b.xy c) (hwh : ∀ c, a.wh c = b.wh c) :
    a = b := by
  obtain ⟨xy, wh⟩ := a
  obtain rfl : xy = b.xy := funext hxy
  obtain rfl : wh = b.wh := funext hwh
  rfl

theorem displayCrop_eq (cfg : Dss2OvlCfg) :
    cfg.displayCrop id = (Axes.ofWindow cfg.crop).turned cfg.runsBack := by
  cases hs : cfg.rotation.testBit 0 <;> cases hh : cfg.rotation.testBit 1 <;>
    cases hm : cfg.mirror <;> apply Axes.ext <;> rintro (_ | _) <;>
    simp [Dss2OvlCfg.displayCrop, Axes.turned, Dss2OvlCfg.runsBack, Axes.reverse, hs, hh, hm]

theorem bufferCrop_eq (cfg : Dss2OvlCfg) (crop : Axes) :
    cfg.bufferCrop id crop = crop.turned cfg.runsBack := by
  cases hs : cfg.rotation.testBit 0 <;> cases hh : cfg.rotation.testBit 1 <;>
    cases hm : cfg.mirror <;> apply Axes.ext <;> rintro (_ | _) <;>
    simp [Dss2OvlCfg.bufferCrop, Axes.turned, Dss2OvlCfg.runsBack, Axes.reverse, hs, hh, hm]

/-- The pixels of the window that is left are those of the old one that can be seen. -/
theorem Cropped.box (h : Cropped cfg vis win crop) :
    win.toWindow.box = cfg.win.box.inter vis := by
  rw [Window.box, Window.box, Core.Box.inter]
  exact Core.Box.mk.injEq .. ▸ ⟨h.left, h.top, h.right, h.bottom⟩

/-- The pixels of one axis of the crop window are pixels it had. -/
theorem Cropped.inside (h : Cropped cfg vis win crop) (c : Bool) {t : Int}
    (hle : (cfg.bufferCrop id crop).xy (cfg.cropAxisOf c) ≤ t)
    (hlt : t < (cfg.bufferCrop id crop).xy (cfg.cropAxisOf c) +
      (cfg.bufferCrop id crop).wh (cfg.cropAxisOf c)) :
    (Axes.ofWindow cfg.crop).xy (cfg.cropAxisOf c) ≤ t ∧
      t < (Axes.ofWindow cfg.crop).xy (cfg.cropAxisOf c) +
        (Axes.ofWindow cfg.crop).wh (cfg.cropAxisOf c) := by
  have hspan := h.aligned c
  rw [displayCrop_eq, SpanInside] at hspan
  rw [bufferCrop_eq] at hle hlt
  simp only [Axes.turned] at hspan hle hlt
  cases hback : cfg.runsBack (cfg.cropAxisOf c)
  · simp only [hback, Bool.false_eq_true, if_false] at hspan hle hlt
    omega
  · simp only [hback, if_true] at hspan hle hlt
    omega

theorem cropAxisOf_xor (cfg : Dss2OvlCfg) (d : Bool) :
    cfg.cropAxisOf (xor d (cfg.rotation.testBit 0)) = d := by
  rw [Dss2OvlCfg.cropAxisOf, Bool.xor_assoc, Bool.xor_self, Bool.xor_false]

/-- The crop window that is left has no pixels that the old one did not have. -/
theorem Cropped.within
    (h : Cropped cfg vis win crop) : (cfg.bufferCrop id crop).toWindow.box.Within cfg.crop.box := by
  rintro p ⟨⟨hx, hx'⟩, hy, hy'⟩
  have hfalse := fun t => h.inside (xor false (cfg.rotation.testBit 0)) (t := t)
  have htrue := fun t => h.inside (xor true (cfg.rotation.testBit 0)) (t := t)
  rw [cropAxisOf_xor] at hfalse htrue
  exact ⟨hfalse p.1 hx hx', htrue p.2 hy hy'⟩

theorem ofWindow_toWindow (a : Axes) : Axes.ofWindow a.toWindow = a := by
  apply Axes.ext <;> rintro (_ | _) <;> rfl

/-- The place of a source pixel on one axis of the buffer. -/
def Dss2OvlCfg.sourceOn (cfg : Dss2OvlCfg) (p : Int × Int) (d : Bool) : Int :=
  let c := xor d (cfg.rotation.testBit 0)
  let t := (if c then p.2 else p.1) - (Axes.ofWindow cfg.win).xy c
  let crop := Axes.ofWindow cfg.crop
  if cfg.runsBack d then crop.xy d + crop.wh d - 1 - t else crop.xy d + t

theorem unscaled_iff (cfg : Dss2OvlCfg) : cfg.Unscaled ↔
    ∀ d, (Axes.ofWindow cfg.crop).wh d =
      (Axes.ofWindow cfg.win).wh (xor d (cfg.rotation.testBit 0)) := by
  rw [Bool.forall_bool, Dss2OvlCfg.Unscaled]
  cases cfg.rotation.testBit 0
  · exact Iff.rfl
  · exact and_comm

theorem sourcePixel_eq (h : cfg.Unscaled) (p : Int × Int) :
    cfg.sourcePixel p = (cfg.sourceOn p false, cfg.sourceOn p true) := by
  rw [Dss2OvlCfg.Unscaled] at h
  cases hs : cfg.rotation.testBit 0 <;> cases hh : cfg.rotation.testBit 1 <;>
    cases hm : cfg.mirror <;>
    simp only [hs, if_true, Bool.false_eq_true, if_false] at h <;>
    simp [Dss2OvlCfg.sourcePixel, Dss2OvlCfg.sourceOn, Dss2OvlCfg.runsBack, Axes.ofWindow,
      hs, hh, hm] <;> omega

/-- The overlay after its windows were cropped. -/
def Dss2OvlCfg.withCropped (cfg : Dss2OvlCfg) (win crop : Axes) : Dss2OvlCfg :=
  { cfg with win := win.toWindow, crop := (cfg.bufferCrop id crop).toWindow }

theorem Cropped.unscaled
    (h : Cropped cfg vis win crop) (hone : cfg.Unscaled) : (cfg.withCropped win crop).Unscaled := by
  rw [unscaled_iff] at hone ⊢
  intro d
  change (Axes.ofWindow (cfg.bufferCrop id crop).toWindow).wh d = (Axes.ofWindow win.toWindow).wh _
  have hdirect := h.direct (xor d (cfg.rotation.testBit 0))
  have hreversed := h.reversed (xor d (cfg.rotation.testBit 0))
  rw [cropAxisOf_xor, displayCrop_eq] at hdirect hreversed
  rw [ofWindow_toWindow, ofWindow_toWindow, bufferCrop_eq]
  simp only [Axes.turned] at hdirect hreversed ⊢
  cases hback : cfg.runsBack d
  · simp only [hback, Bool.false_eq_true, if_false] at hdirect ⊢
    exact (hdirect (hone d)).1
  · simp only [hback, if_true] at hreversed ⊢
    exact Int.neg_eq_comm.mp (hreversed (congrArg Neg.neg (hone d))).1.symm

/-- What is left of an unscaled overlay stays in its place. -/
theorem Cropped.sourceOn
    (h : Cropped cfg vis win crop) (hone : cfg.Unscaled) (p : Int × Int) (d : Bool) :
    (cfg.withCropped win crop).sourceOn p d = cfg.sourceOn p d := by
  rw [unscaled_iff] at hone
  have hdirect := h.direct (xor d (cfg.rotation.testBit 0))
  have hreversed := h.reversed (xor d (cfg.rotation.testBit 0))
  rw [cropAxisOf_xor, displayCrop_eq] at hdirect hreversed
  have hback' : (cfg.withCropped win crop).runsBack = cfg.runsBack := rfl
  rw [Dss2OvlCfg.sourceOn, Dss2OvlCfg.sourceOn, hback']
  simp only [Axes.turned] at hdirect hreversed
  simp only [Dss2OvlCfg.withCropped, ofWindow_toWindow, bufferCrop_eq, Axes.turned]
  cases hback : cfg.runsBack d
  · simp only [hback, Bool.false_eq_true, if_false] at hdirect ⊢
    have hplace := (hdirect (hone d)).2
    omega
  · simp only [hback, if_true] at hreversed ⊢
    have hplace := (hreversed (congrArg Neg.neg (hone d))).2
    omega

/-! ### Numbers of 32 bits -/

/-- A value that an `int` has. -/
def IsInt (x : Int) : Prop := -2 ^ 31 ≤ x ∧ x < 2 ^ 31

instance (x : Int) : Decidable (IsInt x) := inferInstanceAs (Decidable (_ ∧ _))

theorem int32_eq (h : IsInt x) : int32 x = x := by
  obtain ⟨hlow, hhigh⟩ := h
  unfold int32
  omega

/-- The edges are `int`s, and so are the sizes, from either end. -/
def Axes.Edges (a : Axes) : Prop :=
  ∀ c, IsInt (a.xy c) ∧ IsInt (a.wh c) ∧ IsInt (-a.wh c) ∧ IsInt (a.xy c + a.wh c)

instance (a : Axes) : Decidable a.Edges := inferInstanceAs (Decidable (∀ _, _))

theorem Axes.Edges.reverse {a : Axes} (h : a.Edges) (c : Bool) :
    a.reverse int32 c = a.reverse id c ∧ (a.reverse id c).Edges := by
  obtain ⟨hxy, hwh, hneg, hend⟩ := h c
  have hplus : a.xy c - -a.wh c = a.xy c + a.wh c := by omega
  refine ⟨?_, fun e => ?_⟩
  · simp only [Axes.reverse, id, int32_eq hneg, hplus, int32_eq hend]
  · simp only [Axes.reverse, id, hplus]
    rcases eq_or_ne e c with rfl | hne
    · rw [update_self, update_self, Int.neg_neg, Int.add_neg_cancel_right]
      exact ⟨hend, hneg, hwh, hxy⟩
    · rw [update_of_ne hne, update_of_ne hne]
      exact h e

theorem Axes.Edges.reverseIf (b c : Bool) {a : Axes} (h : a.Edges) :
    (if b then a.reverse int32 c else a) = (if b then a.reverse id c else a) ∧
      (if b then a.reverse id c else a).Edges := by
  cases b
  · exact ⟨rfl, h⟩
  · exact h.reverse c

theorem displayCrop_int32 (h : (Axes.ofWindow cfg.crop).Edges) :
    cfg.displayCrop int32 = cfg.displayCrop id ∧ (cfg.displayCrop id).Edges := by
  obtain ⟨hswap, hedges⟩ := h.reverseIf (cfg.rotation.testBit 0) true
  obtain ⟨hhalf, hedges⟩ := hedges.reverseIf (cfg.rotation.testBit 1) (!cfg.rotation.testBit 0)
  obtain ⟨hflipped, hedges⟩ := hedges.reverseIf (xor (!cfg.mirror) (!cfg.rotation.testBit 1))
    (cfg.rotation.testBit 0)
  refine ⟨?_, hedges⟩
  simp only [Dss2OvlCfg.displayCrop]
  rw [hswap, hhalf, hflipped]

theorem bufferCrop_int32 (h : crop.Edges) : cfg.bufferCrop int32 crop = cfg.bufferCrop id crop := by
  obtain ⟨hhalf, hedges⟩ := h.reverseIf (cfg.rotation.testBit 1) (!cfg.rotation.testBit 0)
  obtain ⟨hflipped, hedges⟩ := hedges.reverseIf (xor (!cfg.mirror) (!cfg.rotation.testBit 1))
    (cfg.rotation.testBit 0)
  simp only [Dss2OvlCfg.bufferCrop]
  rw [hhalf, hflipped, (hedges.reverseIf (cfg.rotation.testBit 0) true).1]

/-- What is left of a crop span of `s` when the part of a window span from `x` on that lies before
`lt` is cropped. -/
def keptSpan (lt x w s : Int) : Int := if x < lt then s - ((lt - x) * s).tdiv w else s

/-- The products of `cropAxis` for a window that can be seen are `int`s. -/
structure FitsAxis (lt rb x w s : Int) : Prop where
  start : lt < x + w → x < lt → lt < rb → IsInt ((lt - x) * s)
  stop : x < rb → rb < x + w → lt < rb → IsInt (keptSpan lt x w s * (rb - max x lt))

section

variable {lt rb : Int} {c d : Bool} {win crop win' crop' : Axes}

theorem cropAxis_int32 (hwin : win.Edges) (hcrop : crop.Edges)
    (h : FitsAxis lt rb (win.xy c) (win.wh c) (crop.wh d)) :
    cropAxis int32 lt rb c d win crop = cropAxis id lt rb c d win crop := by
  obtain ⟨hx, hw, -, hend⟩ := hwin c
  obtain ⟨hxs, hs, -, hsend⟩ := hcrop d
  rw [cropAxis_eq, cropAxis_eq, int32_eq hend]
  refine ite_congr rfl (fun _ => rfl) fun hguard => ?_
  simp only [not_or, Int.not_le, ge_iff_le, id] at hguard
  obtain ⟨hpos, hvis, hshown, hbefore, hne⟩ := hguard
  unfold IsInt at hx hw hend hxs hs hsend
  have hstart : cropStart int32 lt c d win crop = cropStart id lt c d win crop := by
    simp only [cropStart, id]
    split
    · next hcut =>
      have hinside := @spanInside_drop (lt - win.xy c) (win.wh c) (crop.wh d) (crop.xy d)
        (by omega) (by omega) hne
      have hoff := h.start hshown hcut hvis
      have hpart : int32 (lt - win.xy c) = lt - win.xy c := int32_eq ⟨by omega, by omega⟩
      have hrest : int32 (win.wh c - (lt - win.xy c)) = win.wh c - (lt - win.xy c) :=
        int32_eq ⟨by omega, by omega⟩
      rw [SpanInside] at hinside
      rw [hpart, hrest, int32_eq hoff]
      generalize ((lt - win.xy c) * crop.wh d).tdiv (win.wh c) = a at hinside
      have hxa : int32 (crop.xy d + a) = crop.xy d + a := int32_eq ⟨by omega, by omega⟩
      have hsa : int32 (crop.wh d - a) = crop.wh d - a := int32_eq ⟨by omega, by omega⟩
      rw [hxa, hsa]
    · rfl
  rw [hstart]
  rcases hcut : cropStart id lt c d win crop with ⟨win₁, crop₁⟩
  obtain ⟨hx₁, hend₁, -⟩ := cropStart_aligned hpos hshown hne hcut
  have hkept : crop₁.wh d = keptSpan lt (win.xy c) (win.wh c) (crop.wh d) := by
    rw [← congrArg (fun q => q.2.wh d) hcut, keptSpan]
    simp only [cropStart, id]
    split
    · exact update_self ..
    · rfl
  have hsame : cropEnd int32 rb c d win₁ crop₁ = cropEnd id rb c d win₁ crop₁ := by
    simp only [cropEnd, id]
    rw [hend₁, int32_eq hend]
    refine ite_congr rfl (fun hgt => ?_) fun _ => rfl
    have hstop := h.stop hbefore hgt hvis
    have hleft : int32 (rb - win₁.xy c) = rb - win₁.xy c := int32_eq ⟨by omega, by omega⟩
    rw [← hx₁, ← hkept] at hstop
    rw [hleft, int32_eq hstop]
  dsimp only
  rw [hsame]

/-- What is left of an axis has its edges between the old ones. -/
theorem SpanInside.edges {x' w' : Int} (h : SpanInside x w x' w') (hx : IsInt x) (hw : IsInt w)
    (hneg : IsInt (-w)) (hend : IsInt (x + w)) :
    IsInt x' ∧ IsInt w' ∧ IsInt (-w') ∧ IsInt (x' + w') := by
  unfold IsInt SpanInside at *
  omega

/-- Cropping along one axis leaves edges that are `int`s. -/
theorem cropAxis_edges (hwin : win.Edges) (hcrop : crop.Edges)
    (h : cropAxis id lt rb c d win crop = some (win', crop')) : win'.Edges ∧ crop'.Edges := by
  obtain ⟨⟨hxy, hend⟩, hpos, halign⟩ := cropAxis_some h
  refine ⟨fun e => ?_, fun e => ?_⟩
  · rcases Bool.eq_or_eq_not e c with rfl | rfl
    · obtain ⟨hx, hw, -, hsum⟩ := hwin e
      unfold IsInt at *
      omega
    · rw [halign.win_xy, halign.win_wh]
      exact hwin _
  · rcases Bool.eq_or_eq_not e d with rfl | rfl
    · obtain ⟨hx, hw, hneg, hsum⟩ := hcrop e
      exact halign.inside.edges hx hw hneg hsum
    · rw [halign.crop_xy, halign.crop_wh]
      exact hcrop _

end

/-- The numbers of the configuration, the edges and the products that cropping makes of them are
`int`s. -/
structure CropFits (cfg : Dss2OvlCfg) (vis : Rect) : Prop where
  win : (Axes.ofWindow cfg.win).Edges
  crop : (Axes.ofWindow cfg.crop).Edges
  horizontal : FitsAxis vis.left vis.right cfg.win.x cfg.win.w
    (((Axes.ofWindow cfg.crop).turned cfg.runsBack).wh (cfg.rotation.testBit 0))
  vertical : FitsAxis vis.top vis.bottom cfg.win.y cfg.win.h
    (((Axes.ofWindow cfg.crop).turned cfg.runsBack).wh (!cfg.rotation.testBit 0))

/-- Where everything fits the function does what it would do with unbounded numbers. -/
theorem CropFits.crop_to_rect_eq (h : CropFits cfg vis) :
    crop_to_rect cfg vis = cropToRect id cfg vis := by
  obtain ⟨hdisplay, hedges⟩ := displayCrop_int32 h.crop
  have hx := h.horizontal
  have hy := h.vertical
  rw [← displayCrop_eq] at hx hy
  simp only [crop_to_rect, cropToRect, bind_eq_bind]
  have hfirst : cropAxis int32 vis.left vis.right false (cfg.rotation.testBit 0)
      (.ofWindow cfg.win) (cfg.displayCrop id) = cropAxis id vis.left vis.right false _ _ _ :=
    cropAxis_int32 h.win hedges hx
  rw [hdisplay, hfirst]
  refine Option.bind_congr fun ⟨win₁, crop₁⟩ hfirst => ?_
  obtain ⟨hwin₁, hcrop₁⟩ := cropAxis_edges h.win hedges hfirst
  obtain ⟨-, -, halign⟩ := cropAxis_some hfirst
  have hfits : FitsAxis vis.top vis.bottom (win₁.xy true) (win₁.wh true)
      (crop₁.wh (!cfg.rotation.testBit 0)) := by
    have hxy : win₁.xy true = cfg.win.y := halign.win_xy
    have hwh : win₁.wh true = cfg.win.h := halign.win_wh
    rwa [hxy, hwh, halign.crop_wh]
  rw [cropAxis_int32 hwin₁ hcrop₁ hfits]
  refine Option.bind_congr fun ⟨win₂, crop₂⟩ hsecond => ?_
  rw [bufferCrop_int32 (cropAxis_edges hwin₁ hcrop₁ hsecond).2]

/-! ### The function -/

/-- The overlay after the call: it is written to where the call succeeds. -/
def Dss2OvlCfg.afterCrop (cfg : Dss2OvlCfg) (vis : Rect) : Dss2OvlCfg :=
  (crop_to_rect cfg vis).getD cfg

/-- Cropping takes the visible part of the window and a part of the crop window; it moves no pixel
of an overlay that is not scaled. Where it fails nothing has changed. -/
def CropsRight (cfg : Dss2OvlCfg) (vis : Rect) : Prop :=
  (∀ cfg', crop_to_rect cfg vis = some cfg' →
    cfg'.win.box = cfg.win.box.inter vis ∧ cfg'.crop.box.Within cfg.crop.box ∧
      (cfg.Unscaled → cfg'.Unscaled ∧
        ∀ p ∈ cfg'.win.box, cfg'.sourcePixel p = cfg.sourcePixel p)) ∧
    (crop_to_rect cfg vis = none → cfg.afterCrop vis = cfg)

def wordOverlay (rotation : Nat) (mirror : Bool) (win crop : Window) : Dss2OvlCfg :=
  ⟨crop.w, crop.h, crop.w * 4, .ARGB32, true, 255, rotation, mirror, win, crop, 0, 0, true, 0⟩

end OmapHal.Hwc
