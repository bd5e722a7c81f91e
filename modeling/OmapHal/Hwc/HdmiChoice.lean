import Mathlib.Tactic.Linarith
import Mathlib.Tactic.Positivity
import Mathlib.Tactic.NormNum
import OmapHal.Core.Bits
import OmapHal.Hwc.HdmiMode

/-!
# The chosen HDMI mode is the best one

The packed score of a mode is the numeral of its criteria, as long as the sizes are in the range
of the hardware. The loop keeps the first mode of the highest score.
-/

namespace OmapHal.Hwc

open List Nat

open OmapHal.Core (numeral numeralFrom InRadix)

variable {m : VideoMode} {done : List (VideoMode × Nat)} {choice : ModeChoice}
  {mode : VideoMode × Nat}

/-! ### Rounding -/

namespace Single

variable {fl : Single}

/-- Rounding to single precision, short of overflow. -/
structure Rounds (fl : Single) : Prop where
  mono : Monotone fl.round
  idem : ∀ q, fl.round (fl.round q) = fl.round q
  exact : ∀ n : Nat, n ≤ 2 ^ 24 → fl.round n = n
  close : ∀ q, 1 ≤ q → fl.round q ≤ q * (1 + 1 / 2 ^ 23)

namespace Rounds

variable (h : fl.Rounds)

include h

theorem zero : fl.round 0 = 0 := by
  simpa using h.exact 0 (zero_le _)

theorem one : fl.round 1 = 1 := by
  simpa using h.exact 1 (by norm_num)

theorem nonneg {q : ℚ} (hq : 0 ≤ q) : 0 ≤ fl.round q :=
  h.zero ▸ h.mono hq

theorem tolerance_bounds : 0 ≤ fl.tolerance ∧ fl.tolerance ≤ 1 := by
  have hlow : 0 ≤ fl.round (2 / 100) := h.nonneg (by norm_num)
  have hhigh : fl.round (2 / 100) ≤ 1 := h.one ▸ h.mono (by norm_num)
  exact ⟨h.nonneg (by linarith), h.one ▸ h.mono (by linarith)⟩

/-- A scaled factor does not pass the factor that it scales. -/
theorem round_mul_tolerance_le {q : ℚ} (hq : 0 ≤ q) (hround : fl.round q = q) :
    fl.round (q * fl.tolerance) ≤ q :=
  hround ▸ h.mono (by simpa [hround] using mul_le_mul_of_nonneg_left h.tolerance_bounds.2 hq)

/-- A size scaled by a ratio of at most one does not grow. -/
theorem resize_le {factor other : ℚ} {size : Nat} (hle : factor ≤ other) (hother : 0 ≤ other)
    (hcases : factor ≤ 0 ∨ 1 ≤ other) (hsize : size ≤ 8192) :
    fl.resize factor size other ≤ size := by
  have hexact : fl.round size = size := h.exact size (by omega)
  have hquotient : fl.round (fl.round (factor * size) / other) + 1 / 2 < size + 1 := by
    rcases hcases with hneg | hone
    · have hproduct : fl.round (factor * size) ≤ 0 :=
        h.zero ▸ h.mono (mul_nonpos_of_nonpos_of_nonneg hneg (cast_nonneg size))
      have hratio : fl.round (fl.round (factor * size) / other) ≤ 0 :=
        h.zero ▸ h.mono (div_nonpos_of_nonpos_of_nonneg hproduct hother)
      have hnonneg : (0 : ℚ) ≤ size := cast_nonneg size
      linarith
    · rcases Nat.eq_zero_or_pos size with rfl | hpos
      · simp [h.zero]
        norm_num
      · have hsize1 : (1 : ℚ) ≤ size := by exact_mod_cast hpos
        have hsize2 : (size : ℚ) ≤ 8192 := by exact_mod_cast hsize
        have hproduct : fl.round (factor * size) ≤ other * size * (1 + 1 / 2 ^ 23) :=
          (h.mono (mul_le_mul_of_nonneg_right hle (by linarith))).trans
            (h.close _ (one_le_mul_of_one_le_of_one_le hone hsize1))
        have hratio : fl.round (factor * size) / other ≤ size * (1 + 1 / 2 ^ 23) := by
          rw [div_le_iff₀ (by linarith)]
          linarith
        have hround := (h.mono hratio).trans (h.close _ (by linarith))
        have hslack : (size : ℚ) * (1 + 1 / 2 ^ 23) * (1 + 1 / 2 ^ 23) + 1 / 2 < size + 1 := by
          norm_num
          linarith
        linarith
  rw [resize, hexact]
  have hfloor : ⌊fl.round (fl.round (factor * size) / other) + 1 / 2⌋ < size + 1 :=
    Int.floor_lt.mpr (by exact_mod_cast hquotient)
  omega

end Rounds

end Single

theorem get_max_dimensions_le {fl : Single} (h : fl.Rounds) (orig_xres orig_yres : Nat) (xpy : ℚ)
    {scr_xres scr_yres : Nat} (hx : scr_xres ≤ 8192) (hy : scr_yres ≤ 8192)
    (scr_width scr_height : Nat) :
    (get_max_dimensions fl orig_xres orig_yres xpy scr_xres scr_yres scr_width scr_height).1 ≤
        scr_xres ∧
      (get_max_dimensions fl orig_xres orig_yres xpy scr_xres scr_yres scr_width scr_height).2 ≤
        scr_yres := by
  unfold get_max_dimensions
  generalize (if scr_width = 0 ∨ scr_height = 0 then (scr_xres, scr_yres)
    else (scr_width, scr_height)) = size
  obtain ⟨w, t⟩ := size
  dsimp only
  generalize hxf : fl.round (fl.round (fl.round orig_xres * xpy) * fl.round t) = x_factor
  generalize hyf : fl.round (u32 (orig_yres * w)) = y_factor
  have hxround : fl.round x_factor = x_factor := by rw [← hxf, h.idem]
  have hyround : fl.round y_factor = y_factor := by rw [← hyf, h.idem]
  have hynonneg : 0 ≤ y_factor := hyf ▸ h.nonneg (cast_nonneg _)
  have hyone : y_factor = 0 ∨ 1 ≤ y_factor := by
    rcases Nat.eq_zero_or_pos (u32 (orig_yres * w)) with hzero | hpos
    · left
      rw [← hyf, hzero, cast_zero, h.zero]
    · right
      rw [← hyf, ← h.one]
      exact h.mono (by exact_mod_cast hpos)
  split_ifs with hwide htall
  · have hle : x_factor ≤ y_factor :=
      hwide.le.trans (h.round_mul_tolerance_le hynonneg hyround)
    exact ⟨h.resize_le hle hynonneg (hyone.imp_left fun hzero => hle.trans hzero.le) hx, le_refl _⟩
  · have hxnonneg : 0 ≤ x_factor := by
      by_contra hneg
      have hlow : fl.round (x_factor * fl.tolerance) ≤ 0 := h.zero ▸ h.mono
        (mul_nonpos_of_nonpos_of_nonneg (not_le.mp hneg).le h.tolerance_bounds.1)
      linarith
    have hlt : y_factor < x_factor :=
      lt_of_lt_of_le htall (h.round_mul_tolerance_le hxnonneg hxround)
    exact ⟨le_refl _, h.resize_le hlt.le hxnonneg
      (hyone.imp (fun hzero => hzero.le) fun hone => hone.trans hlt.le) hy⟩
  · exact ⟨le_refl _, le_refl _⟩

/-! ### The packed score -/

/-- The criteria of a mode, the first one the weightiest: a CEA mode, no downscaling within the
tolerance, the mode used for mirroring, little scaling, little leftover area, the frame rate
reached, and a close frame rate. -/
def criteria (cea same xres yres refresh ext_xres ext_yres mode_xres mode_yres mode_refresh : Nat) :
    List Nat :=
  let area := xres * yres
  let ext_area := ext_xres * ext_yres
  let mode_area := mode_xres * mode_yres
  let mode_refresh := mode_refresh + flag (mode_refresh % 6 = 5)
  [cea,
    flag (ext_xres ≥ xres * 99 / 100 ∧ ext_yres ≥ yres * 99 / 100),
    same,
    if ext_area > area then 16 * area / ext_area else 16 * ext_area / area,
    (16 * ext_area + mode_area / 2) / mode_area,
    flag (mode_refresh ≥ refresh),
    if mode_refresh > refresh then 240 * refresh / mode_refresh
    else 240 * mode_refresh / refresh]

/-- The widths of the fields of the score. -/
def scoreRadixes : List Nat := [2, 2, 2, 2 ^ 5, 2 ^ 5, 2 ^ 1, 2 ^ 8]

theorem flag_lt (p : Prop) [Decidable p] : flag p < 2 := by
  unfold flag
  split <;> omega

theorem u32_natCast {n : Nat} (hn : n < 2 ^ 32) : u32 (n : Int) = n := by
  unfold u32
  omega

/-- A field appended to a score that has the room. -/
theorem append_field (score : Nat) {field k : Nat} (hfield : field < 2 ^ k)
    (hscore : score * 2 ^ k < 2 ^ 32) :
    u32 ((score <<< k : Nat)) ||| field = score * 2 ^ k + field := by
  rw [Core.place_eq_shift_or hfield, u32_natCast (by rwa [shiftLeft_eq])]

theorem insert_upscale {cea upscale same : Nat} (hcea : cea < 2) (hupscale : upscale < 2)
    (hsame : same < 2) :
    u32 ((((cea * 2 + same) &&& 0xFFFFFFFE ||| upscale) <<< 1 : Nat)) |||
      (cea * 2 + same) &&& 1 = (cea * 2 + upscale) * 2 + same := by
  have hall : ∀ c < 2, ∀ u < 2, ∀ s < 2,
      u32 ((((c * 2 + s) &&& 0xFFFFFFFE ||| u) <<< 1 : Nat)) ||| (c * 2 + s) &&& 1 =
        (c * 2 + u) * 2 + s := by decide
  exact hall cea hcea upscale hupscale same hsame

section Score

variable {cea same xres yres refresh ext_xres ext_yres mode_xres mode_yres mode_refresh : Nat}

theorem mul_lt_of_le {w t : Nat} (hw : w ≤ 8192) (ht : t ≤ 8192) : w * t ≤ 2 ^ 26 :=
  (Nat.mul_le_mul hw ht).trans (by norm_num)

/-- The sizes are in the range of the hardware, and the external one is inside the mode. -/
structure InRange (xres yres ext_xres ext_yres mode_xres mode_yres : Nat) : Prop where
  source : 0 < xres ∧ xres ≤ 8192 ∧ 0 < yres ∧ yres ≤ 8192
  mode : 0 < mode_xres ∧ mode_xres ≤ 8192 ∧ 0 < mode_yres ∧ mode_yres ≤ 8192
  ext : ext_xres ≤ mode_xres ∧ ext_yres ≤ mode_yres

theorem criteria_inRadix (h : InRange xres yres ext_xres ext_yres mode_xres mode_yres)
    (hcea : cea < 2) (hsame : same < 2) (hrefresh : 0 < refresh) (mode_refresh : Nat) :
    InRadix scoreRadixes (criteria cea same xres yres refresh ext_xres ext_yres mode_xres mode_yres
      mode_refresh) := by
  have harea : 0 < xres * yres := mul_pos h.source.1 h.source.2.2.1
  have hmode : 0 < mode_xres * mode_yres := mul_pos h.mode.1 h.mode.2.2.1
  have hext : ext_xres * ext_yres ≤ mode_xres * mode_yres := Nat.mul_le_mul h.ext.1 h.ext.2
  refine .cons hcea (.cons (flag_lt _) (.cons hsame (.cons ?_ (.cons ?_ (.cons (flag_lt _)
    (.cons ?_ .nil))))))
  · split_ifs with hlarger
    · exact Nat.div_lt_of_lt_mul (by omega)
    · exact Nat.div_lt_of_lt_mul (by omega)
  · exact Nat.div_lt_of_lt_mul (by omega)
  · split_ifs with hfaster
    · exact Nat.div_lt_of_lt_mul (by omega)
    · exact Nat.div_lt_of_lt_mul (by omega)

theorem bumped_lt (hmode_refresh : mode_refresh < 2 ^ 32) :
    mode_refresh + flag (mode_refresh % 6 = 5) < 2 ^ 32 := by
  unfold flag
  split <;> omega

/-- The score is the numeral of the criteria: no field reaches into another one. -/
theorem add_scaling_score_eq (h : InRange xres yres ext_xres ext_yres mode_xres mode_yres)
    (hcea : cea < 2) (hsame : same < 2) (hrefresh : 0 < refresh ∧ refresh < 2 ^ 16)
    (hmode_refresh : mode_refresh < 2 ^ 32) :
    add_scaling_score (cea * 2 + same) xres yres refresh ext_xres ext_yres mode_xres mode_yres
        mode_refresh =
      numeral (scoreRadixes.zip (criteria cea same xres yres refresh ext_xres ext_yres mode_xres
        mode_yres mode_refresh)) := by
  have harea_le := mul_lt_of_le h.source.2.1 h.source.2.2.2
  have hmode_le := mul_lt_of_le h.mode.2.1 h.mode.2.2.2
  have hext_le := (Nat.mul_le_mul h.ext.1 h.ext.2).trans hmode_le
  have harea : u32 (xres * yres) = xres * yres := by
    exact_mod_cast u32_natCast (n := xres * yres) (by omega)
  have hext : u32 (ext_xres * ext_yres) = ext_xres * ext_yres := by
    exact_mod_cast u32_natCast (n := ext_xres * ext_yres) (by omega)
  have hmode : u32 (mode_xres * mode_yres) = mode_xres * mode_yres := by
    exact_mod_cast u32_natCast (n := mode_xres * mode_yres) (by omega)
  have hx : u32 (xres * 99) = xres * 99 := by
    have hle := h.source.2.1
    exact_mod_cast u32_natCast (n := xres * 99) (by omega)
  have hy : u32 (yres * 99) = yres * 99 := by
    have hle := h.source.2.2.2
    exact_mod_cast u32_natCast (n := yres * 99) (by omega)
  have hbumped := u32_natCast (bumped_lt hmode_refresh)
  rw [cast_add] at hbumped
  obtain ⟨-, hupscale, -, hscaling, hleftover, hrate, hclosest, -⟩ := by
    simpa only [criteria, scoreRadixes, forall₂_cons] using
      criteria_inRadix h hcea hsame hrefresh.1 mode_refresh
  simp only [add_scaling_score, harea, hext, hmode, hx, hy, hbumped, scoreRadixes, criteria,
    zip_cons_cons, zip_nil_left, numeral, numeralFrom, zero_mul, zero_add]
  generalize xres * yres = area at *
  generalize ext_xres * ext_yres = ext_area at *
  generalize mode_xres * mode_yres = mode_area at *
  generalize mode_refresh + flag (mode_refresh % 6 = 5) = refreshed at *
  have hscaling_eq : (if ext_area > area then u32 (16 * area) / ext_area
      else u32 (16 * ext_area) / area) =
        if ext_area > area then 16 * area / ext_area else 16 * ext_area / area := by
    have harea16 : u32 (16 * area) = 16 * area := by
      exact_mod_cast u32_natCast (n := 16 * area) (by omega)
    have hext16 : u32 (16 * ext_area) = 16 * ext_area := by
      exact_mod_cast u32_natCast (n := 16 * ext_area) (by omega)
    rw [harea16, hext16]
  have hleftover_eq : u32 (16 * ext_area + mode_area / 2) = 16 * ext_area + mode_area / 2 := by
    exact_mod_cast u32_natCast (n := 16 * ext_area + mode_area / 2) (by omega)
  have hclosest_eq : (if refreshed > refresh then u32 (240 * refresh) / refreshed
      else u32 (240 * refreshed) / refresh) =
        if refreshed > refresh then 240 * refresh / refreshed else 240 * refreshed / refresh := by
    split_ifs with hfaster
    · have hrefresh240 : u32 (240 * refresh) = 240 * refresh := by
        exact_mod_cast u32_natCast (n := 240 * refresh) (by omega)
      rw [hrefresh240]
    · have hrefreshed240 : u32 (240 * refreshed) = 240 * refreshed := by
        exact_mod_cast u32_natCast (n := 240 * refreshed) (by omega)
      rw [hrefreshed240]
  rw [hscaling_eq, hleftover_eq, hclosest_eq]
  generalize (if ext_area > area then _ else _) = scaling at *
  generalize (if refreshed > refresh then _ else _) = closest at *
  generalize (16 * ext_area + mode_area / 2) / mode_area = leftover at *
  generalize flag (refreshed ≥ refresh) = rate at *
  generalize flag (ext_xres ≥ xres * 99 / 100 ∧ ext_yres ≥ yres * 99 / 100) = upscale at *
  rw [insert_upscale hcea hupscale hsame, append_field _ hscaling (by omega),
    append_field _ hleftover (by omega), append_field _ hrate (by omega),
    append_field _ hclosest (by omega)]

/-- The frame rate alone gives every mode a score. -/
theorem numeral_criteria_pos (hrefresh : 0 < refresh ∧ refresh < 240) (hmode : 0 < mode_refresh) :
    0 < numeral (scoreRadixes.zip (criteria cea same xres yres refresh ext_xres ext_yres mode_xres
      mode_yres mode_refresh)) := by
  simp only [scoreRadixes, criteria, zip_cons_cons, zip_nil_left, numeral, numeralFrom]
  have hpos : 0 < mode_refresh + flag (mode_refresh % 6 = 5) := Nat.add_pos_left hmode _
  generalize mode_refresh + flag (mode_refresh % 6 = 5) = refreshed at *
  rcases lt_or_ge refresh refreshed with hfaster | hslower
  · have hrate : flag (refreshed ≥ refresh) = 1 := if_pos hfaster.le
    omega
  · have hclosest : 0 < 240 * refreshed / refresh :=
      div_pos (by omega) hrefresh.1
    rw [if_neg (show ¬ refreshed > refresh by omega)]
    omega

end Score

/-! ### The loop over the modes -/

section Modes

variable {fl : Single} {limits : PlatformInfo} {ext : OmapHwcExt} {d : QueryDisplay}
  {xres yres : Nat} {xpy : ℚ}

/-- The criteria of a mode of the display at an index. -/
def VideoMode.criteria (m : VideoMode) (fl : Single) (ext : OmapHwcExt) (d : QueryDisplay)
    (xres yres : Nat) (xpy : ℚ) (i : Nat) : List Nat :=
  Hwc.criteria (flag (m.ratio_4_3 = true ∨ m.ratio_16_9 = true)) (flag (sameMode ext i)) xres yres
    60 (m.ext_fb fl d xres yres xpy).1 (m.ext_fb fl d xres yres xpy).2 m.xres m.mode_yres
    (if m.refresh = 0 then 1 else m.refresh)

/-- Source and modes in the range of the hardware; a mode without an area is skipped. -/
structure SizesFit (d : QueryDisplay) (xres yres : Nat) : Prop where
  source : 0 < xres ∧ xres ≤ 8192 ∧ 0 < yres ∧ yres ≤ 8192
  modes : ∀ m ∈ d.modedb, m.xres ≤ 8192 ∧ m.yres ≤ 8192 ∧ m.refresh < 2 ^ 32

variable (hfl : fl.Rounds) (hsizes : SizesFit d xres yres)

include hfl hsizes

theorem VideoMode.inRange (hm : m ∈ d.modedb) (heligible : m.eligible fl limits d xres yres xpy) :
    InRange xres yres (m.ext_fb fl d xres yres xpy).1 (m.ext_fb fl d xres yres xpy).2 m.xres
      m.mode_yres := by
  obtain ⟨hx, hy, -⟩ := hsizes.modes m hm
  have hmode_yres : m.mode_yres ≤ 8192 := by
    unfold mode_yres
    split <;> omega
  simp only [eligible, Bool.and_eq_true, decide_eq_true_eq] at heligible
  obtain ⟨⟨⟨hxne, hyne, -⟩, -⟩, -⟩ := heligible
  exact ⟨hsizes.source, ⟨by omega, hx, by omega, hmode_yres⟩,
    get_max_dimensions_le hfl xres yres xpy hx hmode_yres _ _⟩

theorem VideoMode.criteria_inRadix (hm : m ∈ d.modedb)
    (heligible : m.eligible fl limits d xres yres xpy) (i : Nat) :
    InRadix scoreRadixes (m.criteria fl ext d xres yres xpy i) :=
  Hwc.criteria_inRadix (m.inRange hfl hsizes hm heligible) (flag_lt _) (flag_lt _) (by omega) _

theorem VideoMode.score_eq (hm : m ∈ d.modedb)
    (heligible : m.eligible fl limits d xres yres xpy) (i : Nat) :
    m.score fl ext d xres yres xpy i =
      numeral (scoreRadixes.zip (m.criteria fl ext d xres yres xpy i)) := by
  have hcea := flag_lt (m.ratio_4_3 ∨ m.ratio_16_9)
  have hstart := append_field (flag (m.ratio_4_3 ∨ m.ratio_16_9)) (k := 1)
    (flag_lt (sameMode ext i)) (by omega)
  have hrefresh : (if m.refresh = 0 then 1 else m.refresh) < 2 ^ 32 := by
    have hlt := (hsizes.modes m hm).2.2
    split <;> omega
  unfold score
  dsimp only
  rw [hstart, pow_one]
  exact add_scaling_score_eq (m.inRange hfl hsizes hm heligible) hcea (flag_lt _) (by omega)
    hrefresh

/-- The score orders the modes as their criteria. -/
theorem VideoMode.score_lt_iff {m' : VideoMode} (hm : m ∈ d.modedb) (hm' : m' ∈ d.modedb)
    (heligible : m.eligible fl limits d xres yres xpy)
    (heligible' : m'.eligible fl limits d xres yres xpy) (i i' : Nat) :
    m.score fl ext d xres yres xpy i < m'.score fl ext d xres yres xpy i' ↔
      m.criteria fl ext d xres yres xpy i < m'.criteria fl ext d xres yres xpy i' := by
  rw [m.score_eq hfl hsizes hm heligible, m'.score_eq hfl hsizes hm' heligible',
    Core.numeral_lt_iff (m.criteria_inRadix hfl hsizes hm heligible i)
      (m'.criteria_inRadix hfl hsizes hm' heligible' i')]

theorem VideoMode.score_pos (ext : OmapHwcExt) (hm : m ∈ d.modedb)
    (heligible : m.eligible fl limits d xres yres xpy) (i : Nat) :
    0 < m.score fl ext d xres yres xpy i := by
  rw [m.score_eq hfl hsizes hm heligible]
  exact numeral_criteria_pos (by omega) (by split <;> omega)

/-- What the loop has found among the modes behind it: none that can be used, or the first one of
the highest score. -/
def Leading (fl : Single) (limits : PlatformInfo) (ext : OmapHwcExt) (d : QueryDisplay)
    (xres yres : Nat) (xpy : ℚ) (done : List (VideoMode × Nat)) (choice : ModeChoice) : Prop :=
  (choice.best = none ∧ choice.best_score = 0 ∧
      ∀ mode ∈ done, mode.1.eligible fl limits d xres yres xpy = false) ∨
    ∃ mode ∈ done, choice.best = some mode.2 ∧
      mode.1.eligible fl limits d xres yres xpy = true ∧
        choice.best_score = mode.1.score fl ext d xres yres xpy mode.2 ∧
          ∀ other ∈ done, other.1.eligible fl limits d xres yres xpy = true →
            other.1.score fl ext d xres yres xpy other.2 ≤ choice.best_score

theorem chooseMode_leading (hmode : mode.1 ∈ d.modedb)
    (h : Leading fl limits ext d xres yres xpy done choice) :
    Leading fl limits ext d xres yres xpy (done ++ [mode])
      (chooseMode fl limits ext d xres yres xpy choice mode) := by
  cases heligible : mode.1.eligible fl limits d xres yres xpy with
  | false =>
    simp only [chooseMode, heligible, if_true]
    rcases h with ⟨hnone, hzero, hall⟩ | ⟨best, hbest, hsome, hok, hscore, hall⟩
    · refine .inl ⟨hnone, hzero, fun other hother => ?_⟩
      rcases mem_append.mp hother with hother | hother
      · exact hall other hother
      · rw [mem_singleton.mp hother, heligible]
    · refine .inr ⟨best, mem_append_left _ hbest, hsome, hok, hscore,
        fun other hother hother_ok => ?_⟩
      rcases mem_append.mp hother with hother | hother
      · exact hall other hother hother_ok
      · rw [mem_singleton.mp hother, heligible] at hother_ok
        cases hother_ok
  | true =>
    have hpos := mode.1.score_pos hfl hsizes ext hmode heligible mode.2
    have hself : mode ∈ done ++ [mode] := mem_append_right _ (mem_singleton_self mode)
    simp only [chooseMode, heligible, Bool.true_eq_false, if_false]
    split_ifs with hbetter
    · refine .inr ⟨mode, hself, rfl, heligible, rfl, fun other hother hother_ok => ?_⟩
      rcases mem_append.mp hother with hother | hother
      · rcases h with ⟨-, -, hall⟩ | ⟨-, -, -, -, -, hall⟩
        · rw [hall other hother] at hother_ok
          cases hother_ok
        · exact (hall other hother hother_ok).trans hbetter.le
      · rw [mem_singleton.mp hother]
    · rcases h with ⟨-, hzero, -⟩ | ⟨best, hbest, hsome, hok, hscore, hall⟩
      · omega
      · refine .inr ⟨best, mem_append_left _ hbest, hsome, hok, hscore,
          fun other hother hother_ok => ?_⟩
        rcases mem_append.mp hother with hother | hother
        · exact hall other hother hother_ok
        · rw [mem_singleton.mp hother]
          exact Nat.le_of_not_lt hbetter

theorem foldl_chooseMode_leading {rest : List (VideoMode × Nat)}
    (hrest : ∀ mode ∈ rest, mode.1 ∈ d.modedb)
    (h : Leading fl limits ext d xres yres xpy done choice) :
    Leading fl limits ext d xres yres xpy (done ++ rest)
      (rest.foldl (chooseMode fl limits ext d xres yres xpy) choice) := by
  induction rest generalizing done choice with
  | nil => simpa using h
  | cons mode rest ih =>
    rw [append_cons, foldl_cons]
    exact ih (fun other hother => hrest other (mem_cons_of_mem mode hother))
      (chooseMode_leading hfl hsizes (hrest mode mem_cons_self) h)

/-- The loop ends with the first mode of the highest score, or with none where none can be used. -/
theorem bestMode_leading : Leading fl limits ext d xres yres xpy d.modedb.zipIdx
    (bestMode fl limits ext d xres yres xpy) := by
  have hstart : Leading fl limits ext d xres yres xpy [] ⟨none, 0, d.screen⟩ :=
    .inl ⟨rfl, rfl, fun mode hmode => absurd hmode not_mem_nil⟩
  simpa [bestMode] using foldl_chooseMode_leading hfl hsizes
    (fun mode hmode => (mem_zipIdx' hmode).2 ▸ getElem_mem _) hstart

omit hfl hsizes

/-- The score orders the eligible modes as their criteria, the picked mode is eligible and beaten by
no eligible one, and a failure is reported only where no mode is eligible. -/
structure ChoosesBest (fl : Single) (limits : PlatformInfo) (ext : OmapHwcExt) (d : QueryDisplay)
    (xres yres : Nat) (xpy : ℚ) (outcome : HdmiOutcome) : Prop where
  orders : ∀ mode ∈ d.modedb.zipIdx, ∀ mode' ∈ d.modedb.zipIdx,
    mode.1.eligible fl limits d xres yres xpy = true →
      mode'.1.eligible fl limits d xres yres xpy = true →
        (mode.1.score fl ext d xres yres xpy mode.2 < mode'.1.score fl ext d xres yres xpy mode'.2 ↔
          mode.1.criteria fl ext d xres yres xpy mode.2 <
            mode'.1.criteria fl ext d xres yres xpy mode'.2)
  picks : ∀ best, outcome.picked = some best → ∃ m, (m, best) ∈ d.modedb.zipIdx ∧
    m.eligible fl limits d xres yres xpy = true ∧
      ∀ mode ∈ d.modedb.zipIdx, mode.1.eligible fl limits d xres yres xpy = true →
        ¬ m.criteria fl ext d xres yres xpy best <
          mode.1.criteria fl ext d xres yres xpy mode.2
  fails : outcome.ret ≠ 0 → ∀ m ∈ d.modedb, m.eligible fl limits d xres yres xpy = false

theorem SizesFit.area_ne_zero (h : SizesFit d xres yres) : u32 (xres * yres) ≠ 0 := by
  obtain ⟨hx, hx', hy, hy'⟩ := h.source
  have hle := mul_lt_of_le hx' hy'
  have harea : u32 (xres * yres) = xres * yres := by
    exact_mod_cast u32_natCast (n := xres * yres) (by omega)
  rw [harea]
  exact mul_ne_zero (by omega) (by omega)

theorem mem_modes (hmode : mode ∈ d.modedb.zipIdx) :
    mode.1 ∈ d.modedb :=
  (mem_zipIdx' hmode).2 ▸ getElem_mem _

/-- A display with current timings gets the best of its modes. -/
theorem set_best_hdmi_mode_best (hfl : fl.Rounds) (limits : PlatformInfo) (ext : OmapHwcExt)
    (hsizes : SizesFit d xres yres) (xpy : ℚ) (screen : ExtScreen) (last_used : Nat × Nat × ℚ)
    (htimings : u32 (d.x_res * d.y_res) ≠ 0) :
    ChoosesBest fl limits ext d xres yres xpy
      (set_best_hdmi_mode fl limits ext (.ok d) screen last_used xres yres xpy) := by
  have hleading : Leading fl limits ext d xres yres xpy d.modedb.zipIdx
    (bestMode fl limits ext d xres yres xpy) := bestMode_leading hfl hsizes
  constructor
  · intro mode hmode mode' hmode' heligible heligible'
    exact VideoMode.score_lt_iff hfl hsizes (mem_modes hmode) (mem_modes hmode') heligible
      heligible' mode.2 mode'.2
  · intro best hbest
    simp only [set_best_hdmi_mode, htimings, hsizes.area_ne_zero, or_self, if_false] at hbest
    rcases hleading with ⟨hnone, -, -⟩ | ⟨mode, hmode, hsome, hok, hscore, hall⟩
    · rw [hnone] at hbest
      dsimp only at hbest
      split at hbest <;> cases hbest
    · rw [hsome] at hbest
      obtain rfl : mode.2 = best := Option.some.inj hbest
      refine ⟨mode.1, hmode, hok, fun other hother hother_ok => ?_⟩
      rw [← VideoMode.score_lt_iff hfl hsizes (mem_modes hmode) (mem_modes hother) hok hother_ok,
        ← hscore]
      exact not_lt.mpr (hall other hother hother_ok)
  · intro hret m hm
    simp only [set_best_hdmi_mode, htimings, hsizes.area_ne_zero, or_self, if_false] at hret
    rcases hleading with ⟨-, -, hall⟩ | ⟨mode, -, hsome, -⟩
    · obtain ⟨i, hi, rfl⟩ := getElem_of_mem hm
      exact hall (d.modedb[i], i) (mem_zipIdx_iff_getElem?.mpr (getElem?_eq_getElem hi))
    · rw [hsome] at hret
      exact absurd rfl hret

end Modes

/-! ### A display with one mode -/

/-- Exact arithmetic: no size of the examples needs more than 24 bits. -/
def exactSingle : Single := ⟨id⟩

theorem exactSingle_rounds : exactSingle.Rounds where
  mono := monotone_id
  idem _ := rfl
  exact _ _ := rfl
  close q hq := by
    have hslack : 0 ≤ q * (1 / 2 ^ 23) := by positivity
    simp only [exactSingle, id]
    linarith

def dispcLimits : PlatformInfo where
  max_xdecim_2d := 8
  max_ydecim_2d := 8
  max_xdecim_1d := 16
  max_ydecim_1d := 16
  max_downscale := 4
  min_width := 2
  integer_scale_ratio_limit := 2048
  fclk := 170666667
  tiler1d_slot_size := 0x800000
  fbmem_tiler2d := true

def noTransform : ExtTransform := ⟨0, false, false, false⟩

def newExt : OmapHwcExt where
  mirror := noTransform
  dock := noTransform
  avoid_mode_change := false
  force_dock := false
  hdmi_state := true
  on_tv := false
  current := noTransform
  last := noTransform
  last_mode := 0
  mirror_mode := 0
  m := id
  mirror_region := ⟨0, 0, 0, 0⟩

/-- 1280x720 at 60 Hz, 16:9. -/
def mode720p : VideoMode := ⟨60, 1280, 720, 13468, false, false, false, true⟩

/-- A display that offers 720p, with its current timings. -/
def display720p (x_res y_res : Nat) : QueryDisplay :=
  ⟨⟨true, 74250⟩, x_res, y_res, 160, 90, [mode720p]⟩

theorem display720p_sizesFit (x_res y_res : Nat) : SizesFit (display720p x_res y_res) 1280 720 where
  source := by decide
  modes m hm := by
    rw [mem_singleton.mp hm]
    decide

theorem set_best_hdmi_mode_best_720p :
    ChoosesBest exactSingle dispcLimits newExt (display720p 1280 720) 1280 720 1
      (set_best_hdmi_mode exactSingle dispcLimits newExt (.ok (display720p 1280 720)) ⟨0, 0, 0, 0⟩
        (0, 0, 0) 1280 720 1) :=
  set_best_hdmi_mode_best exactSingle_rounds dispcLimits newExt (display720p_sizesFit 1280 720) 1
    ⟨0, 0, 0, 0⟩ (0, 0, 0) (by decide)

/-- Without current timings the call fails, whatever the modes. -/
theorem untimed_not_best :
    ¬ ∀ (fl : Single) (limits : PlatformInfo) (ext : OmapHwcExt) (d : QueryDisplay)
      (xres yres : Nat) (xpy : ℚ) (screen : ExtScreen) (last_used : Nat × Nat × ℚ),
      fl.Rounds → SizesFit d xres yres → ChoosesBest fl limits ext d xres yres xpy
        (set_best_hdmi_mode fl limits ext (.ok d) screen last_used xres yres xpy) := by
  intro h
  have hfails := (h exactSingle dispcLimits newExt (display720p 0 0) 1280 720 1 ⟨0, 0, 0, 0⟩
    (0, 0, 0) exactSingle_rounds (display720p_sizesFit 0 0)).fails (by decide) mode720p
      (mem_singleton_self mode720p)
  revert hfails
  decide +kernel

end OmapHal.Hwc
