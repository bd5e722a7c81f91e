import Mathlib
import OmapHal.Core.Tokens

/-!
# Decimals of the EXIF table

`ExifElementsTable::stringToRational` turns a decimal into a rational. It cuts the string at the
point by `strtok_r` and puts the digits behind the point to those before it. A number too large for
an `unsigned int` is converted to the largest, as on the target.
-/

namespace OmapHal.Camera

open List Nat

open OmapHal.Core

/-- The separators of `strtok_r`. -/
def point (c : Char) : Bool := c = '.'

/-- An integer as an `unsigned int`. -/
def unsignedInt (v : Int) : Nat := (v % 2 ^ 32).toNat

/-- `pow(10, den_len)` as an `unsigned int`. -/
def pow10 (den_len : Nat) : Nat := min (10 ^ den_len) (2 ^ 32 - 1)

/-- `ExifElementsTable::stringToRational`: what is stored at `num` and `den`. -/
def stringToRational (str : List Char) : Nat × Nat :=
  let temp := nextToken point str
  let numerator := match temp with
    | some (w, _) => unsignedInt (atoi w)
    | none => 0
  let numerator := if numerator = 0 then 1 else numerator
  match temp.bind fun r => nextToken point r.2 with
  | some (w, _) =>
    let denominator := pow10 w.length
    (unsignedInt ((numerator * denominator : Nat) + atoi w), denominator)
  | none => (numerator, 1)

/-! ### Digits -/

variable {s t w rest : List Char}

theorem not_isspace_of_isDigit {c : Char} (h : c.isDigit) :
    isspace c = false ∧ point c = false ∧ c ≠ '-' ∧ c ≠ '+' := by
  simp only [Char.isDigit, Bool.and_eq_true, decide_eq_true_eq] at h
  have hge : 48 ≤ c.toNat := h.1
  have hne : ∀ d : Char, d.toNat < 48 → c ≠ d := by
    rintro d hd rfl
    omega
  refine ⟨?_, ?_, hne _ (by decide), hne _ (by decide)⟩
  · simp [isspace, hne ' ' (by decide)]
    omega
  · simp [point, hne '.' (by decide)]

/-- `atoi` of digits alone is their value, as far as an `int` goes. -/
theorem atoi_digits (h : ∀ c ∈ s, c.isDigit) :
    atoi s = (min (2 ^ 31 - 1) (digitsValue s) : Nat) := by
  cases s with
  | nil => rfl
  | cons c s =>
    obtain ⟨hspace, -, hminus, hplus⟩ := not_isspace_of_isDigit (h c (by simp))
    have htake : (c :: s).takeWhile Char.isDigit = c :: s := takeWhile_eq_self_iff.mpr h
    have hdrop : (c :: s).dropWhile isspace = c :: s :=
      dropWhile_cons_of_neg (by simp [hspace])
    have hnum : number? (c :: s) = some (digitsValue (c :: s) : Int) := by
      simp [number?, hdrop, hminus, hplus, htake]
    rw [atoi, hnum, Option.getD_some]
    omega

/-- A token of digits ends where the text ends or at the next point. -/
theorem nextToken_digits (h : ∀ c ∈ w, c.isDigit) (hw : w ≠ [])
    (hrest : ∀ c, rest.head? = some c → c = '.') :
    nextToken point (w ++ rest) = some (w, rest.drop 1) := by
  have hnot : ∀ c ∈ w, (!point c) := fun c hc => by
    simp [(not_isspace_of_isDigit (h c hc)).2.1]
  have hdrop : (w ++ rest).dropWhile point = w ++ rest := by
    cases w with
    | nil => exact absurd rfl hw
    | cons c w => exact dropWhile_cons_of_neg (by simpa using hnot c (by simp))
  have hbehind : rest.takeWhile (fun c => !point c) = [] ∧
      rest.dropWhile (fun c => !point c) = rest := by
    cases rest with
    | nil => simp
    | cons c rest => simp [hrest c rfl, point]
  unfold nextToken
  rw [hdrop]
  split
  · rename_i heq
    exact absurd (append_eq_nil_iff.mp heq).1 hw
  · rename_i c u heq
    rw [← heq, takeWhile_append_of_pos hnot, dropWhile_append_of_pos hnot, hbehind.1,
      hbehind.2, append_nil]

/-! ### Decimals -/

/-- An integer part and perhaps a point with a fraction. -/
structure Decimal where
  integer : List Char
  fraction : Option (List Char)
  nonempty : integer ≠ []
  digits : ∀ c ∈ integer ++ fraction.getD [], c.isDigit

namespace Decimal

variable (d : Decimal)

def text : List Char := d.integer ++ (d.fraction.map fun f => '.' :: f).getD []

/-- The digits behind the point. -/
def behind : List Char := d.fraction.getD []

/-- All the digits as one number. -/
def together : Nat := digitsValue (d.integer ++ d.behind)

/-- The value of the decimal. -/
def value : ℚ := digitsValue d.integer + digitsValue d.behind / 10 ^ d.behind.length

/-- The rational has the value of the decimal. -/
def IsRational (r : Nat × Nat) : Prop := 0 < r.2 ∧ (r.1 : ℚ) / r.2 = d.value

variable {d}

theorem together_eq :
    d.together = digitsValue d.integer * 10 ^ d.behind.length + digitsValue d.behind :=
  digitsValue_append _ _

theorem behind_lt : digitsValue d.behind < 10 ^ d.behind.length :=
  digitsValue_lt fun c hc => d.digits c (mem_append_right _ hc)

/-- Cross-multiplied, in whole numbers. -/
theorem isRational_iff {r : Nat × Nat} :
    d.IsRational r ↔ 0 < r.2 ∧ r.1 * 10 ^ d.behind.length = d.together * r.2 := by
  have hvalue : d.value = (d.together : ℚ) / (10 ^ d.behind.length : Nat) := by
    rw [value, together_eq]
    push_cast
    field_simp
  rw [IsRational, hvalue]
  refine and_congr_right fun hpos => ?_
  have hr : (r.2 : ℚ) ≠ 0 := by positivity
  have hp : ((10 ^ d.behind.length : Nat) : ℚ) ≠ 0 := by positivity
  rw [div_eq_div_iff hr hp]
  norm_cast

/-- The number that `numerator` has before the fraction is put to it. -/
def numerator (d : Decimal) : Nat :=
  if digitsValue d.integer = 0 then 1 else min (2 ^ 31 - 1) (digitsValue d.integer)

/-- What the function stores for a decimal. -/
theorem stringToRational_text : stringToRational d.text =
    if d.behind = [] then (d.numerator, 1)
    else ((d.numerator * pow10 d.behind.length + min (2 ^ 31 - 1) (digitsValue d.behind)) % 2 ^ 32,
      pow10 d.behind.length) := by
  have hinteger : ∀ c ∈ d.integer, c.isDigit := fun c hc => d.digits c (mem_append_left _ hc)
  have hbehind : ∀ c ∈ d.behind, c.isDigit := fun c hc => d.digits c (mem_append_right _ hc)
  have hfirst : nextToken point d.text = some (d.integer, d.behind) := by
    rw [text, nextToken_digits hinteger d.nonempty]
    · cases hf : d.fraction <;> simp [behind, hf]
    · cases d.fraction <;> simp +contextual [eq_comm]
  have hnumerator : (if unsignedInt (atoi d.integer) = 0 then 1
      else unsignedInt (atoi d.integer)) = d.numerator := by
    have hint : unsignedInt (atoi d.integer) = min (2 ^ 31 - 1) (digitsValue d.integer) := by
      rw [atoi_digits hinteger, unsignedInt]
      omega
    rw [hint, numerator]
    split <;> split <;> omega
  rw [stringToRational, hfirst]
  dsimp only [Option.bind_some]
  rw [hnumerator]
  by_cases hb : d.behind = []
  · rw [if_pos hb, hb]
    rfl
  · have hsecond := @nextToken_digits _ [] hbehind hb (by simp)
    rw [append_nil] at hsecond
    rw [if_neg hb, hsecond]
    dsimp only
    rw [atoi_digits hbehind, unsignedInt]
    norm_cast

/-- A decimal whose digits fit has a short fraction, unless its integer part is zero. -/
theorem ten_pow_lt (hfit : d.together < 2 ^ 32) (hpos : 0 < digitsValue d.integer) :
    10 ^ d.behind.length ≤ 10 ^ 9 := by
  rw [together_eq] at hfit
  have hle : 1 * 10 ^ d.behind.length ≤ digitsValue d.integer * 10 ^ d.behind.length :=
    mul_le_mul_right _ hpos
  refine Nat.pow_le_pow_right (by omega) (Nat.le_of_lt_succ ?_)
  refine (Nat.pow_lt_pow_iff_right (a := 10) (by omega)).mp ?_
  omega

/-- A zero integer part is taken for a one. -/
theorem not_isRational_of_zero (hfit : d.together < 2 ^ 32) (hzero : digitsValue d.integer = 0) :
    ¬ d.IsRational (stringToRational d.text) := by
  have hone : d.numerator = 1 := by rw [numerator, if_pos hzero]
  have htogether : d.together = digitsValue d.behind := by
    rw [together_eq, hzero, zero_mul, zero_add]
  rw [isRational_iff, stringToRational_text, hone, htogether]
  rw [htogether] at hfit
  have hlt := d.behind_lt
  by_cases hb : d.behind = []
  · simp [hb, digitsValue]
  rw [if_neg hb, one_mul, pow10]
  generalize digitsValue d.behind = F at hfit hlt ⊢
  generalize hn : d.behind.length = n at hlt ⊢
  rintro ⟨-, h⟩
  dsimp only at h
  rcases lt_or_ge n 10 with hsmall | hlarge
  · have hpow : 10 ^ n ≤ 10 ^ 9 := Nat.pow_le_pow_right (by omega) (by omega)
    have hpos : 0 < 10 ^ n := by positivity
    rw [min_eq_left (by omega), min_eq_right (show F ≤ 2 ^ 31 - 1 by omega),
      mod_eq_of_lt (by omega)] at h
    have hcancel := eq_of_mul_eq_mul_right hpos h
    omega
  · -- the scale is the largest number there is, and the sum wraps
    have hpow : 10 ^ 10 ≤ 10 ^ n := Nat.pow_le_pow_right (by omega) hlarge
    rw [min_eq_right (show 2 ^ 32 - 1 ≤ 10 ^ n by omega)] at h
    by_cases hF : F ≤ 1
    · interval_cases F <;> simp at h
    · have hsum : (2 ^ 32 - 1 + min (2 ^ 31 - 1) F) % 2 ^ 32 = min (2 ^ 31 - 1) F - 1 := by omega
      rw [hsum] at h
      have hge := mul_le_mul_left (min (2 ^ 31 - 1) F - 1) hpow
      omega

end Decimal

/-- Exactly the decimals with an integer part of 31 bits that is not zero are converted. -/
theorem stringToRational_iff (d : Decimal) (hfit : d.together < 2 ^ 32) :
    d.IsRational (stringToRational d.text) ↔
      0 < digitsValue d.integer ∧ digitsValue d.integer < 2 ^ 31 := by
  rcases Nat.eq_zero_or_pos (digitsValue d.integer) with hzero | hpos
  · have hnot := Decimal.not_isRational_of_zero hfit hzero
    simp [hnot, hzero]
  have hpow := Decimal.ten_pow_lt hfit hpos
  have hscale : 0 < 10 ^ d.behind.length := by positivity
  have hbehind := d.behind_lt
  have hnumerator : d.numerator = min (2 ^ 31 - 1) (digitsValue d.integer) := by
    rw [Decimal.numerator, if_neg (by omega)]
  rw [Decimal.isRational_iff, Decimal.stringToRational_text]
  rw [Decimal.together_eq] at hfit ⊢
  by_cases hb : d.behind = []
  · simp only [hb, length_nil, pow_zero, mul_one, if_true, hnumerator] at hfit ⊢
    have hnone : digitsValue ([] : List Char) = 0 := rfl
    rw [hnone] at hfit ⊢
    omega
  have hwhole : digitsValue d.integer < 2 ^ 31 := by
    have hten := Nat.pow_le_pow_right (n := 10) (by omega) (length_pos_iff.mpr hb)
    have hle := mul_le_mul_left (digitsValue d.integer) hten
    omega
  rw [if_neg hb, pow10, min_eq_left (show 10 ^ d.behind.length ≤ 2 ^ 32 - 1 by omega),
    min_eq_right (show digitsValue d.behind ≤ 2 ^ 31 - 1 by omega), hnumerator,
    min_eq_right (show digitsValue d.integer ≤ 2 ^ 31 - 1 by omega), mod_eq_of_lt hfit]
  exact ⟨fun _ => ⟨hpos, hwhole⟩, fun _ => ⟨hscale, rfl⟩⟩

/-- 12.50 is converted. -/
theorem twelve_and_a_half : Decimal.IsRational ⟨['1', '2'], some ['5', '0'], by simp, by simp⟩
    (stringToRational ['1', '2', '.', '5', '0']) := by
  refine (stringToRational_iff ⟨['1', '2'], some ['5', '0'], by simp, by simp⟩ ?_).mpr ?_
  · simp [Decimal.together, Decimal.behind, digitsValue]
  · simp [digitsValue]

/-- 0.5 becomes 15/10. -/
theorem zero_integer_lost :
    stringToRational ['0', '.', '5'] = (15, 10) ∧
      ¬ Decimal.IsRational ⟨['0'], some ['5'], by simp, by simp⟩
        (stringToRational ['0', '.', '5']) := by
  have hrun : stringToRational ['0', '.', '5'] = (15, 10) := by decide +kernel
  refine ⟨hrun, ?_⟩
  rw [hrun, Decimal.isRational_iff]
  simp [Decimal.together, Decimal.behind, digitsValue]

end OmapHal.Camera
