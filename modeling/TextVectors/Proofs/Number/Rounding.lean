import Mathlib
import TextVectors.Proofs.Number.Values

/-!
# Rounding to a format

Every real number has one that it is rounded to in a format, or an infinity. A
positive number is counted in units of a power of two, the least one at which it
has no more digits than the format, and the count is rounded to the nearest
integer, the even one of two equally near.

Rounding keeps the order of numbers and leaves those alone that the format has.
These two facts are all that bounds on rounded results rest on.
-/

namespace TextVectors

namespace Number

/-- The integer nearest to a real number, the even one of two equally near. -/
noncomputable def toEven (x : ℝ) : ℤ :=
  if Int.fract x < 1 / 2 then ⌊x⌋
  else if 1 / 2 < Int.fract x then ⌊x⌋ + 1
  else ⌊x⌋ + ⌊x⌋ % 2

@[simp]
theorem toEven_intCast (count : ℤ) : toEven count = count := by
  simp [toEven]

theorem abs_toEven_sub_le (x : ℝ) : |(toEven x : ℝ) - x| ≤ 1 / 2 := by
  have parts := Int.floor_add_fract x
  have least := Int.fract_nonneg x
  have greatest := Int.fract_lt_one x
  rw [abs_le]
  unfold toEven
  split_ifs with low high
  · constructor <;> linarith
  · push_cast
    constructor <;> linarith
  · rcases Int.emod_two_eq_zero_or_one ⌊x⌋ with even | odd
    · rw [even]
      push_cast
      constructor <;> linarith
    · rw [odd]
      push_cast
      constructor <;> linarith

theorem toEven_mono : Monotone toEven := by
  intro x y le
  by_contra above
  -- Then both are in the middle between two integers, and it is the same middle.
  have apart : (toEven y : ℝ) + 1 ≤ toEven x := by exact_mod_cast not_le.mp above
  have left := abs_le.mp (abs_toEven_sub_le x)
  have right := abs_le.mp (abs_toEven_sub_le y)
  have same : x = y := by linarith
  rw [same] at above
  exact above le_rfl

theorem toEven_nonneg {x : ℝ} (nonneg : 0 ≤ x) : 0 ≤ toEven x := by
  have least := toEven_intCast 0
  rw [Int.cast_zero] at least
  exact least.symm.trans_le (toEven_mono nonneg)

/-- A fraction is rounded by its quotient and its remainder. -/
theorem halfEven_eq_toEven (numerator : Nat) {denominator : Nat} (positive : 0 < denominator) :
    (halfEven numerator denominator : ℤ) = toEven (numerator / denominator) := by
  have whole : ⌊(numerator / denominator : ℝ)⌋ = (numerator / denominator : Nat) := by
    rw [Int.floor_div_natCast, Int.floor_natCast]
    rfl
  have rest : Int.fract (numerator / denominator : ℝ) =
      (numerator % denominator : Nat) / (denominator : ℝ) :=
    Int.fract_div_natCast_eq_div_natCast_mod
  have real : (0 : ℝ) < denominator := by exact_mod_cast positive
  have below : Int.fract (numerator / denominator : ℝ) < 1 / 2 ↔
      2 * (numerator % denominator) < denominator := by
    rw [rest, div_lt_iff₀ real, ← Nat.cast_lt (α := ℝ)]
    push_cast
    constructor <;> intro <;> linarith
  have above : 1 / 2 < Int.fract (numerator / denominator : ℝ) ↔
      denominator < 2 * (numerator % denominator) := by
    rw [rest, lt_div_iff₀ real, ← Nat.cast_lt (α := ℝ)]
    push_cast
    constructor <;> intro <;> linarith
  unfold halfEven toEven
  simp only [below, above, whole]
  split_ifs <;> simp

namespace Format

/-- A format that has the number one. -/
structure Proper (format : Format) : Prop where
  digits_pos : 0 < format.digits
  lowest_nonpos : format.lowest ≤ 0
  highest_nonneg : 0 ≤ format.highest

theorem Proper.lowest_le_highest {format : Format} (proper : format.Proper) :
    format.lowest ≤ format.highest :=
  proper.lowest_nonpos.trans proper.highest_nonneg

theorem proper_single : single.Proper :=
  ⟨by decide, by decide, by decide⟩

theorem proper_double : double.Proper :=
  ⟨by decide, by decide, by decide⟩

/-- The format has a number, up to its sign. -/
def Represents (format : Format) (x : ℝ) : Prop :=
  ∃ (significand : Nat) (exponent : Int), significand < 2 ^ format.digits ∧
    format.lowest ≤ exponent ∧ exponent ≤ format.highest ∧ |x| = significand * 2 ^ exponent

variable (format : Format)

/-- The exponent of the unit that a positive number is counted in. -/
noncomputable def unitExponent (x : ℝ) : ℤ :=
  max format.lowest (Int.log 2 x + 1 - format.digits)

/-- A number counted in its unit, to the nearest integer. -/
noncomputable def count (x : ℝ) : ℤ :=
  toEven (x / 2 ^ format.unitExponent x)

/-- A number that is not negative, rounded as if there were no greatest one. -/
noncomputable def grid (x : ℝ) : ℝ :=
  format.count x * 2 ^ format.unitExponent x

/-- The least power of two beyond the numbers of the format. -/
noncomputable def bound : ℝ :=
  2 ^ (format.highest + format.digits)

/-- A number that is not negative, rounded to the format. -/
noncomputable def magnitude (x : ℝ) : EReal :=
  if format.bound ≤ format.grid x then ⊤ else (format.grid x : EReal)

/-- A number rounded to the format. -/
noncomputable def round (x : ℝ) : EReal :=
  if x < 0 then -format.magnitude (-x) else format.magnitude x

/-! ## Units -/

theorem lowest_le_unitExponent (x : ℝ) : format.lowest ≤ format.unitExponent x :=
  le_max_left _ _

theorem unitExponent_le_iff {x : ℝ} (positive : 0 < x) {exponent : ℤ}
    (low : format.lowest ≤ exponent) :
    format.unitExponent x ≤ exponent ↔ x < 2 ^ (exponent + format.digits) := by
  have bits : x < (2 : ℕ) ^ (exponent + format.digits) ↔ Int.log 2 x < exponent + format.digits :=
    Int.lt_zpow_iff_log_lt (by norm_num) positive
  rw [Nat.cast_ofNat] at bits
  rw [bits, unitExponent, max_le_iff]
  omega

variable {format}

theorem lt_of_unitExponent {x : ℝ} (positive : 0 < x) :
    x < 2 ^ (format.unitExponent x + format.digits) :=
  (format.unitExponent_le_iff positive (format.lowest_le_unitExponent x)).mp le_rfl

/-- Unless the unit is the least of the format, the number has all digits of the format. -/
theorem le_of_lowest_lt_unitExponent {x : ℝ} (positive : 0 < x)
    (low : format.lowest < format.unitExponent x) :
    2 ^ (format.unitExponent x - 1 + format.digits) ≤ x := by
  apply le_of_not_gt
  intro less
  have smaller := (format.unitExponent_le_iff positive (by omega)).mpr less
  omega

theorem unitExponent_mono {x y : ℝ} (positive : 0 < x) (le : x ≤ y) :
    format.unitExponent x ≤ format.unitExponent y := by
  rw [unitExponent_le_iff format positive (format.lowest_le_unitExponent y)]
  exact le.trans_lt (lt_of_unitExponent (positive.trans_le le))

/-! ## Rounding to a grid -/

theorem grid_nonneg {x : ℝ} (nonneg : 0 ≤ x) : 0 ≤ format.grid x := by
  have counted : 0 ≤ format.count x := toEven_nonneg (by positivity)
  have real : (0 : ℝ) ≤ format.count x := by exact_mod_cast counted
  unfold grid
  positivity

@[simp]
theorem grid_zero : format.grid 0 = 0 := by
  have zero := toEven_intCast 0
  rw [Int.cast_zero] at zero
  simp [grid, count, zero]

theorem count_le_of_le {x : ℝ} {bound : ℤ} (le : x ≤ bound * 2 ^ format.unitExponent x) :
    format.count x ≤ bound := by
  have quotient : x / 2 ^ format.unitExponent x ≤ bound := (div_le_iff₀ (by positivity)).mpr le
  exact (toEven_mono quotient).trans_eq (toEven_intCast bound)

theorem le_count_of_le {x : ℝ} {bound : ℤ} (le : bound * 2 ^ format.unitExponent x ≤ x) :
    bound ≤ format.count x := by
  have quotient : bound ≤ x / 2 ^ format.unitExponent x := (le_div_iff₀ (by positivity)).mpr le
  exact (toEven_intCast bound).symm.trans_le (toEven_mono quotient)

theorem two_zpow_add_digits (exponent : ℤ) :
    (2 : ℝ) ^ (exponent + format.digits) = (2 ^ format.digits : ℕ) * 2 ^ exponent := by
  rw [zpow_add₀ (by norm_num), mul_comm]
  norm_cast

theorem count_le {x : ℝ} (positive : 0 < x) : format.count x ≤ (2 ^ format.digits : ℕ) := by
  apply count_le_of_le
  have less : x < 2 ^ (format.unitExponent x + format.digits) := lt_of_unitExponent positive
  rw [two_zpow_add_digits] at less
  exact_mod_cast less.le

theorem grid_le {x : ℝ} (positive : 0 < x) :
    format.grid x ≤ 2 ^ (format.unitExponent x + format.digits) := by
  have most : (format.count x : ℝ) ≤ (2 ^ format.digits : ℕ) := by exact_mod_cast count_le positive
  rw [two_zpow_add_digits]
  exact mul_le_mul_of_nonneg_right most (by positivity)

theorem two_zpow_pred_add_digits (proper : format.Proper) (exponent : ℤ) :
    (2 : ℝ) ^ (exponent - 1 + format.digits) = (2 ^ (format.digits - 1) : ℕ) * 2 ^ exponent := by
  push_cast
  rw [← zpow_natCast, ← zpow_add₀ (by norm_num)]
  congr 1
  have := proper.digits_pos
  omega

/-- Unless the unit is the least of the format, the count has all digits too. -/
theorem le_count (proper : format.Proper) {x : ℝ} (positive : 0 < x)
    (low : format.lowest < format.unitExponent x) :
    (2 ^ (format.digits - 1) : ℕ) ≤ format.count x := by
  apply le_count_of_le
  have large := le_of_lowest_lt_unitExponent positive low
  rw [two_zpow_pred_add_digits proper] at large
  exact_mod_cast large

theorem le_grid (proper : format.Proper) {x : ℝ} (positive : 0 < x)
    (low : format.lowest < format.unitExponent x) :
    2 ^ (format.unitExponent x - 1 + format.digits) ≤ format.grid x := by
  have counted : ((2 ^ (format.digits - 1) : ℕ) : ℝ) ≤ format.count x := by
    exact_mod_cast le_count proper positive low
  rw [two_zpow_pred_add_digits proper]
  exact mul_le_mul_of_nonneg_right counted (by positivity)

theorem grid_mono (proper : format.Proper) {x y : ℝ} (nonneg : 0 ≤ x) (le : x ≤ y) :
    format.grid x ≤ format.grid y := by
  rcases nonneg.eq_or_lt with rfl | positive
  · rw [grid_zero]
    exact grid_nonneg le
  have units : format.unitExponent x ≤ format.unitExponent y := unitExponent_mono positive le
  rcases units.eq_or_lt with same | lower
  · have counted : format.count x ≤ format.count y := by
      unfold count
      rw [same]
      exact toEven_mono (div_le_div_of_nonneg_right le (by positivity))
    have real : (format.count x : ℝ) ≤ format.count y := by exact_mod_cast counted
    unfold grid
    rw [same]
    exact mul_le_mul_of_nonneg_right real (by positivity)
  · -- A power of two lies between two numbers of different units.
    calc format.grid x ≤ 2 ^ (format.unitExponent x + format.digits) := grid_le positive
      _ ≤ 2 ^ (format.unitExponent y - 1 + format.digits) :=
        zpow_le_zpow_right₀ (by norm_num) (by omega)
      _ ≤ format.grid y :=
        le_grid proper (positive.trans_le le) ((format.lowest_le_unitExponent x).trans_lt lower)

/-- A whole number of units is left alone. -/
theorem grid_of_units {significand : Nat} {exponent : ℤ}
    (fine : format.unitExponent (significand * 2 ^ exponent) ≤ exponent) :
    format.grid (significand * 2 ^ exponent) = significand * 2 ^ exponent := by
  unfold grid count
  generalize format.unitExponent (significand * 2 ^ exponent) = unit at fine ⊢
  have split : (2 : ℝ) ^ exponent = 2 ^ (exponent - unit).toNat * 2 ^ unit := by
    rw [← zpow_natCast, ← zpow_add₀ (by norm_num)]
    congr 1
    omega
  have whole : (significand : ℝ) * 2 ^ exponent / 2 ^ unit =
      ((significand * 2 ^ (exponent - unit).toNat : ℤ) : ℝ) := by
    rw [div_eq_iff (by positivity), split]
    push_cast
    ring
  rw [whole, toEven_intCast, split]
  push_cast
  ring

/-! ## Numbers of the format -/

theorem represents_zero (proper : format.Proper) : format.Represents 0 :=
  ⟨0, 0, by positivity, proper.lowest_nonpos, proper.highest_nonneg, by simp⟩

theorem represents_one (proper : format.Proper) : format.Represents 1 :=
  ⟨1, 0, Nat.one_lt_two_pow proper.digits_pos.ne', proper.lowest_nonpos, proper.highest_nonneg,
    by simp⟩

theorem Represents.neg {x : ℝ} (represents : format.Represents x) : format.Represents (-x) := by
  rcases represents with ⟨significand, exponent, digits, low, high, same⟩
  exact ⟨significand, exponent, digits, low, high, by rw [abs_neg, same]⟩

theorem Represents.abs {x : ℝ} (represents : format.Represents x) : format.Represents |x| := by
  rcases represents with ⟨significand, exponent, digits, low, high, same⟩
  exact ⟨significand, exponent, digits, low, high, by rw [abs_abs, same]⟩

theorem zpow_add_digits_le_bound {exponent : ℤ} (high : exponent ≤ format.highest) :
    2 ^ (exponent + format.digits) ≤ format.bound :=
  zpow_le_zpow_right₀ (by norm_num) (by omega)

theorem bound_le_zpow_add_digits {exponent : ℤ} (high : format.highest ≤ exponent) :
    format.bound ≤ 2 ^ (exponent + format.digits) :=
  zpow_le_zpow_right₀ (by norm_num) (by omega)

theorem Represents.lt_bound {x : ℝ} (represents : format.Represents x) : |x| < format.bound := by
  rcases represents with ⟨significand, exponent, digits, _, high, same⟩
  have real : (significand : ℝ) < (2 ^ format.digits : ℕ) := by exact_mod_cast digits
  calc |x| = significand * 2 ^ exponent := same
    _ < (2 ^ format.digits : ℕ) * 2 ^ exponent := mul_lt_mul_of_pos_right real (by positivity)
    _ = 2 ^ (exponent + format.digits) := (two_zpow_add_digits exponent).symm
    _ ≤ format.bound := zpow_add_digits_le_bound high

theorem Represents.grid_eq {x : ℝ} (represents : format.Represents x) (nonneg : 0 ≤ x) :
    format.grid x = x := by
  rcases represents with ⟨significand, exponent, digits, low, high, same⟩
  rw [abs_of_nonneg nonneg] at same
  rcases nonneg.eq_or_lt with rfl | positive
  · exact grid_zero
  rw [same] at positive ⊢
  apply grid_of_units
  rw [unitExponent_le_iff format positive low, two_zpow_add_digits]
  have real : (significand : ℝ) < (2 ^ format.digits : ℕ) := by exact_mod_cast digits
  exact mul_lt_mul_of_pos_right real (by positivity)

theorem Represents.magnitude_eq {x : ℝ} (represents : format.Represents x) (nonneg : 0 ≤ x) :
    format.magnitude x = x := by
  have small := represents.lt_bound
  rw [abs_of_nonneg nonneg] at small
  rw [magnitude, represents.grid_eq nonneg, if_neg (not_le.mpr small)]

/-- A rounded number is one of the format, if it is not infinite. -/
theorem represents_grid (proper : format.Proper) {x : ℝ} (nonneg : 0 ≤ x)
    (small : format.grid x < format.bound) : format.Represents (format.grid x) := by
  rcases nonneg.eq_or_lt with rfl | positive
  · rw [grid_zero]
    exact represents_zero proper
  have low := format.lowest_le_unitExponent x
  have high : format.unitExponent x ≤ format.highest := by
    by_contra above
    have large := le_grid proper positive (by have := proper.lowest_le_highest; omega)
    exact absurd small (not_lt.mpr ((bound_le_zpow_add_digits (by omega)).trans large))
  have absolute : |format.grid x| = format.grid x := abs_of_nonneg (grid_nonneg nonneg)
  rcases Int.eq_ofNat_of_zero_le (show 0 ≤ format.count x from toEven_nonneg (by positivity)) with
    ⟨significand, counted⟩
  have most : format.count x ≤ (2 ^ format.digits : ℕ) := count_le positive
  rw [counted] at most
  rcases (Int.ofNat_le.mp most).eq_or_lt with full | fits
  · -- The count has one digit too many, so the next unit is counted.
    have value : format.grid x = 2 ^ (format.unitExponent x + format.digits) := by
      rw [two_zpow_add_digits, ← full, grid, counted]
      norm_cast
    have below : format.unitExponent x < format.highest := by
      by_contra top
      rw [value] at small
      exact absurd small (not_lt.mpr (bound_le_zpow_add_digits (by omega)))
    refine ⟨2 ^ (format.digits - 1), format.unitExponent x + 1, ?_, by omega, by omega, ?_⟩
    · exact Nat.pow_lt_pow_right (by norm_num) (by have := proper.digits_pos; omega)
    · rw [absolute, value]
      push_cast
      rw [← zpow_natCast, ← zpow_add₀ (by norm_num)]
      congr 1
      have := proper.digits_pos
      omega
  · refine ⟨significand, format.unitExponent x, fits, low, high, ?_⟩
    rw [absolute, grid, counted]
    norm_cast

/-! ## Rounding to the format -/

theorem magnitude_nonneg {x : ℝ} (nonneg : 0 ≤ x) : 0 ≤ format.magnitude x := by
  unfold magnitude
  split
  · exact le_top
  · exact_mod_cast grid_nonneg nonneg

theorem magnitude_mono (proper : format.Proper) {x y : ℝ} (nonneg : 0 ≤ x) (le : x ≤ y) :
    format.magnitude x ≤ format.magnitude y := by
  have rounded := grid_mono proper nonneg le
  unfold magnitude
  split_ifs with first second
  · exact le_rfl
  · exact absurd (first.trans rounded) second
  · exact le_top
  · exact_mod_cast rounded

@[simp]
theorem magnitude_zero : format.magnitude 0 = 0 := by
  have positive : ¬format.bound ≤ 0 := not_le.mpr (by unfold bound; positivity)
  simp [magnitude, positive]

theorem round_of_nonneg {x : ℝ} (nonneg : 0 ≤ x) : format.round x = format.magnitude x :=
  if_neg (not_lt.mpr nonneg)

theorem round_neg (x : ℝ) : format.round (-x) = -format.round x := by
  rcases lt_trichotomy x 0 with negative | rfl | positive
  · rw [round_of_nonneg (by linarith), round, if_pos negative, neg_neg]
  · simp [round]
  · rw [round, if_pos (by linarith), neg_neg, round_of_nonneg positive.le]

/-- Rounding keeps the order of numbers. -/
theorem round_mono (proper : format.Proper) : Monotone format.round := by
  intro x y le
  rcases lt_or_ge x 0 with first | first
  · rcases lt_or_ge y 0 with second | second
    · rw [round, round, if_pos first, if_pos second, EReal.neg_le_neg_iff]
      exact magnitude_mono proper (by linarith) (by linarith)
    · calc format.round x = -format.magnitude (-x) := if_pos first
        _ ≤ 0 := by
          rw [EReal.neg_le, neg_zero]
          exact magnitude_nonneg (by linarith)
        _ ≤ format.magnitude y := magnitude_nonneg second
        _ = format.round y := (round_of_nonneg second).symm
  · rw [round_of_nonneg first, round_of_nonneg (first.trans le)]
    exact magnitude_mono proper first le

/-- Rounding leaves the numbers of the format alone. -/
theorem Represents.round_eq {x : ℝ} (represents : format.Represents x) : format.round x = x := by
  rcases lt_or_ge x 0 with negative | nonneg
  · rw [round, if_pos negative, represents.neg.magnitude_eq (by linarith)]
    norm_cast
    rw [neg_neg]
  · rw [round_of_nonneg nonneg, represents.magnitude_eq nonneg]

/-- What is rounded to is a number of the format or an infinity. -/
theorem represents_of_round (proper : format.Proper) {x r : ℝ} (rounded : format.round x = r) :
    format.Represents r := by
  have of_nonneg {x r : ℝ} (nonneg : 0 ≤ x) (rounded : format.magnitude x = r) :
      format.Represents r := by
    unfold magnitude at rounded
    split_ifs at rounded with large
    · simp at rounded
    · rw [← EReal.coe_injective rounded]
      exact represents_grid proper nonneg (not_le.mp large)
  rcases lt_or_ge x 0 with negative | nonneg
  · rw [round, if_pos negative, neg_eq_iff_eq_neg] at rounded
    rw [← neg_neg r]
    exact (of_nonneg (neg_nonneg.mpr negative.le) (by exact_mod_cast rounded)).neg
  · rw [round_of_nonneg nonneg] at rounded
    exact of_nonneg nonneg rounded

theorem Represents.le_of_round (proper : format.Proper) {x y r : ℝ}
    (represents : format.Represents y) (le : y ≤ x) (rounded : format.round x = r) : y ≤ r := by
  have ordered := round_mono proper le
  rwa [represents.round_eq, rounded, EReal.coe_le_coe_iff] at ordered

/-- Between two numbers that are rounded to finite ones there is no infinity. -/
theorem exists_round (proper : format.Proper) {lower upper least most x : ℝ}
    (low : format.round lower = least) (high : format.round upper = most) (above : lower ≤ x)
    (below : x ≤ upper) : ∃ r : ℝ, format.round x = r ∧ least ≤ r ∧ r ≤ most := by
  have atLeast : (least : EReal) ≤ format.round x := low ▸ round_mono proper above
  have atMost : format.round x ≤ most := high ▸ round_mono proper below
  cases rounded : format.round x with
  | bot =>
      rw [rounded] at atLeast
      exact absurd (le_bot_iff.mp atLeast) (EReal.coe_ne_bot least)
  | top =>
      rw [rounded] at atMost
      exact absurd (top_le_iff.mp atMost) (EReal.coe_ne_top most)
  | coe r =>
      rw [rounded, EReal.coe_le_coe_iff] at atLeast atMost
      exact ⟨r, rfl, atLeast, atMost⟩

/-- A number that stands for a rounded result is finite if the result is bounded on both sides. -/
theorem between_of_extended (proper : format.Proper) {number : Binary}
    {lower upper least most x : ℝ} (stands : number.extended = some (format.round x))
    (low : format.round lower = least) (high : format.round upper = most) (above : lower ≤ x)
    (below : x ≤ upper) :
    number.isFinite = true ∧ format.round x = number.toReal ∧ least ≤ number.toReal ∧
      number.toReal ≤ most := by
  rcases exists_round proper low high above below with ⟨r, result, atLeast, atMost⟩
  rw [result] at stands
  rcases Binary.isFinite_of_extended stands with ⟨finite, rfl⟩
  exact ⟨finite, result, atLeast, atMost⟩

/-- A number between minus one and one stays there when it is rounded, and zero stays zero. -/
theorem abs_le_one_of_extended (proper : format.Proper) {number : Binary} {x : ℝ}
    (stands : number.extended = some (format.round x)) (le : |x| ≤ 1) :
    number.isFinite = true ∧ |number.toReal| ≤ 1 ∧ (x = 0 → number.toReal = 0) := by
  have one := represents_one proper
  rcases abs_le.mp le with ⟨above, below⟩
  rcases between_of_extended proper stands one.neg.round_eq one.round_eq above below with
    ⟨finite, result, low, high⟩
  refine ⟨finite, abs_le.mpr ⟨low, high⟩, ?_⟩
  rintro rfl
  rw [(represents_zero proper).round_eq] at result
  exact (EReal.coe_injective result).symm

end Format

end Number

end TextVectors
