import TextVectors.Proofs.Number.Rounding

/-!
# Rounded operations

Each operation on finite numbers gives the exact result, rounded to the format. For
the root the exact result is no fraction, and the program rounds one beside it that
has a few more digits; no number at which rounding changes lies between the two.

Where one of the operands is infinite or undefined, so is the result, with one
exception: a finite number divided by an infinity is zero.
-/

namespace TextVectors

namespace Number

namespace Format

variable {format : Format}

/-! ## Fractions -/

theorem two_pow_log2_le {number : Nat} (positive : 0 < number) :
    (2 : ℝ) ^ (number.log2 : ℤ) ≤ number ∧ (number : ℝ) < 2 ^ ((number.log2 : ℤ) + 1) := by
  have low := Nat.log2_self_le positive.ne'
  have high : number < 2 ^ (number.log2 + 1) := Nat.lt_log2_self
  constructor
  · exact_mod_cast low
  · exact_mod_cast high

theorem fraction_pos {numerator denominator : Nat} (top : 0 < numerator)
    (bottom : 0 < denominator) : (0 : ℝ) < numerator / denominator :=
  div_pos (Nat.cast_pos.mpr top) (Nat.cast_pos.mpr bottom)

/-- The size of a fraction, from the sizes of its parts. -/
theorem log2_fraction {numerator denominator : Nat} (top : 0 < numerator)
    (bottom : 0 < denominator) :
    2 ^ ((numerator.log2 : ℤ) - denominator.log2 - 1) ≤ (numerator : ℝ) / denominator ∧
      (numerator : ℝ) / denominator < 2 ^ ((numerator.log2 : ℤ) - denominator.log2 + 1) := by
  have positive : (0 : ℝ) < denominator := by exact_mod_cast bottom
  constructor
  · rw [le_div_iff₀ positive]
    calc (2 : ℝ) ^ ((numerator.log2 : ℤ) - denominator.log2 - 1) * denominator
        ≤ 2 ^ ((numerator.log2 : ℤ) - denominator.log2 - 1) * 2 ^ ((denominator.log2 : ℤ) + 1) :=
          mul_le_mul_of_nonneg_left (two_pow_log2_le bottom).2.le (by positivity)
      _ = 2 ^ (numerator.log2 : ℤ) := by
        rw [← zpow_add₀ (by norm_num)]
        congr 1
        omega
      _ ≤ numerator := (two_pow_log2_le top).1
  · rw [div_lt_iff₀ positive]
    calc (numerator : ℝ) < 2 ^ ((numerator.log2 : ℤ) + 1) := (two_pow_log2_le top).2
      _ = 2 ^ ((numerator.log2 : ℤ) - denominator.log2 + 1) * 2 ^ (denominator.log2 : ℤ) := by
        rw [← zpow_add₀ (by norm_num)]
        congr 1
        omega
      _ ≤ 2 ^ ((numerator.log2 : ℤ) - denominator.log2 + 1) * denominator :=
          mul_le_mul_of_nonneg_left (two_pow_log2_le bottom).1 (by positivity)

/-- A fraction in units of a power of two. -/
theorem fraction_div_zpow (numerator denominator : Nat) (exponent : ℤ) :
    ((numerator * (powerOfTwo exponent).2 : Nat) : ℝ) /
        (denominator * (powerOfTwo exponent).1 : Nat) =
      (numerator : ℝ) / denominator / 2 ^ exponent := by
  rw [← powerOfTwo_div, div_div_div_eq]
  push_cast
  rfl

theorem fits_iff {numerator denominator : Nat} (top : 0 < numerator) (bottom : 0 < denominator)
    {exponent : ℤ} (low : format.lowest ≤ exponent) :
    numerator * (powerOfTwo exponent).2 / (denominator * (powerOfTwo exponent).1) <
        Nat.pow 2 format.digits ↔
      format.unitExponent (numerator / denominator : ℝ) ≤ exponent := by
  have divisor := Nat.mul_pos bottom (powerOfTwo_pos exponent).1
  have realDivisor : (0 : ℝ) < (denominator * (powerOfTwo exponent).1 : Nat) := by
    exact_mod_cast divisor
  rw [format.unitExponent_le_iff (fraction_pos top bottom) low, two_zpow_add_digits,
    ← div_lt_iff₀ (by positivity), ← fraction_div_zpow, div_lt_iff₀ realDivisor,
    Nat.div_lt_iff_lt_mul divisor]
  norm_cast

theorem place_eq {numerator denominator : Nat} (top : 0 < numerator) (bottom : 0 < denominator) :
    format.place numerator denominator = format.unitExponent (numerator / denominator : ℝ) := by
  have positive := fraction_pos top bottom
  rcases log2_fraction top bottom with ⟨large, less⟩
  have lowest := format.lowest_le_unitExponent (numerator / denominator : ℝ)
  let estimate : ℤ := numerator.log2 - denominator.log2 - format.digits
  let guess := max format.lowest estimate
  have low : format.lowest ≤ guess := le_max_left _ _
  -- The guess is right or one too small.
  have most : format.unitExponent (numerator / denominator : ℝ) ≤ guess + 1 := by
    rw [unitExponent_le_iff format positive (by omega)]
    exact less.trans_le (zpow_le_zpow_right₀ (by norm_num) (by omega))
  have least : guess ≤ format.unitExponent (numerator / denominator : ℝ) := by
    by_contra below
    have smaller := (format.unitExponent_le_iff positive
      (show format.lowest ≤ guess - 1 by omega)).mp (by omega)
    have beyond : (2 : ℝ) ^ (guess - 1 + format.digits) ≤
        2 ^ ((numerator.log2 : ℤ) - denominator.log2 - 1) :=
      zpow_le_zpow_right₀ (by norm_num) (by omega)
    exact absurd (smaller.trans_le beyond) (not_lt.mpr large)
  have decided : format.place numerator denominator =
      if numerator * (powerOfTwo guess).2 / (denominator * (powerOfTwo guess).1) <
        Nat.pow 2 format.digits then guess else guess + 1 := rfl
  rw [decided]
  simp only [fits_iff top bottom low]
  split <;> omega

/-! ## The nearest number -/

section
variable {numerator denominator : Nat} (top : 0 < numerator) (bottom : 0 < denominator)
include top bottom

theorem halfEven_eq_count :
    let unit := powerOfTwo (format.place numerator denominator)
    (halfEven (numerator * unit.2) (denominator * unit.1) : ℤ) =
      format.count (numerator / denominator : ℝ) := by
  intro unit
  rw [halfEven_eq_toEven _ (Nat.mul_pos bottom (powerOfTwo_pos _).1), fraction_div_zpow,
    place_eq top bottom]
  rfl

theorem bound_le_grid_iff (proper : format.Proper) :
    format.bound ≤ format.grid (numerator / denominator : ℝ) ↔
      format.highest < format.place numerator denominator ∨
        format.place numerator denominator = format.highest ∧
          (2 ^ format.digits : ℕ) ≤ format.count (numerator / denominator : ℝ) := by
  have positive := fraction_pos top bottom
  rw [place_eq top bottom]
  rcases lt_trichotomy (format.unitExponent (numerator / denominator : ℝ)) format.highest with
    below | same | above
  · have small : format.grid (numerator / denominator : ℝ) < format.bound := by
      apply (grid_le positive).trans_lt
      exact zpow_lt_zpow_right₀ (by norm_num) (by omega)
    simp [not_le.mpr small, below.ne, not_lt.mpr below.le]
  · have counted : format.bound ≤ format.grid (numerator / denominator : ℝ) ↔
        (2 ^ format.digits : ℕ) ≤ format.count (numerator / denominator : ℝ) := by
      rw [bound, grid, same, two_zpow_add_digits, mul_le_mul_iff_left₀ (by positivity)]
      norm_cast
    simp [counted, same]
  · have large := le_grid proper positive (proper.lowest_le_highest.trans_lt above)
    have beyond := (bound_le_zpow_add_digits (by omega)).trans large
    simp [beyond, above]

/-- The nearest number to a positive fraction has the count of units that the fraction is rounded
to. -/
theorem nearest_eq (proper : format.Proper) (negative : Bool) :
    format.nearest negative numerator denominator =
      if format.bound ≤ format.grid (numerator / denominator : ℝ) then .infinite negative
      else .finite negative (format.count (numerator / denominator : ℝ)).toNat
        (format.unitExponent (numerator / denominator : ℝ)) := by
  have counted := @halfEven_eq_count format numerator denominator top bottom
  simp only at counted
  have overflows := bound_le_grid_iff top bottom proper
  rw [← counted, Int.ofNat_le] at overflows
  simp only [nearest, if_neg top.ne', Nat.pow_eq, ← overflows, ← counted, Int.toNat_natCast,
    ← place_eq top bottom]

end

/-- The parts of a number that comes of rounding. It may have one digit too many, but only just. -/
structure Rounded (format : Format) (significand : Nat) (exponent : ℤ) : Prop where
  low : format.lowest ≤ exponent
  high : exponent ≤ format.highest
  most : significand ≤ 2 ^ format.digits
  top : significand = 2 ^ format.digits → exponent < format.highest
  full : format.lowest < exponent → 2 ^ (format.digits - 1) ≤ significand

theorem rounded_of_nearest (proper : format.Proper) {negative : Bool} {numerator : Nat}
    {denominator : Nat} (bottom : 0 < denominator) {sign : Bool} {significand : Nat} {exponent : ℤ}
    (nearest : format.nearest negative numerator denominator = .finite sign significand exponent) :
    sign = negative ∧ format.Rounded significand exponent := by
  rcases numerator.eq_zero_or_pos with rfl | top
  · cases nearest
    refine ⟨rfl, le_rfl, proper.lowest_le_highest, Nat.zero_le _, ?_, ?_⟩
    · intro full
      exact absurd full.symm (by positivity)
    · intro less
      exact absurd less (lt_irrefl _)
  have positive := fraction_pos top bottom
  have overflows := bound_le_grid_iff top bottom proper
  rw [nearest_eq top bottom proper] at nearest
  rw [place_eq top bottom] at overflows
  split at nearest
  · cases nearest
  · next small =>
    rcases not_or.mp (mt overflows.mpr small) with ⟨high, topmost⟩
    cases nearest
    have counted := Int.toNat_of_nonneg (show 0 ≤ format.count (numerator / denominator : ℝ) from
      toEven_nonneg (by positivity))
    have most : format.count (numerator / denominator : ℝ) ≤ (2 ^ format.digits : ℕ) :=
      count_le positive
    refine ⟨rfl, format.lowest_le_unitExponent _, not_lt.mp high, by omega, ?_, ?_⟩
    · intro full
      apply lt_of_le_of_ne (not_lt.mp high)
      intro same
      exact topmost ⟨same, by omega⟩
    · intro less
      have full := le_count proper positive less
      omega

/-- The nearest number to a fraction is the fraction rounded. -/
theorem extended_nearest (proper : format.Proper) (negative : Bool) (numerator : Nat)
    {denominator : Nat} (bottom : 0 < denominator) :
    (format.nearest negative numerator denominator).extended =
      some (if negative then -format.magnitude (numerator / denominator)
        else format.magnitude (numerator / denominator)) := by
  rcases numerator.eq_zero_or_pos with rfl | top
  · simp [nearest, zero, Binary.extended]
  rw [nearest_eq top bottom proper, magnitude]
  split
  · cases negative <;> simp [Binary.extended]
  · have nonneg : 0 ≤ format.count (numerator / denominator : ℝ) := toEven_nonneg (by positivity)
    have counted : ((format.count (numerator / denominator : ℝ)).toNat : ℝ) =
        format.count (numerator / denominator : ℝ) := by
      exact_mod_cast Int.toNat_of_nonneg nonneg
    cases negative <;> simp [Binary.extended, grid, counted]

theorem extended_nearest_of_eq (proper : format.Proper) {negative : Bool}
    {numerator denominator : Nat} (bottom : 0 < denominator) {x : ℝ}
    (value : x = if negative then -(numerator / denominator : ℝ) else numerator / denominator) :
    (format.nearest negative numerator denominator).extended = some (format.round x) := by
  rw [extended_nearest proper negative numerator bottom, value]
  cases negative
  · rw [if_neg (by simp), if_neg (by simp), round_of_nonneg (by positivity)]
  · rw [if_pos rfl, if_pos rfl, round_neg, round_of_nonneg (by positivity)]

/-- A number of units of a power of two, as a fraction. -/
theorem units_div (significand : Nat) (exponent : ℤ) :
    ((significand * (powerOfTwo exponent).1 : Nat) : ℝ) / (powerOfTwo exponent).2 =
      significand * 2 ^ exponent := by
  rw [← powerOfTwo_div]
  push_cast
  rw [mul_div_assoc]

/-! ## Operations on finite numbers -/

section
variable (proper : format.Proper)
include proper

theorem extended_convert {number : Binary} (finite : number.isFinite = true) :
    (format.convert number).extended = some (format.round number.toReal) := by
  cases number with
  | finite negative significand exponent =>
      apply extended_nearest_of_eq proper (powerOfTwo_pos exponent).2
      rw [units_div, Binary.toReal_finite]
  | _ => cases finite

theorem extended_add {x y : Binary} (left : x.isFinite = true) (right : y.isFinite = true) :
    (format.add x y).extended = some (format.round (x.toReal + y.toReal)) := by
  cases x with
  | finite a m e =>
      cases y with
      | finite b n k =>
          rw [← unitsAt_mul (min_le_left e k), ← unitsAt_mul (min_le_right e k), ← add_mul]
          simp only [add]
          split_ifs with none
          · rw [← Int.cast_add, none]
            simp [zero, Binary.extended, round]
          · apply extended_nearest_of_eq proper (powerOfTwo_pos _).2
            rw [units_div, ← Int.cast_add]
            generalize unitsAt (min e k) a m e + unitsAt (min e k) b n k = sum
            rcases lt_or_ge sum 0 with negative | nonneg
            · have whole : ((sum.natAbs : ℕ) : ℝ) = -(sum : ℝ) := by
                rw [Nat.cast_natAbs, abs_of_neg negative, Int.cast_neg]
              simp [negative, whole]
            · have whole : ((sum.natAbs : ℕ) : ℝ) = sum := by
                rw [Nat.cast_natAbs, abs_of_nonneg nonneg]
              simp [not_lt.mpr nonneg, whole]
      | _ => cases right
  | _ => cases left

theorem extended_mul {x y : Binary} (left : x.isFinite = true) (right : y.isFinite = true) :
    (format.mul x y).extended = some (format.round (x.toReal * y.toReal)) := by
  cases x with
  | finite a m e =>
      cases y with
      | finite b n k =>
          apply extended_nearest_of_eq proper (powerOfTwo_pos _).2
          rw [units_div, zpow_add₀ (by norm_num)]
          cases a <;> cases b <;> simp <;> ring
      | _ => cases right
  | _ => cases left

theorem extended_div {x y : Binary} (left : x.isFinite = true) (right : y.isFinite = true)
    (divisor : y.toReal ≠ 0) :
    (format.div x y).extended = some (format.round (x.toReal / y.toReal)) := by
  cases x with
  | finite a m e =>
      cases y with
      | finite b n k =>
          have some_units : n ≠ 0 := by
            rintro rfl
            simp at divisor
          have positive : 0 < n := Nat.pos_of_ne_zero some_units
          simp only [div, if_neg some_units]
          apply extended_nearest_of_eq proper (Nat.mul_pos positive (powerOfTwo_pos _).2)
          have fraction : ((m * (powerOfTwo (e - k)).1 : Nat) : ℝ) /
              (n * (powerOfTwo (e - k)).2 : Nat) = m * 2 ^ e / (n * 2 ^ k) := by
            push_cast
            rw [mul_div_mul_comm, powerOfTwo_div, zpow_sub₀ (by norm_num), mul_div_mul_comm]
          rw [fraction]
          cases a <;> cases b <;> simp [neg_div, div_neg]
      | _ => cases right
  | _ => cases left

end

/-! ## Numbers that are not finite -/

theorem isFinite_of_add {x y : Binary} (finite : (format.add x y).isFinite = true) :
    x.isFinite = true ∧ y.isFinite = true := by
  cases x with
  | nan => cases finite
  | infinite a =>
      cases y with
      | infinite b =>
          simp only [add] at finite
          split at finite <;> cases finite
      | _ => cases finite
  | finite a m e =>
      cases y with
      | finite b n k => exact ⟨rfl, rfl⟩
      | _ => cases finite

theorem isFinite_of_mul {x y : Binary} (finite : (format.mul x y).isFinite = true) :
    x.isFinite = true ∧ y.isFinite = true := by
  cases x with
  | nan => cases finite
  | infinite a =>
      cases y with
      | finite b n k =>
          simp only [mul] at finite
          split at finite <;> cases finite
      | _ => cases finite
  | finite a m e =>
      cases y with
      | finite b n k => exact ⟨rfl, rfl⟩
      | infinite b =>
          simp only [mul] at finite
          split at finite <;> cases finite
      | nan => cases finite

theorem isFinite_of_sqrt {x : Binary} (finite : (format.sqrt x).isFinite = true) :
    x.isFinite = true := by
  cases x with
  | finite negative significand exponent => rfl
  | infinite negative =>
      cases negative <;> cases finite
  | nan => cases finite

end Format

end Number

end TextVectors
