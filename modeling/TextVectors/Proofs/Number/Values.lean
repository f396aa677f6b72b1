import Mathlib.Algebra.Order.Field.Power
import Mathlib.Data.EReal.Basic
import TextVectors.Number.Binary

/-!
# The values of floating-point numbers

A floating-point number that is not undefined stands for a real number or for an
infinity. Two numbers are compared as their values are. Powers of two that are
kept as fractions, and significands that are counted in units of a lower power of
two, give the same values again.
-/

namespace TextVectors

namespace Number

theorem powerOfTwo_pos (exponent : Int) :
    0 < (powerOfTwo exponent).1 ∧ 0 < (powerOfTwo exponent).2 := by
  unfold powerOfTwo
  split
  · exact ⟨Nat.pow_pos (by norm_num), by norm_num⟩
  · exact ⟨by norm_num, Nat.pow_pos (by norm_num)⟩

theorem powerOfTwo_div (exponent : Int) :
    ((powerOfTwo exponent).1 : ℝ) / (powerOfTwo exponent).2 = 2 ^ exponent := by
  unfold powerOfTwo
  split
  · next positive =>
    rcases Int.eq_ofNat_of_zero_le positive with ⟨count, rfl⟩
    simp
  · next negative =>
    rcases Int.eq_ofNat_of_zero_le (show 0 ≤ -exponent by omega) with ⟨count, same⟩
    rw [same, show exponent = -(count : Int) by omega]
    simp

namespace Binary

/-- The value of a finite number, a fraction. The other numbers count as zero. -/
noncomputable def toReal : Binary → ℝ
  | .finite negative significand exponent =>
    let size : ℚ := significand * 2 ^ exponent
    ((if negative then -size else size : ℚ) : ℝ)
  | _ => 0

/-- What a number stands for, unless it is undefined. -/
noncomputable def extended : Binary → Option EReal
  | .nan => none
  | .infinite negative => some (if negative then ⊥ else ⊤)
  | .finite negative significand exponent =>
    some ((finite negative significand exponent).toReal : EReal)

@[simp]
theorem toReal_finite (negative : Bool) (significand : Nat) (exponent : Int) :
    (finite negative significand exponent).toReal =
      if negative then -(significand * 2 ^ exponent : ℝ) else significand * 2 ^ exponent := by
  cases negative <;> simp [toReal]

theorem isFinite_of_extended {number : Binary} {value : ℝ}
    (stands : number.extended = some (value : EReal)) :
    number.isFinite = true ∧ number.toReal = value := by
  cases number with
  | nan => cases stands
  | infinite negative => cases negative <;> simp [extended] at stands
  | finite negative significand exponent =>
      exact ⟨rfl, EReal.coe_injective (Option.some.inj stands)⟩

end Binary

/-- Counted in units of a lower power of two, a number has the same value. -/
theorem unitsAt_mul {low exponent : Int} (below : low ≤ exponent) (negative : Bool)
    (significand : Nat) :
    (Format.unitsAt low negative significand exponent : ℝ) * 2 ^ low =
      (Binary.finite negative significand exponent).toReal := by
  have whole : (2 : ℝ) ^ exponent = 2 ^ (exponent - low).toNat * 2 ^ low := by
    rw [← zpow_natCast, ← zpow_add₀ (by norm_num)]
    congr 1
    omega
  cases negative <;> simp [Format.unitsAt, whole, mul_assoc]

theorem less_eq_true_iff {x y : Binary} (left : x.isFinite = true) (right : y.isFinite = true) :
    x.less y = true ↔ x.toReal < y.toReal := by
  cases x with
  | finite a m e =>
      cases y with
      | finite b n k =>
          have unit : (0 : ℝ) < 2 ^ min e k := by positivity
          rw [← unitsAt_mul (min_le_left e k), ← unitsAt_mul (min_le_right e k),
            mul_lt_mul_iff_left₀ unit]
          simp [Binary.less]
      | _ => cases right
  | _ => cases left

end Number

end TextVectors
