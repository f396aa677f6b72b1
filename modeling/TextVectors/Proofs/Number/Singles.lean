import TextVectors.Number.Single
import TextVectors.Proofs.Number.Operations

/-!
# Words of the single format

The word that is nearest to a number encodes this number rounded to the single
format. A number that a word encodes is one of the double format too, and so is its
square.
-/

namespace TextVectors

namespace Number

namespace Single

/-! ## Words and their numbers -/

/-- The word of a sign and the remaining thirty-one bits. -/
def ofBits (negative : Bool) (rest : Nat) : Single :=
  ⟨(rest + if negative then Nat.pow 2 31 else 0).toUInt32⟩

theorem nearest_eq (number : Binary) :
    nearest number =
      match Format.single.convert number with
      | .nan => nan
      | .infinite negative => ofBits negative 0x7F800000
      | .finite negative significand exponent =>
        ofBits negative ((exponent - Format.single.lowest).toNat * Nat.pow 2 23 + significand) :=
  rfl

/-- The parts that a word is taken apart into. -/
theorem value_ofBits (negative : Bool) {rest : Nat} (small : rest < 2 ^ 31) :
    (ofBits negative rest).value =
      if rest / 2 ^ 23 = 255 then if rest % 2 ^ 23 = 0 then .infinite negative else .nan
      else if rest / 2 ^ 23 = 0 then .finite negative (rest % 2 ^ 23) (-149)
      else .finite negative (2 ^ 23 + rest % 2 ^ 23) (-149 + (rest / 2 ^ 23 - 1 : Nat)) := by
  have bits : (ofBits negative rest).bits.toNat = rest + if negative then 2 ^ 31 else 0 := by
    apply Nat.mod_eq_of_lt
    cases negative <;> simp <;> omega
  have field : (rest + if negative then 2 ^ 31 else 0) / 2 ^ 23 % 2 ^ 8 = rest / 2 ^ 23 := by
    cases negative <;> simp <;> omega
  have low : (rest + if negative then 2 ^ 31 else 0) % 2 ^ 23 = rest % 2 ^ 23 := by
    cases negative <;> simp
    omega
  have sign : decide (2 ^ 23 * 2 ^ 8 ≤ rest + if negative then 2 ^ 31 else 0) = negative := by
    cases negative <;> simp
    omega
  have unit : Nat.pow 2 (Format.single.digits - 1) = 2 ^ 23 := rfl
  simp only [value, Format.ofWord, bits, unit, Nat.pow_eq, field, low, sign]
  rfl

theorem exists_ofBits (single : Single) :
    ∃ negative rest, rest < 2 ^ 31 ∧ single = ofBits negative rest := by
  have small := single.bits.toNat_lt
  refine ⟨decide (2 ^ 31 ≤ single.bits.toNat), single.bits.toNat % 2 ^ 31, by omega, ?_⟩
  have whole : (single.bits.toNat % 2 ^ 31 +
      if decide (2 ^ 31 ≤ single.bits.toNat) = true then Nat.pow 2 31 else 0) =
        single.bits.toNat := by
    simp only [decide_eq_true_eq, Nat.pow_eq]
    split <;> omega
  rw [ofBits, whole]
  simp

/-- A word encodes a number of the format, unless it is infinite or undefined. -/
theorem exists_parts_of_isFinite {single : Single} (finite : single.isFinite = true) :
    ∃ negative significand exponent, single.value = .finite negative significand exponent ∧
      significand < 2 ^ 24 ∧ -149 ≤ exponent ∧ exponent ≤ 104 := by
  rcases single.exists_ofBits with ⟨negative, rest, small, rfl⟩
  rw [isFinite, value_ofBits negative small] at finite
  rw [value_ofBits negative small]
  split at finite
  · split at finite <;> cases finite
  · next top =>
    rw [if_neg top]
    split
    · exact ⟨_, _, _, rfl, by omega, by omega, by omega⟩
    · exact ⟨_, _, _, rfl, by omega, by omega, by omega⟩

/-! ## The nearest word -/

/-- The word of a number that comes of rounding encodes it. -/
theorem toReal_value_ofBits (negative : Bool) {significand : Nat} {exponent : ℤ}
    (rounded : Format.single.Rounded significand exponent) :
    (ofBits negative ((exponent + 149).toNat * 2 ^ 23 + significand)).value.extended =
      (Binary.finite negative significand exponent).extended := by
  have low : -149 ≤ exponent := rounded.low
  have high : exponent ≤ 104 := rounded.high
  have most : significand ≤ 2 ^ 24 := rounded.most
  have top : significand = 2 ^ 24 → exponent < 104 := rounded.top
  have full : -149 < exponent → 2 ^ 23 ≤ significand := rounded.full
  rw [value_ofBits negative (by omega), if_neg (by omega)]
  rcases most.eq_or_lt with carried | fits
  · -- One digit too many is carried into the exponent.
    have exact : ((exponent + 149).toNat * 2 ^ 23 + significand) % 2 ^ 23 = 0 := by omega
    have field : ((-149 : ℤ) +
        (((exponent + 149).toNat * 2 ^ 23 + significand) / 2 ^ 23 - 1 : Nat)) = exponent + 1 := by
      omega
    rw [if_neg (by omega), exact, field, carried, Binary.extended, Binary.extended]
    congr 2
    have doubled : (8388608 : ℝ) * 2 ^ (exponent + 1) = 16777216 * 2 ^ exponent := by
      rw [zpow_add_one₀ (by norm_num)]
      ring
    simp [doubled]
  · rcases lt_or_ge significand (2 ^ 23) with short | long
    · have least : exponent = -149 := by omega
      subst least
      rw [if_pos (by omega)]
      congr 2
      omega
    · have field : ((-149 : ℤ) +
          (((exponent + 149).toNat * 2 ^ 23 + significand) / 2 ^ 23 - 1 : Nat)) = exponent := by
        omega
      rw [if_neg (by omega), field]
      congr 2
      omega

/-- The nearest word to a number encodes the number rounded to the format. -/
theorem extended_value_nearest {number : Binary} (finite : number.isFinite = true) :
    (nearest number).value.extended = some (Format.single.round number.toReal) := by
  rw [← Format.extended_convert Format.proper_single finite, nearest_eq]
  cases number with
  | finite negative significand exponent =>
      cases converted : Format.single.convert (.finite negative significand exponent) with
      | nan =>
          have stands := Format.extended_convert Format.proper_single finite
          rw [converted] at stands
          cases stands
      | infinite sign =>
          rw [value_ofBits sign (by norm_num)]
          rfl
      | finite sign units scale =>
          exact toReal_value_ofBits sign (Format.rounded_of_nearest Format.proper_single
            (powerOfTwo_pos exponent).2 converted).2
  | _ => cases finite

/-! ## Numbers of both formats -/

theorem represents_value {single : Single} (finite : single.isFinite = true) :
    Format.single.Represents single.value.toReal := by
  rcases exists_parts_of_isFinite finite with ⟨negative, significand, exponent, parts, digits, low,
    high⟩
  refine ⟨significand, exponent, digits, low, high, ?_⟩
  rw [parts]
  cases negative <;> simp [abs_of_nonneg, abs_mul]

end Single

namespace Format.Represents

variable {x : ℝ} (represents : single.Represents x)
include represents

theorem double : double.Represents x := by
  rcases represents with ⟨significand, exponent, digits, low, high, same⟩
  have fits : 2 ^ single.digits < 2 ^ Format.double.digits := by decide
  have below : Format.double.lowest ≤ single.lowest := by decide
  have above : single.highest ≤ Format.double.highest := by decide
  exact ⟨significand, exponent, digits.trans fits, below.trans low, high.trans above, same⟩

/-- The square of a single number has at most twice as many digits, so nothing is lost of it. -/
theorem double_mul_self : Format.double.Represents (x * x) := by
  rcases represents with ⟨significand, exponent, digits, low, high, same⟩
  have digits : significand < 2 ^ 24 := digits
  have low : -149 ≤ exponent := low
  have high : exponent ≤ 104 := high
  refine ⟨significand * significand, exponent + exponent, ?_, ?_, ?_, ?_⟩
  · calc significand * significand ≤ 2 ^ 24 * 2 ^ 24 := Nat.mul_le_mul digits.le digits.le
      _ < 2 ^ 53 := by norm_num
  · show -1074 ≤ exponent + exponent
    omega
  · show exponent + exponent ≤ 971
    omega
  · rw [abs_mul, same, zpow_add₀ (by norm_num)]
    push_cast
    ring

theorem mul_self_le : x * x ≤ 2 ^ 256 := by
  have small : |x| ≤ 2 ^ 128 := by
    have less := represents.lt_bound.le
    have limit : Format.single.bound = 2 ^ 128 := by
      have exponent : single.highest + single.digits = (128 : ℕ) := rfl
      rw [bound, exponent, zpow_natCast]
    rwa [limit] at less
  calc x * x = |x| * |x| := (abs_mul_abs_self x).symm
    _ ≤ 2 ^ 128 * 2 ^ 128 := mul_le_mul small small (abs_nonneg x) (by positivity)
    _ = 2 ^ 256 := by norm_num

end Format.Represents

end Number

end TextVectors
