import TextVectors.Proofs.Number.Operations

/-!
# Rounded roots

The root is taken as a natural number, to more digits than the format has, and half
a unit is added if this is not exact. The true root and what is rounded instead then
lie between the same two units, and wherever rounding may change, below a power of
two or in the middle between two numbers of the format, there is a whole unit.
-/

namespace TextVectors

namespace Number

namespace Format

/-! ## Whole roots -/

theorem rootBetween_eq_sqrt {value steps low high : Nat} (least : low * low ≤ value)
    (most : value < high * high) (near : high - low ≤ 2 ^ steps) :
    rootBetween value steps low high = value.sqrt := by
  induction steps generalizing low high with
  | zero =>
      have beside : high ≤ low + 1 := by
        rw [pow_zero] at near
        omega
      exact Nat.eq_sqrt.mpr ⟨least, most.trans_le (Nat.mul_le_mul beside beside)⟩
  | succ steps ih =>
      rw [pow_succ] at near
      unfold rootBetween
      simp only
      split
      · next reached => exact ih reached most (by omega)
      · next beyond => exact ih least (not_le.mp beyond) (by omega)

theorem wholeRoot_eq_sqrt (value : Nat) : wholeRoot value = value.sqrt := by
  apply rootBetween_eq_sqrt (by omega)
  · have less : value < 2 ^ (value.log2 + 1) := Nat.lt_log2_self
    have wide : 2 ^ (value.log2 + 1) ≤ 2 ^ (2 * (value.log2 / 2 + 1)) :=
      Nat.pow_le_pow_right (by norm_num) (by omega)
    rw [Nat.pow_eq, ← pow_two, ← pow_mul, mul_comm]
    exact less.trans_le wide
  · rw [Nat.pow_eq, Nat.sub_zero]
    exact Nat.pow_le_pow_right (by norm_num) (by omega)

/-! ## Between two units -/

/-- Whether a half of an integer lies below or above decides how a number is rounded. -/
theorem toEven_congr {x y : ℝ} (below : ∀ twice : ℤ, x < twice / 2 ↔ y < twice / 2)
    (above : ∀ twice : ℤ, (twice / 2 : ℝ) < x ↔ (twice / 2 : ℝ) < y) : toEven x = toEven y := by
  have whole (n : ℤ) : ((2 * n : ℤ) / 2 : ℝ) = n := by
    push_cast
    ring
  have floors : ⌊x⌋ = ⌊y⌋ := by
    apply le_antisymm
    · rw [Int.le_floor, ← whole, ← not_lt, ← below, not_lt, whole]
      exact Int.floor_le x
    · rw [Int.le_floor, ← whole, ← not_lt, below, not_lt, whole]
      exact Int.floor_le y
  have middle (n : ℤ) : ((2 * n + 1 : ℤ) / 2 : ℝ) = n + 1 / 2 := by
    push_cast
    ring
  have low (z : ℝ) : Int.fract z < 1 / 2 ↔ z < ((2 * ⌊z⌋ + 1 : ℤ) / 2 : ℝ) := by
    rw [middle, Int.fract, sub_lt_iff_lt_add']
  have high (z : ℝ) : 1 / 2 < Int.fract z ↔ ((2 * ⌊z⌋ + 1 : ℤ) / 2 : ℝ) < z := by
    rw [middle, Int.fract, lt_sub_iff_add_lt']
  unfold toEven
  simp only [low, high, floors, below, above]

/-- Two numbers between the same neighbouring multiples of a power of two. -/
structure Between (units : Nat) (exponent : ℤ) (x : ℝ) : Prop where
  above : units * 2 ^ exponent < x
  below : x < (units + 1 : ℕ) * 2 ^ exponent

namespace Between

variable {format : Format} {units : Nat} {exponent : ℤ} {x y : ℝ}

theorem lt_multiple_iff (between : Between units exponent x) (multiple : ℤ) :
    x < multiple * 2 ^ exponent ↔ units < multiple := by
  constructor
  · intro less
    have apart : (units : ℝ) < multiple :=
      lt_of_mul_lt_mul_right (between.above.trans less) (by positivity)
    exact_mod_cast apart
  · intro less
    have beyond : ((units + 1 : ℕ) : ℝ) ≤ multiple := by exact_mod_cast less
    exact between.below.trans_le (mul_le_mul_of_nonneg_right beyond (by positivity))

theorem multiple_lt_iff (between : Between units exponent x) (multiple : ℤ) :
    multiple * 2 ^ exponent < x ↔ multiple ≤ units := by
  constructor
  · intro less
    have apart : (multiple : ℝ) < (units + 1 : ℕ) :=
      lt_of_mul_lt_mul_right (less.trans between.below) (by positivity)
    have integers : multiple < (units + 1 : ℕ) := by exact_mod_cast apart
    omega
  · intro le
    have within : (multiple : ℝ) ≤ units := by exact_mod_cast le
    exact (mul_le_mul_of_nonneg_right within (by positivity)).trans_lt between.above

theorem pos (between : Between units exponent x) : 0 < x :=
  lt_of_le_of_lt (by positivity) between.above

/-- A higher power of two is a multiple. -/
theorem multiple_zpow {higher : ℤ} (le : exponent ≤ higher) (n : ℤ) :
    (n : ℝ) * 2 ^ higher = (n * 2 ^ (higher - exponent).toNat : ℤ) * 2 ^ exponent := by
  push_cast
  rw [mul_assoc, ← zpow_natCast, ← zpow_add₀ (by norm_num)]
  congr 2
  omega

/-- Both are rounded to the same, if the format has fewer digits than they have units. -/
theorem grid_eq (first : Between units exponent x) (second : Between units exponent y)
    (many : 2 ^ (format.digits + 1) ≤ units) : format.grid x = format.grid y := by
  have large (z : ℝ) (between : Between units exponent z) (other : ℤ)
      (less : z < 2 ^ (other + format.digits)) : exponent + 1 < other := by
    have real : (2 : ℝ) ^ (format.digits + 1) ≤ units := by exact_mod_cast many
    have chain : (2 : ℝ) ^ (exponent + 1 + format.digits) < 2 ^ (other + format.digits) := by
      calc (2 : ℝ) ^ (exponent + 1 + format.digits)
          = 2 ^ (format.digits + 1) * 2 ^ exponent := by
            rw [← zpow_natCast, ← zpow_add₀ (by norm_num)]
            congr 1
            push_cast
            ring
        _ ≤ units * 2 ^ exponent := mul_le_mul_of_nonneg_right real (by positivity)
        _ < z := between.above
        _ < 2 ^ (other + format.digits) := less
    have := (zpow_lt_zpow_iff_right₀ (by norm_num : (1 : ℝ) < 2)).mp chain
    omega
  have alike : format.unitExponent x = format.unitExponent y := by
    have le_of (z w : ℝ) (one : Between units exponent z) (two : Between units exponent w) :
        format.unitExponent z ≤ format.unitExponent w := by
      have less : w < 2 ^ (format.unitExponent w + format.digits) := lt_of_unitExponent two.pos
      have far := large w two _ less
      rw [unitExponent_le_iff format one.pos (format.lowest_le_unitExponent w)]
      have power := multiple_zpow (show exponent ≤ format.unitExponent w + format.digits by omega) 1
      rw [Int.cast_one, one_mul] at power
      rw [power, two.lt_multiple_iff] at less
      rw [power, one.lt_multiple_iff]
      exact less
    exact le_antisymm (le_of x y first second) (le_of y x second first)
  have far : exponent + 1 < format.unitExponent x := large x first _ (lt_of_unitExponent first.pos)
  have halves (twice : ℤ) : (twice / 2 : ℝ) * 2 ^ format.unitExponent x =
      (twice * 2 ^ (format.unitExponent x - 1 - exponent).toNat : ℤ) * 2 ^ exponent := by
    rw [← multiple_zpow (by omega), zpow_sub_one₀ (by norm_num)]
    ring
  unfold grid count
  rw [← alike]
  congr 2
  apply toEven_congr
  · intro twice
    rw [div_lt_iff₀ (by positivity), div_lt_iff₀ (by positivity), halves, first.lt_multiple_iff,
      second.lt_multiple_iff]
  · intro twice
    rw [lt_div_iff₀ (by positivity), lt_div_iff₀ (by positivity), halves, first.multiple_lt_iff,
      second.multiple_lt_iff]

end Between

/-! ## Roots -/

/-- The number that is rounded instead of a root: the root itself if it is whole, and otherwise half
a unit above its whole part. -/
def doubledRoot (scaled : Nat) : Nat :=
  2 * scaled.sqrt + if scaled.sqrt * scaled.sqrt = scaled then 0 else 1

variable {format : Format}

theorem magnitude_doubledRoot {scaled : Nat} (many : 4 ^ (format.digits + 2) ≤ scaled)
    (exponent : ℤ) :
    format.magnitude (doubledRoot scaled * 2 ^ (exponent - 1)) =
      format.magnitude (√scaled * 2 ^ exponent) := by
  have half : (2 : ℝ) ^ exponent = 2 * 2 ^ (exponent - 1) := by
    rw [← zpow_one_add₀ (by norm_num)]
    congr 1
    omega
  by_cases exact : scaled.sqrt * scaled.sqrt = scaled
  · have root : √(scaled : ℝ) = scaled.sqrt := by
      rw [Real.sqrt_eq_iff_mul_self_eq (by positivity) (by positivity)]
      exact_mod_cast exact.symm
    congr 1
    rw [doubledRoot, if_pos exact, root, half]
    push_cast
    ring
  · have low : (scaled.sqrt : ℝ) < √scaled := by
      apply Real.lt_sqrt_of_sq_lt
      have less : scaled.sqrt * scaled.sqrt < scaled := lt_of_le_of_ne (Nat.sqrt_le scaled) exact
      rw [pow_two]
      exact_mod_cast less
    have high : √(scaled : ℝ) < (scaled.sqrt + 1 : ℕ) := by
      rw [Real.sqrt_lt' (by positivity), pow_two]
      exact_mod_cast Nat.lt_succ_sqrt scaled
    have root : Between scaled.sqrt exponent (√scaled * 2 ^ exponent) :=
      ⟨mul_lt_mul_of_pos_right low (by positivity), mul_lt_mul_of_pos_right high (by positivity)⟩
    -- Half a unit above the whole part takes the place of a root that is not whole: no boundary of
    -- the rounding lies between them.
    have instead : Between scaled.sqrt exponent (doubledRoot scaled * 2 ^ (exponent - 1)) := by
      rw [doubledRoot, if_neg exact]
      constructor
      · rw [half, ← mul_assoc]
        apply mul_lt_mul_of_pos_right _ (by positivity)
        push_cast
        linarith
      · rw [half, ← mul_assoc]
        apply mul_lt_mul_of_pos_right _ (by positivity)
        push_cast
        linarith
    have digits : 2 ^ (format.digits + 1) ≤ scaled.sqrt := by
      rw [Nat.le_sqrt']
      refine le_trans ?_ many
      rw [← pow_mul, show 4 = 2 ^ 2 by norm_num, ← pow_mul]
      exact Nat.pow_le_pow_right (by norm_num) (by omega)
    rw [magnitude, magnitude, instead.grid_eq root digits]

/-- A number with an odd power of two or an even one is a whole number times a square. -/
theorem mul_zpow_eq_square (significand : Nat) (exponent : ℤ) (places : Nat) :
    (significand * 2 ^ exponent : ℝ) =
      (significand * 2 ^ (exponent % 2).toNat * 4 ^ places : Nat) *
        (2 ^ ((exponent - exponent % 2) / 2 - places)) ^ 2 := by
  have four : (4 : ℝ) ^ places = 2 ^ (2 * places : ℤ) := by
    rw [zpow_mul, zpow_natCast]
    norm_num
  have odd : (2 : ℝ) ^ (exponent % 2).toNat = 2 ^ (exponent % 2) := by
    rw [← zpow_natCast, Int.toNat_of_nonneg (by omega)]
  rw [← zpow_natCast, ← zpow_mul]
  push_cast
  rw [four, odd, mul_assoc, mul_assoc, ← zpow_add₀ (by norm_num), ← zpow_add₀ (by norm_num)]
  congr 2
  omega

theorem extended_sqrt (proper : format.Proper) {number : Binary} (finite : number.isFinite = true)
    (nonneg : 0 ≤ number.toReal) :
    (format.sqrt number).extended = some (format.round (√number.toReal)) := by
  cases number with
  | finite negative significand exponent =>
      rcases significand.eq_zero_or_pos with rfl | positive
      · simp [sqrt, zero, Binary.extended, round]
      cases negative with
      | true =>
          have below : 0 < (significand : ℝ) * 2 ^ exponent := by positivity
          simp at nonneg
          linarith
      | false =>
          let scaled := significand * 2 ^ (exponent % 2).toNat * 4 ^ (format.digits + 2)
          let unit := (exponent - exponent % 2) / 2 - (format.digits + 2 : ℕ)
          have many : 4 ^ (format.digits + 2) ≤ scaled :=
            Nat.le_mul_of_pos_left _ (by positivity)
          have root : √(Binary.finite false significand exponent).toReal = √scaled * 2 ^ unit := by
            rw [Binary.toReal_finite, if_neg (by simp),
              mul_zpow_eq_square significand exponent (format.digits + 2),
              Real.sqrt_mul (by positivity), Real.sqrt_sq (by positivity)]
          have rounded : format.sqrt (.finite false significand exponent) =
              format.nearest false (doubledRoot scaled * (powerOfTwo (unit - 1)).1)
                (powerOfTwo (unit - 1)).2 := by
            simp only [sqrt, if_neg positive.ne', wholeRoot_eq_sqrt]
            rfl
          rw [rounded, extended_nearest proper _ _ (powerOfTwo_pos _).2, units_div,
            magnitude_doubledRoot many, root, round_of_nonneg (by positivity)]
          rfl
  | _ => cases finite

end Format

end Number

end TextVectors
