import Mathlib.Analysis.Real.Sqrt
import TextVectors.Proofs.Encoder.Batches
import TextVectors.Proofs.Number.Values

/-!
# Directions

In exact arithmetic a vector that is brought to unit length keeps its direction: the
result is a positive multiple of the vector whose squares add up to one, and there
is only one such multiple. It depends on the direction only. So a vector of unit
length stays as it is, and a provider may multiply each of its rows by a positive
factor of its own without any effect on the vectors that are served.
-/

namespace TextVectors

namespace UnitVector

/-- The operations without rounding, on real numbers. The least norm is the number that it is for
rounded operations. -/
noncomputable def Arithmetic.exact : Arithmetic ℝ ℝ where
  widen := id
  zero := 0
  add := (· + ·)
  mul := (· * ·)
  div := (· / ·)
  sqrt := Real.sqrt
  isFinite := fun _ => true
  less := fun x y => decide (x < y)
  leastNorm := Arithmetic.rounded.leastNorm.toReal
  narrow := id

/-- The sum of the squares of the components. -/
noncomputable def squares (vector : List ℝ) : ℝ :=
  (vector.map (· ^ 2)).sum

/-- A vector with all components multiplied by a factor. -/
noncomputable def scale (factor : ℝ) (vector : List ℝ) : List ℝ :=
  vector.map (factor * ·)

/-- A positive multiple of a vector. -/
def Multiple (vector multiple : List ℝ) : Prop :=
  ∃ factor > 0, multiple = scale factor vector

/-- A positive multiple of a vector whose squares add up to one. -/
structure UnitOf (vector unit : List ℝ) : Prop where
  multiple : Multiple vector unit
  squares_eq : squares unit = 1

/-! ## Multiples -/

theorem squares_nonneg (vector : List ℝ) : 0 ≤ squares vector := by
  apply List.sum_nonneg
  intro square mem
  rcases List.mem_map.mp mem with ⟨component, _, rfl⟩
  positivity

theorem squares_scale (factor : ℝ) (vector : List ℝ) :
    squares (scale factor vector) = factor ^ 2 * squares vector := by
  simp [squares, scale, List.map_map, Function.comp_def, mul_pow, List.sum_map_mul_left]

theorem scale_scale (factor other : ℝ) (vector : List ℝ) :
    scale factor (scale other vector) = scale (factor * other) vector := by
  simp [scale, mul_assoc]

@[simp]
theorem scale_one (vector : List ℝ) : scale 1 vector = vector := by
  simp [scale]

@[simp]
theorem length_scale (factor : ℝ) (vector : List ℝ) :
    (scale factor vector).length = vector.length :=
  List.length_map _

theorem Multiple.symm {vector multiple : List ℝ} (given : Multiple vector multiple) :
    Multiple multiple vector := by
  rcases given with ⟨factor, positive, rfl⟩
  refine ⟨factor⁻¹, by positivity, ?_⟩
  rw [scale_scale, inv_mul_cancel₀ positive.ne', scale_one]

theorem Multiple.trans {vector multiple other : List ℝ} (first : Multiple vector multiple)
    (second : Multiple multiple other) : Multiple vector other := by
  rcases first with ⟨factor, positive, rfl⟩
  rcases second with ⟨again, positive_again, rfl⟩
  exact ⟨again * factor, by positivity, scale_scale _ _ _⟩

namespace UnitOf

variable {vector multiple unit other : List ℝ}

/-- Two positive multiples of one vector, both of unit length, have the same factor. -/
theorem unique (first : UnitOf vector unit) (second : UnitOf vector other) : unit = other := by
  rcases first with ⟨⟨factor, positive, rfl⟩, one⟩
  rcases second with ⟨⟨again, positive_again, rfl⟩, also⟩
  rw [squares_scale] at one also
  have filled : squares vector ≠ 0 := right_ne_zero_of_mul_eq_one one
  have same : factor ^ 2 = again ^ 2 := mul_right_cancel₀ filled (one.trans also.symm)
  rw [(pow_left_inj₀ positive.le positive_again.le two_ne_zero).mp same]

theorem self (reached : UnitOf vector unit) : UnitOf unit unit where
  multiple := ⟨1, one_pos, (scale_one unit).symm⟩
  squares_eq := reached.squares_eq

/-- What is of unit length in a direction does not depend on the length of the vector given. -/
theorem of_multiple (given : Multiple vector multiple) (reached : UnitOf multiple unit) :
    UnitOf vector unit where
  multiple := given.trans reached.multiple
  squares_eq := reached.squares_eq

end UnitOf

/-! ## Vectors brought to unit length -/

theorem toReal_leastNorm : Arithmetic.rounded.leastNorm.toReal = 9223372 * 2 ^ (-63 : ℤ) := by
  have number : Arithmetic.rounded.leastNorm = .finite false 9223372 (-63) := by decide +kernel
  simp [number]

theorem leastNorm_pos : 0 < Arithmetic.rounded.leastNorm.toReal := by
  rw [toReal_leastNorm]
  positivity

theorem leastNorm_le_one : Arithmetic.rounded.leastNorm.toReal ≤ 1 := by
  rw [toReal_leastNorm]
  norm_num

theorem exact_norm (vector : List ℝ) : Arithmetic.exact.norm vector = √(squares vector) := by
  have sums (start : ℝ) :
      vector.foldl (fun sum component => sum + component * component) start =
        start + squares vector := by
    induction vector generalizing start with
    | nil => simp [squares]
    | cons component vector ih => simp [ih, squares, pow_two, add_assoc]
  have whole := sums 0
  rw [zero_add] at whole
  exact congrArg Real.sqrt whole

theorem exact_normalize (vector : List ℝ) :
    Arithmetic.exact.normalize vector =
      if √(squares vector) < Arithmetic.exact.leastNorm then .error .zeroNorm
      else .ok (scale (√(squares vector))⁻¹ vector) := by
  unfold Arithmetic.normalize
  rw [exact_norm]
  simp [Arithmetic.exact, scale, div_eq_inv_mul]

theorem unitOf_scale_inv {vector : List ℝ} (filled : 0 < √(squares vector)) :
    UnitOf vector (scale (√(squares vector))⁻¹ vector) where
  multiple := ⟨_, inv_pos.mpr filled, rfl⟩
  squares_eq := by
    rw [squares_scale, inv_pow, Real.sq_sqrt (squares_nonneg vector),
      inv_mul_cancel₀ (Real.sqrt_pos.mp filled).ne']

/-- A vector that is not too short is brought to unit length, and to nothing else. -/
theorem exact_normalize_eq_ok_iff {vector unit : List ℝ} :
    Arithmetic.exact.normalize vector = .ok unit ↔
      Arithmetic.exact.leastNorm ≤ √(squares vector) ∧ UnitOf vector unit := by
  rw [exact_normalize]
  by_cases short : √(squares vector) < Arithmetic.exact.leastNorm
  · simp [short, not_le.mpr short]
  · have long := not_lt.mp short
    have reached := unitOf_scale_inv (leastNorm_pos.trans_le long)
    rw [if_neg short, Except.ok.injEq]
    constructor
    · rintro rfl
      exact ⟨long, reached⟩
    · rintro ⟨_, also⟩
      exact reached.unique also

end UnitVector

/-! ## Rescaled rows -/

/-- What two providers give for a batch: the same fault, or rows of which each is a positive
multiple of the one in its place. -/
def Rescaled : Except Fault (List (List ℝ)) → Except Fault (List (List ℝ)) → Prop
  | .ok rows, .ok others => List.Forall₂ UnitVector.Multiple rows others
  | .error fault, .error other => fault = other
  | _, _ => False

/-- A provider that gives the rows of another one multiplied by positive factors. -/
structure Provider.Rescales (provider other : Provider ℝ) : Prop where
  dimension : other.dimension = provider.dimension
  rows : ∀ batch, Rescaled (provider.embed batch).rows (other.embed batch).rows

namespace Encoder

open UnitVector

variable {modelId : String} {provider other : Provider ℝ} {batchSize : Nat}

theorem accepts_exact_iff {row vector : List ℝ} :
    (ofProvider .exact modelId provider batchSize).Accepts row vector ↔
      row.length = provider.dimension ∧ Arithmetic.exact.leastNorm ≤ √(squares row) ∧
        UnitOf row vector :=
  and_congr_right' exact_normalize_eq_ok_iff

/-- The batch of a rescaled provider gives the same vectors, if its rows are not too short. -/
theorem Yields.of_rescales (rescales : provider.Rescales other) {batch : List String}
    {vectors : List (List ℝ)}
    (yields : (ofProvider .exact modelId provider batchSize).Yields batch vectors)
    (long : ∀ rows, (other.embed batch).rows = .ok rows →
      ∀ row ∈ rows, Arithmetic.exact.leastNorm ≤ √(squares row)) :
    (ofProvider .exact modelId other batchSize).Yields batch vectors := by
  rcases yields with ⟨rows, embedded, count, accepted⟩
  have embedded : (provider.embed batch).rows = .ok rows := embedded
  have given := rescales.rows batch
  cases found : (other.embed batch).rows with
  | error fault => simp [embedded, found, Rescaled] at given
  | ok others =>
      simp only [embedded, found, Rescaled] at given
      refine ⟨others, found, by rw [← given.length_eq, count], ?_⟩
      have traced := exists_forall₂_iff.mp ⟨rows, given.flip, accepted⟩
      refine ((List.forall₂_and_left _ _).mpr ⟨long others found, traced⟩).imp ?_
      rintro multiple vector ⟨far, row, same, accepts⟩
      rcases accepts_exact_iff.mp accepts with ⟨length, _, reached⟩
      have back : Multiple multiple row := Multiple.symm same
      refine accepts_exact_iff.mpr ⟨?_, far, reached.of_multiple back⟩
      rcases same with ⟨factor, _, rfl⟩
      rw [length_scale, length, rescales.dimension]

/-- A rescaled provider does not give other vectors for a batch. -/
theorem Yields.eq_of_rescales (rescales : provider.Rescales other) {batch : List String}
    {vectors others : List (List ℝ)}
    (yields : (ofProvider .exact modelId provider batchSize).Yields batch vectors)
    (also : (ofProvider .exact modelId other batchSize).Yields batch others) :
    vectors = others := by
  rcases yields with ⟨rows, embedded, _, accepted⟩
  rcases also with ⟨multiples, embedded_again, _, accepted_again⟩
  have embedded : (provider.embed batch).rows = .ok rows := embedded
  have embedded_again : (other.embed batch).rows = .ok multiples := embedded_again
  have given := rescales.rows batch
  simp only [embedded, embedded_again, Rescaled] at given
  have traced := exists_forall₂_iff.mp ⟨multiples, given, accepted_again⟩
  apply eq_of_forall₂ accepted traced
  rintro row vector found accepts ⟨multiple, same, accepts_again⟩
  exact (accepts_exact_iff.mp accepts).2.2.unique
    ((accepts_exact_iff.mp accepts_again).2.2.of_multiple same)

theorem encode_eq_of_rescales (rescales : provider.Rescales other) {texts : List String}
    {vectors others : List (List ℝ)}
    (succeeded : ((ofProvider .exact modelId provider batchSize).encode texts).outcome =
      .ok vectors)
    (also : ((ofProvider .exact modelId other batchSize).encode texts).outcome = .ok others) :
    others = vectors := by
  rcases (encode_outcome_eq_ok_iff _).mp succeeded with ⟨pieces, yields, rfl⟩
  rcases (encode_outcome_eq_ok_iff _).mp also with ⟨parts, yields_again, rfl⟩
  rw [eq_of_forall₂ yields yields_again fun _ _ _ => Yields.eq_of_rescales rescales]

theorem encode_of_rescales (rescales : provider.Rescales other) {texts : List String}
    {vectors : List (List ℝ)}
    (succeeded : ((ofProvider .exact modelId provider batchSize).encode texts).outcome =
      .ok vectors)
    (long : ∀ batch ∈ (ofProvider .exact modelId provider batchSize).chunks texts, ∀ rows,
      (other.embed batch).rows = .ok rows →
        ∀ row ∈ rows, Arithmetic.exact.leastNorm ≤ √(squares row)) :
    ((ofProvider .exact modelId other batchSize).encode texts).outcome = .ok vectors := by
  rcases (encode_outcome_eq_ok_iff _).mp succeeded with ⟨pieces, yields, rfl⟩
  refine (encode_outcome_eq_ok_iff _).mpr ⟨pieces, ?_, rfl⟩
  refine ((List.forall₂_and_left _ _).mpr ⟨long, yields⟩).imp ?_
  rintro batch piece ⟨far, given⟩
  exact given.of_rescales rescales far

end Encoder

/-! ## Main result -/

namespace UnitVector

open Encoder (ofProvider encode_eq_of_rescales encode_of_rescales exists_vectorAt length_of_encode)

/-- In exact arithmetic a vector is brought to unit length iff it is not too short, and it becomes
its only positive multiple whose squares add up to one. So a second time changes nothing, and
another length in the same direction gives the same. Each vector of an encode is the one of the row
that the provider gives for its text, and positive factors to these rows have no effect. -/
theorem exact_directions :
    (∀ vector unit, Arithmetic.exact.normalize vector = .ok unit ↔
      Arithmetic.exact.leastNorm ≤ √(squares vector) ∧ UnitOf vector unit) ∧
    (∀ vector unit other, UnitOf vector unit → UnitOf vector other → unit = other) ∧
    (∀ vector unit, Arithmetic.exact.normalize vector = .ok unit →
      Arithmetic.exact.normalize unit = .ok unit ∧
        ∀ factor > 0, ∀ again,
          Arithmetic.exact.normalize (scale factor vector) = .ok again → again = unit) ∧
    ∀ modelId provider batchSize texts vectors,
      ((ofProvider .exact modelId provider batchSize).encode texts).outcome = .ok vectors →
        let size := max batchSize 1
        vectors.length = texts.length ∧
        (∀ index < texts.length, ∃ batch rows row vector,
          batch = (texts.drop (index / size * size)).take size ∧
            batch[index % size]? = texts[index]? ∧ (provider.embed batch).rows = .ok rows ∧
            rows.length = batch.length ∧ rows[index % size]? = some row ∧
            vectors[index]? = some vector ∧ Arithmetic.exact.norm vector = 1 ∧
            UnitOf row vector) ∧
        ∀ other, Provider.Rescales provider other →
          (∀ others, ((ofProvider .exact modelId other batchSize).encode texts).outcome =
            .ok others → others = vectors) ∧
          ((∀ batch ∈ (ofProvider .exact modelId provider batchSize).chunks texts, ∀ rows,
              (other.embed batch).rows = .ok rows →
                ∀ row ∈ rows, Arithmetic.exact.leastNorm ≤ √(squares row)) →
            ((ofProvider .exact modelId other batchSize).encode texts).outcome = .ok vectors) := by
  refine ⟨fun _ _ => exact_normalize_eq_ok_iff, fun _ _ _ => UnitOf.unique, ?_, ?_⟩
  · intro vector unit normalized
    have reached := (exact_normalize_eq_ok_iff.mp normalized).2
    constructor
    · rw [exact_normalize_eq_ok_iff, reached.squares_eq, Real.sqrt_one]
      exact ⟨leastNorm_le_one, reached.self⟩
    · intro factor positive again normalized_again
      have reached_again := (exact_normalize_eq_ok_iff.mp normalized_again).2
      exact (reached_again.of_multiple ⟨factor, positive, rfl⟩).unique reached
  · intro modelId provider batchSize texts vectors succeeded size
    refine ⟨length_of_encode succeeded, ?_, ?_⟩
    · intro index inside
      rcases exists_vectorAt succeeded inside with ⟨vector, vectorFound, vectorAt⟩
      rcases vectorAt.exists_rows inside with
        ⟨batch, rows, row, slice, textFound, embedded, count, rowFound, accepts⟩
      have reached := (Encoder.accepts_exact_iff.mp accepts).2.2
      have one : Arithmetic.exact.norm vector = 1 := by
        rw [exact_norm, reached.squares_eq, Real.sqrt_one]
      exact ⟨batch, rows, row, vector, slice, textFound, embedded, count, rowFound, vectorFound,
        one, reached⟩
    · intro other rescales
      exact ⟨fun others => encode_eq_of_rescales rescales succeeded,
        encode_of_rescales rescales succeeded⟩

end UnitVector

end TextVectors
