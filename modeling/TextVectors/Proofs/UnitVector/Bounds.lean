import TextVectors.Proofs.Json.Writing
import TextVectors.Proofs.Number.Roots
import TextVectors.Proofs.Number.Singles
import TextVectors.Proofs.Service.Dimension
import TextVectors.Proofs.UnitVector.Direction

/-!
# Bounds on rounded vectors

However long a vector is, its norm is finite iff all its components are. A square of
a component is a number of the double format, so nothing is lost of it, and where a
sum of squares has become so large that another square no longer matters, it stops
growing, far below the largest number of the format.

The sum is never less than one of the squares, for rounding keeps the order, and so
the norm is never less than one of the components. Therefore no quotient is greater
than one, before it is rounded and after.
-/

namespace TextVectors

open Number

namespace UnitVector

namespace Arithmetic

/-! ## Sums of squares -/

/-- A bound on the squares of single numbers. -/
def greatestSquare : Nat :=
  Nat.pow 2 256

/-- The root of the greatest sum. -/
def greatestNorm : Nat :=
  Nat.pow 2 155

/-- A square no longer matters for a sum as great as this. -/
def greatestSum : Nat :=
  greatestNorm * greatestNorm

theorem round_greatestSum :
    Format.double.round (greatestSum + greatestSquare) = ((greatestSum : ℝ) : EReal) := by
  have number : Format.double.nearest false (greatestSum + greatestSquare) 1 =
      .finite false (Nat.pow 2 52) 258 := by
    decide +kernel
  have whole : (Binary.finite false (Nat.pow 2 52) 258).toReal = greatestSum := by
    have natural : greatestSum = Nat.pow 2 52 * 2 ^ 258 := by decide +kernel
    rw [natural, Nat.cast_mul, Nat.cast_pow, Binary.toReal_finite, if_neg (by simp)]
    rfl
  have stands := Format.extended_nearest Format.proper_double false
    (greatestSum + greatestSquare) one_pos
  have nonneg : (0 : ℝ) ≤ greatestSum + greatestSquare := by positivity
  rw [number, Nat.cast_one, div_one, Nat.cast_add, if_neg (by simp),
    ← Format.round_of_nonneg nonneg] at stands
  exact (Option.some.inj stands).symm.trans (congrArg Real.toEReal whole)

theorem represents_greatestNorm : Format.double.Represents greatestNorm := by
  refine ⟨1, 155, by decide, by decide, by decide, ?_⟩
  rw [abs_of_nonneg (by positivity), greatestNorm, Nat.pow_eq, Nat.cast_pow]
  simp

/-- A sum of squares, as far as it has come. -/
structure Summed (sum : Binary) : Prop where
  finite : sum.isFinite = true
  represents : Format.double.Represents sum.toReal
  nonneg : 0 ≤ sum.toReal
  small : sum.toReal ≤ greatestSum

theorem toReal_zero : rounded.zero.toReal = 0 := by
  simp [rounded, Format.zero]

theorem summed_zero : Summed rounded.zero where
  finite := rfl
  represents := by
    rw [toReal_zero]
    exact Format.represents_zero Format.proper_double
  nonneg := toReal_zero.ge
  small := by
    rw [toReal_zero]
    positivity

section
variable {component : Single} (finite : component.isFinite = true)
include finite

theorem square_of_isFinite :
    (rounded.square component).isFinite = true ∧
      (rounded.square component).toReal = component.value.toReal * component.value.toReal := by
  have represents := (Single.represents_value finite).double_mul_self
  apply Binary.isFinite_of_extended
  rw [← represents.round_eq]
  exact Format.extended_mul Format.proper_double finite finite

/-- Another square makes the sum no less, and does not lead beyond the greatest sum. -/
theorem summed_add {sum : Binary} (summed : Summed sum) :
    Summed (rounded.add sum (rounded.square component)) ∧
      sum.toReal ≤ (rounded.add sum (rounded.square component)).toReal ∧
      component.value.toReal * component.value.toReal ≤
        (rounded.add sum (rounded.square component)).toReal := by
  have represents := Single.represents_value finite
  rcases square_of_isFinite finite with ⟨finiteSquare, square⟩
  have nonneg := mul_self_nonneg component.value.toReal
  have bounded : component.value.toReal * component.value.toReal ≤ greatestSquare := by
    rw [greatestSquare, Nat.pow_eq, Nat.cast_pow]
    exact represents.mul_self_le
  have added : (rounded.add sum (rounded.square component)).extended =
      some (Format.double.round
        (sum.toReal + component.value.toReal * component.value.toReal)) := by
    rw [← square]
    exact Format.extended_add Format.proper_double summed.finite finiteSquare
  rcases Format.between_of_extended Format.proper_double added summed.represents.round_eq
    round_greatestSum (le_add_of_nonneg_right nonneg) (add_le_add summed.small bounded) with
    ⟨finiteSum, result, atLeast, atMost⟩
  have grown : Summed (rounded.add sum (rounded.square component)) :=
    ⟨finiteSum, Format.represents_of_round Format.proper_double result,
      summed.nonneg.trans atLeast, atMost⟩
  refine ⟨grown, atLeast, ?_⟩
  exact represents.double_mul_self.le_of_round Format.proper_double
    (le_add_of_nonneg_left summed.nonneg) result

end

/-- The steps of a sum of squares, from the left. -/
theorem summed_foldl {start : Binary} (summed : Summed start) {vector : List Single}
    (finite : ∀ component ∈ vector, component.isFinite = true) :
    let sum := vector.foldl (fun sum component => rounded.add sum (rounded.square component)) start
    Summed sum ∧ start.toReal ≤ sum.toReal ∧
      ∀ component ∈ vector, component.value.toReal * component.value.toReal ≤ sum.toReal := by
  induction vector generalizing start with
  | nil => exact ⟨summed, le_rfl, by simp⟩
  | cons component vector ih =>
      rw [List.forall_mem_cons] at finite
      rcases summed_add finite.1 summed with ⟨next, atLeast, square⟩
      rcases ih next finite.2 with ⟨later, grown, squares⟩
      exact ⟨later, atLeast.trans grown, List.forall_mem_cons.mpr ⟨square.trans grown, squares⟩⟩

theorem isFinite_of_foldl {start : Binary} {vector : List Single}
    (finite : (vector.foldl (fun sum component => rounded.add sum (rounded.square component))
      start).isFinite = true) :
    start.isFinite = true ∧ ∀ component ∈ vector, component.isFinite = true := by
  induction vector generalizing start with
  | nil => exact ⟨finite, by simp⟩
  | cons component vector ih =>
      rcases ih finite with ⟨first, later⟩
      rcases Format.isFinite_of_add first with ⟨before, square⟩
      exact ⟨before, List.forall_mem_cons.mpr ⟨(Format.isFinite_of_mul square).1, later⟩⟩

/-! ## Norms -/

/-- The norm of finite components is finite, and none of them is greater. -/
theorem norm_of_isFinite {vector : List Single}
    (finite : ∀ component ∈ vector, component.isFinite = true) :
    (rounded.norm vector).isFinite = true ∧
      ∀ component ∈ vector, |component.value.toReal| ≤ (rounded.norm vector).toReal := by
  rcases summed_foldl summed_zero finite with ⟨summed, _, squares⟩
  have rooted : (rounded.norm vector).extended =
      some (Format.double.round (√(rounded.sumOfSquares vector).toReal)) :=
    Format.extended_sqrt Format.proper_double summed.finite summed.nonneg
  have top : √(rounded.sumOfSquares vector).toReal ≤ greatestNorm := by
    rw [Real.sqrt_le_left (by positivity), pow_two]
    have small := summed.small
    rw [greatestSum, Nat.cast_mul] at small
    exact small
  rcases Format.between_of_extended Format.proper_double rooted
    (Format.represents_zero Format.proper_double).round_eq represents_greatestNorm.round_eq
    (Real.sqrt_nonneg _) top with ⟨finiteNorm, result, _⟩
  refine ⟨finiteNorm, ?_⟩
  intro component mem
  have below : |component.value.toReal| ≤ √(rounded.sumOfSquares vector).toReal := by
    apply Real.abs_le_sqrt
    rw [pow_two]
    exact squares component mem
  exact (Single.represents_value (finite component mem)).double.abs.le_of_round
    Format.proper_double below result

/-- The norm is finite iff all components are. -/
theorem isFinite_norm_iff {vector : List Single} :
    (rounded.norm vector).isFinite = true ↔
      ∀ component ∈ vector, component.isFinite = true := by
  constructor
  · intro finite
    exact (isFinite_of_foldl (Format.isFinite_of_sqrt finite)).2
  · intro finite
    exact (norm_of_isFinite finite).1

theorem normalize_eq_notFinite_iff {vector : List Single} :
    rounded.normalize vector = .error .notFinite ↔
      ∃ component ∈ vector, component.isFinite = false := by
  have finite : rounded.isFinite (rounded.norm vector) = true ↔
      ∀ component ∈ vector, component.isFinite = true := isFinite_norm_iff
  unfold normalize
  by_cases all : ∀ component ∈ vector, component.isFinite = true
  · have none : ¬∃ component ∈ vector, component.isFinite = false := by simpa using all
    simp only [finite.mpr all, Bool.not_true, Bool.false_eq_true, if_false, none, iff_false]
    split <;> simp
  · have some_other : ∃ component ∈ vector, component.isFinite = false := by simpa using all
    simp [some_other, Bool.eq_false_iff.mpr (mt finite.mp all)]

/-! ## Quotients -/

/-- What becomes of a component. -/
structure Scaled (component scaled : Single) : Prop where
  finite : scaled.isFinite = true
  abs_le_one : |scaled.value.toReal| ≤ 1
  zero : component.value.toReal = 0 → scaled.value.toReal = 0

theorem scaled_of_abs_le {component : Single} {norm : Binary} (finite : component.isFinite = true)
    (finiteNorm : norm.isFinite = true) (positive : 0 < norm.toReal)
    (le : |component.value.toReal| ≤ norm.toReal) :
    Scaled component (rounded.narrow (rounded.div (rounded.widen component) norm)) := by
  have quotient : |component.value.toReal / norm.toReal| ≤ 1 := by
    rwa [abs_div, abs_of_pos positive, div_le_one positive]
  have divided := Format.extended_div Format.proper_double finite finiteNorm positive.ne'
  rcases Format.abs_le_one_of_extended Format.proper_double divided quotient with
    ⟨finiteQuotient, small, zero⟩
  have narrowed := Single.extended_value_nearest finiteQuotient
  rcases Format.abs_le_one_of_extended Format.proper_single narrowed small with
    ⟨finiteScaled, small_again, zero_again⟩
  refine ⟨finiteScaled, small_again, ?_⟩
  intro none
  apply zero_again
  apply zero
  rw [none, zero_div]

/-- A vector that is brought to unit length has finite components, none of which exceeds one, and
the zeros stay where they are. -/
theorem scaled_of_normalize {vector unit : List Single}
    (normalized : rounded.normalize vector = .ok unit) : List.Forall₂ Scaled vector unit := by
  unfold normalize at normalized
  simp only at normalized
  split_ifs at normalized with infinite short
  cases normalized
  have finiteNorm : rounded.isFinite (rounded.norm vector) = true := by simpa using infinite
  have finite := isFinite_norm_iff.mp finiteNorm
  have long : rounded.leastNorm.toReal ≤ (rounded.norm vector).toReal := by
    have least : rounded.leastNorm.isFinite = true := by decide +kernel
    exact not_lt.mp (mt (less_eq_true_iff finiteNorm least).mpr short)
  rw [List.forall₂_map_right_iff, List.forall₂_same]
  intro component mem
  exact scaled_of_abs_le (finite component mem) finiteNorm (leastNorm_pos.trans_le long)
    ((norm_of_isFinite finite).2 component mem)

/-! ## Vectors that are kept in place -/

section
variable {σ δ : Type} (arithmetic : Arithmetic σ δ)

/-- The steps that bring a vector to unit length in the place where it is kept. -/
def rescale : StateM (List σ) (Except Degenerate Unit) := do
  let norm := arithmetic.norm (← get)
  if !arithmetic.isFinite norm then return .error .notFinite
  if arithmetic.less norm arithmetic.leastNorm then return .error .zeroNorm
  modify (·.map fun component =>
    arithmetic.narrow (arithmetic.div (arithmetic.widen component) norm))
  return .ok ()

/-- They do to the vector what is done without a place, and nothing if that fails. -/
theorem run_rescale (vector : List σ) :
    arithmetic.rescale.run vector =
      match arithmetic.normalize vector with
      | .ok unit => (.ok (), unit)
      | .error reason => (.error reason, vector) := by
  unfold rescale normalize
  cases finite : arithmetic.isFinite (arithmetic.norm vector) with
  | false =>
      simp [finite]
      rfl
  | true =>
      cases short : arithmetic.less (arithmetic.norm vector) arithmetic.leastNorm with
      | false =>
          simp [finite, short]
          rfl
      | true =>
          simp [finite, short]
          rfl

end

end Arithmetic

/-- Each operation gives the exact result, rounded to the format of its result. Rounding keeps the
order of numbers, and leaves the numbers of the format alone. -/
structure RoundsExactResults (arithmetic : Arithmetic Single Binary) : Prop where
  mono : Monotone Format.double.round ∧ Monotone Format.single.round
  fixes : ∀ x : ℝ, (Format.double.Represents x → Format.double.round x = x) ∧
    (Format.single.Represents x → Format.single.round x = x)
  widen : ∀ component, arithmetic.widen component = component.value
  zero : arithmetic.zero.extended = some 0
  add : ∀ x y, x.isFinite = true → y.isFinite = true →
    (arithmetic.add x y).extended = some (Format.double.round (x.toReal + y.toReal))
  mul : ∀ x y, x.isFinite = true → y.isFinite = true →
    (arithmetic.mul x y).extended = some (Format.double.round (x.toReal * y.toReal))
  div : ∀ x y, x.isFinite = true → y.isFinite = true → y.toReal ≠ 0 →
    (arithmetic.div x y).extended = some (Format.double.round (x.toReal / y.toReal))
  sqrt : ∀ x, x.isFinite = true → 0 ≤ x.toReal →
    (arithmetic.sqrt x).extended = some (Format.double.round (√x.toReal))
  less : ∀ x y, x.isFinite = true → y.isFinite = true →
    (arithmetic.less x y = true ↔ x.toReal < y.toReal)
  narrow : ∀ x, x.isFinite = true →
    (arithmetic.narrow x).value.extended = some (Format.single.round x.toReal)

theorem roundsExactResults_rounded : RoundsExactResults .rounded where
  mono := ⟨Format.round_mono Format.proper_double, Format.round_mono Format.proper_single⟩
  fixes := fun _ => ⟨Format.Represents.round_eq, Format.Represents.round_eq⟩
  widen := fun _ => rfl
  zero := by simp [Arithmetic.rounded, Format.zero, Binary.extended]
  add := fun _ _ => Format.extended_add Format.proper_double
  mul := fun _ _ => Format.extended_mul Format.proper_double
  div := fun _ _ => Format.extended_div Format.proper_double
  sqrt := fun _ => Format.extended_sqrt Format.proper_double
  less := fun _ _ => less_eq_true_iff
  narrow := fun _ => Single.extended_value_nearest

/-! ## Components that are served -/

/-- A component that is finite, between minus one and one, and written as a number. -/
structure Within (component : Single) : Prop where
  finite : component.isFinite = true
  abs_le_one : |component.value.toReal| ≤ 1
  written : Json.writeSingle component ≠ "null"

theorem Arithmetic.Scaled.within {component scaled : Single}
    (given : Arithmetic.Scaled component scaled) :
    Within scaled where
  finite := given.finite
  abs_le_one := given.abs_le_one
  written := by simp [Json.writeSingle_eq_null_iff, given.finite]

end UnitVector

theorem Service.within_of_answered {service : Service Single} {modelId : String}
    {provider : Provider Single} {batchSize : Nat}
    (serves : service.encoder = .ofProvider .rounded modelId provider batchSize) {state : State}
    {request : Request} {answer : Payload.Embeddings Single}
    (answered : (service.handle state request).answer.content = .embeddings answer) :
    ∀ item ∈ answer.items, ∀ component ∈ item.embedding, UnitVector.Within component := by
  intro item mem component inside
  rcases exists_encode_of_item answered mem with ⟨texts, vectors, succeeded, served⟩
  rw [serves] at succeeded
  rcases Encoder.exists_accepts_of_mem_encode _ succeeded served with ⟨row, _, normalized⟩
  have scaled := UnitVector.Arithmetic.scaled_of_normalize normalized
  rcases exists_mem_of_forall₂_right scaled inside with ⟨_, _, given⟩
  exact given.within

/-! ## Main result -/

namespace UnitVector

/-- Of any vector, however long, either a component is infinite or undefined, or the norm is finite.
If the vector is refused it stays as it is, and otherwise its components become finite numbers
between minus one and one, and zeros stay zeros. So are all components of an answer, whatever the
provider gives. All of this rests on operations that give the exact results, rounded. -/
theorem rescaled_within_bounds :
    RoundsExactResults .rounded ∧
    (∀ vector : List Single,
      let after := Arithmetic.rounded.rescale.run vector
      Arithmetic.rounded.normalize vector = after.1.map (fun _ => after.2) ∧
        (after.1 = .error .notFinite ↔ ∃ component ∈ vector, component.isFinite = false) ∧
        (∀ reason, after.1 = .error reason → after.2 = vector) ∧
        (after.1 = .ok () → List.Forall₂ Arithmetic.Scaled vector after.2)) ∧
    ∀ (service : Service Single) modelId provider batchSize,
      service.encoder = .ofProvider .rounded modelId provider batchSize →
        ∀ state request answer,
          (service.handle state request).answer.content = .embeddings answer →
            ∀ item ∈ answer.items, ∀ component ∈ item.embedding, Within component := by
  refine ⟨roundsExactResults_rounded, ?_, ?_⟩
  · intro vector after
    have steps : after = _ := Arithmetic.rounded.run_rescale vector
    have infinite := @Arithmetic.normalize_eq_notFinite_iff vector
    cases normalized : Arithmetic.rounded.normalize vector with
    | error reason =>
        rw [normalized] at steps infinite
        rw [steps, ← infinite]
        refine ⟨rfl, by simp, fun _ _ => rfl, ?_⟩
        intro succeeded
        cases succeeded
    | ok unit =>
        rw [normalized] at steps infinite
        rw [steps, ← infinite]
        refine ⟨rfl, by simp, ?_, fun _ => Arithmetic.scaled_of_normalize normalized⟩
        intro reason failed
        cases failed
  · intro service modelId provider batchSize serves state request answer
    exact Service.within_of_answered serves

-- The greatest number of the format does not make the norm infinite, and a negative zero stays one.
example : Arithmetic.rounded.normalize [⟨0x7F7FFFFF⟩, ⟨0x80000000⟩, ⟨0xFF7FFFFF⟩] =
    .ok [⟨0x3F3504F3⟩, ⟨0x80000000⟩, ⟨0xBF3504F3⟩] := by
  decide +kernel

end UnitVector

end TextVectors
