import TextVectors.Number.Single

/-!
# Vectors of unit length

A vector is divided by its Euclidean norm. The norm is taken in a wider format
than the one of the components: the squares are added from the left, and the
root of their sum divides each component before it is brought back. Vectors with
an infinite or undefined norm are refused, and so are those whose norm is too
small to give a direction.

The steps are given by an `Arithmetic`, so that the same definition runs on
rounded numbers and can be studied on exact ones.
-/

namespace TextVectors

namespace UnitVector

/-- The operations by which components are scaled. -/
structure Arithmetic (σ δ : Type) where
  widen : σ → δ
  zero : δ
  add : δ → δ → δ
  mul : δ → δ → δ
  div : δ → δ → δ
  sqrt : δ → δ
  isFinite : δ → Bool
  less : δ → δ → Bool
  /-- The least norm that gives a direction. -/
  leastNorm : δ
  narrow : δ → σ

/-- Why a vector has no direction. -/
inductive Degenerate where
  | notFinite
  | zeroNorm
  deriving DecidableEq, Repr

def Degenerate.message : Degenerate → String
  | .notFinite => "non-finite values in embedding"
  | .zeroNorm => "zero-norm embedding cannot be normalized"

namespace Arithmetic

variable {σ δ : Type} (arithmetic : Arithmetic σ δ)

def square (component : σ) : δ :=
  arithmetic.mul (arithmetic.widen component) (arithmetic.widen component)

def sumOfSquares (vector : List σ) : δ :=
  vector.foldl (fun sum component => arithmetic.add sum (arithmetic.square component))
    arithmetic.zero

/-- The Euclidean norm. -/
def norm (vector : List σ) : δ :=
  arithmetic.sqrt (arithmetic.sumOfSquares vector)

/-- The vector of unit length with the direction of the given one. -/
def normalize (vector : List σ) : Except Degenerate (List σ) :=
  let norm := arithmetic.norm vector
  if !arithmetic.isFinite norm then .error .notFinite
  else if arithmetic.less norm arithmetic.leastNorm then .error .zeroNorm
  else
    .ok (vector.map fun component =>
      arithmetic.narrow (arithmetic.div (arithmetic.widen component) norm))

/-- Components of the single format, scaled in the double format. The least norm is the number of
the single format nearest to 10⁻¹². -/
def rounded : Arithmetic Number.Single Number.Binary where
  widen := Number.Single.value
  zero := Number.Format.double.zero false
  add := Number.Format.double.add
  mul := Number.Format.double.mul
  div := Number.Format.double.div
  sqrt := Number.Format.double.sqrt
  isFinite := Number.Binary.isFinite
  less := Number.Binary.less
  leastNorm := Number.Format.single.nearest false 1 (Nat.pow 10 12)
  narrow := Number.Single.nearest

end Arithmetic

end UnitVector

end TextVectors
