import Mathlib.Data.Nat.Sqrt
import Mathlib.Data.Rat.Cast.Order
import TextVectors.SentenceEncoder

/-!
# A sample sentence encoder

An encoder in exact arithmetic with a network that has no layers. It knows two
words of one letter and three positions, which count for nothing, and takes the
mean of its vectors.
-/

namespace TextVectors

namespace Sample

/-- Means of rational numbers. -/
def means : Pooling.Arithmetic ℚ where
  zero := 0
  add := (· + ·)
  mul := (· * ·)
  div := (· / ·)
  max := max
  ofInt value := value
  tiny := 1 / 10 ^ 9

/-- Vectors of rational numbers, whose norms are rounded down if they are not rational. -/
def scaling : UnitVector.Arithmetic ℚ ℚ where
  widen := id
  zero := 0
  add := (· + ·)
  mul := (· * ·)
  div := (· / ·)
  sqrt square := Nat.sqrt square.num.toNat / Nat.sqrt square.den
  isFinite _ := true
  less a b := decide (a < b)
  leastNorm := 1 / 10 ^ 12
  narrow := id

/-- The number of the word of a letter. -/
def letterId : Char → Except Tokens.VocabularyError Nat
  | 'a' => .ok 0
  | 'b' => .ok 1
  | _ => .error (.noUnknownWord "WordLevel")

def wordVector (id : Nat) : List ℚ :=
  if id = 0 then [4, 3] else [3, 4]

/-- The vectors of the tokens of a batch, each of which follows from its number. -/
def lookUp (batch : Batch) : Except Fault (Tensor ℚ) :=
  if batch.length ≤ 3 ∧ ∀ id ∈ batch.ids.flatten, id < 2 then
    .ok ⟨[batch.size, batch.length, 2],
      ((batch.ids.map (List.map wordVector)).map List.flatten).flatten⟩
  else .error (.failed ⟨"index-select invalid index", []⟩)

/-- The sample encoder. -/
def sentences : SentenceEncoder ℚ where
  tokenize text := do
    let ids ← text.toList.mapM letterId
    return ⟨ids, List.replicate ids.length 1⟩
  padId := 0
  forward := lookUp
  pooling := .mean
  arithmetic := means
  dimension := 2

end Sample

end TextVectors
