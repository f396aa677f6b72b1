import TextVectors.Number.Binary

/-!
# Words of thirty-two bits as numbers

A component of a vector is a number of the single format, kept as the word that
encodes it: a bit for the sign, eight bits for the exponent and twenty-three for
the significand, whose leading one is left out. All encodings of an undefined
number but one are given up when a word is read and written again.
-/

namespace TextVectors

namespace Number

/-- A number of the single format, as its word. -/
structure Single where
  bits : UInt32
  deriving DecidableEq, Repr

namespace Single

/-- The number that a word encodes. -/
def value (single : Single) : Binary :=
  Format.single.ofWord 8 single.bits.toNat

/-- The word of a sign and the remaining thirty-one bits. -/
private def ofParts (negative : Bool) (rest : Nat) : Single :=
  ⟨(rest + if negative then Nat.pow 2 31 else 0).toUInt32⟩

/-- The undefined number. -/
def nan : Single := ⟨0x7FC00000⟩

/-- The word nearest to a number. -/
def nearest (number : Binary) : Single :=
  match Format.single.convert number with
  | .nan => nan
  | .infinite negative => ofParts negative 0x7F800000
  | .finite negative significand exponent =>
    ofParts negative ((exponent - Format.single.lowest).toNat * Nat.pow 2 23 + significand)

/-- Whether a word encodes a finite number. -/
def isFinite (single : Single) : Bool :=
  single.value.isFinite

end Single

end Number

end TextVectors
