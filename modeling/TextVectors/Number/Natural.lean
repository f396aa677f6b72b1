/-!
# Reading natural numbers

Decimal text read as a natural number below a bound. One plus sign may stand in
front; otherwise only the ten ASCII digits are admitted, and leading zeros mean
nothing. The two ways to fail are kept apart: a character that is no digit, and
a number that is too large. The digits are read from the left, so of two faults
the first one met is reported.
-/

namespace TextVectors

namespace Number

/-- Why a text is not a natural number below the bound. -/
inductive NaturalError where
  | empty
  | invalidDigit
  | tooLarge
  deriving DecidableEq, Repr

/-- The wording of a failed reading. -/
def NaturalError.message : NaturalError → String
  | .empty => "cannot parse integer from empty string"
  | .invalidDigit => "invalid digit found in string"
  | .tooLarge => "number too large to fit in target type"

/-- The value of an ASCII digit. -/
def digit? (c : Char) : Option Nat :=
  if '0' ≤ c ∧ c ≤ '9' then some (c.toNat - '0'.toNat) else none

/-- Continues a number from its value so far. -/
def readDigits (bound : Nat) : Nat → List Char → Except NaturalError Nat
  | value, [] => .ok value
  | value, c :: rest =>
    match digit? c with
    | none => .error .invalidDigit
    | some d =>
      if value * 10 + d < bound then readDigits bound (value * 10 + d) rest
      else .error .tooLarge

/-- Reads a number below `bound` from decimal digits with an optional plus sign. -/
def readNatural (bound : Nat) (text : String) : Except NaturalError Nat :=
  match text.toList with
  | [] => .error .empty
  | ['+'] => .error .invalidDigit
  | '+' :: rest => readDigits bound 0 rest
  | cs => readDigits bound 0 cs

end Number

end TextVectors
