import TextVectors.Number.Binary

/-!
# Shortest decimal text

A floating-point number is written with as few decimal digits as read back to
it, and among those with the digits nearest to it. The numbers that read back
form an interval between the midpoints to the two neighbours; the midpoints
belong to it iff the significand is even. For each count of digits only two
decimal numbers need be tried, the ones on either side of the value.

How the digits are laid out is a separate matter, given by a `Layout`.
-/

namespace TextVectors

namespace Number

/-- A decimal number: a coefficient times a power of ten. -/
structure Decimal where
  coefficient : Nat
  exponent : Int
  deriving DecidableEq, Repr

/-- The numbers that round to a given one, in units of `1 / scale`: the value and its two bounds,
and whether the bounds belong to them. -/
structure Interval where
  value : Nat
  low : Nat
  high : Nat
  scale : Nat
  closed : Bool

namespace Format

/-- The interval of a positive number. Below a power of two the numbers lie twice as close, unless
the format has no lower exponent. -/
def interval (format : Format) (significand : Nat) (exponent : Int) : Interval :=
  let unit := powerOfTwo exponent
  let below :=
    if significand = Nat.pow 2 (format.digits - 1) ∧ format.lowest < exponent then 1 else 2
  { value := 4 * significand * unit.1
    low := (4 * significand - below) * unit.1
    high := (4 * significand + 2) * unit.1
    scale := 4 * unit.2
    closed := significand % 2 == 0 }

end Format

namespace Interval

/-- The power of ten `10 ^ exponent` as a fraction. -/
def powerOfTen (exponent : Int) : Nat × Nat :=
  if 0 ≤ exponent then (Nat.pow 10 exponent.toNat, 1) else (1, Nat.pow 10 (-exponent).toNat)

def contains (interval : Interval) (decimal : Decimal) : Bool :=
  let power := powerOfTen decimal.exponent
  let point := decimal.coefficient * power.1 * interval.scale
  let low := interval.low * power.2
  let high := interval.high * power.2
  if interval.closed then decide (low ≤ point ∧ point ≤ high)
  else decide (low < point ∧ point < high)

/-- The distance from a decimal number to the value, in units common to all of its exponent. -/
def distance (interval : Interval) (decimal : Decimal) : Nat :=
  let power := powerOfTen decimal.exponent
  let point := decimal.coefficient * power.1 * interval.scale
  let value := interval.value * power.2
  (point - value) + (value - point)

/-- How many digits stand before the decimal point of the value; zeros after the point count as
less than none. -/
def pointPlace (interval : Interval) : Int :=
  let whole := interval.value / interval.scale
  if whole = 0 then
    let inverse := (interval.scale + interval.value - 1) / interval.value
    1 - ((Nat.toDigits 10 (inverse - 1)).length : Int)
  else (Nat.toDigits 10 whole).length

/-- The decimal numbers of an exponent on either side of the value. -/
def neighbours (interval : Interval) (exponent : Int) : Decimal × Decimal :=
  let power := powerOfTen exponent
  let below := interval.value * power.2 / (interval.scale * power.1)
  (⟨below, exponent⟩, ⟨below + 1, exponent⟩)

/-- The better of the two neighbours of the value that lie in the interval. -/
def choose (interval : Interval) (exponent : Int) : Option Decimal :=
  let (below, above) := interval.neighbours exponent
  match interval.contains below, interval.contains above with
  | false, false => none
  | true, false => some below
  | false, true => some above
  | true, true =>
    let near := interval.distance below
    let far := interval.distance above
    if near < far ∨ near = far ∧ below.coefficient % 2 = 0 then some below else some above

/-- The first hit with at most `count` further digits, the coarsest first. -/
def search (interval : Interval) : Nat → Int → Decimal
  | 0, exponent => (interval.neighbours exponent).1
  | count + 1, exponent =>
    match interval.choose exponent with
    | some decimal => decimal
    | none => search interval count (exponent - 1)

end Interval

namespace Decimal

/-- The same number with a coefficient that does not end in zero, looking at `fuel` places. -/
def stripZeros : Nat → Decimal → Decimal
  | 0, decimal => decimal
  | fuel + 1, decimal =>
    if decimal.coefficient ≠ 0 ∧ decimal.coefficient % 10 = 0 then
      stripZeros fuel ⟨decimal.coefficient / 10, decimal.exponent + 1⟩
    else decimal

/-- The shortest decimal number that reads back to `significand * 2 ^ exponent`. -/
def shortest (format : Format) (significand : Nat) (exponent : Int) : Decimal :=
  if significand = 0 then ⟨0, 0⟩
  else
    let interval := format.interval significand exponent
    stripZeros 20 (interval.search 20 (interval.pointPlace - 1))

/-- The digits of the coefficient. -/
def digits (decimal : Decimal) : List Char :=
  Nat.toDigits 10 decimal.coefficient

/-- How many digits stand before the decimal point. -/
def pointPlace (decimal : Decimal) : Int :=
  (decimal.digits.length : Int) + decimal.exponent

end Decimal

/-- How decimal digits are laid out. -/
structure Layout where
  /-- The least and the greatest place of the decimal point at which no exponent is written. -/
  positional : Option (Int × Int)
  /-- What follows a whole number. -/
  wholeMark : String
  /-- What stands before a positive exponent. -/
  plusMark : String

namespace Layout

/-- Whether a number with its decimal point at `place` is written without an exponent. -/
def isPositional (layout : Layout) (place : Int) : Bool :=
  match layout.positional with
  | none => true
  | some (least, greatest) => decide (least ≤ place ∧ place ≤ greatest)

/-- Digits with the decimal point after the first `place` of them. -/
def positionalText (layout : Layout) (digits : List Char) (place : Int) : String :=
  if place ≤ 0 then
    "0." ++ String.ofList (List.replicate (-place).toNat '0' ++ digits)
  else if digits.length ≤ place.toNat then
    String.ofList (digits ++ List.replicate (place.toNat - digits.length) '0') ++ layout.wholeMark
  else
    String.ofList (digits.take place.toNat) ++ "." ++ String.ofList (digits.drop place.toNat)

/-- Digits with the decimal point after the first one, and an exponent. -/
def exponentText (layout : Layout) (digits : List Char) (place : Int) : String :=
  let exponent := place - 1
  let sign := if exponent < 0 then "-" else layout.plusMark
  let front := String.ofList (digits.take 1)
  let rest := if digits.length ≤ 1 then "" else "." ++ String.ofList (digits.drop 1)
  front ++ rest ++ "e" ++ sign ++ toString exponent.natAbs

/-- The text of a decimal number. -/
def text (layout : Layout) (negative : Bool) (decimal : Decimal) : String :=
  let place := decimal.pointPlace
  (if negative then "-" else "") ++
    if layout.isPositional place then layout.positionalText decimal.digits place
    else layout.exponentText decimal.digits place

end Layout

/-- The text of a finite number, or nothing for the others. -/
def Binary.text? (format : Format) (layout : Layout) : Binary → Option String
  | .finite negative significand exponent =>
    some (layout.text negative (Decimal.shortest format significand exponent))
  | _ => none

end Number

end TextVectors
