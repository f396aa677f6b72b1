/-!
# Binary floating-point numbers

A floating-point number is kept as its value: a sign, a natural significand and
a power of two, or an infinity, or no number at all. Zero has a sign too. Each
operation takes the exact result and rounds it to the nearest number of a
format; of two equally near numbers the one with the even significand is taken,
and a result beyond the largest number of the format becomes an infinity.
-/

namespace TextVectors

namespace Number

/-- A format: the binary digits of a significand, and the exponents that the last of them may
have. -/
structure Format where
  digits : Nat
  lowest : Int
  highest : Int
  deriving DecidableEq, Repr

/-- The format of sixteen bits. -/
def Format.half : Format := ⟨11, -24, 5⟩

/-- The format of sixteen bits with the exponents of the single format. -/
def Format.shortened : Format := ⟨8, -133, 120⟩

/-- The format of thirty-two bits. -/
def Format.single : Format := ⟨24, -149, 104⟩

/-- The format of sixty-four bits. -/
def Format.double : Format := ⟨53, -1074, 971⟩

/-- A floating-point number: a finite one is its significand times a power of two. -/
inductive Binary where
  | nan
  | infinite (negative : Bool)
  | finite (negative : Bool) (significand : Nat) (exponent : Int)
  deriving DecidableEq, Repr

/-- A power of two as a fraction: the numerator and the denominator. -/
def powerOfTwo (exponent : Int) : Nat × Nat :=
  if 0 ≤ exponent then (Nat.pow 2 exponent.toNat, 1) else (1, Nat.pow 2 (-exponent).toNat)

/-- The natural number nearest to a fraction, the even one of two equally near. -/
def halfEven (numerator denominator : Nat) : Nat :=
  let quotient := numerator / denominator
  let twice := 2 * (numerator % denominator)
  if twice < denominator then quotient
  else if denominator < twice then quotient + 1
  else quotient + quotient % 2

namespace Format

/-- The exponent at which a positive fraction is rounded: the least at which its whole part fits
the significand, unless the format has none so low. -/
def place (format : Format) (numerator denominator : Nat) : Int :=
  let guess := max format.lowest
    ((numerator.log2 : Int) - (denominator.log2 : Int) - (format.digits : Int))
  let unit := powerOfTwo guess
  if numerator * unit.2 / (denominator * unit.1) < Nat.pow 2 format.digits then guess else guess + 1

def zero (format : Format) (negative : Bool) : Binary :=
  .finite negative 0 format.lowest

/-- The number nearest to a fraction with a sign. -/
def nearest (format : Format) (negative : Bool) (numerator denominator : Nat) : Binary :=
  if numerator = 0 then format.zero negative
  else
    let exponent := format.place numerator denominator
    let unit := powerOfTwo exponent
    let significand := halfEven (numerator * unit.2) (denominator * unit.1)
    if format.highest < exponent ∨
        exponent = format.highest ∧ Nat.pow 2 format.digits ≤ significand then .infinite negative
    else .finite negative significand exponent

/-- The number nearest to an integer. -/
def ofInt (format : Format) (value : Int) : Binary :=
  format.nearest (value < 0) value.natAbs 1

/-- The number that a word encodes: a bit for the sign, `width` bits for the exponent, and the rest
for the significand, whose leading one is left out. -/
def ofWord (format : Format) (width word : Nat) : Binary :=
  let unit := Nat.pow 2 (format.digits - 1)
  let negative := decide (unit * Nat.pow 2 width ≤ word)
  let field := word / unit % Nat.pow 2 width
  if field = Nat.pow 2 width - 1 then if word % unit = 0 then .infinite negative else .nan
  else if field = 0 then .finite negative (word % unit) format.lowest
  else .finite negative (unit + word % unit) (format.lowest + (field - 1 : Nat))

/-- A number brought into the format. -/
def convert (format : Format) : Binary → Binary
  | .nan => .nan
  | .infinite negative => .infinite negative
  | .finite negative significand exponent =>
    let unit := powerOfTwo exponent
    format.nearest negative (significand * unit.1) unit.2

/-- A finite value as an integer number of units of a power of two not above its own. -/
def unitsAt (low : Int) (negative : Bool) (significand : Nat) (exponent : Int) : Int :=
  let units : Nat := significand * Nat.pow 2 (exponent - low).toNat
  if negative then -(units : Int) else units

/-- The rounded sum. Opposite values give a positive zero, two negative zeros a negative one. -/
def add (format : Format) : Binary → Binary → Binary
  | .nan, _ => .nan
  | _, .nan => .nan
  | .infinite a, .infinite b => if a = b then .infinite a else .nan
  | .infinite a, .finite _ _ _ => .infinite a
  | .finite _ _ _, .infinite b => .infinite b
  | .finite a m e, .finite b n k =>
    let low := min e k
    let sum := unitsAt low a m e + unitsAt low b n k
    let unit := powerOfTwo low
    if sum = 0 then format.zero (a && b)
    else format.nearest (sum < 0) (sum.natAbs * unit.1) unit.2

/-- The rounded product. -/
def mul (format : Format) : Binary → Binary → Binary
  | .nan, _ => .nan
  | _, .nan => .nan
  | .infinite a, .infinite b => .infinite (a ^^ b)
  | .infinite a, .finite b n _ => if n = 0 then .nan else .infinite (a ^^ b)
  | .finite a m _, .infinite b => if m = 0 then .nan else .infinite (a ^^ b)
  | .finite a m e, .finite b n k =>
    let unit := powerOfTwo (e + k)
    format.nearest (a ^^ b) (m * n * unit.1) unit.2

/-- The rounded quotient. -/
def div (format : Format) : Binary → Binary → Binary
  | .nan, _ => .nan
  | _, .nan => .nan
  | .infinite _, .infinite _ => .nan
  | .infinite a, .finite b _ _ => .infinite (a ^^ b)
  | .finite a _ _, .infinite b => format.zero (a ^^ b)
  | .finite a m e, .finite b n k =>
    if n = 0 then if m = 0 then .nan else .infinite (a ^^ b)
    else
      let unit := powerOfTwo (e - k)
      format.nearest (a ^^ b) (m * unit.1) (n * unit.2)

/-- The natural number whose square is the greatest one not above `value`, found between `low`
and a bound beyond it by halving the distance `steps` times. -/
def rootBetween (value : Nat) : Nat → Nat → Nat → Nat
  | 0, low, _ => low
  | steps + 1, low, high =>
    let middle := (low + high) / 2
    if middle * middle ≤ value then rootBetween value steps middle high
    else rootBetween value steps low middle

/-- The whole part of a square root. -/
def wholeRoot (value : Nat) : Nat :=
  let bits := value.log2 / 2 + 1
  rootBetween value (bits + 1) 0 (Nat.pow 2 bits)

/-- The rounded square root. The root is taken to more places than the format has; if it is not
exact, half a unit of the last one is added, which rounds like the root itself. -/
def sqrt (format : Format) : Binary → Binary
  | .nan => .nan
  | .infinite negative => if negative then .nan else .infinite false
  | .finite negative significand exponent =>
    if significand = 0 then format.zero negative
    else if negative then .nan
    else
      let even := exponent - exponent % 2
      let scaled := significand * Nat.pow 2 (exponent % 2).toNat * Nat.pow 4 (format.digits + 2)
      let root := wholeRoot scaled
      let doubled := 2 * root + (if root * root = scaled then 0 else 1)
      let unit := powerOfTwo (even / 2 - (format.digits + 2 : Nat) - 1)
      format.nearest false (doubled * unit.1) unit.2

end Format

namespace Binary

/-- Whether a number is neither infinite nor undefined. -/
def isFinite : Binary → Bool
  | .finite _ _ _ => true
  | _ => false

/-- Whether the first number is below the second one; false if either is undefined. -/
def less : Binary → Binary → Bool
  | .nan, _ => false
  | _, .nan => false
  | .infinite a, .infinite b => a && !b
  | .infinite a, .finite _ _ _ => a
  | .finite _ _ _, .infinite b => !b
  | .finite a m e, .finite b n k =>
    let low := min e k
    decide (Format.unitsAt low a m e < Format.unitsAt low b n k)

end Binary

end Number

end TextVectors
