/-!
# Hexadecimal digits

The sixteen digits in both cases, and the numbers and bytes written with them.
-/

namespace TextVectors

namespace Number

/-- The value of a hexadecimal digit of either case. -/
def hexValue? (c : Char) : Option Nat :=
  if '0' ≤ c ∧ c ≤ '9' then some (c.toNat - '0'.toNat)
  else if 'a' ≤ c ∧ c ≤ 'f' then some (c.toNat - 'a'.toNat + 10)
  else if 'A' ≤ c ∧ c ≤ 'F' then some (c.toNat - 'A'.toNat + 10)
  else none

/-- Whether a character is a hexadecimal digit. -/
def isHexDigit (c : Char) : Bool :=
  (hexValue? c).isSome

/-- The value of a list of hexadecimal digits, or nothing if one of them is no digit. -/
def readHex? (cs : List Char) : Option Nat :=
  (cs.mapM hexValue?).map (·.foldl (fun value d => value * 16 + d) 0)

/-- A number in lower-case hexadecimal digits without leading zeros. -/
def writeHex (value : Nat) : String :=
  String.ofList (Nat.toDigits 16 value)

/-- Two lower-case digits for a byte. -/
def writeByte (byte : UInt8) : List Char :=
  [Nat.digitChar (byte.toNat / 16), Nat.digitChar (byte.toNat % 16)]

/-- Two lower-case digits for each byte. -/
def writeBytes (bytes : List UInt8) : String :=
  String.ofList (bytes.flatMap writeByte)

end Number

end TextVectors
