import TextVectors.Address
import TextVectors.Text.Folding
import TextVectors.Text.Punycode
import TextVectors.Url.Encoded

/-!
# Hosts

The host of an address is a name or a number. A name is brought to lower case
and to plain letters. A name that ends in a number is an address of version 4,
whose one to four parts may be written in decimal, octal or hexadecimal digits,
and whose last part fills what is missing. An address of version 6 stands in
brackets.
-/

namespace TextVectors

namespace Url

/-- Why an address cannot be read. -/
inductive Error where
  | emptyHost
  | badName
  | badPort
  | badOctets
  | badGroups
  | badCharacter
  | relative
  deriving DecidableEq, Repr

def Error.name : Error → String
  | .emptyHost => "EmptyHost"
  | .badName => "IdnaError"
  | .badPort => "InvalidPort"
  | .badOctets => "InvalidIpv4Address"
  | .badGroups => "InvalidIpv6Address"
  | .badCharacter => "InvalidDomainCharacter"
  | .relative => "RelativeUrlWithoutBase"

def Error.message : Error → String
  | .emptyHost => "empty host"
  | .badName => "invalid international domain name"
  | .badPort => "invalid port number"
  | .badOctets => "invalid IPv4 address"
  | .badGroups => "invalid IPv6 address"
  | .badCharacter => "invalid domain character"
  | .relative => "relative URL without a base"

namespace Host

/-- The number of a part of an address of version 4. -/
def partNumber? (part : List Char) : Option Nat :=
  let read (base : Nat) (digits : List Char) : Option Nat := do
    let values ← digits.mapM Number.hexValue?
    guard (values.all (· < base))
    return values.foldl (fun value digit => value * base + digit) 0
  match part with
  | [] => none
  | '0' :: 'x' :: digits => read 16 digits
  | '0' :: 'X' :: digits => read 16 digits
  | '0' :: c :: digits => read 8 (c :: digits)
  | digits => read 10 digits

/-- The parts between dots; an empty last one does not count. -/
private def dotParts (name : List Char) : List (List Char) :=
  let parts := Text.pieces '.' name
  if 1 < parts.length ∧ parts.getLast? = some [] then parts.dropLast else parts

/-- Whether the last part of a name is a number. -/
def endsInNumber (name : List Char) : Bool :=
  match (dotParts name).getLast? with
  | some last => (!last.isEmpty && last.all Char.isDigit) || (partNumber? last).isSome
  | none => false

/-- The octets of an address of version 4. -/
def octets? (name : List Char) : Option (List Nat) := do
  let numbers ← (dotParts name).mapM partNumber?
  guard (numbers.length ≤ 4)
  let last ← numbers.getLast?
  let front := numbers.dropLast
  guard (front.all (· < 256))
  let missing := 4 - front.length
  guard (last < Nat.pow 256 missing)
  return front ++ (List.range missing).reverse.map fun i => last / Nat.pow 256 i % 256

/-- The text of an address of version 6 that stands between brackets. -/
def groups? (text : List Char) : Option String :=
  match Address.ofString? (String.ofList text) with
  | some (.v6 groups) => some ("[" ++ Address.groupsText groups ++ "]")
  | _ => none

/-- What stands between brackets, if a text begins with one. -/
def bracketed? : List Char → Option (Option (List Char))
  | '[' :: rest => if rest.getLast? = some ']' then some (some rest.dropLast) else some none
  | _ => none

/-- Whether a character may not stand in a name. -/
def isForbidden (c : Char) : Bool :=
  c.toNat ≤ 0x20 || c.toNat == 0x7F ||
    ['%', '#', '/', ':', '<', '>', '?', '@', '[', '\\', ']', '^', '|'].contains c

/-- A name in lower case and plain letters. -/
def plainName (name : List Char) : List Char :=
  let labels := (Text.pieces '.' (name.flatMap Text.lower)).map fun label =>
    if label.all (·.toNat < 0x80) then label else "xn--".toList ++ Text.Punycode.encode label
  ['.'].intercalate labels

/-- Reads the host of an address of a common kind. -/
def read (text : List Char) : Except Error String := do
  match bracketed? text with
  | some none => throw .badGroups
  | some (some inner) =>
    let some groups := groups? inner | throw .badGroups
    return groups
  | none =>
    let some name := String.fromUTF8? (decode text).toByteArray | throw .badName
    let name := plainName name.toList
    if name.any isForbidden then throw .badName
    if name.isEmpty then throw .emptyHost
    if endsInNumber name then
      let some octets := octets? name | throw .badOctets
      return Address.octetsText octets
    return String.ofList name

/-- The characters that may not stand in a host of any other kind. -/
def forbiddenInOpaque : List Char :=
  ['\x00', '\t', '\n', '\r', ' ', '#', '/', ':', '<', '>', '?', '@', '[', '\\', ']', '^', '|']

/-- Reads the host of an address of any other kind, which stands for itself. -/
def readOpaque (text : List Char) : Except Error String := do
  match bracketed? text with
  | some none => throw .badGroups
  | some (some inner) =>
    let some groups := groups? inner | throw .badGroups
    return groups
  | none =>
    if text.any forbiddenInOpaque.contains then throw .badCharacter
    return String.ofList (encode encodedAlways text)

end Host

end Url

end TextVectors
