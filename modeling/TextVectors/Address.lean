import TextVectors.Number.Hexadecimal
import TextVectors.Text.Split

/-!
# Network addresses

Addresses of the two versions of the Internet Protocol: how they are read and
how they are written. Reading is strict. An octet of version 4 has one to three
decimal digits without a leading zero; a group of version 6 has one to four
hexadecimal digits, `::` stands for one or more groups of zeros, and the last
two groups may be written as an address of version 4. Writing shortens the first
of the longest runs of at least two zero groups.
-/

namespace TextVectors

/-- An address: four octets, or eight groups of sixteen bits. -/
inductive Address where
  | v4 (octets : List Nat)
  | v6 (groups : List Nat)
  deriving DecidableEq, Repr

namespace Address

/-- An octet in decimal: one to three digits, no leading zero, at most 255. -/
private def octet? (text : List Char) : Option Nat :=
  if text.isEmpty || text.length > 3 || !text.all Char.isDigit then none
  else if text.length > 1 && text.head? == some '0' then none
  else
    let value := text.foldl (fun value c => value * 10 + (c.toNat - '0'.toNat)) 0
    if value ≤ 255 then some value else none

/-- Four octets separated by dots. -/
def octets? (text : List Char) : Option (List Nat) :=
  match Text.pieces '.' text with
  | [a, b, c, d] => [a, b, c, d].mapM octet?
  | _ => none

/-- A group of one to four hexadecimal digits. -/
private def group? (text : List Char) : Option Nat :=
  if text.isEmpty || text.length > 4 then none else Number.readHex? text

/-- Groups separated by single colons; only the last may be written as four octets. -/
private def groups? : List (List Char) → Option (List Nat)
  | [] => some []
  | [last] =>
    match group? last with
    | some g => some [g]
    | none => (octets? last).bind fun
      | [a, b, c, d] => some [a * 256 + b, c * 256 + d]
      | _ => none
  | part :: parts => do
    let g ← group? part
    let gs ← groups? parts
    return g :: gs

/-- Groups without a `::`; an empty text has none. -/
private def side? (octetsAllowed : Bool) (text : List Char) : Option (List Nat) :=
  if text.isEmpty then some []
  else
    let parts := Text.pieces ':' text
    if octetsAllowed then groups? parts else parts.mapM group?

/-- The text before and after the first `::`. -/
private def splitGap : List Char → Option (List Char × List Char)
  | ':' :: ':' :: rest => some ([], rest)
  | c :: rest => (splitGap rest).map fun (before, after) => (c :: before, after)
  | [] => none

/-- Eight groups, or fewer around one `::` that stands for at least one group of zeros. -/
private def v6? (text : List Char) : Option (List Nat) :=
  match splitGap text with
  | none => (side? true text).filter (·.length == 8)
  | some (before, after) => do
    let front ← side? false before
    let back ← side? true after
    if front.length + back.length ≤ 7 then
      some (front ++ List.replicate (8 - front.length - back.length) 0 ++ back)
    else none

/-- Reads an address of either version. -/
def ofString? (text : String) : Option Address :=
  match octets? text.toList with
  | some octets => some (.v4 octets)
  | none => (v6? text.toList).map .v6

/-- The length of the run of zeros at the front of a list. -/
private def zeroRun (groups : List Nat) : Nat :=
  (groups.takeWhile (· == 0)).length

/-- Where the first of the longest runs of zeros starts, and its length. -/
private def longestZeros (groups : List Nat) : Nat × Nat :=
  (List.range groups.length).foldl
    (fun best start =>
      let run := zeroRun (groups.drop start)
      if run > best.2 then (start, run) else best)
    (0, 0)

private def joinGroups (groups : List Nat) : String :=
  ":".intercalate (groups.map Number.writeHex)

/-- Octets in decimal between dots. -/
def octetsText (octets : List Nat) : String :=
  ".".intercalate (octets.map toString)

/-- Groups in hexadecimal between colons, shortened. -/
def groupsText (groups : List Nat) : String :=
  match longestZeros groups with
  | (start, run) =>
    if run > 1 then
      joinGroups (groups.take start) ++ "::" ++ joinGroups (groups.drop (start + run))
    else joinGroups groups

def text : Address → String
  | .v4 octets => octetsText octets
  | .v6 [0, 0, 0, 0, 0, 0xFFFF, high, low] =>
    "::ffff:" ++ octetsText [high / 256, high % 256, low / 256, low % 256]
  | .v6 groups => groupsText groups

/-- The text of an address with a port; version 6 is set in brackets. -/
def withPort (address : Address) (port : Nat) : String :=
  match address with
  | .v4 _ => address.text ++ ":" ++ toString port
  | .v6 _ => "[" ++ address.text ++ "]:" ++ toString port

end Address

end TextVectors
