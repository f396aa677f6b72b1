import TextVectors.Number.Decimal
import TextVectors.Number.Hexadecimal
import TextVectors.Number.Single

/-!
# Writing JSON

Values are written without blanks and with the members of an object in the given
order. In a string the quote, the backslash and the controls are escaped and
every other character stands for itself. A number of the single format has the
fewest digits that read back to it; infinities and undefined numbers have no
form in JSON and are written as `null`.
-/

namespace TextVectors

namespace Json

/-- How a character is written inside a string. -/
def escaped (c : Char) : List Char :=
  if c = '"' then ['\\', '"']
  else if c = '\\' then ['\\', '\\']
  else if c.toNat = 0x08 then ['\\', 'b']
  else if c.toNat = 0x0C then ['\\', 'f']
  else if c = '\n' then ['\\', 'n']
  else if c = '\r' then ['\\', 'r']
  else if c = '\t' then ['\\', 't']
  else if c.toNat < 0x20 then '\\' :: 'u' :: '0' :: '0' :: Number.writeByte c.toNat.toUInt8
  else [c]

def writeString (text : String) : String :=
  "\"" ++ String.ofList (text.toList.flatMap escaped) ++ "\""

/-- Values that have been written, as a list. -/
def writeList (values : List String) : String :=
  "[" ++ ",".intercalate values ++ "]"

/-- Members whose values have been written, as an object. -/
def writeObject (members : List (String × String)) : String :=
  "\x7b" ++ ",".intercalate (members.map fun (name, value) => writeString name ++ ":" ++ value) ++
    "\x7d"

/-- Components are written without an exponent from five zeros after the point up to thirteen digits
before it, and a whole number ends in a zero after the point. -/
def componentLayout : Number.Layout := ⟨some (-5, 13), ".0", "+"⟩

/-- A component as a number. -/
def writeSingle (component : Number.Single) : String :=
  (component.value.text? .single componentLayout).getD "null"

end Json

end TextVectors
