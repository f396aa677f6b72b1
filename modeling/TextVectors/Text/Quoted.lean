import TextVectors.Number.Hexadecimal
import TextVectors.Text.CodeSet

/-!
# Quoted text

Text shown between double quotes so that every character can be told: the quote
and the backslash are escaped, tab, line feed, carriage return and NUL have short
escapes, and any other character that would not show is written as its code
point in braces.
-/

namespace TextVectors

namespace Text

/-- How a character is shown inside quotes. -/
def quotedChar (c : Char) : String :=
  if c == '\x00' then "\\0"
  else if c == '\t' then "\\t"
  else if c == '\n' then "\\n"
  else if c == '\r' then "\\r"
  else if c == '"' then "\\\""
  else if c == '\\' then "\\\\"
  else if hiddenSet.contains c then "\\u\x7b" ++ Number.writeHex c.toNat ++ "\x7d"
  else c.toString

/-- A text between quotes. -/
def quoted (text : String) : String :=
  "\"" ++ "".intercalate (text.toList.map quotedChar) ++ "\""

/-- Texts between quotes, as a list in brackets. -/
def quotedList (texts : List String) : String :=
  "[" ++ ", ".intercalate (texts.map quoted) ++ "]"

end Text

end TextVectors
