/-!
# Blank characters

The characters that count as white space, and the removal of white space from
both ends of a text. The set is the Unicode property `White_Space`: the ASCII
controls from tab to carriage return, the space, and the separators outside
ASCII. Zero-width characters such as U+200B are not in it.
-/

namespace TextVectors

namespace Text

/-- Whether a code point has the Unicode property `White_Space`. -/
def isBlank (c : Char) : Bool :=
  let code := c.toNat
  (9 ≤ code && code ≤ 13) || code == 0x20 || code == 0x85 || code == 0xA0 || code == 0x1680 ||
    (0x2000 ≤ code && code ≤ 0x200A) || code == 0x2028 || code == 0x2029 || code == 0x202F ||
    code == 0x205F || code == 0x3000

/-- The characters of a list after its leading blanks and before its trailing ones. -/
def trimList (cs : List Char) : List Char :=
  ((cs.dropWhile isBlank).reverse.dropWhile isBlank).reverse

/-- A text without the blanks at either end. -/
def trim (text : String) : String :=
  String.ofList (trimList text.toList)

/-- A text without the copies of `last` at its end. -/
def trimEnd (last : Char) (text : String) : String :=
  String.ofList ((text.toList.reverse.dropWhile (· == last)).reverse)

end Text

end TextVectors
