import TextVectors.Text.Blank
import TextVectors.Text.Folding

/-!
# Normalizing text before it is cut

Four changes that a vocabulary may ask for, made in this order: controls are
dropped and blanks become spaces, ideographs are set apart by spaces, accents
are taken off, and capitals are lowered.
-/

namespace TextVectors

namespace Tokens

/-- Which changes are made. -/
structure Normalizer where
  cleanText : Bool
  spaceIdeographs : Bool
  stripAccents : Bool
  lowercase : Bool
  deriving DecidableEq, Repr

/-- Tab, line feed and carriage return, which are blanks and no controls. -/
private def isLineBlank (c : Char) : Bool :=
  c == '\t' || c == '\n' || c == '\r'

/-- Whether cleaning drops a character. -/
def isDropped (c : Char) : Bool :=
  c.toNat == 0 || c.toNat == 0xFFFD || (!isLineBlank c && Text.otherSet.contains c)

def cleaned (c : Char) : List Char :=
  if isDropped c then [] else if isLineBlank c || Text.isBlank c then [' '] else [c]

/-- Whether a character is an ideograph of the common blocks. -/
def isIdeograph (c : Char) : Bool :=
  let code := c.toNat
  (0x4E00 ≤ code && code ≤ 0x9FFF) || (0x3400 ≤ code && code ≤ 0x4DBF) ||
    (0x20000 ≤ code && code ≤ 0x2A6DF) || (0x2A700 ≤ code && code ≤ 0x2B73F) ||
    (0x2B740 ≤ code && code ≤ 0x2B81F) || (0x2B920 ≤ code && code ≤ 0x2CEAF) ||
    (0xF900 ≤ code && code ≤ 0xFAFF) || (0x2F800 ≤ code && code ≤ 0x2FA1F)

/-- A character with spaces around it if it is an ideograph. -/
def spaced (c : Char) : List Char :=
  if isIdeograph c then [' ', c, ' '] else [c]

/-- A text after the changes of a normalizer. -/
def Normalizer.apply (normalizer : Normalizer) (text : List Char) : List Char :=
  let text := if normalizer.cleanText then text.flatMap cleaned else text
  let text := if normalizer.spaceIdeographs then text.flatMap spaced else text
  let text := if normalizer.stripAccents then text.flatMap Text.unaccented else text
  if normalizer.lowercase then text.flatMap Text.lower else text

end Tokens

end TextVectors
