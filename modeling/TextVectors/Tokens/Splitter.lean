import TextVectors.Text.Blank
import TextVectors.Text.CodeSet

/-!
# Cutting text into words

The ways to cut a normalized text before its pieces are looked up: not at all,
into runs of word characters and runs of other characters, at blanks, or at
blanks and around every punctuation mark. No piece is empty and none holds a
blank, unless the text is not cut.
-/

namespace TextVectors

namespace Tokens

/-- How a text is cut. -/
inductive Splitter where
  | whole
  /-- Runs of word characters, and runs of what is neither a word character nor blank. -/
  | wordRuns
  | blanks
  /-- At blanks, with every punctuation mark a piece of its own. -/
  | blanksAndMarks
  deriving DecidableEq, Repr

/-- What a character does to the piece that it may belong to. -/
inductive Role where
  | separator
  | alone
  /-- The character belongs to a run of its class. -/
  | run (word : Bool)
  deriving DecidableEq, Repr

/-- The pieces of a text in which each character has a role. -/
def piecesBy (role : Char → Role) : List Char → List (Role × List Char)
  | [] => []
  | c :: rest =>
    match role c, piecesBy role rest with
    | .run word, (.run other, piece) :: pieces =>
      if word = other then (.run word, c :: piece) :: pieces
      else (.run word, [c]) :: (.run other, piece) :: pieces
    | own, pieces => (own, [c]) :: pieces

/-- Whether a character is a punctuation mark: those of ASCII with its symbols, and the
punctuations outside. -/
def isMark (c : Char) : Bool :=
  let code := c.toNat
  if code < 128 then
    (0x21 ≤ code && code ≤ 0x2F) || (0x3A ≤ code && code ≤ 0x40) ||
      (0x5B ≤ code && code ≤ 0x60) || (0x7B ≤ code && code ≤ 0x7E)
  else Text.punctuationSet.contains c

namespace Splitter

def role : Splitter → Char → Role
  | .whole, _ => .run true
  | .wordRuns, c =>
    if Text.wordSet.contains c then .run true
    else if Text.isBlank c then .separator
    else .run false
  | .blanks, c => if Text.isBlank c then .separator else .run true
  | .blanksAndMarks, c =>
    if Text.isBlank c then .separator else if isMark c then .alone else .run true

def pieces (splitter : Splitter) (text : List Char) : List (List Char) :=
  (piecesBy splitter.role text).filterMap fun (role, piece) =>
    if role = .separator then none else some piece

end Splitter

end Tokens

end TextVectors
