import TextVectors.Text.Blank
import TextVectors.Text.CodeSet

/-!
# Tokens that are kept whole

Some tokens are found in the text before it is cut: at each point the longest
one that stands there. A token may ask to stand alone as a word, and to take the
blanks on either side of it with it.
-/

namespace TextVectors

namespace Tokens

/-- A token that is kept whole. -/
structure Added where
  content : List Char
  id : Nat
  /-- Whether the token counts only where no word character touches it. -/
  singleWord : Bool
  takesLeft : Bool
  takesRight : Bool
  /-- Whether the token is looked for in the normalized text. -/
  normalized : Bool
  deriving DecidableEq, Repr

/-- A part of a text: a token that was found, or characters that are yet to be cut. -/
inductive Part where
  | token (id : Nat)
  | text (characters : List Char)
  deriving DecidableEq, Repr

namespace Added

/-- The longest token at the front of a text. -/
def longestAt (tokens : List Added) (text : List Char) : Option Added :=
  (tokens.filter fun token => token.content.isPrefixOf text).foldl
    (fun best token =>
      match best with
      | none => some token
      | some other => if other.content.length < token.content.length then some token else best)
    none

/-- The text gathered so far as a part, unless it is empty. -/
private def gathered (before : List Char) : List Part :=
  if before.isEmpty then [] else [.text before.reverse]

/-- Whether a word character is at the front. -/
private def beginsWord (text : List Char) : Bool :=
  match text with
  | c :: _ => Text.wordSet.contains c
  | [] => false

/-- The parts of a text. `before` holds, in reverse, what was passed since the last token, and
`last` the character before the text. Each step takes a character, so the length of the text is
enough `fuel`. -/
def split (tokens : List Added) : Nat → List Char → Option Char → List Char → List Part
  | 0, before, _, _ => gathered before
  | _ + 1, before, _, [] => gathered before
  | fuel + 1, before, last, c :: rest =>
    match longestAt tokens (c :: rest) with
    | none => split tokens fuel (c :: before) (some c) rest
    | some token =>
      let after := (c :: rest).drop token.content.length
      let apart := !beginsWord after &&
        match last with
        | some c => !Text.wordSet.contains c
        | none => true
      if token.singleWord && !apart then
        split tokens fuel (token.content.reverse ++ before) token.content.getLast? after
      else
        let before := if token.takesLeft then before.dropWhile Text.isBlank else before
        let after := if token.takesRight then after.dropWhile Text.isBlank else after
        gathered before ++ .token token.id :: split tokens fuel [] token.content.getLast? after

end Added

end Tokens

end TextVectors
