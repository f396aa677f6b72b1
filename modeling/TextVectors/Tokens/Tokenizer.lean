import TextVectors.Tokens.Added
import TextVectors.Tokens.Normalizer
import TextVectors.Tokens.Splitter
import TextVectors.Tokens.Vocabulary

/-!
# Tokenizers

A tokenizer turns a text into the numbers of its tokens. Tokens that are kept
whole are found first; what lies between them is normalized, cut and looked up.
The numbers are shortened to a limit, framed by special tokens, and padded. The
limit counts the special tokens, so it must leave room for at least one number
of the text.
-/

namespace TextVectors

/-- The numbers of a text, and a mark for each: one for a token, zero for padding. -/
structure Encoding where
  ids : List Nat
  mask : List Int
  deriving DecidableEq, Repr

namespace Tokens

/-- A part of a frame: special tokens, or the place of the text. -/
inductive FramePart where
  | special (ids : List Nat)
  | content
  deriving DecidableEq, Repr

/-- The special tokens around a text. -/
abbrev Frame := List FramePart

namespace Frame

/-- How many special tokens a frame adds. -/
def added (frame : Frame) : Nat :=
  (frame.map fun
    | .special ids => ids.length
    | .content => 0).foldl (· + ·) 0

/-- The numbers of a text inside its frame. -/
def apply (frame : Frame) (content : List Nat) : List Nat :=
  frame.flatMap fun
    | .special ids => ids
    | .content => content

end Frame

/-- How long a padded encoding is. -/
inductive PadLength where
  /-- As long as the longest text that is encoded with it. -/
  | longest
  | fixed (length : Nat)
  deriving DecidableEq, Repr

/-- How encodings are padded. -/
structure Padding where
  length : PadLength
  onLeft : Bool
  multipleOf : Option Nat
  id : Nat
  deriving DecidableEq, Repr

namespace Padding

/-- The length to which a text of `length` tokens is padded. -/
def target (padding : Padding) (length : Nat) : Nat :=
  let least :=
    match padding.length with
    | .longest => length
    | .fixed fixed => fixed
  match padding.multipleOf with
  | some multiple =>
    if 0 < multiple ∧ 0 < least % multiple then least + (multiple - least % multiple) else least
  | none => least

/-- A padded encoding. -/
def apply (padding : Padding) (encoding : Encoding) : Encoding :=
  let missing := padding.target encoding.ids.length - encoding.ids.length
  let ids := List.replicate missing padding.id
  let mask := List.replicate missing (0 : Int)
  if padding.onLeft then ⟨ids ++ encoding.ids, mask ++ encoding.mask⟩
  else ⟨encoding.ids ++ ids, encoding.mask ++ mask⟩

end Padding

end Tokens

/-- A tokenizer. -/
structure Tokenizer where
  added : List Tokens.Added
  normalizer : Option Tokens.Normalizer
  splitter : Tokens.Splitter
  vocabulary : Tokens.Vocabulary
  frame : Tokens.Frame
  padding : Option Tokens.Padding
  /-- The greatest number of tokens of a text with its special tokens. -/
  limit : Option Nat

namespace Tokenizer

open Tokens

/-- The number of a word, among the tokens that are kept whole or in the vocabulary. -/
def id? (tokenizer : Tokenizer) (word : String) : Option Nat :=
  match tokenizer.added.find? fun token => token.content == word.toList with
  | some token => some token.id
  | none => tokenizer.vocabulary.id? word

/-- The numbers of normalized text without tokens that are kept whole. -/
def cutText (tokenizer : Tokenizer) (text : List Char) : Except VocabularyError (List Nat) := do
  let pieces := (tokenizer.splitter.pieces text).filter (!·.isEmpty)
  return (← pieces.mapM tokenizer.vocabulary.encode).flatten

def partIds (tokenizer : Tokenizer) : Part → Except VocabularyError (List Nat)
  | .token id => .ok [id]
  | .text text => tokenizer.cutText text

/-- The parts of a text that is normalized where it holds no token. -/
def parts (tokenizer : Tokenizer) (text : List Char) : List Part :=
  let raw := tokenizer.added.filter (!·.normalized)
  let normalized := tokenizer.added.filter (·.normalized)
  (Added.split raw (text.length + 1) [] none text).flatMap fun
    | .token id => [.token id]
    | .text text =>
      let text :=
        match tokenizer.normalizer with
        | some normalizer => normalizer.apply text
        | none => text
      Added.split normalized (text.length + 1) [] none text

/-- The numbers of a text without special tokens. -/
def contentIds (tokenizer : Tokenizer) (text : String) : Except VocabularyError (List Nat) := do
  return (← (tokenizer.parts text.toList).mapM tokenizer.partIds).flatten

/-- The numbers of a text that fit the limit beside the special tokens. -/
def shorten (tokenizer : Tokenizer) (ids : List Nat) : List Nat :=
  match tokenizer.limit with
  | some limit => ids.take (limit - tokenizer.frame.added)
  | none => ids

def encode (tokenizer : Tokenizer) (text : String) : Except VocabularyError Encoding := do
  let ids := tokenizer.frame.apply (tokenizer.shorten (← tokenizer.contentIds text))
  let encoding : Encoding := ⟨ids, List.replicate ids.length 1⟩
  match tokenizer.padding with
  | some padding => return padding.apply encoding
  | none => return encoding

/-- A limit that leaves no room for text. -/
structure LimitError where
  limit : Nat
  added : Nat
  deriving DecidableEq, Repr

def LimitError.message (error : LimitError) : String :=
  "EMBED_MAX_TOKENS=" ++ toString error.limit ++ " leaves no room for text: the tokenizer adds " ++
    toString error.added ++ " special tokens"

/-- Sets the limit, which must exceed the number of special tokens. -/
def withLimit (tokenizer : Tokenizer) (limit : Nat) : Except LimitError Tokenizer :=
  if limit ≤ tokenizer.frame.added then .error ⟨limit, tokenizer.frame.added⟩
  else .ok { tokenizer with limit := some limit }

/-- The number that stands for padding. -/
def padId (tokenizer : Tokenizer) : Nat :=
  match tokenizer.padding with
  | some padding => padding.id
  | none => (tokenizer.id? "[PAD]").getD 0

end Tokenizer

end TextVectors
