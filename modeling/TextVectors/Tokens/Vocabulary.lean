import Std.Data.HashMap

/-!
# Vocabularies

A vocabulary gives numbers to words. A piece of text is looked up as a whole, or
it is cut into the longest words that fit from the front, where words that
continue a piece are marked. What is not found gets the number of a word for
unknown pieces, and it is an error if the vocabulary has none.
-/

namespace TextVectors

namespace Tokens

/-- How pieces are looked up. -/
inductive Lookup where
  | words
  /-- Cuts pieces of at most `longest` characters; `continuing` marks the words after the first. -/
  | wordPieces (continuing : String) (longest : Nat)
  deriving DecidableEq, Repr

/-- Words with their numbers, and how they are found. -/
structure Vocabulary where
  words : Std.HashMap String Nat
  unknown : String
  lookup : Lookup

/-- A piece was not found, and there is no word for unknown pieces. -/
inductive VocabularyError where
  | noUnknownWord (model : String)
  deriving DecidableEq, Repr

def VocabularyError.message : VocabularyError → String
  | .noUnknownWord model => model ++ " error: Missing [UNK] token from the vocabulary"

namespace Vocabulary

def id? (vocabulary : Vocabulary) (word : String) : Option Nat :=
  vocabulary.words[word]?

/-- The name of the way of lookup in messages. -/
def modelName (vocabulary : Vocabulary) : String :=
  match vocabulary.lookup with
  | .words => "WordLevel"
  | .wordPieces _ _ => "WordPiece"

/-- The number of the word for unknown pieces. -/
def unknownId (vocabulary : Vocabulary) : Except VocabularyError Nat :=
  match vocabulary.id? vocabulary.unknown with
  | some id => .ok id
  | none => .error (.noUnknownWord vocabulary.modelName)

/-- The longest word at the front of some characters: its number and how many it takes, at most
`length` of them. -/
def longestWord (vocabulary : Vocabulary) (mark : String) (text : List Char) :
    Nat → Option (Nat × Nat)
  | 0 => none
  | length + 1 =>
    match vocabulary.id? (mark ++ String.ofList (text.take (length + 1))) with
    | some id => some (id, length + 1)
    | none => longestWord vocabulary mark text length

/-- Cuts characters into the longest words; at most `fuel` of them. -/
def wordPieces (vocabulary : Vocabulary) (continuing : String) :
    Nat → Bool → List Char → Option (List Nat)
  | _, _, [] => some []
  | 0, _, _ :: _ => none
  | fuel + 1, first, text => do
    let mark := if first then "" else continuing
    let (id, length) ← vocabulary.longestWord mark text text.length
    let rest ← wordPieces vocabulary continuing fuel false (text.drop length)
    return id :: rest

/-- The numbers of a piece that is not empty. -/
def encode (vocabulary : Vocabulary) (piece : List Char) : Except VocabularyError (List Nat) :=
  match vocabulary.lookup with
  | .words =>
    match vocabulary.id? (String.ofList piece) with
    | some id => .ok [id]
    | none => vocabulary.unknownId.map ([·])
  | .wordPieces continuing longest =>
    if longest < piece.length then vocabulary.unknownId.map ([·])
    else
      match vocabulary.wordPieces continuing piece.length true piece with
      | some ids => .ok ids
      -- A piece of which some characters are in no word is unknown as a whole.
      | none => vocabulary.unknownId.map ([·])

end Vocabulary

end Tokens

end TextVectors
