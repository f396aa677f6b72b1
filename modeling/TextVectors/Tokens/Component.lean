import TextVectors.Json.Tree
import TextVectors.Tokens.Tokenizer

/-!
# Components of tokenizers

The components of a tokenizer differ in shape with their type, so each is kept
as a tree and understood from it. A component that names no type, or one whose
type does not bind, is known by its members.
-/

namespace TextVectors

namespace Tokens

open Json

/-- A component fits none of the shapes that are known for its kind. -/
def unknownShape (kind : String) : Fault :=
  .rule ("data did not match any variant of untagged enum " ++ kind)

/-- The type that a component names. -/
private def type? (tree : Tree) : Option String :=
  match tree.get? "type" with
  | some (.text name) => some name
  | _ => none

/-- The meaning of a component that may be `null`, which then stands for nothing. -/
def optionalComponent {α : Type} (meaning : Tree → Except Fault α) :
    Tree → Except Fault (Option α)
  | .null => .ok none
  | tree => (meaning tree).map some

/-- Whether accents are stripped: with the capitals, unless the member says otherwise. -/
private def stripsAccents (lowercase : Bool) : Option Tree → Except Fault Bool
  | none => .ok lowercase
  | some .null => .ok lowercase
  | some value => value.asBoolean

private def normalizerFrom (tree : Tree) : Except Fault Normalizer := do
  let lowercase ← tree.member "lowercase" Tree.asBoolean
  return {
    cleanText := ← tree.member "clean_text" Tree.asBoolean
    spaceIdeographs := ← tree.member "handle_chinese_chars" Tree.asBoolean
    stripAccents := ← stripsAccents lowercase (tree.get? "strip_accents")
    lowercase }

def normalizerOf (tree : Tree) : Except Fault Normalizer :=
  (normalizerFrom tree).mapError fun _ => unknownShape "NormalizerUntagged"

/-- A way of cutting. -/
def splitterOf (tree : Tree) : Except Fault Splitter :=
  match type? tree with
  | some "Whitespace" => .ok .wordRuns
  | some "WhitespaceSplit" => .ok .blanks
  | some "BertPreTokenizer" => .ok .blanksAndMarks
  | _ => .error (unknownShape "PreTokenizerUntagged")

/-! ## Frames -/

/-- The number in a pair of a token and its number. -/
private def pairId (tree : Tree) : Except Fault Nat := do
  match ← tree.asItems with
  | [token, id] =>
    let _ ← token.asText
    id.asWord
  | items => .error (.wrongLength items.length "a tuple of size 2")

/-- The frame of one token before the text and one after it. -/
private def pairFrame (tree : Tree) : Except Fault Frame := do
  let back ← tree.member "sep" pairId
  let front ← tree.member "cls" pairId
  return [.special [front], .content, .special [back]]

/-- The numbers of a special token of a template. -/
private def specialIds (specials : Tree) (name : String) : Except Fault (List Nat) :=
  specials.member name fun special => special.member "ids" fun ids => do
    (← ids.asItems).mapM Tree.asWord

private def framePart (specials part : Tree) : Except Fault FramePart := do
  match ← part.asMembers with
  | [("SpecialToken", special)] =>
    return .special (← specialIds specials (← special.member "id" Tree.asText))
  | [("Sequence", _)] => return .content
  | _ => .error (.wrongKind part.found "enum Piece")

private def templateFrame (tree : Tree) : Except Fault Frame := do
  let specials ← tree.member "special_tokens" .ok
  tree.member "single" fun parts => do (← parts.asItems).mapM (framePart specials)

def frameOf (tree : Tree) : Except Fault Frame :=
  match pairFrame tree with
  | .ok frame => .ok frame
  | .error _ => (templateFrame tree).mapError fun _ => unknownShape "PostProcessorWrapper"

/-! ## Vocabularies -/

/-- The words of a vocabulary with their numbers. -/
private def wordsOf (tree : Tree) : Except Fault (Std.HashMap String Nat) := do
  return .ofList (← (← tree.asMembers).mapM fun (word, id) => do return (word, ← id.asWord))

/-- A vocabulary whose words are looked up as they are. -/
private def wholeWords (tree : Tree) : Except Fault Vocabulary := do
  let unknown ← tree.member "unk_token" Tree.asText
  let words ← tree.member "vocab" wordsOf
  return ⟨words, unknown, .words⟩

/-- A vocabulary of words that continue each other. -/
private def continuedWords (tree : Tree) : Except Fault Vocabulary := do
  let continuing ← tree.member "continuing_subword_prefix" Tree.asText
  let longest ← tree.member "max_input_chars_per_word" Tree.asSize
  let unknown ← tree.member "unk_token" Tree.asText
  let words ← tree.member "vocab" wordsOf
  return ⟨words, unknown, .wordPieces continuing longest⟩

/-- A vocabulary. One that names its type is held to it; one that does not is known by its
members. -/
def vocabularyOf (tree : Tree) : Except Fault Vocabulary :=
  match tree.get? "type" with
  | some (.text "WordLevel") => wholeWords tree
  | some (.text "WordPiece") => continuedWords tree
  | some _ => .error (unknownShape "ModelUntagged")
  | none =>
    match continuedWords tree with
    | .ok vocabulary => .ok vocabulary
    | .error _ => (wholeWords tree).mapError fun _ => unknownShape "ModelUntagged"

/-! ## Ways back to text -/

/-- The types of the ways from tokens back to text. -/
def decoderTypes : List String := ["BPEDecoder", "ByteLevel", "WordPiece", "Metaspace", "CTC",
  "Sequence", "Replace", "Fuse", "Strip", "ByteFallback"]

/-- A way from tokens back to text, which is not needed and only has to be a known one. -/
def checkDecoder (tree : Tree) : Except Fault Unit :=
  match type? tree with
  | some name =>
    if name ∈ decoderTypes then .ok () else .error (unknownShape "DecoderUntagged")
  | none => .error (unknownShape "DecoderUntagged")

end Tokens

end TextVectors
