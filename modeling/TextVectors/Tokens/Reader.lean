import TextVectors.Tokens.Component

/-!
# Reading tokenizers

A tokenizer is kept as a JSON object. Its members are read in any order; a
member of another name is not passed over, and so ends the object for the
reader. The components are read as trees, and the other members as they stand.
-/

namespace TextVectors

namespace Tokenizer

open Tokens Json

/-! ## Tokens that are kept whole -/

/-- A token that is kept whole, with the number that it is said to have. -/
structure AddedDraft where
  id : Nat
  content : String
  singleWord : Bool
  takesLeft : Bool
  takesRight : Bool
  normalized : Bool

/-- The names of the members of a token, its number aside, in order. -/
def addedNames : List String :=
  ["content", "single_word", "lstrip", "rstrip", "normalized", "special"]

/-- The first fault among the members of a token: one that is there twice, or that is of the wrong
kind. -/
def checkAdded : List String → List (String × Tree) → Except Fault Unit
  | _, [] => .ok ()
  | seen, (name, value) :: rest => do
    if !addedNames.contains name then checkAdded seen rest
    else if seen.contains name then .error (.duplicateField name)
    else
      if name = "content" then discard value.asText
      else discard value.asBoolean
      checkAdded (name :: seen) rest

/-- A token from its number and its other members. -/
def addedOf (id : Option Nat) (members : List (String × Tree)) : Except Fault AddedDraft := do
  let some id := id | .error (.missingField "id")
  checkAdded [] members
  let tree := Tree.object members
  let content ← tree.member "content" Tree.asText
  let singleWord ← tree.member "single_word" Tree.asBoolean
  let takesLeft ← tree.member "lstrip" Tree.asBoolean
  let takesRight ← tree.member "rstrip" Tree.asBoolean
  let normalized ← tree.member "normalized" Tree.asBoolean
  let _ ← tree.member "special" Tree.asBoolean
  return { id, content, singleWord, takesLeft, takesRight, normalized }

/-- Reads the members of a token, at most `fuel` of them. Its number is understood where it stands,
and the other members once all have been read. -/
def readAddedMembers : Nat → Bool → Option Nat → List (String × Tree) → Reader AddedDraft
  | 0, _, _, _, bytes => Defect.before .endInObject bytes
  | fuel + 1, first, id, members, bytes => do
    let (more, rest) ← nextKey first bytes
    if more then
      let (key, rest) ← stringRest rest
      if key = "id" then
        if id.isSome then Defect.before (.duplicateField key) (objectPlace rest)
        else
          let (id, rest) ← word (← colon rest)
          readAddedMembers fuel false (some id) members rest
      else
        let (value, rest) ← tree (greatestDepth - 3) (← colon rest)
        readAddedMembers fuel false id ((key, value) :: members) rest
    else
      match addedOf id members.reverse with
      | .ok added => return (added, rest.drop 1)
      | .error fault => Defect.before fault (rest.drop 1)

/-- Reads a token that is kept whole. -/
def readAdded : Reader AddedDraft := fun bytes =>
  match skipBlanks bytes with
  | 0x7B :: rest => readAddedMembers (rest.length + 1) true none [] rest
  | bytes => wrongKind "struct AddedTokenWithId" bytes

/-! ## Parts of a fixed shape -/

private def sides : List (String × Bool) := [("Left", true), ("Right", false)]

/-- Reads how long a padded encoding is. -/
def readPadLength : Reader PadLength :=
  variant [
    ("BatchLongest", .plain .longest),
    ("Fixed", .holding fun bytes => (size bytes).map fun (length, rest) => (.fixed length, rest))]

/-- Padding, as far as it has been read. -/
structure PaddingDraft where
  length : Option PadLength := none
  onLeft : Option Bool := none
  multipleOf : Option (Option Nat) := none
  id : Option Nat := none
  typeId : Option Nat := none
  token : Option String := none

def paddingShape : Shape PaddingDraft where
  name := "PaddingParams"
  fields := [
    .of "strategy" (·.length) (fun draft value => { draft with length := some value })
      readPadLength .required,
    .of "direction" (·.onLeft) (fun draft value => { draft with onLeft := some value })
      (named sides) .required,
    .of "pad_to_multiple_of" (·.multipleOf)
      (fun draft value => { draft with multipleOf := some value }) (optional size)
      (.optional fun draft => { draft with multipleOf := some none }),
    .of "pad_id" (·.id) (fun draft value => { draft with id := some value }) word .required,
    .of "pad_type_id" (·.typeId) (fun draft value => { draft with typeId := some value }) word
      .required,
    .of "pad_token" (·.token) (fun draft value => { draft with token := some value }) string
      .required]
  empty := {}

def readPadding : Reader Padding := fun bytes => do
  let (draft, rest) ← paddingShape.read bytes
  return (⟨draft.length.getD .longest, draft.onLeft.getD false, draft.multipleOf.getD none,
    draft.id.getD 0⟩, rest)

/-- A way of cutting off what is too long, as far as it has been read. -/
structure CutDraft where
  onLeft : Option Bool := none
  length : Option Nat := none
  strategy : Option Unit := none
  stride : Option Nat := none

/-- The shape of a way of cutting off. A tokenizer gets its limit from elsewhere, so it only has to
be well formed. -/
def cutShape : Shape CutDraft where
  name := "TruncationParams"
  fields := [
    .of "direction" (·.onLeft) (fun draft value => { draft with onLeft := some value })
      (named sides) (.standard fun draft => { draft with onLeft := some false }),
    .of "max_length" (·.length) (fun draft value => { draft with length := some value }) size
      .required,
    .of "strategy" (·.strategy) (fun draft value => { draft with strategy := some value })
      (named [("LongestFirst", ()), ("OnlyFirst", ()), ("OnlySecond", ())]) .required,
    .of "stride" (·.stride) (fun draft value => { draft with stride := some value }) size
      .required]
  empty := {}

/-! ## The whole -/

/-- A tokenizer, as far as it has been read. -/
structure Draft where
  added : List AddedDraft := []
  normalizer : Option Normalizer := none
  splitter : Option Splitter := none
  frame : Option Tokens.Frame := none
  vocabulary : Option Vocabulary := none
  padding : Option Padding := none

/-- Reads a component. What is wrong with its meaning is reported where the tokenizer goes on. -/
def readComponent {α : Type} (meaning : Tree → Except Fault α) : Reader α := fun bytes => do
  let (tree, rest) ← tree (greatestDepth - 1) bytes
  match meaning tree with
  | .ok meaning => return (meaning, rest)
  | .error fault => Defect.before fault (objectPlace rest)

/-- Reads the value of a member. A member that is not known has no value to be read. -/
def readMember (key : String) (draft : Draft) : Reader Draft := fun bytes => do
  match key with
  | "version" =>
    let (version, rest) ← string (← colon bytes)
    if version = "1.0" then return (draft, rest)
    else
      Defect.before (.rule ("Unknown tokenizer version '" ++ version ++ "'")) (objectPlace rest)
  | "truncation" =>
    let (_, rest) ← optional cutShape.read (← colon bytes)
    return (draft, rest)
  | "padding" =>
    let (padding, rest) ← optional readPadding (← colon bytes)
    return ({ draft with padding }, rest)
  | "added_tokens" =>
    let (added, rest) ← list readAdded (← colon bytes)
    return ({ draft with added }, rest)
  | "normalizer" =>
    let (normalizer, rest) ← readComponent (optionalComponent normalizerOf) (← colon bytes)
    return ({ draft with normalizer }, rest)
  | "pre_tokenizer" =>
    let (splitter, rest) ← readComponent (optionalComponent splitterOf) (← colon bytes)
    return ({ draft with splitter }, rest)
  | "post_processor" =>
    let (frame, rest) ← readComponent (optionalComponent frameOf) (← colon bytes)
    return ({ draft with frame }, rest)
  | "decoder" =>
    let (_, rest) ← readComponent (optionalComponent checkDecoder) (← colon bytes)
    return (draft, rest)
  | "model" =>
    let (vocabulary, rest) ← readComponent vocabularyOf (← colon bytes)
    return ({ draft with vocabulary := some vocabulary }, rest)
  | _ => return (draft, bytes)

/-- Gives numbers to the tokens that are kept whole: a word of the vocabulary keeps its number, and
any other gets the next free one. -/
def numberAdded (vocabulary : Vocabulary) : List AddedDraft → List Added → List Added
  | [], added => added
  | draft :: drafts, added =>
    let token : Added := {
      content := draft.content.toList
      id :=
        match vocabulary.id? draft.content with
        | some id => id
        | none =>
          added.foldl (fun next token => max next (token.id + 1)) vocabulary.words.size
      singleWord := draft.singleWord
      takesLeft := draft.takesLeft
      takesRight := draft.takesRight
      normalized := draft.normalized }
    if draft.content = "" ∨ added.any (·.content == token.content) then
      numberAdded vocabulary drafts added
    else numberAdded vocabulary drafts (added ++ [token])

/-- The tokenizer of a draft, which must have a vocabulary. -/
def ofDraft? (draft : Draft) : Option Tokenizer := do
  let vocabulary ← draft.vocabulary
  return {
    added := numberAdded vocabulary draft.added []
    normalizer := draft.normalizer
    splitter := draft.splitter.getD .whole
    vocabulary
    frame := draft.frame.getD [.content]
    padding := draft.padding
    limit := none }

/-- Reads the members of a tokenizer, at most `fuel` of them. -/
def readMembers : Nat → Bool → Draft → Reader Tokenizer
  | 0, _, _, bytes => Defect.before .endInObject bytes
  | fuel + 1, first, draft, bytes => do
    let (more, rest) ← nextKey first bytes
    if more then
      let (key, rest) ← stringRest rest
      let (draft, rest) ← readMember key draft rest
      readMembers fuel false draft rest
    else
      match ofDraft? draft with
      | some tokenizer => return (tokenizer, rest.drop 1)
      | none => Defect.before (.rule "Model missing.") (rest.drop 1)

def read : Reader Tokenizer := fun bytes =>
  match skipBlanks bytes with
  | 0x7B :: rest => readMembers (rest.length + 1) true {} rest
  | 0x5B :: rest =>
    Defect.before (.wrongKind "sequence" "struct Tokenizer") (listPlace rest)
  | bytes => wrongKind "struct Tokenizer" bytes

end Tokenizer

end TextVectors
