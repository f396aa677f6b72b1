import TextVectors.Json.Tree

/-!
# Sizes of a network

A model says in a file of its own how large its network is and which function
stands between the two parts of a layer. The other fields of the file are read,
so a file with a malformed one is refused, but they mean nothing here.
-/

namespace TextVectors

namespace Transformer

/-- The function between the two parts of a layer. -/
inductive Activation where
  | gaussian
  | gaussianByTangent
  | positivePart
  deriving DecidableEq, Repr

/-- The sizes of a network. -/
structure Config where
  /-- The number of tokens. -/
  words : Nat
  /-- The components of a token's vector. -/
  width : Nat
  layers : Nat
  heads : Nat
  /-- The components between the two parts of a layer. -/
  innerWidth : Nat
  activation : Activation
  /-- The greatest number of tokens of a text. -/
  positions : Nat
  /-- The number of kinds of tokens. -/
  kinds : Nat
  /-- What is added to a variance before it is divided by. -/
  epsilon : Number.Binary
  /-- A name in front of the names of the weights, where they have one. -/
  family : Option String
  deriving DecidableEq, Repr

namespace Config

/-- The sizes as far as they have been read. -/
structure Draft where
  words : Option Nat := none
  width : Option Nat := none
  layers : Option Nat := none
  heads : Option Nat := none
  innerWidth : Option Nat := none
  activation : Option Activation := none
  dropout : Option Number.Binary := none
  positions : Option Nat := none
  kinds : Option Nat := none
  initialRange : Option Number.Binary := none
  epsilon : Option Number.Binary := none
  padding : Option Nat := none
  positionKind : Option Unit := none
  caches : Option Bool := none
  lastDropout : Option (Option Number.Binary) := none
  family : Option (Option String) := none

open Json

def activations : List (String × Activation) := [
  ("gelu", .gaussian), ("geluapproximate", .gaussianByTangent), ("relu", .positivePart)]

/-- The fields of the file. -/
def shape : Shape Draft where
  name := "Config"
  fields := [
    .of "vocab_size" (·.words) (fun draft value => { draft with words := some value }) size
      .required,
    .of "hidden_size" (·.width) (fun draft value => { draft with width := some value }) size
      .required,
    .of "num_hidden_layers" (·.layers) (fun draft value => { draft with layers := some value })
      size .required,
    .of "num_attention_heads" (·.heads) (fun draft value => { draft with heads := some value })
      size .required,
    .of "intermediate_size" (·.innerWidth)
      (fun draft value => { draft with innerWidth := some value }) size .required,
    .of "hidden_act" (·.activation) (fun draft value => { draft with activation := some value })
      (named activations) .required,
    .of "hidden_dropout_prob" (·.dropout) (fun draft value => { draft with dropout := some value })
      double .required,
    .of "max_position_embeddings" (·.positions)
      (fun draft value => { draft with positions := some value }) size .required,
    .of "type_vocab_size" (·.kinds) (fun draft value => { draft with kinds := some value }) size
      .required,
    .of "initializer_range" (·.initialRange)
      (fun draft value => { draft with initialRange := some value }) double .required,
    .of "layer_norm_eps" (·.epsilon) (fun draft value => { draft with epsilon := some value })
      double .required,
    .of "pad_token_id" (·.padding) (fun draft value => { draft with padding := some value }) size
      .required,
    .of "position_embedding_type" (·.positionKind)
      (fun draft value => { draft with positionKind := some value }) (named [("absolute", ())])
      (.standard fun draft => { draft with positionKind := some () }),
    .of "use_cache" (·.caches) (fun draft value => { draft with caches := some value }) boolean
      (.standard fun draft => { draft with caches := some false }),
    .of "classifier_dropout" (·.lastDropout)
      (fun draft value => { draft with lastDropout := some value }) (optional double)
      (.optional fun draft => { draft with lastDropout := some none }),
    .of "model_type" (·.family) (fun draft value => { draft with family := some value })
      (optional string) (.optional fun draft => { draft with family := some none })]
  empty := {}

/-- Reads the sizes of a network. -/
def read : Reader Config := fun bytes => do
  let (draft, rest) ← shape.read bytes
  return ({
    words := draft.words.getD 0
    width := draft.width.getD 0
    layers := draft.layers.getD 0
    heads := draft.heads.getD 0
    innerWidth := draft.innerWidth.getD 0
    activation := draft.activation.getD .gaussian
    positions := draft.positions.getD 0
    kinds := draft.kinds.getD 0
    epsilon := draft.epsilon.getD .nan
    family := draft.family.getD none }, rest)

end Config

end Transformer

end TextVectors
