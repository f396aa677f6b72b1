import TextVectors.SentenceEncoder
import TextVectors.Tokens.Reader
import TextVectors.Transformer.Network
import TextVectors.Weights.Headed
import TextVectors.Weights.StackProgram

/-!
# Loading a model

A model is loaded from its directory: first the sizes of its network, which must
have the expected number of components, then its pooling, its weights and its
tokenizer. The names of the weights stand alone or behind the name of the
family; if some weights are missing under both, the first one that is missing
without the family's name is reported.
-/

namespace TextVectors

namespace Transformer

/-- Why a model cannot be loaded. -/
inductive LoadError where
  | unreadable (path detail : String)
  | notParsed (path detail : String)
  | dimension (configured found : Nat)
  | pooling (error : Pooling.Error)
  | weights (path detail : String)
  | tensor (error : TensorError)
  | tokenizer (path detail : String)
  | limit (error : Tokenizer.LimitError)
  deriving DecidableEq, Repr

def LoadError.failure : LoadError → Failure
  | .unreadable path detail => ⟨"read " ++ path, [detail]⟩
  | .notParsed path detail => ⟨"parse " ++ path, [detail]⟩
  | .dimension configured found =>
    ⟨"model dimension mismatch: configured " ++ toString configured ++ ", model has " ++
      toString found, []⟩
  | .pooling error => error.failure
  | .weights path detail => ⟨"load weights from " ++ path, [detail]⟩
  | .tensor error => ⟨"load BERT model", [error.message]⟩
  | .tokenizer path detail => ⟨"load tokenizer " ++ path ++ ": " ++ detail, []⟩
  | .limit error => ⟨error.message, []⟩

/-- How loading ends without a model. -/
inductive LoadFault where
  | failed (error : LoadError)
  | crashed (message : String)
  deriving DecidableEq, Repr

/-! ## Weights -/

/-- The weights in a file. The ending of its name says how they are stored. -/
def readWeights (files : Files) (path : String) : Except LoadError Weights := do
  let content ← (files.read path).mapError fun error => .weights path error.message
  if Path.extension? path = some "safetensors" then
    (Weights.ofHeaded content).mapError fun error =>
      .weights path ("path: " ++ Text.quoted path ++ " " ++ error.message)
  else (Weights.ofArchive content).mapError fun error => .weights path error.message

/-- The rows of a tensor of two axes. -/
def matrix (weights : Weights) (name : String) (height width : Nat) :
    Except TensorError (List Vec) := do
  let tensor ← weights.get name [height, width]
  return Tensor.rows width height (tensor.data.map fun number => Float32.ofBits number.bits)

/-- The components of a tensor of one axis. -/
private def vector (weights : Weights) (name : String) (width : Nat) : Except TensorError Vec := do
  let tensor ← weights.get name [width]
  return tensor.data.map fun number => Float32.ofBits number.bits

def Dense.ofWeights (weights : Weights) (name : String) (height width : Nat) :
    Except TensorError Dense := do
  let rows ← matrix weights (name ++ ".weight") height width
  return ⟨rows, ← vector weights (name ++ ".bias") height⟩

def Scale.ofWeights (weights : Weights) (config : Config) (name : String) :
    Except TensorError Scale := do
  let factor ← vector weights (name ++ ".weight") config.width
  let shift ← vector weights (name ++ ".bias") config.width
  return ⟨factor, shift, Float32.ofBits (Number.Single.nearest config.epsilon).bits⟩

def Layer.ofWeights (weights : Weights) (config : Config) (name : String) :
    Except TensorError Layer := do
  let headWidth := config.width / config.heads
  let mixed := config.heads * headWidth
  let query ← Dense.ofWeights weights (name ++ ".attention.self.query") mixed config.width
  let value ← Dense.ofWeights weights (name ++ ".attention.self.value") mixed config.width
  let key ← Dense.ofWeights weights (name ++ ".attention.self.key") mixed config.width
  let mixing ← Dense.ofWeights weights (name ++ ".attention.output.dense") config.width config.width
  let mixingScale ← Scale.ofWeights weights config (name ++ ".attention.output.LayerNorm")
  let inner ← Dense.ofWeights weights (name ++ ".intermediate.dense") config.innerWidth config.width
  let output ← Dense.ofWeights weights (name ++ ".output.dense") config.width config.innerWidth
  let outputScale ← Scale.ofWeights weights config (name ++ ".output.LayerNorm")
  return ⟨⟨config.heads, headWidth, query, key, value, mixing, mixingScale⟩, inner, output,
    outputScale⟩

/-- Some layers from the one numbered `index` on. -/
def layersFrom (weights : Weights) (config : Config) (family : String) :
    Nat → Nat → Except TensorError (List Layer)
  | 0, _ => .ok []
  | count + 1, index => do
    let first ← Layer.ofWeights weights config (family ++ "encoder.layer." ++ toString index)
    return first :: (← layersFrom weights config family count (index + 1))

/-- The network whose weights stand behind the name of a family. -/
def networkOf (weights : Weights) (config : Config) (family : String) :
    Except TensorError Network := do
  let front := family ++ "embeddings."
  let words ← matrix weights (front ++ "word_embeddings.weight") config.words config.width
  let positions ←
    matrix weights (front ++ "position_embeddings.weight") config.positions config.width
  let kinds ← matrix weights (front ++ "token_type_embeddings.weight") config.kinds config.width
  let firstScale ← Scale.ofWeights weights config (front ++ "LayerNorm")
  let layers ← layersFrom weights config family config.layers 0
  return ⟨config.width, words.toArray, positions, kinds, firstScale, layers, config.activation⟩

/-- The network of some weights, whose names may stand behind the name of the family. -/
def network (weights : Weights) (config : Config) : Except LoadFault Network :=
  -- The width is divided by the number of heads, but only where there is a layer.
  if config.heads = 0 ∧ 0 < config.layers then .error (.crashed "attempt to divide by zero")
  else
    match networkOf weights config "", config.family with
    | .ok network, _ => .ok network
    | .error error, none => .error (.failed (.tensor error))
    | .error error, some family =>
      match networkOf weights config (family ++ ".") with
      | .ok network => .ok network
      -- The error is that of the names without the family.
      | .error _ => .error (.failed (.tensor error))

/-! ## The whole model -/

/-- The sizes of the network of a model, which must have an expected number of components if one is
given, and the model's pooling. -/
def readConfig (files : Files) (directory : String) (expected : Option Nat) :
    Except LoadError (Config × Pooling) := do
  let path := Path.join directory Model.configFile
  let text ← (files.readText path).mapError (.unreadable path)
  let bytes := text.toUTF8.toList
  let config ← (Json.readWhole Config.read bytes).mapError fun defect =>
    .notParsed path (defect.message bytes)
  if let some dimension := expected then
    if dimension ≠ config.width then throw (.dimension dimension config.width)
  return (config, ← (Pooling.ofModel files directory).mapError .pooling)

def readTokenizer (files : Files) (directory : String) : Except LoadError Tokenizer := do
  let path := Path.join directory Model.tokenizerFile
  let text ← (files.readText path).mapError (.tokenizer path)
  let bytes := text.toUTF8.toList
  (Json.readWhole Tokenizer.read bytes).mapError fun defect =>
    .tokenizer path (defect.message bytes)

/-- The greatest number of tokens of a text. -/
def limit (config : Config) (maxTokens : Nat) : Nat :=
  min maxTokens config.positions

/-- The sentence encoder of a network and a tokenizer that has its limit. What the tokenizer says of
padding counts for nothing, but for the number that is used. -/
def encoder (config : Config) (pooling : Pooling) (network : Network) (tokenizer : Tokenizer)
    (padId : Nat) : SentenceEncoder Number.Single where
  tokenize := tokenizer.encode
  padId
  forward := network.forward
  pooling
  arithmetic := .rounded
  dimension := config.width

/-- The encoder of a model whose sizes and pooling are known. -/
def assemble (files : Files) (resolved : Model.Resolved) (maxTokens : Nat) (config : Config)
    (pooling : Pooling) : Except LoadFault (SentenceEncoder Number.Single) := do
  let weights ← (readWeights files resolved.weights).mapError .failed
  let network ← network weights config
  let tokenizer ← (readTokenizer files resolved.dir).mapError .failed
  let limited ← ({ tokenizer with padding := none }.withLimit (limit config maxTokens)).mapError
    fun error => .failed (.limit error)
  return encoder config pooling network limited tokenizer.padId

/-- What the journal tells before the weights are read. -/
def announcement (config : Config) (pooling : Pooling) : Journal.Entry :=
  ⟨.info, .encoder, "Loading BERT encoder: hidden_size=" ++ toString config.width ++ ", layers=" ++
    toString config.layers ++ ", heads=" ++ toString config.heads ++ ", pooling=" ++ pooling.name⟩

/-- What the journal tells when the model is there. -/
def conclusion (config : Config) (maxTokens padId : Nat) : Journal.Entry :=
  ⟨.info, .encoder, "Encoder loaded (dims=" ++ toString config.width ++ ", max_tokens=" ++
    toString (limit config maxTokens) ++ ", pad_id=" ++ toString padId ++ ")"⟩

/-- What loading comes to. -/
structure Loading where
  outcome : Except LoadFault (SentenceEncoder Number.Single)
  entries : List Journal.Entry

/-- Loads a model. -/
def load (files : Files) (resolved : Model.Resolved) (maxTokens : Nat) (expected : Option Nat) :
    Loading :=
  match readConfig files resolved.dir expected with
  | .error error => ⟨.error (.failed error), []⟩
  | .ok (config, pooling) =>
    match assemble files resolved maxTokens config pooling with
    | .error fault => ⟨.error fault, [announcement config pooling]⟩
    | .ok encoder =>
      ⟨.ok encoder, [announcement config pooling, conclusion config maxTokens encoder.padId]⟩

/-- How loading a model from a directory ends, with its wording. -/
def LoadFault.fault (model : Model.Descriptor) (directory : String) : LoadFault → Fault
  | .failed error =>
    .failed (.context ("failed to load model " ++ model.modelId ++ " from " ++ directory)
      error.failure)
  | .crashed message => .crashed message

end Transformer

/-- The encoder that serves a loaded model. -/
def Encoder.ofModel (model : Model.Descriptor) (batchSize : Nat)
    (sentences : SentenceEncoder Number.Single) : Encoder Number.Single :=
  .ofProvider .rounded model.modelId sentences.provider batchSize

end TextVectors
