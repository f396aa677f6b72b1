import TextVectors.Encoder
import TextVectors.Tokens.Batch
import TextVectors.Transformer.Config

/-!
# The network

A network gives every token of a text a vector. The vector of a token is first
looked up, by its number, its kind and its position; then layers mix the vectors
of a text. In a layer each head compares every token with every other, takes the
mean of their values by how well they fit, and two dense maps with an activation
between them follow. What comes out of each half is added to what went in and
brought to a common scale.

A token whose mark is zero is compared with, but counts for nothing beside one
whose mark is one.
-/

namespace TextVectors

namespace Transformer

/-- A vector of numbers. -/
abbrev Vec := List Float32

/-- The sum of products of components. -/
def dot (left right : Vec) : Float32 :=
  (List.zipWith (· * ·) left right).foldl (· + ·) 0

def sums (left right : Vec) : Vec :=
  List.zipWith (· + ·) left right

/-- A linear map followed by a shift. -/
structure Dense where
  rows : List Vec
  shift : Vec

def Dense.apply (dense : Dense) (input : Vec) : Vec :=
  List.zipWith (fun row shift => dot row input + shift) dense.rows dense.shift

/-- A common scale: mean zero and variance one, then a factor and a shift for each component. -/
structure Scale where
  factor : Vec
  shift : Vec
  /-- What is added to the variance. -/
  epsilon : Float32

def Scale.apply (scale : Scale) (input : Vec) : Vec :=
  let count := Float32.ofNat input.length
  let mean := input.foldl (· + ·) 0 / count
  let squares := input.foldl (fun sum x => sum + x * x) 0 / count
  let deviation := (squares - mean * mean + scale.epsilon).sqrt
  List.zipWith (· + ·) (List.zipWith (fun x factor => (x - mean) / deviation * factor) input
    scale.factor) scale.shift

/-! ## Activations -/

/-- The terms of a series from one on: each is the last one times `factor`, divided by the next odd
number. All have one sign, so nothing is lost when they are added. -/
private def seriesFrom (factor : Float) : Nat → Float → Float → Float → Float
  | 0, _, _, sum => sum
  | count + 1, odd, term, sum =>
    let term := term * factor / odd
    seriesFrom factor count (odd + 2) term (sum + term)

/-- The error function. Beyond six it differs from one by less than can be told. -/
def errorFunction (x : Float) : Float :=
  if 6 ≤ x then 1
  else if x ≤ -6 then -1
  else 2 / Float.sqrt 3.141592653589793 * Float.exp (-x * x) * seriesFrom (2 * x * x) 200 3 x x

def Activation.apply : Activation → Float32 → Float32
  | .gaussian, x =>
    let wide := x.toFloat
    ((errorFunction (wide / Float.sqrt 2) + 1) * 0.5 * wide).toFloat32
  | .gaussianByTangent, x =>
    0.5 * x * (1 + Float32.tanh (0.7978846 * x * (1 + 0.044715 * x * x)))
  | .positivePart, x => if x < 0 then 0 else x

/-! ## Layers -/

/-- Weights that sum to one, the greater the greater the numbers are. -/
def shares (numbers : Vec) : Vec :=
  let greatest := numbers.foldl (fun greatest x => if greatest < x then x else greatest)
    (numbers.headD 0)
  let powers := numbers.map fun x => Float32.exp (x - greatest)
  let total := powers.foldl (· + ·) 0
  powers.map (· / total)

/-- The part of a layer that mixes the vectors of a text. -/
structure Attention where
  heads : Nat
  /-- The components that each head compares. -/
  headWidth : Nat
  query : Dense
  key : Dense
  value : Dense
  output : Dense
  scale : Scale

namespace Attention

/-- What one head makes of a text: its queries, keys and values, and what is added to the fit of
each token. -/
def head (attention : Attention) (biases : Vec) (queries keys values : List Vec) : List Vec :=
  let factor := 1 / Float32.sqrt (Float32.ofNat attention.headWidth)
  queries.map fun query =>
    let fits := List.zipWith (fun key bias => dot query key * factor + bias) keys biases
    (List.zipWith (fun share value => value.map (share * ·)) (shares fits) values).foldl sums
      (List.replicate attention.headWidth 0)

/-- The part of each vector that belongs to a head. -/
private def part (attention : Attention) (index : Nat) (vectors : List Vec) : List Vec :=
  vectors.map fun vector => (vector.drop (index * attention.headWidth)).take attention.headWidth

/-- The mixed vectors of a text. -/
def apply (attention : Attention) (biases : Vec) (vectors : List Vec) : List Vec :=
  let queries := vectors.map attention.query.apply
  let keys := vectors.map attention.key.apply
  let values := vectors.map attention.value.apply
  let parts := (List.range attention.heads).map fun index =>
    attention.head biases (attention.part index queries) (attention.part index keys)
      (attention.part index values)
  let mixed := parts.foldl (List.zipWith (· ++ ·)) (vectors.map fun _ => [])
  List.zipWith (fun mixed vector =>
    attention.scale.apply (sums (attention.output.apply mixed) vector)) mixed vectors

end Attention

/-- A layer. -/
structure Layer where
  attention : Attention
  inner : Dense
  output : Dense
  scale : Scale

def Layer.apply (layer : Layer) (activation : Activation) (biases : Vec) (vectors : List Vec) :
    List Vec :=
  (layer.attention.apply biases vectors).map fun vector =>
    let inner := (layer.inner.apply vector).map activation.apply
    layer.scale.apply (sums (layer.output.apply inner) vector)

end Transformer

/-- A network. -/
structure Network where
  width : Nat
  /-- The vectors of the tokens, by their numbers. -/
  words : Array Transformer.Vec
  positions : List Transformer.Vec
  kinds : List Transformer.Vec
  scale : Transformer.Scale
  layers : List Transformer.Layer
  activation : Transformer.Activation

namespace Network

open Transformer

/-- What is added to the fit of a token: nothing for a mark of one, and for a mark of zero so much
that it counts for nothing. -/
def bias (mark : Int) : Float32 :=
  (1 - Float32.ofInt mark) * -3.4028235e38

/-- The vectors of the tokens of a text before the first layer. -/
def lookUp (network : Network) (ids : List Nat) : List Vec :=
  List.zipWith (fun id position =>
    network.scale.apply
      (sums (sums (network.words.getD id []) (network.kinds.headD [])) position))
    ids network.positions

def applyText (network : Network) (ids : List Nat) (marks : List Int) : List Vec :=
  network.layers.foldl
    (fun vectors layer => layer.apply network.activation (marks.map bias) vectors)
    (network.lookUp ids)

/-- Looks for a vector that a batch asks for and the network does not have. -/
def findMissing (network : Network) (batch : Batch) : Option TensorError :=
  match batch.ids.flatten.find? (network.words.size ≤ ·) with
  | some id => some (.badIndex id network.words.size)
  | none =>
    if network.kinds.isEmpty ∧ batch.ids.flatten ≠ [] then some (.badIndex 0 0)
    else if network.positions.length < batch.length then
      some (.badIndex network.positions.length network.positions.length)
    else none

/-- Whether the heads of a layer do not make up a whole vector. -/
def findMisfit (network : Network) (batch : Batch) : Option TensorError :=
  match network.layers with
  | [] => none
  | layer :: _ =>
    let mixed := layer.attention.heads * layer.attention.headWidth
    if mixed = 0 ∨ mixed = network.width then none
    else
      some (.notMultipliable [batch.size, batch.length, mixed]
        [batch.size, network.width, network.width])

/-- The vectors of the tokens of a batch. Texts without any token cannot be compared. -/
def forward (network : Network) (batch : Batch) : Except Fault (Tensor Number.Single) := do
  if let some error := network.findMissing batch then throw (.failed error.failure)
  if network.width = 0 then throw (.crashed "chunk_size must not be zero")
  if batch.length = 0 ∧ network.layers.length ≠ 0 then
    throw (.crashed "attempt to divide by zero")
  if let some error := network.findMisfit batch then throw (.failed error.failure)
  let texts := List.zipWith network.applyText batch.ids batch.marks
  return ⟨[batch.size, batch.length, network.width],
    texts.flatten.flatten.map fun component => ⟨component.toBits⟩⟩

end Network

end TextVectors
