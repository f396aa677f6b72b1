import TextVectors.Failure
import TextVectors.Model.Pooling
import TextVectors.Number.Single

/-!
# Tensors

A tensor is a list of numbers with a shape: the numbers stand in the order in
which the last index runs fastest. This module says which shapes fit together
and takes the mean over the tokens of a batch of texts.
-/

namespace TextVectors

/-- Why an operation on tensors is refused. -/
inductive TensorError where
  | bufferSize (size : Nat) (shape : List Nat)
  | noAxis (axis : Nat) (shape : List Nat)
  | cannotBroadcast (shape target : List Nat)
  | wrongRank (expected : Nat) (shape : List Nat)
  | badIndex (index size : Nat)
  | narrow (shape : List Nat) (axis start length : Nat)
  | notMultipliable (left right : List Nat)
  | missing (name : String)
  | wrongShape (name : String) (expected found : List Nat)
  | notReadable (encoding : String)
  deriving DecidableEq, Repr

namespace TensorError

def shapeText (shape : List Nat) : String :=
  "[" ++ ", ".intercalate (shape.map toString) ++ "]"

def message : TensorError → String
  | .bufferSize size shape =>
    "Shape mismatch, got buffer of size " ++ toString size ++ " which is compatible with shape " ++
      shapeText shape
  | .noAxis axis shape =>
    "unsqueeze: dimension index " ++ toString axis ++ " out of range for shape " ++ shapeText shape
  | .cannotBroadcast shape target =>
    "cannot broadcast " ++ shapeText shape ++ " to " ++ shapeText target
  | .wrongRank expected shape =>
    "unexpected rank, expected: " ++ toString expected ++ ", got: " ++ toString shape.length ++
      " (" ++ shapeText shape ++ ")"
  | .badIndex index size =>
    "index-select invalid index " ++ toString index ++ " with dim size " ++ toString size
  | .narrow shape axis start length =>
    "narrow invalid args start + len > dim_len: " ++ shapeText shape ++ ", dim: " ++
      toString axis ++ ", start: " ++ toString start ++ ", len:" ++ toString length
  | .notMultipliable left right =>
    "shape mismatch in matmul, lhs: " ++ shapeText left ++ ", rhs: " ++ shapeText right
  | .missing name => "cannot find tensor " ++ name
  | .wrongShape name expected found =>
    "shape mismatch for " ++ name ++ ", expected: " ++ shapeText expected ++ ", got: " ++
      shapeText found
  | .notReadable encoding => "unsupported safetensor dtype " ++ encoding

/-- A refusal without further causes. -/
def failure (error : TensorError) : Failure :=
  ⟨error.message, []⟩

end TensorError

/-- Numbers with a shape. -/
structure Tensor (α : Type) where
  shape : List Nat
  data : List α
  deriving DecidableEq, Repr

namespace Tensor

variable {α : Type}

/-- How many numbers a shape has room for. -/
def size (shape : List Nat) : Nat :=
  shape.foldl (· * ·) 1

/-- Gives numbers a shape. -/
def ofData (shape : List Nat) (data : List α) : Except TensorError (Tensor α) :=
  if data.length = size shape then .ok ⟨shape, data⟩ else .error (.bufferSize data.length shape)

/-- The first `count` pieces of a list, each of `length` items. -/
def rows (length : Nat) : Nat → List α → List (List α)
  | 0, _ => []
  | count + 1, data => data.take length :: rows length count (data.drop length)

/-- A shape with an axis of length one put in. -/
def unsqueeze (axis : Nat) (shape : List Nat) : Except TensorError (List Nat) :=
  if axis ≤ shape.length then .ok (shape.take axis ++ 1 :: shape.drop axis)
  else .error (.noAxis axis shape)

/-- Whether lengths from the last axis on can be stretched to others. -/
def stretches : List Nat → List Nat → Bool
  | [], _ => true
  | _ :: _, [] => false
  | length :: lengths, target :: targets =>
    (length == 1 || length == target) && stretches lengths targets

/-- A list of one item as often as needed; any other list as it is. -/
def repeated (count : Nat) : List α → List α
  | [item] => List.replicate count item
  | items => items

/-- The mean of the token vectors of each text of a batch. The vectors have the shape texts by
tokens by components; the marks have the shape texts by tokens, and an axis of length one counts
for all. -/
def mean (arithmetic : Pooling.Arithmetic α) (vectors : Tensor α) (marks : Tensor Int) :
    Except TensorError (List (List α)) := do
  let spread ← unsqueeze 2 marks.shape
  if !stretches spread.reverse vectors.shape.reverse then
    throw (.cannotBroadcast spread vectors.shape)
  match vectors.shape, marks.shape with
  | [texts, tokens, width], [markedTexts, markedTokens] =>
    let perText := (rows (tokens * width) texts vectors.data).map (rows width tokens)
    let marked :=
      repeated texts ((rows markedTokens markedTexts marks.data).map (repeated tokens))
    return (perText.zip marked).map fun (vectors, marks) => arithmetic.mean width vectors marks
  | texts :: _ :: others, _ => throw (.wrongRank 2 (texts :: others))
  | shape, _ => throw (.wrongRank 2 shape)

/-- The vector of the first token of each text of a batch. -/
def firsts (vectors : Tensor α) : Except TensorError (List (List α)) :=
  match vectors.shape with
  | [texts, tokens, width] =>
    if tokens = 0 then .error (.narrow vectors.shape 1 0 1)
    else .ok ((rows (tokens * width) texts vectors.data).map (·.take width))
  | shape => .error (.wrongRank 3 shape)

end Tensor

/-- Means of numbers of the single format. -/
def Pooling.Arithmetic.rounded : Pooling.Arithmetic Number.Single where
  zero := ⟨0⟩
  add a b := .nearest (Number.Format.single.add a.value b.value)
  mul a b := .nearest (Number.Format.single.mul a.value b.value)
  div a b := .nearest (Number.Format.single.div a.value b.value)
  max a b := if Number.Binary.less a.value b.value then b else a
  ofInt value := .nearest (Number.Format.single.ofInt value)
  tiny := .nearest (Number.Format.single.nearest false 1 (Nat.pow 10 9))

end TextVectors
