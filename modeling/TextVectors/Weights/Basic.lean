import TextVectors.Number.Single
import TextVectors.Number.Words
import TextVectors.Transformer.Tensor

/-!
# Weights

The numbers that a model has learned, as tensors with names. A tensor is stored
in one of several encodings and read as numbers of the single format; an
encoding that no model is made of is refused only when the tensor is asked for.
-/

namespace TextVectors

namespace Weights

/-- How the numbers of a tensor are encoded. -/
structure Encoding where
  name : String
  /-- The bytes of a number. -/
  size : Nat
  /-- The number of a word, if a model may be made of such numbers. -/
  value? : Option (Nat → Number.Binary)

def naturalValue (word : Nat) : Number.Binary :=
  .finite false word 0

/-- A word of a number of bits as an integer in two's complement. -/
def integerValue (bits word : Nat) : Number.Binary :=
  if word < Nat.pow 2 (bits - 1) then .finite false word 0
  else .finite true (Nat.pow 2 bits - word) 0

def encodings : List Encoding := [
  ⟨"BOOL", 1, none⟩,
  ⟨"U8", 1, some naturalValue⟩,
  ⟨"I8", 1, none⟩,
  ⟨"F8_E5M2", 1, none⟩,
  ⟨"F8_E4M3", 1, none⟩,
  ⟨"I16", 2, none⟩,
  ⟨"U16", 2, some naturalValue⟩,
  ⟨"F16", 2, some (Number.Format.half.ofWord 5)⟩,
  ⟨"BF16", 2, some (Number.Format.shortened.ofWord 8)⟩,
  ⟨"I32", 4, some (integerValue 32)⟩,
  ⟨"U32", 4, some naturalValue⟩,
  ⟨"F32", 4, some (Number.Format.single.ofWord 8)⟩,
  ⟨"F64", 8, some (Number.Format.double.ofWord 11)⟩,
  ⟨"I64", 8, some (integerValue 64)⟩,
  ⟨"U64", 8, none⟩]

def encoding? (name : String) : Option Encoding :=
  encodings.find? (·.name == name)

/-- The numbers of bytes in an encoding, rounded to the single format. -/
def Encoding.read (encoding : Encoding) (count : Nat) (bytes : List UInt8) :
    Except TensorError (List Number.Single) :=
  match encoding.value? with
  | none => .error (.notReadable encoding.name)
  | some value =>
    .ok ((Number.words encoding.size count bytes).map fun word => .nearest (value word))

end Weights

/-- Tensors with names, each read or refused. -/
abbrev Weights := List (String × Except TensorError (Tensor Number.Single))

/-- The tensor of a name, which must have a shape. -/
def Weights.get (weights : Weights) (name : String) (shape : List Nat) :
    Except TensorError (Tensor Number.Single) :=
  match weights.lookup name with
  | none => .error (.missing name)
  | some (.error error) => .error error
  | some (.ok tensor) =>
    if tensor.shape = shape then .ok tensor else .error (.wrongShape name shape tensor.shape)

end TextVectors
