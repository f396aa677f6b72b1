import TextVectors.Tokens.Tokenizer
import TextVectors.Transformer.Tensor

/-!
# Batches of encodings

Texts that go through a network together must have equally many tokens. Shorter
ones are filled up on the right to the length of the longest, and the mark of
every filler is zero.
-/

namespace TextVectors

/-- Encodings of equal length: a row of numbers and a row of marks for each text. -/
structure Batch where
  /-- The number of tokens of every text. -/
  length : Nat
  ids : List (List Nat)
  marks : List (List Int)
  deriving DecidableEq, Repr

namespace Batch

/-- The number of texts. -/
def size (batch : Batch) : Nat :=
  batch.ids.length

/-- The greatest length of some encodings. -/
def longest (encodings : List Encoding) : Nat :=
  encodings.foldl (fun length encoding => max length encoding.ids.length) 0

def fill {α : Type} (length : Nat) (filler : α) (row : List α) : List α :=
  row ++ List.replicate (length - row.length) filler

def ofEncodings (padId : Nat) (encodings : List Encoding) : Batch :=
  let length := longest encodings
  { length
    ids := encodings.map fun encoding => fill length padId encoding.ids
    marks := encodings.map fun encoding =>
      encoding.mask ++ List.replicate (length - encoding.ids.length) 0 }

/-- The numbers of all texts as one tensor. -/
def idTensor (batch : Batch) : Except TensorError (Tensor Nat) :=
  Tensor.ofData [batch.size, batch.length] batch.ids.flatten

/-- The marks of all texts as one tensor. -/
def markTensor (batch : Batch) : Except TensorError (Tensor Int) :=
  Tensor.ofData [batch.size, batch.length] batch.marks.flatten

end Batch

end TextVectors
