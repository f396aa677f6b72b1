import TextVectors.Encoder
import TextVectors.Tokens.Batch

/-!
# Sentence encoders

A sentence encoder turns texts into vectors in three steps. The texts are cut
into tokens and made into a batch; a network gives every token a vector; and the
vectors of each text are pooled into one.
-/

namespace TextVectors

/-- A network with all that it takes to use it on texts. -/
structure SentenceEncoder (σ : Type) where
  tokenize : String → Except Tokens.VocabularyError Encoding
  /-- The number that fills up shorter texts. -/
  padId : Nat
  /-- The vectors of all tokens: a tensor of texts by tokens by components. -/
  forward : Batch → Except Fault (Tensor σ)
  pooling : Pooling
  arithmetic : Pooling.Arithmetic σ
  /-- The number of components of a vector. -/
  dimension : Nat

namespace SentenceEncoder

variable {σ : Type}

def batch (encoder : SentenceEncoder σ) (texts : List String) :
    Except Tokens.VocabularyError Batch :=
  (texts.mapM encoder.tokenize).map (Batch.ofEncodings encoder.padId)

/-- One vector for each text of a batch, of the vectors of its tokens. -/
def pool (encoder : SentenceEncoder σ) (vectors : Tensor σ) (marks : Tensor Int) :
    Except TensorError (List (List σ)) :=
  match encoder.pooling with
  | .first => vectors.firsts
  | .mean => Tensor.mean encoder.arithmetic vectors marks

/-- The raw vectors of some texts. -/
def embed (encoder : SentenceEncoder σ) (texts : List String) : Except Fault (List (List σ)) := do
  if texts.isEmpty then return []
  let batch ← (encoder.batch texts).mapError fun error =>
    .failed ⟨"tokenize: " ++ error.message, []⟩
  -- Only for its refusal: the network is given the batch itself.
  let _ ← batch.idTensor.mapError (.failed ·.failure)
  let marks ← batch.markTensor.mapError (.failed ·.failure)
  let vectors ← encoder.forward batch
  (encoder.pool vectors marks).mapError (.failed ·.failure)

/-- The encoder as a source of raw rows. It takes no time that anyone could tell. -/
def provider (encoder : SentenceEncoder σ) : Provider σ where
  dimension := encoder.dimension
  embed texts := ⟨encoder.embed texts, 0⟩

end SentenceEncoder

end TextVectors
