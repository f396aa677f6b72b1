import TextVectors.Failure
import TextVectors.UnitVector

/-!
# Encoding texts

A provider turns a batch of texts into one raw row per text. An encoder hands
the texts to its provider in consecutive batches of at most a given size, checks
what comes back and brings every row to unit length. The rows stand in the order
of the texts, and an encode that fails anywhere yields no row at all.

Besides its outcome a run tells which batches the provider received, and when:
time is counted in milliseconds from the start of the run.
-/

namespace TextVectors

/-- How a provider ends without rows. -/
inductive Fault where
  | failed (failure : Failure)
  /-- The computation was broken off without an error of its own; the message is what tells of it,
  as it is given. -/
  | crashed (message : String)
  deriving DecidableEq, Repr

/-- What a provider gives for a batch, and how long it takes. -/
structure Reply (σ : Type) where
  rows : Except Fault (List (List σ))
  elapsed : Nat

/-- A source of raw rows. -/
structure Provider (σ : Type) where
  dimension : Nat
  embed : List String → Reply σ

/-- What is wrong with an encode. Positions count the texts of the whole list. -/
inductive EncodeError where
  /-- The provider failed on the texts from `first` to before `last`. -/
  | provider (first last : Nat) (cause : Failure)
  | rowCount (rows texts offset : Nat)
  | rowLength (index found expected : Nat)
  | degenerate (index : Nat) (reason : UnitVector.Degenerate)
  deriving DecidableEq, Repr

/-- The wording of an error and of its causes. -/
def EncodeError.failure : EncodeError → Failure
  | .provider first last cause =>
    Failure.context ("encode failed for inputs " ++ toString first ++ ".." ++ toString last) cause
  | .rowCount rows texts offset =>
    ⟨"provider returned " ++ toString rows ++ " vectors for " ++ toString texts ++
      " inputs (offset " ++ toString offset ++ ")", []⟩
  | .rowLength index found expected =>
    ⟨"vector " ++ toString index ++ " has dimension " ++ toString found ++ ", expected " ++
      toString expected, []⟩
  | .degenerate index reason => ⟨"vector " ++ toString index, [reason.message]⟩

/-- How an encode ends without vectors. -/
inductive EncodeFault where
  | failed (error : EncodeError)
  | crashed (message : String)
  deriving DecidableEq, Repr

/-- A batch that the provider received, and how long after the start of the run. -/
structure Call where
  after : Nat
  texts : List String
  deriving DecidableEq, Repr

/-- The same call in a run that began earlier. -/
def Call.shift (delay : Nat) (call : Call) : Call :=
  { call with after := delay + call.after }

/-- What happens when texts are encoded. -/
structure Run (σ : Type) where
  calls : List Call
  elapsed : Nat
  outcome : Except EncodeFault (List (List σ))

/-- A provider with the way its results are used. -/
structure Encoder (σ : Type) where
  modelId : String
  provider : Provider σ
  /-- The greatest number of texts in a batch; zero counts as one. -/
  batchSize : Nat
  /-- Brings a row to unit length. -/
  normalize : List σ → Except UnitVector.Degenerate (List σ)

namespace Encoder

variable {σ : Type}

/-- The encoder that serves the rows of a provider under the identifier of a model. -/
def ofProvider {δ : Type} (arithmetic : UnitVector.Arithmetic σ δ) (modelId : String)
    (provider : Provider σ) (batchSize : Nat) : Encoder σ :=
  { modelId, provider, batchSize, normalize := arithmetic.normalize }

/-- The number of components of every vector. -/
def dimension (encoder : Encoder σ) : Nat :=
  encoder.provider.dimension

/-- The number of texts in every batch but the last. -/
def chunkSize (encoder : Encoder σ) : Nat :=
  max encoder.batchSize 1

/-- A list cut into pieces of `size + 1` items; the last may be shorter. -/
def cut {α : Type} (size : Nat) : List α → List (List α)
  | [] => []
  | x :: xs => (x :: xs.take size) :: cut size (xs.drop size)
termination_by xs => xs.length
decreasing_by
  simp only [List.length_cons, List.length_drop]
  omega

/-- The batches of a list of texts. -/
def chunks (encoder : Encoder σ) (texts : List String) : List (List String) :=
  cut (encoder.chunkSize - 1) texts

/-- The vector of the raw row at a position. -/
def accept (encoder : Encoder σ) (index : Nat) (row : List σ) : Except EncodeError (List σ) :=
  if row.length ≠ encoder.dimension then
    .error (.rowLength index row.length encoder.dimension)
  else (encoder.normalize row).mapError (.degenerate index)

/-- The vectors of raw rows whose first has a position. -/
def acceptAll (encoder : Encoder σ) : Nat → List (List σ) → Except EncodeError (List (List σ))
  | _, [] => .ok []
  | index, row :: rows => do
    let vector ← encoder.accept index row
    let vectors ← encoder.acceptAll (index + 1) rows
    return vector :: vectors

/-- The vectors of a batch whose first text has the position `offset`. -/
def encodeChunk (encoder : Encoder σ) (offset : Nat) (chunk : List String) :
    Except EncodeFault (List (List σ)) :=
  match (encoder.provider.embed chunk).rows with
  | .error (.crashed message) => .error (.crashed message)
  | .error (.failed failure) =>
    .error (.failed (.provider offset (offset + chunk.length) failure))
  | .ok rows =>
    if rows.length ≠ chunk.length then
      .error (.failed (.rowCount rows.length chunk.length offset))
    else (encoder.acceptAll offset rows).mapError .failed

/-- Encodes batches of which the first has a number among all batches. -/
def encodeFrom (encoder : Encoder σ) : Nat → List (List String) → Run σ
  | _, [] => ⟨[], 0, .ok []⟩
  | number, chunk :: rest =>
    let elapsed := (encoder.provider.embed chunk).elapsed
    match encoder.encodeChunk (number * encoder.chunkSize) chunk with
    | .error fault => ⟨[⟨0, chunk⟩], elapsed, .error fault⟩
    | .ok vectors =>
      let later := encoder.encodeFrom (number + 1) rest
      ⟨⟨0, chunk⟩ :: later.calls.map (·.shift elapsed), elapsed + later.elapsed,
        later.outcome.map (vectors ++ ·)⟩

/-- Encodes texts into vectors of unit length, one for each text and in their order. -/
def encode (encoder : Encoder σ) (texts : List String) : Run σ :=
  encoder.encodeFrom 0 (encoder.chunks texts)

end Encoder

end TextVectors
