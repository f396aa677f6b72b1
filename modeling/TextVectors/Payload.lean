import TextVectors.Json.Decode
import TextVectors.Json.Text

/-!
# Payloads

What clients and the service say to each other, and its form in JSON: the texts
to embed, the vectors that answer them, the state of health, and the report of a
problem. Each vector is sent with the position of its text.
-/

namespace TextVectors

namespace Payload

open Number (Single)

/-- A vector and the position of the text that it stands for. -/
structure Item (σ : Type) where
  index : Nat
  embedding : List σ
  deriving DecidableEq, Repr

/-- The answer to a request for vectors. -/
structure Embeddings (σ : Type) where
  items : List (Item σ)
  model : String
  deriving DecidableEq, Repr

/-- The state of the service. -/
structure Health where
  status : String
  model : String
  deriving DecidableEq, Repr

/-- A request that was not answered, with a code for programs. -/
structure Problem where
  error : String
  code : String
  deriving DecidableEq, Repr

/-- Pairs each vector with its position. -/
def Embeddings.ofVectors {σ : Type} (vectors : List (List σ)) (model : String) : Embeddings σ :=
  ⟨vectors.zipIdx.map fun (embedding, index) => ⟨index, embedding⟩, model⟩

/-! ## Writing -/

/-- The JSON text of a vector with its position. -/
def Item.text (item : Item Single) : String :=
  Json.writeObject [
    ("index", toString item.index),
    ("embedding", Json.writeList (item.embedding.map Json.writeSingle))]

def Embeddings.text (answer : Embeddings Single) : String :=
  Json.writeObject [
    ("data", Json.writeList (answer.items.map Item.text)),
    ("model", Json.writeString answer.model)]

/-- The JSON text of a state of health. -/
def Health.text (health : Health) : String :=
  Json.writeObject [
    ("status", Json.writeString health.status), ("model", Json.writeString health.model)]

def Problem.text (problem : Problem) : String :=
  Json.writeObject [
    ("error", Json.writeString problem.error), ("code", Json.writeString problem.code)]

/-! ## Reading -/

/-- The shape of a request: the texts to embed. -/
def requestShape : Json.Shape (Option (List String)) where
  name := "EncodeRequest"
  fields := [.of "input" id (fun _ texts => some texts) (Json.list Json.string) .required]
  empty := none

def readTexts : Json.Reader (List String) := fun bytes => do
  let (draft, rest) ← requestShape.read bytes
  return (draft.getD [], rest)

def itemShape : Json.Shape (Option Nat × Option (List Single)) where
  name := "EncodeItem"
  fields := [
    .of "index" (·.1) (fun draft index => (some index, draft.2)) Json.size .required,
    .of "embedding" (·.2) (fun draft vector => (draft.1, some vector)) (Json.list Json.single)
      .required]
  empty := (none, none)

def readItem : Json.Reader (Item Single) := fun bytes => do
  let (draft, rest) ← itemShape.read bytes
  return (⟨draft.1.getD 0, draft.2.getD []⟩, rest)

def embeddingsShape : Json.Shape (Option (List (Item Single)) × Option String) where
  name := "EncodeResponse"
  fields := [
    .of "data" (·.1) (fun draft items => (some items, draft.2)) (Json.list readItem) .required,
    .of "model" (·.2) (fun draft model => (draft.1, some model)) Json.string .required]
  empty := (none, none)

def readEmbeddings : Json.Reader (Embeddings Single) := fun bytes => do
  let (draft, rest) ← embeddingsShape.read bytes
  return (⟨draft.1.getD [], draft.2.getD ""⟩, rest)

/-- The shape of a record of two texts. -/
def pairShape (name first second : String) : Json.Shape (Option String × Option String) where
  name := name
  fields := [
    .of first (·.1) (fun draft text => (some text, draft.2)) Json.string .required,
    .of second (·.2) (fun draft text => (draft.1, some text)) Json.string .required]
  empty := (none, none)

def readHealth : Json.Reader Health := fun bytes => do
  let (draft, rest) ← (pairShape "HealthResponse" "status" "model").read bytes
  return (⟨draft.1.getD "", draft.2.getD ""⟩, rest)

def readProblem : Json.Reader Problem := fun bytes => do
  let (draft, rest) ← (pairShape "ErrorResponse" "error" "code").read bytes
  return (⟨draft.1.getD "", draft.2.getD ""⟩, rest)

end Payload

end TextVectors
