import TextVectors.Journal
import TextVectors.Service.Request
import TextVectors.Service.State
import TextVectors.Settings

/-!
# The service

The service answers two requests: for its state of health, and for the vectors
of texts. A request for vectors is refused if its header, its length or its JSON
is not right; no texts are answered with no vectors at once; all others are
encoded as soon as there are a permit and a thread for them. Waiting for both and
encoding must end before the limit, or else the request is answered without its
vectors. An encode that has its permit goes on then, and its result is dropped.

Time stands still but for waiting, for encoding and for the pauses between
requests, which come one after another.
-/

namespace TextVectors

/-- A service with its limits. -/
structure Service (σ : Type) where
  encoder : Encoder σ
  permits : Nat
  limit : Span
  maxBodyBytes : Nat

namespace Service

/-- What the journal tells of a request for vectors. -/
inductive Event where
  | rejected (problem : Problem)
  | encoded (count elapsed : Nat)
  | failed (count : Nat) (failure : Failure)
  /-- The encode was broken off, with an error that tells of it. -/
  | aborted (error : String)
  | timedOut (count : Nat) (limit : Span)
  deriving DecidableEq, Repr

def Event.entry : Event → Journal.Entry
  | .rejected problem => ⟨.warn, .server, "Rejected /embeddings request: " ++ problem.text⟩
  | .encoded count elapsed =>
    ⟨.info, .server, "Encoded " ++ toString count ++ " texts in " ++ toString elapsed ++ " ms"⟩
  | .failed count failure =>
    ⟨.error, .server, "Encode of " ++ toString count ++ " texts failed: " ++ failure.oneLine⟩
  | .aborted error => ⟨.error, .server, "Encode task aborted: " ++ error⟩
  | .timedOut count limit =>
    ⟨.warn, .server, "Encode of " ++ toString count ++ " texts timed out after " ++ limit.text⟩

/-- What becomes of a request: the answer, the events it leaves, and the state when it is
answered. -/
structure Outcome (σ : Type) where
  answer : Answer σ
  events : List Event
  state : State

variable {σ : Type} (service : Service σ)

/-- The greatest number of permits that can be handed out. -/
def permitLimit : Nat := Nat.pow 2 61 - 1

/-- The service of settings, with the message of its breakdown if there are too many permits. -/
def ofSettings (settings : Settings) (encoder : Encoder σ) : Except String (Service σ) :=
  if settings.maxConcurrency ≤ permitLimit then
    .ok {
      encoder
      permits := settings.maxConcurrency
      limit := .ofSeconds settings.timeoutSeconds
      maxBodyBytes := settings.maxBodyBytes }
  else
    .error ("a semaphore may not have more than MAX_PERMITS permits (" ++
      toString permitLimit ++ ")")

/-- The texts of a request, or why it is refused: first its header is looked at, then its length,
then its JSON. Whatever follows the JSON value is not looked at. -/
def readTexts (request : Request) : Except Problem (List String) :=
  if !request.hasJsonBody then .error .notJson
  else if service.maxBodyBytes < request.body.length then .error .tooLong
  else
    match Json.readFront Payload.readTexts request.body with
    | .ok texts => .ok texts
    | .error defect =>
      let detail := defect.messageWithPath request.body
      .error (if defect.fault.isMisshapen then .misshapen detail else .malformed detail)

def vectorsAnswer (vectors : List (List σ)) : Answer σ :=
  { status := 200
    content := .embeddings (.ofVectors vectors service.encoder.modelId) }

/-- The answer and the event of an encode that ended in time. -/
def ended (count elapsed : Nat) : Except EncodeFault (List (List σ)) → Answer σ × Event
  | .ok vectors => (service.vectorsAnswer vectors, .encoded count elapsed)
  | .error (.failed error) =>
    (.ofProblem (.failed error.failure), .failed count error.failure)
  | .error (.crashed error) => (.ofProblem .aborted, .aborted error)

/-- A request for the vectors of `count` texts that ends at the limit. -/
def expired (count deadline : Nat) (state : State) : Outcome σ :=
  ⟨.ofProblem (.timedOut service.limit), [.timedOut count service.limit], state.advance deadline⟩

/-- When a request that comes now is given up. -/
def deadline (state : State) : Nat :=
  state.now + service.limit.milliseconds

/-- When the encode of a request that comes now is handed over to the threads, unless the request is
given up before. -/
def entry (state : State) : Option Nat :=
  state.admission.filter (· ≤ service.deadline state)

/-- Encodes texts under a permit, on a thread and within the limit. -/
def dispatch (state : State) (texts : List String) : Outcome σ :=
  let run := service.encoder.encode texts
  match service.entry state with
  | none => service.expired texts.length (service.deadline state) state
  | some start =>
    let finish := (state.advance start).pickup + run.elapsed
    let underway := (state.advance start).start run.elapsed run.calls
    -- An encode that ends at the very limit is late. It goes on, and keeps its permit.
    if finish < service.deadline state then
      let (answer, event) := service.ended texts.length (finish - state.now) run.outcome
      ⟨answer, [event], underway.advance finish⟩
    else service.expired texts.length (service.deadline state) underway

/-- Answers a request for vectors. -/
def embed (state : State) (request : Request) : Outcome σ :=
  match service.readTexts request with
  | .error problem => ⟨.ofProblem problem, [.rejected problem], state⟩
  | .ok [] => ⟨service.vectorsAnswer [], [], state⟩
  | .ok texts => service.dispatch state texts

/-- The state of health, which is good as long as there is anyone to ask. -/
def health : Payload.Health :=
  ⟨"ok", service.encoder.modelId⟩

def bare (status : Nat) (allow : Option String) : Answer σ :=
  { status, content := .nothing, allow }

/-- Answers a request. -/
def handle (state : State) (request : Request) : Outcome σ :=
  match request.path with
  | "/health" =>
    if request.method = "GET" then
      ⟨{ status := 200, content := .health service.health }, [], state⟩
    else if request.method = "HEAD" then
      ⟨{ status := 200, content := .health service.health, headersOnly := true }, [], state⟩
    else ⟨bare 405 (some "GET,HEAD"), [], state⟩
  | "/embeddings" =>
    if request.method = "POST" then service.embed state request
    else ⟨bare 405 (some "POST"), [], state⟩
  | _ => ⟨bare 404 none, [], state⟩

/-- What happens to a service: a request, or a pause. -/
inductive Step where
  | request (request : Request)
  | pause (milliseconds : Nat)

/-- What is seen of a step: the answer to a request, its events, and the batches that the provider
received. -/
structure Report (σ : Type) where
  answer : Option (Answer σ)
  events : List Event
  seen : List Sighting

/-- The state after a step and what was seen of it. -/
def step (state : State) : Step → State × Report σ
  | .request request =>
    let outcome := service.handle state request
    (outcome.state.forget, ⟨some outcome.answer, outcome.events, outcome.state.seen⟩)
  | .pause milliseconds =>
    let state := state.advance (state.now + milliseconds)
    (state.forget, ⟨none, [], state.seen⟩)

/-- The reports of steps, one after another. -/
def run : State → List Step → List (Report σ)
  | _, [] => []
  | state, step :: steps =>
    let (state, report) := service.step state step
    report :: run state steps

end Service

end TextVectors
