import TextVectors.Journal.Filter
import TextVectors.Proofs.Service.Answers

/-!
# What the journal tells of requests

The journal agrees with the answers. A request for vectors leaves one entry, and
its answer says which: a warning that it was refused or came too late, a note
that its texts were encoded, or the error in which the encode ended. A request
for the vectors of no texts leaves none, and neither does anything else that
happens: an encode that outlives its request is not heard of again, whatever
becomes of it.

The entry is made when the request is answered. So the entries stand in the
order of the requests, and after any course there are as many of them as
requests that had something to tell.
-/

namespace TextVectors

namespace Service

variable {σ : Type}

/-- A request and its answer, the encoder that the request met, and the times at which it came and
was answered. -/
structure Exchange (σ : Type) where
  encoder : Encoder σ
  request : Request
  answer : Answer σ
  came : Nat
  answered : Nat

/-- The request of a step, unless it is a pause. -/
def Step.request? : Step → Option Request
  | .request asked => some asked
  | .pause _ => none

variable (service : Service σ)

/-- The requests of a course and their answers, in their order. -/
def exchanges : State → List (Turn σ) → List (Exchange σ)
  | _, [] => []
  | state, ⟨encoder, .pause milliseconds⟩ :: turns =>
    exchanges ((service.meeting encoder).step state (.pause milliseconds)).1 turns
  | state, ⟨encoder, .request request⟩ :: turns =>
    let outcome := (service.meeting encoder).handle state request
    ⟨encoder, request, outcome.answer, state.now, outcome.state.now⟩ ::
      exchanges outcome.state.forget turns

/-- What the journal holds of a course. -/
def journal : State → List (Turn σ) → List Journal.Entry
  | _, [] => []
  | state, turn :: turns =>
    let (next, report) := (service.meeting turn.encoder).step state turn.step
    report.events.map Event.entry ++ journal next turns

/-- A request for the vectors of texts, whether it is in order or not. -/
def Request.AsksVectors (request : Request) : Prop :=
  request.path = "/embeddings" ∧ request.method = "POST"

instance (request : Request) : Decidable request.AsksVectors :=
  inferInstanceAs (Decidable (_ ∧ _))

/-- Whether a request for vectors has something to tell: it is refused, or has texts to encode. -/
def isTold (request : Request) : Bool :=
  decide (request.AsksVectors ∧ service.readTexts request ≠ .ok [])

/-- The entries that a request for vectors leaves, by its answer. -/
inductive Tells (exchange : Exchange σ) : List Journal.Entry → Prop where
  | noTexts (accepted : service.readTexts exchange.request = .ok [])
      (status : exchange.answer.status = 200) : Tells exchange []
  | refused {problem : Problem} (refused : service.readTexts exchange.request = .error problem)
      (status : exchange.answer.status ∈ [400, 413, 415, 422])
      (said : exchange.answer.content = .problem ⟨problem.text, problem.code⟩) :
      Tells exchange [⟨.warn, .server, "Rejected /embeddings request: " ++ problem.text⟩]
  | encoded {texts : List String} (accepted : service.readTexts exchange.request = .ok texts)
      (filled : texts ≠ []) (status : exchange.answer.status = 200) :
      Tells exchange [⟨.info, .server, "Encoded " ++ toString texts.length ++ " texts in " ++
        toString (exchange.answered - exchange.came) ++ " ms"⟩]
  | failed {texts : List String} {failure : Failure}
      (accepted : service.readTexts exchange.request = .ok texts) (filled : texts ≠ [])
      (status : exchange.answer.status = 500)
      (said : exchange.answer.content = .problem ⟨failure.oneLine, "ENCODE_FAILED"⟩) :
      Tells exchange [⟨.error, .server, "Encode of " ++ toString texts.length ++
        " texts failed: " ++ failure.oneLine⟩]
  | aborted {texts : List String} {error : String}
      (accepted : service.readTexts exchange.request = .ok texts) (filled : texts ≠ [])
      (crashed : (exchange.encoder.encode texts).outcome = .error (.crashed error))
      (status : exchange.answer.status = 500)
      (said : exchange.answer.content = .problem ⟨"encode task aborted", "ENCODE_FAILED"⟩) :
      Tells exchange [⟨.error, .server, "Encode task aborted: " ++ error⟩]
  | timedOut {texts : List String} (accepted : service.readTexts exchange.request = .ok texts)
      (filled : texts ≠ []) (status : exchange.answer.status = 504) :
      Tells exchange [⟨.warn, .server, "Encode of " ++ toString texts.length ++
        " texts timed out after " ++ service.limit.text⟩]

/-- The entries that any request leaves: none, if it is not one for vectors. -/
def Leaves (exchange : Exchange σ) (entries : List Journal.Entry) : Prop :=
  if exchange.request.AsksVectors then service.Tells exchange entries else entries = []

variable {service}

/-! ## One request -/

/-- A problem for which the texts of a request are not read speaks of what was asked. -/
theorem status_of_refused {request : Request} {problem : Problem}
    (refused : service.readTexts request = .error problem) :
    problem.status ∈ [400, 413, 415, 422] := by
  unfold readTexts at refused
  split at refused
  · cases refused
    simp [Problem.status]
  · split at refused
    · cases refused
      simp [Problem.status]
    · split at refused
      · cases refused
      · cases refused
        split <;> simp [Problem.status]

/-- A request whose texts are to be encoded leaves one entry, whether the encode is handed over or
not and however it ends. -/
theorem tells_dispatch (encoder : Encoder σ) {request : Request} {texts : List String}
    (accepted : service.readTexts request = .ok texts) (filled : texts ≠ []) (state : State) :
    let outcome := (service.meeting encoder).dispatch state texts
    service.Tells ⟨encoder, request, outcome.answer, state.now, outcome.state.now⟩
      (outcome.events.map Event.entry) := by
  intro outcome
  cases begins : (service.meeting encoder).entry state with
  | none =>
      have expired := dispatch_of_no_entry begins texts
      simp only [outcome, expired]
      exact .timedOut accepted filled rfl
  | some start =>
      have dispatched := dispatch_of_entry begins texts
      dsimp only at dispatched
      split at dispatched
      · simp only [outcome, dispatched]
        cases ends : (encoder.encode texts).outcome with
        | ok vectors =>
            simp only [meeting, ends]
            exact .encoded accepted filled rfl
        | error fault =>
            simp only [meeting, ends]
            cases fault with
            | failed error => exact .failed accepted filled rfl rfl
            | crashed error => exact .aborted accepted filled ends rfl rfl
      · simp only [outcome, dispatched]
        exact .timedOut accepted filled rfl

theorem leaves_handle (service : Service σ) (encoder : Encoder σ) (state : State)
    (request : Request) :
    let outcome := (service.meeting encoder).handle state request
    service.Leaves ⟨encoder, request, outcome.answer, state.now, outcome.state.now⟩
      (outcome.events.map Event.entry) := by
  intro outcome
  by_cases asked : request.AsksVectors
  · rw [Leaves, if_pos asked]
    rcases asked with ⟨path, method⟩
    cases read : service.readTexts request with
    | error problem =>
        have refused : (service.meeting encoder).readTexts request = .error problem := read
        have handled : outcome = ⟨.ofProblem problem, [.rejected problem], state⟩ := by
          simp [outcome, handle, embed, path, method, refused]
        rw [handled]
        exact .refused read (status_of_refused read) rfl
    | ok texts =>
        have accepted : (service.meeting encoder).readTexts request = .ok texts := read
        by_cases empty : texts = []
        · subst empty
          have handled :
              outcome = ⟨(service.meeting encoder).vectorsAnswer [], [], state⟩ := by
            simp [outcome, handle, embed, path, method, accepted]
          rw [handled]
          exact .noTexts read rfl
        · have handled : outcome = (service.meeting encoder).dispatch state texts :=
            handle_of_wanted (wanted_eq_some_iff.mpr ⟨path, method, accepted, empty⟩) state
          rw [handled]
          exact tells_dispatch encoder read empty state
  · rw [Leaves, if_neg asked, List.map_eq_nil_iff]
    simp only [outcome, handle]
    split
    · split_ifs <;> rfl
    · next path =>
      split_ifs with method
      · exact absurd ⟨path, method⟩ asked
      · rfl
    · rfl

/-- A request leaves one entry if it has something to tell, and none otherwise. -/
theorem Leaves.length_eq {exchange : Exchange σ} {entries : List Journal.Entry}
    (leaves : service.Leaves exchange entries) :
    entries.length = if service.isTold exchange.request then 1 else 0 := by
  unfold Leaves at leaves
  split at leaves
  · next asked =>
    cases leaves <;> simp_all [isTold]
  · next other =>
    simp [isTold, other, leaves]

/-- Every event is at least a note, so a journal that drops only finer entries holds it. -/
theorem Event.admits_entry (event : Event) :
    Journal.Limit.admits (some .info) event.entry.level = true := by
  cases event <;> rfl

/-! ## A course -/

theorem forall₂_leaves (service : Service σ) (state : State) (turns : List (Turn σ)) :
    ∃ told, List.Forall₂ service.Leaves (service.exchanges state turns) told ∧
      service.journal state turns = told.flatten := by
  induction turns generalizing state with
  | nil => exact ⟨[], .nil, rfl⟩
  | cons turn turns ih =>
      rcases turn with ⟨encoder, step⟩
      cases step with
      | pause milliseconds => exact ih _
      | request request =>
          rcases ih ((service.meeting encoder).handle state request).state.forget with
            ⟨told, later, rest⟩
          have here := leaves_handle service encoder state request
          exact ⟨_ :: told, .cons here later, congrArg (_ ++ ·) rest⟩

theorem map_request_exchanges (service : Service σ) (state : State) (turns : List (Turn σ)) :
    (service.exchanges state turns).map (·.request) = turns.filterMap (·.step.request?) := by
  induction turns generalizing state with
  | nil => rfl
  | cons turn turns ih =>
      rcases turn with ⟨encoder, step⟩
      cases step with
      | pause milliseconds => exact ih _
      | request request => exact congrArg (request :: ·) (ih _)

theorem length_flatten_leaves {exchanges : List (Exchange σ)} {told : List (List Journal.Entry)}
    (leaves : List.Forall₂ service.Leaves exchanges told) :
    told.flatten.length = exchanges.countP fun exchange => service.isTold exchange.request := by
  induction leaves with
  | nil => rfl
  | cons first _ ih =>
      rw [List.flatten_cons, List.length_append, first.length_eq, ih, List.countP_cons,
        Nat.add_comm]

theorem admits_journal {state : State} {turns : List (Turn σ)} :
    ∀ entry ∈ service.journal state turns,
      Journal.Limit.admits (some .info) entry.level = true := by
  induction turns generalizing state with
  | nil => simp [journal]
  | cons turn turns ih =>
      intro entry mem
      rcases List.mem_append.mp mem with here | later
      · rcases List.mem_map.mp here with ⟨event, _, rfl⟩
        exact event.admits_entry
      · exact ih entry later

/-- With the same encoder throughout, the journal and the exchanges are those of a run. -/
theorem journal_eq_flatMap_run (service : Service σ) (state : State) (steps : List Step) :
    service.journal state (steps.map (⟨service.encoder, ·⟩)) =
      (service.run state steps).flatMap fun report => report.events.map Event.entry := by
  induction steps generalizing state with
  | nil => rfl
  | cons step steps ih => exact congrArg (_ ++ ·) (ih _)

theorem map_answer_exchanges (service : Service σ) (state : State) (steps : List Step) :
    (service.exchanges state (steps.map (⟨service.encoder, ·⟩))).map (·.answer) =
      (service.run state steps).filterMap (·.answer) := by
  induction steps generalizing state with
  | nil => rfl
  | cons step steps ih =>
      cases step with
      | pause milliseconds => exact ih _
      | request request => exact congrArg (_ :: ·) (ih _)

/-! ## Main result -/

/-- After any course, whatever encoders it met, the journal holds the entries of its requests in
their order and nothing else. Each request for vectors has left the one entry that its answer calls
for, or none if it asked for the vectors of no texts, so there are as many entries as requests that
had something to tell. Each of them is at least a note. If the encoder has been the same throughout,
these are the events of a run and its answers. -/
theorem journal_agrees_with_answers (service : Service σ) (turns : List (Turn σ)) :
    let start := State.initial service.permits
    let exchanges := service.exchanges start turns
    let journal := service.journal start turns
    exchanges.map (·.request) = turns.filterMap (·.step.request?) ∧
      (∃ told, List.Forall₂ service.Leaves exchanges told ∧ journal = told.flatten) ∧
      journal.length = exchanges.countP (fun exchange => service.isTold exchange.request) ∧
      (∀ entry ∈ journal, Journal.Limit.admits (some .info) entry.level = true) ∧
      ∀ steps : List Step, turns = steps.map (⟨service.encoder, ·⟩) →
        journal = (service.run start steps).flatMap (fun report => report.events.map Event.entry) ∧
          exchanges.map (·.answer) = (service.run start steps).filterMap (·.answer) := by
  intro start exchanges journal
  rcases service.forall₂_leaves start turns with ⟨told, leaves, whole⟩
  refine ⟨service.map_request_exchanges start turns, ⟨told, leaves, whole⟩, ?_,
    admits_journal, ?_⟩
  · rw [← length_flatten_leaves leaves, ← whole]
  · rintro steps rfl
    exact ⟨service.journal_eq_flatMap_run start steps, service.map_answer_exchanges start steps⟩

/-- A request is given up, its encode breaks off in the pause behind it, and the journal tells only
of the former. -/
example :
    let slow : Encoder Nat :=
      ⟨"sample", ⟨1, fun _ => ⟨.error (.crashed "broken off"), 150⟩⟩, 1, .ok⟩
    let quick : Encoder Nat :=
      ⟨"sample", ⟨1, fun texts => ⟨.ok (texts.map fun _ => [1]), 5⟩⟩, 1, .ok⟩
    let service : Service Nat := ⟨quick, 1, ⟨100⟩, 64⟩
    let request (body : String) : Step :=
      .request ⟨"POST", "/embeddings", [("content-type", "application/json".toUTF8.toList)],
        body.toUTF8.toList⟩
    (service.journal (.initial 1) [⟨slow, request "\x7b\"input\":[\"a\"]\x7d"⟩, ⟨slow, .pause 100⟩,
        ⟨quick, request "\x7b\"input\":[]\x7d"⟩,
        ⟨quick, request "\x7b\"input\":[\"a\",\"b\"]\x7d"⟩]).map (·.line) =
      ["WARN Encode of 1 texts timed out after 100ms", "INFO Encoded 2 texts in 10 ms"] := by
  decide +kernel

end Service

end TextVectors
