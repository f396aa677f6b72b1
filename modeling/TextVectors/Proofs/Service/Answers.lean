import TextVectors.Proofs.Encoder.Batches
import TextVectors.Proofs.Service.Course
import TextVectors.Proofs.Startup.Ready
import TextVectors.Sample.Provider

/-!
# Answers with vectors

A request whose texts are accepted is answered with all its vectors or with
none. The vectors are those of one encode that has run to its end, each under
the position of its text; if this encode fails, is broken off or comes too late,
the answer reports a problem and has no place for vectors at all.

Nothing of this depends on what happened before: the history of a service
decides when an encode begins, never what it gives.
-/

namespace TextVectors

namespace Service

variable {σ : Type} {service : Service σ}

/-- The problem that a request meets if its encode ends in a fault. -/
def problemOfFault : EncodeFault → Problem
  | .failed error => .failed error.failure
  | .crashed _ => .aborted

theorem problemOfFault_status (fault : EncodeFault) : (problemOfFault fault).status = 500 := by
  cases fault <;> rfl

theorem ended_answer_of_error (count elapsed : Nat) (fault : EncodeFault) :
    (service.ended count elapsed (.error fault)).1 = .ofProblem (problemOfFault fault) := by
  cases fault <;> rfl

/-- The vectors of the encode are answered, or its fault, or that it came too late. -/
theorem dispatch_answer_cases (service : Service σ) (state : State) (texts : List String) :
    (∃ vectors, (service.encoder.encode texts).outcome = .ok vectors ∧
        (service.dispatch state texts).answer = service.vectorsAnswer vectors) ∨
      (∃ fault, (service.encoder.encode texts).outcome = .error fault ∧
        (service.dispatch state texts).answer = .ofProblem (problemOfFault fault)) ∨
      (service.dispatch state texts).answer = .ofProblem (.timedOut service.limit) := by
  cases begins : service.entry state with
  | none =>
      right; right
      rw [dispatch_of_no_entry begins]
      rfl
  | some start =>
      rw [dispatch_of_entry begins]
      split
      · cases ends : (service.encoder.encode texts).outcome with
        | error fault => exact .inr (.inl ⟨fault, rfl, ended_answer_of_error _ _ fault⟩)
        | ok vectors => exact .inl ⟨vectors, rfl, rfl⟩
      · exact .inr (.inr rfl)

/-- The same for all requests whose texts are accepted, also for those that hold none. -/
theorem handle_answer_cases {request : Request} {texts : List String}
    (path : request.path = "/embeddings") (method : request.method = "POST")
    (accepted : service.readTexts request = .ok texts) (state : State) :
    (∃ vectors, (service.encoder.encode texts).outcome = .ok vectors ∧
        (service.handle state request).answer = service.vectorsAnswer vectors) ∨
      (∃ fault, (service.encoder.encode texts).outcome = .error fault ∧
        (service.handle state request).answer = .ofProblem (problemOfFault fault)) ∨
      (service.handle state request).answer = .ofProblem (.timedOut service.limit) := by
  by_cases empty : texts = []
  · left
    refine ⟨[], ?_, ?_⟩
    · simp [empty, Encoder.encode, Encoder.chunks, Encoder.encodeFrom]
    · simp [handle, embed, path, method, accepted, empty]
  · rw [handle_of_wanted (wanted_eq_some_iff.mpr ⟨path, method, accepted, empty⟩)]
    exact service.dispatch_answer_cases state texts

/-- The item at a position carries the vector at this position. -/
theorem getElem?_items_ofVectors {vectors : List (List σ)} {modelId : String} {index : Nat}
    {vector : List σ} (found : vectors[index]? = some vector) :
    (Payload.Embeddings.ofVectors vectors modelId).items[index]? = some ⟨index, vector⟩ := by
  simp [Payload.Embeddings.ofVectors, found]

/-! ## Main result -/

/-- After any course, an accepted request is answered with one vector for each of its texts, or
with a problem and no vector. An item has the position of its text, and its vector is the row that
the provider gave for this text in its batch, brought to unit length. The model is named by its
descriptor, and so it is by every service that the program makes ready, whichever source it was
resolved to. -/
theorem embeddings_answer {δ : Type} {arithmetic : UnitVector.Arithmetic σ δ}
    {model : Model.Descriptor} {provider : Provider σ} {batchSize : Nat}
    (serves : service.encoder = .ofProvider arithmetic model.modelId provider batchSize)
    (turns : List (Turn σ)) {request : Request} {texts : List String}
    (path : request.path = "/embeddings") (method : request.method = "POST")
    (accepted : service.readTexts request = .ok texts) :
    let size := max batchSize 1
    let run := service.encoder.encode texts
    let answer := (service.handle (service.after (.initial service.permits) turns) request).answer
    answer.headersOnly = false ∧
      (answer.status = 200 →
        ∃ vectors items, run.outcome = .ok vectors ∧ vectors.length = texts.length ∧
          answer.content = .embeddings ⟨items, model.modelId⟩ ∧ items.length = texts.length ∧
          ∀ index < texts.length, ∃ batch rows row vector,
            items[index]? = some ⟨index, vector⟩ ∧ vectors[index]? = some vector ∧
              batch = (texts.drop (index / size * size)).take size ∧
              batch[index % size]? = texts[index]? ∧
              (provider.embed batch).rows = .ok rows ∧ rows.length = batch.length ∧
              rows[index % size]? = some row ∧ row.length = provider.dimension ∧
              arithmetic.normalize row = .ok vector) ∧
      (answer.status ≠ 200 →
        ∃ problem : Problem, answer.status = problem.status ∧
          answer.content = .problem problem.payload ∧
          ((∃ fault, run.outcome = .error fault ∧ problem = problemOfFault fault) ∨
            problem = .timedOut service.limit)) ∧
      ∀ arguments world ready, (Startup.prepare arguments world).outcome = .ok ready →
        ∃ machine resolved sentences,
          (Model.resolve (.ofSettings ready.settings) (·.files.store)
              (Hub.fetcher world.hub (.ofSettings ready.settings)) machine).outcome =
              .ok resolved ∧
            ready.service.encoder =
              .ofProvider .rounded (Model.Descriptor.ofSettings ready.settings).modelId
                (SentenceEncoder.provider sentences) ready.settings.batchSize := by
  intro size run answer
  have cases := handle_answer_cases path method accepted
    (service.after (.initial service.permits) turns)
  refine ⟨?_, ?_, ?_, ?_⟩
  · rcases cases with ⟨vectors, _, answered⟩ | ⟨fault, _, answered⟩ | answered <;>
      simp only [answer, answered] <;> rfl
  · intro good
    rcases cases with ⟨vectors, succeeded, answered⟩ | ⟨fault, _, answered⟩ | answered
    · have length_vectors := Encoder.length_of_encode succeeded
      refine ⟨vectors, (Payload.Embeddings.ofVectors vectors model.modelId).items, succeeded,
        length_vectors, ?_, ?_, ?_⟩
      · simp only [answer, answered, vectorsAnswer, serves]
        rfl
      · simpa [Payload.Embeddings.ofVectors] using length_vectors
      · intro index inside
        rw [serves] at succeeded
        rcases Encoder.exists_vectorAt succeeded inside with ⟨vector, vectorFound, vectorAt⟩
        rcases vectorAt.exists_rows inside with
          ⟨batch, rows, row, slice, textFound, embedded, count, rowFound, dimension, normalized⟩
        exact ⟨batch, rows, row, vector, getElem?_items_ofVectors vectorFound, vectorFound,
          slice, textFound, embedded, count, rowFound, dimension, normalized⟩
    · simp [answer, answered, Answer.ofProblem, problemOfFault_status] at good
    · simp [answer, answered, Answer.ofProblem, Problem.status] at good
  · intro bad
    rcases cases with ⟨vectors, _, answered⟩ | ⟨fault, failed, answered⟩ | answered
    · simp [answer, answered, vectorsAnswer] at bad
    · refine ⟨problemOfFault fault, ?_, ?_, .inl ⟨fault, failed, rfl⟩⟩
      · simp only [answer, answered]
        rfl
      · simp only [answer, answered]
        rfl
    · refine ⟨.timedOut service.limit, ?_, ?_, .inr rfl⟩
      · simp only [answer, answered]
        rfl
      · simp only [answer, answered]
        rfl
  · intro arguments world ready prepared
    rcases Startup.prepare_eq_ok prepared with
      ⟨machine, _, resolved, sentences, resolves, _, encoder⟩
    exact ⟨machine, resolved, sentences, resolves, encoder⟩

/-- Two texts are answered after the same request has been broken off. -/
theorem embeddings_answer_sample :
    let provider := Sample.provider { dimension := 2, rowLength := 2 }
    let service : Service Number.Single :=
      ⟨.ofProvider .rounded "sample" provider 1, 1, ⟨1000⟩, 64⟩
    let request : Request :=
      ⟨"POST", "/embeddings", [("content-type", "application/json".toUTF8.toList)],
        "\x7b\"input\":[\"a\",\"b\"]\x7d".toUTF8.toList⟩
    let crashing : Encoder Number.Single :=
      .ofProvider .rounded "sample" ⟨2, fun _ => ⟨.error (.crashed "broken off"), 5⟩⟩ 1
    let answer :=
      (service.handle (service.after (.initial 1) [⟨crashing, .request request⟩]) request).answer
    request.path = "/embeddings" ∧ request.method = "POST" ∧
      service.readTexts request = .ok ["a", "b"] ∧ answer.status = 200 ∧
      ∃ items, answer.content = .embeddings ⟨items, "sample"⟩ ∧ items.length = 2 := by
  intro provider service request crashing answer
  have path : request.path = "/embeddings" := by decide +kernel
  have accepted : service.readTexts request = .ok ["a", "b"] := by decide +kernel
  have good : answer.status = 200 := by decide +kernel
  let model : Model.Descriptor := ⟨"sample", "", [], none⟩
  have serves : service.encoder = .ofProvider .rounded model.modelId provider 1 := rfl
  have result := embeddings_answer serves [⟨crashing, .request request⟩] path rfl accepted
  rcases result.2.1 good with ⟨vectors, items, _, _, content, count, _⟩
  exact ⟨path, rfl, accepted, good, items, content, count⟩

end Service

end TextVectors
