import TextVectors.Proofs.Service.Refusals
import TextVectors.Proofs.Settings.Numbers
import TextVectors.Proofs.Startup.FailFast

/-!
# One dimension throughout

Every row of a provider is measured before it is used, and a single row of another
length makes the whole encode fail. So whatever the provider gives, an answered
vector has the dimension of the encoder. For a loaded model this is the width that
its file of sizes gives, and the operator's own number if there is one. A model of
another width than that is never served.
-/

namespace TextVectors

namespace Encoder

variable {σ : Type} {encoder : Encoder σ}

theorem length_of_mem_encode
    (keeps : ∀ row vector, encoder.normalize row = .ok vector → vector.length = row.length)
    {texts : List String} {vectors : List (List σ)}
    (succeeded : (encoder.encode texts).outcome = .ok vectors) {vector : List σ}
    (mem : vector ∈ vectors) : vector.length = encoder.dimension := by
  rcases encoder.exists_accepts_of_mem_encode succeeded mem with ⟨row, length, normalized⟩
  rw [keeps row vector normalized, length]

end Encoder

namespace Service

variable {σ : Type} {service : Service σ}

/-- Answered vectors are those of an encode. -/
theorem exists_encode_of_answered {state : State} {request : Request}
    {answer : Payload.Embeddings σ}
    (answered : (service.handle state request).answer.content = .embeddings answer) :
    ∃ texts vectors, (service.encoder.encode texts).outcome = .ok vectors ∧
      answer = .ofVectors vectors service.encoder.modelId := by
  by_cases asked : request.path = "/embeddings" ∧ request.method = "POST"
  · rcases asked with ⟨path, method⟩
    cases read : service.readTexts request with
    | error problem =>
        rw [handle_answer_of_refused path method read] at answered
        cases answered
    | ok texts =>
        rcases handle_answer_cases path method read state with
          ⟨vectors, succeeded, vectors_answered⟩ | ⟨fault, _, failed⟩ | late
        · rw [vectors_answered] at answered
          cases answered
          exact ⟨texts, vectors, succeeded, rfl⟩
        · rw [failed] at answered
          cases answered
        · rw [late] at answered
          cases answered
  · unfold handle at answered
    split at answered
    · split_ifs at answered
      cases answered
    · next path =>
      split_ifs at answered with method
      · exact absurd ⟨path, method⟩ asked
      · cases answered
    · cases answered

theorem exists_encode_of_item {state : State} {request : Request} {answer : Payload.Embeddings σ}
    (answered : (service.handle state request).answer.content = .embeddings answer)
    {item : Payload.Item σ} (mem : item ∈ answer.items) :
    ∃ texts vectors, (service.encoder.encode texts).outcome = .ok vectors ∧
      item.embedding ∈ vectors := by
  rcases exists_encode_of_answered answered with ⟨texts, vectors, succeeded, rfl⟩
  refine ⟨texts, vectors, succeeded, ?_⟩
  rcases List.mem_map.mp mem with ⟨⟨vector, index⟩, found, rfl⟩
  exact (List.mem_zipIdx found).2.2 ▸ List.getElem_mem _

variable {δ : Type} {arithmetic : UnitVector.Arithmetic σ δ} {modelId : String}
  {provider : Provider σ} {batchSize : Nat}

/-- Whatever the provider gives, and whatever has happened before, an answered vector has the
dimension that the provider declares. -/
theorem length_of_answered
    (serves : service.encoder = .ofProvider arithmetic modelId provider batchSize)
    {state : State} {request : Request} {answer : Payload.Embeddings σ}
    (answered : (service.handle state request).answer.content = .embeddings answer) :
    ∀ item ∈ answer.items, item.embedding.length = provider.dimension := by
  intro item mem
  rcases exists_encode_of_item answered mem with ⟨texts, vectors, succeeded, inside⟩
  rw [serves] at succeeded
  refine Encoder.length_of_mem_encode ?_ succeeded inside
  intro row vector normalized
  exact arithmetic.length_of_normalize normalized

/-- All vectors that are answered have a length. -/
def VectorsHave (length : Nat) (reports : List (Report σ)) : Prop :=
  ∀ report ∈ reports, ∀ answer embeddings, report.answer = some answer →
    answer.content = .embeddings embeddings →
      ∀ item ∈ embeddings.items, item.embedding.length = length

theorem vectorsHave_run
    (serves : service.encoder = .ofProvider arithmetic modelId provider batchSize) (state : State)
    (steps : List Step) : VectorsHave provider.dimension (service.run state steps) := by
  induction steps generalizing state with
  | nil => simp [run, VectorsHave]
  | cons step steps ih =>
      intro report mem
      rcases List.mem_cons.mp mem with rfl | later
      · intro answer embeddings given content
        cases step with
        | pause milliseconds => cases given
        | request request =>
            cases given
            exact length_of_answered serves content
      · exact ih _ report later

end Service

namespace Startup

open Settings (Written countBound)

variable {environment : Environment} {settings : Settings} {world : World} {files : Files}
  {resolved : Model.Resolved} {sentences : SentenceEncoder Number.Single}

/-- A loaded model has the width of its file of sizes, and the dimension that the operator wants. -/
theorem dimension_of_loaded (accepted : Settings.ofEnvironment environment = .ok settings)
    (loaded : (Transformer.load files resolved settings.maxTokens
      settings.expectedDimension).outcome = .ok sentences) :
    ∃ config, Transformer.GivesSizes files resolved.dir config ∧
      sentences.dimension = config.width ∧
        ∀ dimension, Written environment "EMBED_MODEL_DIMENSION" countBound dimension →
          dimension = sentences.dimension := by
  rcases Transformer.dimension_of_load loaded with ⟨config, gives, width, expected⟩
  refine ⟨config, gives, width, ?_⟩
  intro dimension written
  apply expected
  have numbers := Settings.numbers_of_ofEnvironment accepted
  exact (Settings.expectedDimension_eq_some_iff numbers).mpr written

/-- The dimension of a loaded model is the width that its file of sizes gives and the number that
the operator has written. It is the length of all vectors that are answered, whatever the provider
gives. A model of another width is not loaded, and no request is answered then. -/
theorem dimension_throughout :
    (∀ environment settings files resolved sentences,
      Settings.ofEnvironment environment = .ok settings →
      (Transformer.load files resolved settings.maxTokens settings.expectedDimension).outcome =
        .ok sentences →
          let encoder := Encoder.ofModel (.ofSettings settings) settings.batchSize sentences
          (∃ config, Transformer.GivesSizes files resolved.dir config ∧
            encoder.dimension = config.width) ∧
          (∀ dimension, Written environment "EMBED_MODEL_DIMENSION" countBound dimension →
            encoder.dimension = dimension) ∧
          ∀ (provider : Provider Number.Single) (service : Service Number.Single) state steps,
            provider.dimension = encoder.dimension →
            service.encoder = .ofProvider .rounded encoder.modelId provider settings.batchSize →
              Service.VectorsHave encoder.dimension (service.run state steps)) ∧
    (∀ environment settings files resolved config dimension,
      Settings.ofEnvironment environment = .ok settings →
      Transformer.GivesSizes files resolved.dir config →
      Written environment "EMBED_MODEL_DIMENSION" countBound dimension →
      dimension ≠ config.width →
        (Transformer.load files resolved settings.maxTokens settings.expectedDimension).outcome =
          .error (.failed (.dimension dimension config.width)) ∧
        ∀ arguments world refusal steps found, Finds world settings found resolved →
          found.files = files → (run arguments world refusal steps).reports = []) ∧
    ∀ arguments world refusal steps, (run arguments world refusal steps).reports ≠ [] →
      ∃ settings found resolved config, Finds world settings found resolved ∧
        Transformer.GivesSizes found.files resolved.dir config ∧
        Service.VectorsHave config.width (run arguments world refusal steps).reports ∧
        ∀ dimension, Written world.environment "EMBED_MODEL_DIMENSION" countBound dimension →
          dimension = config.width := by
  refine ⟨?_, ?_, ?_⟩
  · intro environment settings files resolved sentences accepted loaded encoder
    rcases dimension_of_loaded accepted loaded with ⟨config, gives, width, pinned⟩
    refine ⟨⟨config, gives, width⟩, fun dimension written => (pinned dimension written).symm, ?_⟩
    intro provider service state steps declares serves
    rw [← declares]
    exact Service.vectorsHave_run serves state steps
  · intro environment settings files resolved config dimension accepted gives written other
    have expected := (Settings.expectedDimension_eq_some_iff
      (Settings.numbers_of_ofEnvironment accepted)).mpr written
    have refused := Transformer.load_of_width_ne gives other settings.maxTokens
    rw [← expected] at refused
    refine ⟨congrArg (·.outcome) refused, ?_⟩
    intro arguments world refusal steps found finds same
    by_contra answered
    rcases loads_of_answered answered with
      ⟨_, again, later, sentences, service, ⟨model, finds_again, loaded⟩, _⟩
    rcases finds.unique finds_again with ⟨rfl, rfl, rfl⟩
    rw [loadingOf, same, refused] at loaded
    cases loaded
  · intro arguments world refusal steps answered
    rcases loads_of_answered answered with
      ⟨_, settings, found, sentences, service, ⟨resolved, finds, loaded⟩, made, reports⟩
    rcases dimension_of_loaded finds.accepted loaded with ⟨config, gives, width, pinned⟩
    refine ⟨settings, found, resolved, config, finds, gives, ?_, ?_⟩
    · rw [reports, ← width]
      exact Service.vectorsHave_run (encoder_of_ofSettings made) _ steps
    · intro dimension written
      rw [pinned dimension written, width]

end Startup

end TextVectors
