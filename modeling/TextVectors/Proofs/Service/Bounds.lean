import TextVectors.Proofs.Encoder.Batches
import TextVectors.Proofs.Payload.Requests
import TextVectors.Proofs.Service.Answers
import TextVectors.Proofs.Settings.Numbers
import TextVectors.Proofs.Startup.FailFast

/-!
# Numbers that are too large

A request is no longer than the settings allow, and it has no more texts than bytes.
So every number that its encode computes with fits into a machine word, as the
settings themselves do, and the sizes of the batches are never zero. A request is
broken off only by the provider.

The settings have one more number that a bound stands against. More permits than can
be handed out are accepted when the settings are read, and the service is broken off
when it is made, `too_many_permits_accepted`.
-/

namespace TextVectors

namespace Encoder

variable {σ : Type} {encoder : Encoder σ}

/-- A number that an encode computes with: where a batch begins, where it ends, or where one of its
texts stands among all. -/
inductive Computes (encoder : Encoder σ) (texts : List String) : Nat → Prop where
  | first {number : Nat} {batch : List String}
      (found : (encoder.chunks texts)[number]? = some batch) :
      Computes encoder texts (number * encoder.chunkSize)
  | last {number : Nat} {batch : List String}
      (found : (encoder.chunks texts)[number]? = some batch) :
      Computes encoder texts (number * encoder.chunkSize + batch.length)
  | position {number index : Nat} {batch : List String}
      (found : (encoder.chunks texts)[number]? = some batch) (inside : index < batch.length) :
      Computes encoder texts (number * encoder.chunkSize + index)

/-- An encode counts no further than its texts. -/
theorem Computes.le_length {texts : List String} {number : Nat}
    (computes : encoder.Computes texts number) : number ≤ texts.length := by
  cases computes with
  | first found =>
      have ends := encoder.end_le_length found
      omega
  | last found => exact encoder.end_le_length found
  | position found inside =>
      have ends := encoder.end_le_length found
      omega

/-- The provider always ends by itself. -/
def Steady (encoder : Encoder σ) : Prop :=
  ∀ batch message, (encoder.provider.embed batch).rows ≠ .error (.crashed message)

theorem Steady.encodeChunk (steady : encoder.Steady) (offset : Nat) (batch : List String)
    (message : String) : encoder.encodeChunk offset batch ≠ .error (.crashed message) := by
  unfold Encoder.encodeChunk
  split
  · next crashed => exact absurd crashed (steady batch _)
  · simp
  · split
    · simp
    · simp [mapError_eq_error_iff]

theorem Steady.encodeFrom (steady : encoder.Steady) (number : Nat)
    (batches : List (List String)) (message : String) :
    (encoder.encodeFrom number batches).outcome ≠ .error (.crashed message) := by
  induction batches generalizing number with
  | nil => simp [Encoder.encodeFrom]
  | cons batch rest ih =>
      cases first : encoder.encodeChunk (number * encoder.chunkSize) batch with
      | error fault =>
          rw [encoder.encodeFrom_cons_of_error rest first]
          intro crashed
          cases crashed
          exact steady.encodeChunk _ _ _ first
      | ok piece =>
          rw [encoder.encodeFrom_cons_of_ok rest first]
          intro crashed
          exact ih _ (map_eq_error_iff.mp crashed)

theorem Steady.encode (steady : encoder.Steady) (texts : List String) (message : String) :
    (encoder.encode texts).outcome ≠ .error (.crashed message) :=
  steady.encodeFrom 0 _ message

end Encoder

namespace Service

variable {σ : Type} {service : Service σ} {settings : Settings}

theorem ofSettings_of_le (encoder : Encoder σ) (few : settings.maxConcurrency ≤ permitLimit) :
    ofSettings settings encoder = .ok {
      encoder
      permits := settings.maxConcurrency
      limit := .ofSeconds settings.timeoutSeconds
      maxBodyBytes := settings.maxBodyBytes } := by
  simp only [ofSettings, few, if_true]

theorem ofSettings_of_lt (encoder : Encoder σ) (many : permitLimit < settings.maxConcurrency) :
    ∃ message, ofSettings settings encoder = .error message := by
  simp only [ofSettings, not_le.mpr many, if_false]
  exact ⟨_, rfl⟩

/-- The texts of a request are no more than the bytes that a request may have. -/
theorem length_le_of_readTexts {request : Request} {texts : List String}
    (accepted : service.readTexts request = .ok texts) :
    texts.length ≤ request.body.length ∧ request.body.length ≤ service.maxBodyBytes := by
  unfold readTexts at accepted
  split at accepted
  · cases accepted
  · split at accepted
    · cases accepted
    · next fits =>
      split at accepted
      · next read =>
        cases accepted
        rcases Payload.readFront_readTexts_eq_ok_iff.mp read with ⟨before, v, after, _, asks, same⟩
        have few := asks.length_le
        simp only [same, List.length_append] at fits ⊢
        omega
      · cases accepted

theorem ended_not_aborted (steady : service.encoder.Steady) {texts : List String}
    (count elapsed : Nat) (message : String) :
    (service.ended count elapsed (service.encoder.encode texts).outcome).2 ≠ .aborted message := by
  cases ends : (service.encoder.encode texts).outcome with
  | ok vectors => simp [ended]
  | error fault =>
      cases fault with
      | failed error => simp [ended]
      | crashed message => exact absurd ends (steady.encode texts message)

/-- A request that is not for the encoder leaves no event but its rejection. -/
theorem rejected_of_unwanted {request : Request} (unwanted : service.wanted request = none)
    (state : State) {event : Event} (left : event ∈ (service.handle state request).events) :
    ∃ problem, event = .rejected problem := by
  unfold handle at left
  split at left
  · split_ifs at left <;> cases left
  · next path =>
    split_ifs at left with method
    · cases read : service.readTexts request with
      | error problem => exact ⟨problem, by simpa [embed, read] using left⟩
      | ok texts =>
          cases texts with
          | nil => simp [embed, read] at left
          | cons text texts =>
              have wants := wanted_eq_some_iff.mpr ⟨path, method, read, List.cons_ne_nil _ _⟩
              cases unwanted.symm.trans wants
    · cases left
  · cases left

theorem handle_not_aborted (steady : service.encoder.Steady) (state : State) (request : Request)
    (message : String) : .aborted message ∉ (service.handle state request).events := by
  cases wants : service.wanted request with
  | some texts =>
      rw [handle_of_wanted wants]
      cases begins : service.entry state with
      | none =>
          rw [dispatch_of_no_entry begins]
          simp [expired]
      | some start =>
          rw [dispatch_of_entry begins]
          split
          · simpa using (ended_not_aborted steady _ _ message).symm
          · simp [expired]
  | none =>
      intro aborted
      rcases rejected_of_unwanted wants state aborted with ⟨problem, same⟩
      cases same

/-- No request of a run is broken off. -/
theorem run_not_aborted (steady : service.encoder.Steady) (state : State) (steps : List Step) :
    ∀ report ∈ service.run state steps, ∀ message, .aborted message ∉ report.events := by
  induction steps generalizing state with
  | nil => simp [run]
  | cons step steps ih =>
      intro report mem message
      rcases List.mem_cons.mp mem with rfl | later
      · cases step with
        | pause milliseconds => simp
        | request request => exact handle_not_aborted steady state request message
      · exact ih _ report later message

end Service

namespace Startup

variable {settings : Settings} {world : World} {arguments : List String}
  {refusal : Option String} {steps : List Service.Step}

/-- A run is broken off over layers without heads, or over too many permits. -/
theorem headless_or_many_of_crashed {message : String}
    (accepted : Settings.ofEnvironment world.environment = .ok settings)
    (crashed : (run arguments world refusal steps).ending = .crashed message) :
    (∃ found resolved config, Finds world settings found resolved ∧
        Transformer.GivesSizes found.files resolved.dir config ∧
        config.heads = 0 ∧ 0 < config.layers) ∨
      Service.permitLimit < settings.maxConcurrency := by
  cases asked : Mode.ofArguments arguments with
  | error argument => cases crashed.symm.trans (congrArg (·.ending) (run_of_misused asked))
  | ok mode =>
      by_cases acts : mode = .help
      · subst acts
        cases crashed.symm.trans (congrArg (·.ending) (run_of_help asked))
      · have way := @run_way mode arguments world refusal steps asked acts
        rw [crashed] at way
        rcases way.of_crashed with ⟨other, found, resolved, finds, headless⟩ |
          ⟨other, found, sentences, loads, refused⟩
        · cases accepted.symm.trans finds.accepted
          exact .inl ⟨found, resolved, Transformer.load_crashed headless |>.imp fun _ sized =>
            ⟨finds, sized⟩⟩
        · rcases loads.finds with ⟨resolved, finds⟩
          cases accepted.symm.trans finds.accepted
          right
          by_contra few
          rw [serviceOf, Service.ofSettings_of_le _ (not_lt.mp few)] at refused
          cases refused

open Settings (Written countBound)

/-- Settings that are accepted break nothing off but the making of a service with too many permits.
A number out of its range is never accepted. -/
theorem broken_off_only_for_permits (environment : Environment) :
    (∀ settings, Settings.ofEnvironment environment = .ok settings →
      settings.InRange ∧
      (∀ (σ : Type) (encoder : Encoder σ), encoder.batchSize = settings.batchSize →
        (Service.permitLimit < settings.maxConcurrency →
          ∃ message, Service.ofSettings settings encoder = .error message) ∧
        (settings.maxConcurrency ≤ Service.permitLimit →
          ∃ service, Service.ofSettings settings encoder = .ok service ∧
            service.encoder = encoder ∧ 0 < encoder.chunkSize ∧
            encoder.chunkSize = settings.batchSize ∧
            (∀ request texts, service.readTexts request = .ok texts →
              ∀ number, encoder.Computes texts number → number < countBound) ∧
            (encoder.Steady → ∀ state steps, ∀ report ∈ service.run state steps,
              ∀ message, .aborted message ∉ report.events))) ∧
      ∀ arguments world refusal steps message, world.environment = environment →
        (run arguments world refusal steps).ending = .crashed message →
          (∃ found resolved config, Finds world settings found resolved ∧
            Transformer.GivesSizes found.files resolved.dir config ∧
            config.heads = 0 ∧ 0 < config.layers) ∨
          Service.permitLimit < settings.maxConcurrency) ∧
    ∀ key bound zero raw, (key, bound, zero) ∈ Settings.numberKeys →
      Settings.get? environment key = some raw →
      (∀ value, Written environment key bound value → zero = false ∧ value = 0) →
        ∃ error, Settings.ofEnvironment environment = .error error := by
  refine ⟨?_, ?_⟩
  · intro settings accepted
    have range := Settings.InRange.of_ofEnvironment accepted
    refine ⟨range, ?_, ?_⟩
    · intro σ encoder same
      refine ⟨Service.ofSettings_of_lt encoder, ?_⟩
      intro few
      have size : encoder.chunkSize = settings.batchSize := by
        rw [Encoder.chunkSize, same]
        exact max_eq_left range.batchSize.1
      refine ⟨_, Service.ofSettings_of_le encoder few, rfl, encoder.chunkSize_pos, size, ?_, ?_⟩
      · intro request texts read number computes
        rcases Service.length_le_of_readTexts read with ⟨texts_le, body_le⟩
        have number_le := computes.le_length
        have body_lt := range.maxBodyBytes
        dsimp only at body_le
        omega
      · intro steady state steps
        exact Service.run_not_aborted steady state steps
    · rintro arguments world refusal steps message rfl crashed
      exact headless_or_many_of_crashed accepted crashed
  · intro key bound zero raw mem set unfit
    cases accepted : Settings.ofEnvironment environment with
    | error error => exact ⟨error, rfl⟩
    | ok settings =>
        rcases Settings.exists_written_of_accepted accepted mem set with ⟨value, written, positive⟩
        rcases unfit value written with ⟨nonzero, rfl⟩
        exact absurd rfl (positive nonzero)

/-- One permit more than can be handed out is accepted, and no service is made. -/
theorem too_many_permits_accepted :
    let environment : Environment := fun key =>
      if key = "EMBED_MAX_CONCURRENCY" then some "2305843009213693952" else none
    ∃ settings, Settings.ofEnvironment environment = .ok settings ∧
      settings.maxConcurrency = 2305843009213693952 ∧
      ∀ encoder : Encoder Number.Single, Service.ofSettings settings encoder =
        .error "a semaphore may not have more than MAX_PERMITS permits (2305843009213693951)" := by
  intro environment
  have accepted : (Settings.ofEnvironment environment).toOption.map (·.maxConcurrency) =
      some 2305843009213693952 := by
    decide +kernel
  rcases Option.map_eq_some_iff.mp accepted with ⟨settings, found, permits⟩
  refine ⟨settings, eq_ok_of_toOption found, permits, ?_⟩
  intro encoder
  have many : ¬2305843009213693952 ≤ Service.permitLimit := by decide +kernel
  rw [Service.ofSettings, permits, if_neg many]
  exact congrArg Except.error (by decide +kernel)

end Startup

end TextVectors
