import TextVectors.Proofs.Result
import TextVectors.Settings

/-!
# Settings that are read

Settings are read from an environment variable by variable. `Reads` says of each of
them where it comes from, and settings are accepted iff they are read so and no number
among them is zero that must not be, `ofEnvironment_eq_ok_iff`. What else is known of
accepted settings follows from this.
-/

namespace TextVectors

namespace Settings

variable {environment : Environment} {settings : Settings}

/-- Where each of some settings comes from. -/
structure Reads (environment : Environment) (settings : Settings) : Prop where
  modelId : settings.modelId = (get? environment "EMBED_MODEL_ID").getD "BAAI/bge-small-zh-v1.5"
  modelDir :
    settings.modelDir = (get? environment "EMBED_MODEL_DIR").getD "./model/bge-small-zh-v1.5"
  revision : settings.revision = (get? environment "EMBED_MODEL_REVISION").getD "main"
  expectedDimension :
    readNumber? environment "EMBED_MODEL_DIMENSION" countBound = .ok settings.expectedDimension
  pins : readPins environment = .ok settings.pins
  hubBase : settings.hubBase =
    Text.trimEnd '/' ((get? environment "EMBED_HUB_BASE_URL").getD "https://huggingface.co")
  hubToken : settings.hubToken = get? environment "HF_TOKEN"
  host : readHost environment = .ok settings.host
  port : readNumber environment "EMBED_PORT" portBound 9000 = .ok settings.port
  batchSize : readNumber environment "EMBED_BATCH_SIZE" countBound 32 = .ok settings.batchSize
  maxTokens : readNumber environment "EMBED_MAX_TOKENS" countBound 512 = .ok settings.maxTokens
  maxConcurrency :
    readNumber environment "EMBED_MAX_CONCURRENCY" countBound 2 = .ok settings.maxConcurrency
  timeoutSeconds :
    readNumber environment "EMBED_REQUEST_TIMEOUT_SECS" countBound 60 = .ok settings.timeoutSeconds
  maxBodyBytes :
    readNumber environment "EMBED_MAX_BODY_BYTES" countBound (32 * 1024 * 1024) =
      .ok settings.maxBodyBytes
  logSpec : settings.logSpec = (get? environment "EMBED_LOG_LEVEL").getD "info"
  logDir : settings.logDir = get? environment "EMBED_LOG_DIR"

theorem read_eq_ok_iff : read environment = .ok settings ↔ Reads environment settings := by
  simp only [read, bind_eq_ok_iff]
  constructor
  · rintro ⟨_, host, _, pins, _, expectedDimension, _, port, _, batchSize, _, maxTokens, _,
      maxConcurrency, _, timeoutSeconds, _, maxBodyBytes, made⟩
    cases made
    exact ⟨rfl, rfl, rfl, expectedDimension, pins, rfl, rfl, host, port, batchSize, maxTokens,
      maxConcurrency, timeoutSeconds, maxBodyBytes, rfl, rfl⟩
  · intro reads
    cases settings
    rcases reads with ⟨rfl, rfl, rfl, expectedDimension, pins, rfl, rfl, host, port, batchSize,
      maxTokens, maxConcurrency, timeoutSeconds, maxBodyBytes, rfl, rfl⟩
    exact ⟨_, host, _, pins, _, expectedDimension, _, port, _, batchSize, _, maxTokens, _,
      maxConcurrency, _, timeoutSeconds, _, maxBodyBytes, rfl⟩

/-- Settings are accepted iff they are read and no number is zero that must not be. -/
theorem ofEnvironment_eq_ok_iff : ofEnvironment environment = .ok settings ↔
    Reads environment settings ∧ settings.zeroKey? = none := by
  rw [ofEnvironment, bind_eq_ok_iff]
  constructor
  · rintro ⟨found, read, checked⟩
    split at checked
    · cases checked
    · next nonzero =>
      cases checked
      exact ⟨read_eq_ok_iff.mp read, nonzero⟩
  · rintro ⟨reads, nonzero⟩
    refine ⟨settings, read_eq_ok_iff.mpr reads, ?_⟩
    rw [nonzero]
    rfl

end Settings

end TextVectors
