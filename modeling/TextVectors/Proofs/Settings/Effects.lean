import TextVectors.Proofs.Hub.Pinned
import TextVectors.Proofs.Settings.Numbers

/-!
# What a set variable does

A variable that is set to more than blanks is not treated as unset: accepted settings
hold what the text between the blanks says, `set_takes_effect`. Two texts say nothing,
though, and are accepted all the same. A list of pins of commas only gives no pin,
and the address of a hub of slashes only is empty, `commas_pin_nothing`. With any other
list of pins, all weights that a fetch asks for are pinned.
-/

namespace TextVectors

namespace Settings

variable {environment : Environment} {settings : Settings} {key raw value : String}

/-- What settings hold when a variable is set to a text. -/
inductive TakesEffect (settings : Settings) : String → String → Prop where
  | modelId : TakesEffect settings "EMBED_MODEL_ID" settings.modelId
  | modelDir : TakesEffect settings "EMBED_MODEL_DIR" settings.modelDir
  | revision : TakesEffect settings "EMBED_MODEL_REVISION" settings.revision
  | expectedDimension {raw : String} {dimension : Nat} (spells : Number.Spells raw dimension)
      (expected : settings.expectedDimension = some dimension) :
      TakesEffect settings "EMBED_MODEL_DIMENSION" raw
  | pins {raw : String} (read : Pins.ofString raw = .ok settings.pins)
      (empty : settings.pins = [] ↔ ∀ c ∈ raw.toList, c = ',' ∨ Text.isBlank c) :
      TakesEffect settings "EMBED_WEIGHTS_SHA256" raw
  | hubBase {raw : String} {slashes : Nat}
      (written : raw.toList = settings.hubBase.toList ++ List.replicate slashes '/')
      (bare : settings.hubBase.toList.getLast? ≠ some '/')
      (empty : settings.hubBase = "" ↔ ∀ c ∈ raw.toList, c = '/') :
      TakesEffect settings "EMBED_HUB_BASE_URL" raw
  | hubToken {raw : String} (token : settings.hubToken = some raw) :
      TakesEffect settings "HF_TOKEN" raw
  | host {raw : String} (read : Address.ofString? raw = some settings.host) :
      TakesEffect settings "EMBED_HOST" raw
  | port {raw : String} (spells : Number.Spells raw settings.port) :
      TakesEffect settings "EMBED_PORT" raw
  | batchSize {raw : String} (spells : Number.Spells raw settings.batchSize) :
      TakesEffect settings "EMBED_BATCH_SIZE" raw
  | maxTokens {raw : String} (spells : Number.Spells raw settings.maxTokens) :
      TakesEffect settings "EMBED_MAX_TOKENS" raw
  | maxConcurrency {raw : String} (spells : Number.Spells raw settings.maxConcurrency) :
      TakesEffect settings "EMBED_MAX_CONCURRENCY" raw
  | timeoutSeconds {raw : String} (spells : Number.Spells raw settings.timeoutSeconds) :
      TakesEffect settings "EMBED_REQUEST_TIMEOUT_SECS" raw
  | maxBodyBytes {raw : String} (spells : Number.Spells raw settings.maxBodyBytes) :
      TakesEffect settings "EMBED_MAX_BODY_BYTES" raw
  | logSpec : TakesEffect settings "EMBED_LOG_LEVEL" settings.logSpec
  | logDir {raw : String} (directory : settings.logDir = some raw) :
      TakesEffect settings "EMBED_LOG_DIR" raw

theorem get?_of_visible (set : environment key = some value)
    (visible : ∃ c ∈ value.toList, ¬Text.isBlank c) :
    get? environment key = some (Text.trim value) := by
  have shown : Text.trim value ≠ "" := Text.trim_ne_empty_iff.mpr visible
  simp [get?, set, shown]

/-! ## Values that are read -/

theorem spells_of_readNumber {bound default number : Nat} (positive : 0 < bound)
    (given : get? environment key = some raw)
    (read : readNumber environment key bound default = .ok number) : Number.Spells raw number := by
  rcases written_of_set given read with ⟨again, set, found⟩
  cases given.symm.trans set
  exact ((Number.readNatural_eq_ok_iff positive).mp found).1

theorem exists_spells_of_readNumber? {bound : Nat} {number : Option Nat} (positive : 0 < bound)
    (given : get? environment key = some raw)
    (read : readNumber? environment key bound = .ok number) :
    ∃ found, Number.Spells raw found ∧ number = some found := by
  cases number with
  | none => cases given.symm.trans (readNumber?_eq_ok_none_iff.mp read)
  | some found =>
      rcases readNumber?_eq_ok_some_iff.mp read with ⟨again, set, written⟩
      cases given.symm.trans set
      exact ⟨found, ((Number.readNatural_eq_ok_iff positive).mp written).1, rfl⟩

theorem ofString?_of_readHost {address : Address}
    (given : get? environment "EMBED_HOST" = some raw)
    (read : readHost environment = .ok address) : Address.ofString? raw = some address := by
  rw [readHost, given, Option.getD_some] at read
  split at read
  · next found parsed =>
    cases read
    exact parsed
  · cases read

theorem ofString_of_readPins {pins : Pins}
    (given : get? environment "EMBED_WEIGHTS_SHA256" = some raw)
    (read : readPins environment = .ok pins) : Pins.ofString raw = .ok pins := by
  rw [readPins, given] at read
  exact mapError_eq_ok_iff.mp read

/-- What is read of a variable that is set takes effect. -/
theorem Reads.takesEffect (reads : Reads environment settings) (mem : key ∈ keys)
    (given : get? environment key = some raw) : TakesEffect settings key raw := by
  have count : 0 < countBound := by decide
  have port : 0 < portBound := by decide
  simp only [keys, List.mem_cons, List.not_mem_nil, or_false] at mem
  rcases mem with rfl | rfl | rfl | rfl | rfl | rfl | rfl | rfl | rfl | rfl | rfl | rfl | rfl |
    rfl | rfl | rfl
  · have same := reads.modelId
    rw [given, Option.getD_some] at same
    exact same ▸ .modelId
  · have same := reads.modelDir
    rw [given, Option.getD_some] at same
    exact same ▸ .modelDir
  · have same := reads.revision
    rw [given, Option.getD_some] at same
    exact same ▸ .revision
  · rcases exists_spells_of_readNumber? count given reads.expectedDimension with
      ⟨dimension, spells, expected⟩
    exact .expectedDimension spells expected
  · have read := ofString_of_readPins given reads.pins
    exact .pins read (Pins.eq_nil_iff read)
  · have same := reads.hubBase
    rw [given, Option.getD_some] at same
    rcases Text.exists_replicate_trimEnd '/' raw with ⟨slashes, written⟩
    rw [← same] at written
    refine .hubBase written ?_ ?_
    · rw [same]
      exact Text.getLast?_trimEnd '/' raw
    · rw [same]
      exact Text.trimEnd_eq_empty_iff
  · exact .hubToken (reads.hubToken.trans given)
  · exact .host (ofString?_of_readHost given reads.host)
  · exact .port (spells_of_readNumber port given reads.port)
  · exact .batchSize (spells_of_readNumber count given reads.batchSize)
  · exact .maxTokens (spells_of_readNumber count given reads.maxTokens)
  · exact .maxConcurrency (spells_of_readNumber count given reads.maxConcurrency)
  · exact .timeoutSeconds (spells_of_readNumber count given reads.timeoutSeconds)
  · exact .maxBodyBytes (spells_of_readNumber count given reads.maxBodyBytes)
  · have same := reads.logSpec
    rw [given, Option.getD_some] at same
    exact same ▸ .logSpec
  · exact .logDir (reads.logDir.trans given)

/-- When there are pins, all weights that a fetch asks for are pinned. -/
theorem exists_pin_of_mem_exchanges {hub : Hub} {access : Hub.Access} {modelId directory : String}
    {progress : Hub.Progress} {exchange : Hub.Exchange} (pinned : access.pins ≠ [])
    (mem : exchange ∈ Hub.exchanges hub access modelId directory Hub.steps progress)
    (weights : exchange.file ∈ Model.weightFiles) :
    ∃ digest, access.pins.digest? exchange.file = some digest := by
  rcases Hub.exists_step_of_mem_exchanges mem with ⟨step, among, asks⟩
  rcases Hub.exists_pin pinned among asks weights with ⟨digest, _, pin⟩
  exact ⟨digest, pin⟩

/-- A variable that is set to more than blanks takes effect on accepted settings, with the text
between the blanks. When pins come of it, a fetch with the settings asks for no weights without
one. -/
theorem set_takes_effect (accepted : ofEnvironment environment = .ok settings) (mem : key ∈ keys)
    (set : environment key = some value) (visible : ∃ c ∈ value.toList, ¬Text.isBlank c) :
    Text.trim value ≠ "" ∧ TakesEffect settings key (Text.trim value) ∧
      (settings.pins ≠ [] → ∀ (hub : Hub) (modelId directory : String) (progress : Hub.Progress),
        ∀ exchange ∈ Hub.exchanges hub (.ofSettings settings) modelId directory Hub.steps progress,
          exchange.file ∈ Model.weightFiles →
            ∃ digest, settings.pins.digest? exchange.file = some digest) := by
  refine ⟨Text.trim_ne_empty_iff.mpr visible, ?_, ?_⟩
  · have reads := (ofEnvironment_eq_ok_iff.mp accepted).1
    exact reads.takesEffect mem (get?_of_visible set visible)
  · intro pinned hub modelId directory progress exchange among weights
    exact exists_pin_of_mem_exchanges pinned among weights

/-- A list of pins between blanks and commas takes effect, and so does the address of a hub with
slashes behind it. -/
theorem set_takes_effect_sample :
    let digest := "039058c6f2c0cb492c533b0a4d14ef77cc0f78abccced5287d84a1a2011cfb81"
    let raw := ", pytorch_model.bin = " ++ digest ++ " ,"
    let environment : Environment := fun key =>
      [("EMBED_MODEL_ID", "a/b"), ("EMBED_MODEL_DIR", "model"),
        ("EMBED_HUB_BASE_URL", "http://hub//"), ("EMBED_WEIGHTS_SHA256", "  " ++ raw ++ "\n")].lookup
        key
    let settings := Sample.settings "model" [("pytorch_model.bin", digest)]
    ofEnvironment environment = .ok settings ∧ TakesEffect settings "EMBED_WEIGHTS_SHA256" raw ∧
      TakesEffect settings "EMBED_HUB_BASE_URL" "http://hub//" := by
  intro digest raw environment settings
  have accepted : ofEnvironment environment = .ok settings := by
    apply eq_ok_of_toOption
    decide +kernel
  have pinsKey : "EMBED_WEIGHTS_SHA256" ∈ keys := by decide
  have baseKey : "EMBED_HUB_BASE_URL" ∈ keys := by decide
  have pins := set_takes_effect accepted pinsKey rfl ⟨',', by decide +kernel, by decide⟩
  have base := set_takes_effect accepted baseKey rfl ⟨'h', by decide +kernel, by decide⟩
  have trimmed : Text.trim ("  " ++ raw ++ "\n") = raw := by decide +kernel
  rw [trimmed] at pins
  exact ⟨accepted, pins.2.1, base.2.1⟩

/-- Commas alone are accepted as a list of pins, and settings have no pins then, as if it were
unset. Slashes alone are accepted as the address of a hub, and it is empty. -/
theorem commas_pin_nothing :
    let only (key value : String) : Environment := fun other =>
      if other = key then some value else none
    (∃ settings, ofEnvironment (only "EMBED_WEIGHTS_SHA256" ",") = .ok settings ∧
      settings.pins = [] ∧ ofEnvironment (fun _ => none) = .ok settings) ∧
    ∃ settings, ofEnvironment (only "EMBED_HUB_BASE_URL" "/") = .ok settings ∧
      settings.hubBase = "" := by
  intro only
  constructor
  · have unpinned : (ofEnvironment fun _ => none).toOption.map (·.pins) = some [] := by
      decide +kernel
    have same : ofEnvironment (only "EMBED_WEIGHTS_SHA256" ",") = ofEnvironment fun _ => none := by
      decide +kernel
    rcases Option.map_eq_some_iff.mp unpinned with ⟨settings, accepted, none_pinned⟩
    have unset := eq_ok_of_toOption accepted
    exact ⟨settings, same.trans unset, none_pinned, unset⟩
  · have empty : (ofEnvironment (only "EMBED_HUB_BASE_URL" "/")).toOption.map (·.hubBase) =
        some "" := by
      decide +kernel
    rcases Option.map_eq_some_iff.mp empty with ⟨settings, accepted, bare⟩
    exact ⟨settings, eq_ok_of_toOption accepted, bare⟩

end Settings

end TextVectors
