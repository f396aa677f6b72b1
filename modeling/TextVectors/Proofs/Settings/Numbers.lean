import TextVectors.Proofs.Settings.Numerals
import TextVectors.Proofs.Settings.Reading

/-!
# Numbers that are set

A number of the settings is the one that the operator has written, or the one that
stands when nothing is written. Numbers that cannot be read, that reach the bound
of their kind, or that are zero where this makes no sense, are refused when the
settings are read, `InRange.of_ofEnvironment`.
-/

namespace TextVectors

namespace Number

/-- What is read below a bound is below it. -/
theorem lt_of_readNatural {bound number : Nat} {text : String}
    (read : readNatural bound text = .ok number) (positive : 0 < bound) : number < bound :=
  ((readNatural_eq_ok_iff positive).mp read).2

end Number

namespace Settings

variable {environment : Environment} {settings : Settings} {key : String}
  {bound default value : Nat}

/-- The operator has written a number below a bound. -/
def Written (environment : Environment) (key : String) (bound value : Nat) : Prop :=
  ∃ raw, get? environment key = some raw ∧ Number.readNatural bound raw = .ok value

theorem readNumber?_eq_ok_some_iff :
    readNumber? environment key bound = .ok (some value) ↔ Written environment key bound value := by
  unfold readNumber? Written
  cases get? environment key with
  | none => simp
  | some raw => cases read : Number.readNatural bound raw <;> simp [read]

theorem readNumber?_eq_ok_none_iff :
    readNumber? environment key bound = .ok none ↔ get? environment key = none := by
  unfold readNumber?
  cases get? environment key with
  | none => simp
  | some raw => cases read : Number.readNatural bound raw <;> simp [read]

theorem readNumber_eq_ok_iff :
    readNumber environment key bound default = .ok value ↔
      Written environment key bound value ∨ get? environment key = none ∧ value = default := by
  rw [readNumber, map_eq_ok_iff]
  constructor
  · rintro ⟨number, read, rfl⟩
    cases number with
    | none => exact .inr ⟨readNumber?_eq_ok_none_iff.mp read, rfl⟩
    | some number => exact .inl (readNumber?_eq_ok_some_iff.mp read)
  · rintro (written | ⟨unset, rfl⟩)
    · exact ⟨some value, readNumber?_eq_ok_some_iff.mpr written, rfl⟩
    · exact ⟨none, readNumber?_eq_ok_none_iff.mpr unset, rfl⟩

theorem Written.lt (written : Written environment key bound value) (positive : 0 < bound) :
    value < bound := by
  rcases written with ⟨raw, _, read⟩
  exact Number.lt_of_readNatural read positive

theorem lt_of_readNumber (read : readNumber environment key bound default = .ok value)
    (positive : default < bound) : value < bound := by
  rcases readNumber_eq_ok_iff.mp read with written | ⟨_, rfl⟩
  · exact written.lt (by omega)
  · exact positive

/-- Where the numbers of settings come from. -/
structure Numbers (environment : Environment) (settings : Settings) : Prop where
  expectedDimension :
    readNumber? environment "EMBED_MODEL_DIMENSION" countBound = .ok settings.expectedDimension
  port : readNumber environment "EMBED_PORT" portBound 9000 = .ok settings.port
  batchSize : readNumber environment "EMBED_BATCH_SIZE" countBound 32 = .ok settings.batchSize
  maxTokens : readNumber environment "EMBED_MAX_TOKENS" countBound 512 = .ok settings.maxTokens
  maxConcurrency :
    readNumber environment "EMBED_MAX_CONCURRENCY" countBound 2 = .ok settings.maxConcurrency
  timeoutSeconds :
    readNumber environment "EMBED_REQUEST_TIMEOUT_SECS" countBound 60 = .ok settings.timeoutSeconds
  maxBodyBytes :
    readNumber environment "EMBED_MAX_BODY_BYTES" countBound (32 * 1024 * 1024) =
      .ok settings.maxBodyBytes
  nonzero : settings.zeroKey? = none

theorem numbers_of_ofEnvironment (accepted : ofEnvironment environment = .ok settings) :
    Numbers environment settings := by
  rcases ofEnvironment_eq_ok_iff.mp accepted with ⟨reads, nonzero⟩
  exact ⟨reads.expectedDimension, reads.port, reads.batchSize, reads.maxTokens,
    reads.maxConcurrency, reads.timeoutSeconds, reads.maxBodyBytes, nonzero⟩

theorem expectedDimension_eq_some_iff (numbers : Numbers environment settings)
    {dimension : Nat} : settings.expectedDimension = some dimension ↔
      Written environment "EMBED_MODEL_DIMENSION" countBound dimension := by
  rw [← readNumber?_eq_ok_some_iff, numbers.expectedDimension, Except.ok.injEq]

/-! ## Ranges -/

/-- Every number of settings is in its range. -/
structure InRange (settings : Settings) : Prop where
  batchSize : 1 ≤ settings.batchSize ∧ settings.batchSize < countBound
  maxTokens : 1 ≤ settings.maxTokens ∧ settings.maxTokens < countBound
  maxConcurrency : 1 ≤ settings.maxConcurrency ∧ settings.maxConcurrency < countBound
  timeoutSeconds : 1 ≤ settings.timeoutSeconds ∧ settings.timeoutSeconds < countBound
  maxBodyBytes : settings.maxBodyBytes < countBound
  port : settings.port < portBound
  expectedDimension : ∀ dimension ∈ settings.expectedDimension,
    1 ≤ dimension ∧ dimension < countBound

theorem zeroKey?_eq_none_iff : settings.zeroKey? = none ↔
    0 < settings.batchSize ∧ 0 < settings.maxTokens ∧ 0 < settings.maxConcurrency ∧
      0 < settings.timeoutSeconds ∧ settings.expectedDimension ≠ some 0 := by
  unfold zeroKey?
  split_ifs with batch tokens concurrency timeout dimension <;> simp_all [Nat.pos_iff_ne_zero]

/-- Settings are accepted only if every number is in its range. -/
theorem InRange.of_ofEnvironment (accepted : ofEnvironment environment = .ok settings) :
    InRange settings := by
  have numbers := numbers_of_ofEnvironment accepted
  rcases zeroKey?_eq_none_iff.mp numbers.nonzero with ⟨batch, tokens, concurrency, timeout, pinned⟩
  constructor
  · exact ⟨batch, lt_of_readNumber numbers.batchSize (by decide)⟩
  · exact ⟨tokens, lt_of_readNumber numbers.maxTokens (by decide)⟩
  · exact ⟨concurrency, lt_of_readNumber numbers.maxConcurrency (by decide)⟩
  · exact ⟨timeout, lt_of_readNumber numbers.timeoutSeconds (by decide)⟩
  · exact lt_of_readNumber numbers.maxBodyBytes (by decide)
  · exact lt_of_readNumber numbers.port (by decide)
  · intro dimension expected
    have written := (expectedDimension_eq_some_iff numbers).mp expected
    refine ⟨?_, written.lt (by decide)⟩
    rw [Nat.one_le_iff_ne_zero]
    rintro rfl
    exact pinned expected

/-- The numbers that can be set, each with the bound of its kind and whether it may be zero. -/
def numberKeys : List (String × Nat × Bool) := [
  ("EMBED_MODEL_DIMENSION", countBound, false), ("EMBED_PORT", portBound, true),
  ("EMBED_BATCH_SIZE", countBound, false), ("EMBED_MAX_TOKENS", countBound, false),
  ("EMBED_MAX_CONCURRENCY", countBound, false), ("EMBED_REQUEST_TIMEOUT_SECS", countBound, false),
  ("EMBED_MAX_BODY_BYTES", countBound, true)]

theorem written_of_set {raw : String} (set : get? environment key = some raw)
    (read : readNumber environment key bound default = .ok value) :
    Written environment key bound value := by
  rcases readNumber_eq_ok_iff.mp read with written | ⟨unset, _⟩
  · exact written
  · cases set.symm.trans unset

/-- Settings are accepted only if every number that is set can be read and is in its range. -/
theorem exists_written_of_accepted (accepted : ofEnvironment environment = .ok settings)
    {zero : Bool} (mem : (key, bound, zero) ∈ numberKeys) {raw : String}
    (set : get? environment key = some raw) :
    ∃ value, Written environment key bound value ∧ (zero = false → value ≠ 0) := by
  have numbers := numbers_of_ofEnvironment accepted
  have range := InRange.of_ofEnvironment accepted
  simp only [numberKeys, List.mem_cons, Prod.mk.injEq, List.not_mem_nil, or_false] at mem
  rcases mem with ⟨rfl, rfl, rfl⟩ | ⟨rfl, rfl, rfl⟩ | ⟨rfl, rfl, rfl⟩ | ⟨rfl, rfl, rfl⟩ |
    ⟨rfl, rfl, rfl⟩ | ⟨rfl, rfl, rfl⟩ | ⟨rfl, rfl, rfl⟩
  · cases expected : settings.expectedDimension with
    | none =>
        have read := numbers.expectedDimension
        rw [expected, readNumber?_eq_ok_none_iff] at read
        cases set.symm.trans read
    | some dimension =>
        have positive := (range.expectedDimension dimension expected).1
        exact ⟨dimension, (expectedDimension_eq_some_iff numbers).mp expected, by omega⟩
  · exact ⟨_, written_of_set set numbers.port, by simp⟩
  · exact ⟨_, written_of_set set numbers.batchSize, fun _ => by have := range.batchSize; omega⟩
  · exact ⟨_, written_of_set set numbers.maxTokens, fun _ => by have := range.maxTokens; omega⟩
  · exact ⟨_, written_of_set set numbers.maxConcurrency,
      fun _ => by have := range.maxConcurrency; omega⟩
  · exact ⟨_, written_of_set set numbers.timeoutSeconds,
      fun _ => by have := range.timeoutSeconds; omega⟩
  · exact ⟨_, written_of_set set numbers.maxBodyBytes, by simp⟩

end Settings

end TextVectors
