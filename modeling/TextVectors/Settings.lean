import TextVectors.Address
import TextVectors.Number.Natural
import TextVectors.Settings.Pins

/-!
# Settings

Everything an operator can choose, read from the variables of the environment.
A value counts without the blanks around it, and a blank value counts as unset.
Reading stops at the first bad value in a fixed order: the host, the pins, then
the numbers; only when every value has been read are the numbers checked that
must not be zero.

Only Unicode values are covered: a variable with any other value counts as
unset, so whatever is said of a variable that is set is said of one that has a
Unicode value.
-/

namespace TextVectors

/-- The values of the variables that are set. -/
abbrev Environment := String → Option String

/-- The choices of an operator. -/
structure Settings where
  modelId : String
  modelDir : String
  revision : String
  /-- The number of components the model must have, if it is pinned. -/
  expectedDimension : Option Nat
  /-- When there are any, only pinned weight files are fetched. -/
  pins : Pins
  /-- Where the hub is; it does not end in a slash. -/
  hubBase : String
  hubToken : Option String
  host : Address
  port : Nat
  batchSize : Nat
  maxTokens : Nat
  maxConcurrency : Nat
  timeoutSeconds : Nat
  maxBodyBytes : Nat
  logSpec : String
  logDir : Option String
  deriving DecidableEq, Repr

namespace Settings

/-- The version that the service reports. -/
def serviceVersion : String := "0.1.0"

/-- One more than the largest port. -/
def portBound : Nat := Nat.pow 2 16

/-- One more than the largest count that a setting can hold. -/
def countBound : Nat := Nat.pow 2 64

/-- The names of the variables that are read. -/
def keys : List String := [
  "EMBED_MODEL_ID", "EMBED_MODEL_DIR", "EMBED_MODEL_REVISION", "EMBED_MODEL_DIMENSION",
  "EMBED_WEIGHTS_SHA256", "EMBED_HUB_BASE_URL", "HF_TOKEN", "EMBED_HOST", "EMBED_PORT",
  "EMBED_BATCH_SIZE", "EMBED_MAX_TOKENS", "EMBED_MAX_CONCURRENCY", "EMBED_REQUEST_TIMEOUT_SECS",
  "EMBED_MAX_BODY_BYTES", "EMBED_LOG_LEVEL", "EMBED_LOG_DIR"]

/-- What is wrong with a set of choices. -/
inductive Error where
  | badHost (raw : String)
  | badPins (error : Pins.Error)
  | badNumber (key raw : String) (error : Number.NaturalError)
  | zero (key : String)
  deriving DecidableEq, Repr

/-- The wording of an error and of its cause. -/
def Error.failure : Error → Failure
  | .badHost raw => ⟨"invalid EMBED_HOST: " ++ raw, ["invalid IP address syntax"]⟩
  | .badPins error => ⟨"invalid EMBED_WEIGHTS_SHA256", [error.message]⟩
  | .badNumber key raw error => ⟨"invalid " ++ key ++ ": " ++ raw, [error.message]⟩
  | .zero key => ⟨key ++ " must be at least 1", []⟩

/-- The trimmed value of a variable, unless it is absent or blank. -/
def get? (environment : Environment) (key : String) : Option String :=
  ((environment key).map Text.trim).filter (· ≠ "")

/-- The address to listen at. -/
def readHost (environment : Environment) : Except Error Address :=
  let raw := (get? environment "EMBED_HOST").getD "0.0.0.0"
  match Address.ofString? raw with
  | some address => .ok address
  | none => .error (.badHost raw)

/-- The pinned digests; none are pinned when the variable is unset. -/
def readPins (environment : Environment) : Except Error Pins :=
  match get? environment "EMBED_WEIGHTS_SHA256" with
  | none => .ok []
  | some raw => (Pins.ofString raw).mapError .badPins

/-- A number below a bound, if its variable is set. -/
def readNumber? (environment : Environment) (key : String) (bound : Nat) :
    Except Error (Option Nat) :=
  match get? environment key with
  | none => .ok none
  | some raw =>
    match Number.readNatural bound raw with
    | .ok value => .ok (some value)
    | .error error => .error (.badNumber key raw error)

/-- A number below a bound, with the value it has when its variable is unset. -/
def readNumber (environment : Environment) (key : String) (bound default : Nat) :
    Except Error Nat :=
  (readNumber? environment key bound).map (·.getD default)

/-- The settings as they are read, before any number is found to be zero. -/
def read (environment : Environment) : Except Error Settings := do
  -- Of several errors the first in this order is reported.
  let host ← readHost environment
  let pins ← readPins environment
  let expectedDimension ← readNumber? environment "EMBED_MODEL_DIMENSION" countBound
  let port ← readNumber environment "EMBED_PORT" portBound 9000
  let batchSize ← readNumber environment "EMBED_BATCH_SIZE" countBound 32
  let maxTokens ← readNumber environment "EMBED_MAX_TOKENS" countBound 512
  let maxConcurrency ← readNumber environment "EMBED_MAX_CONCURRENCY" countBound 2
  let timeoutSeconds ← readNumber environment "EMBED_REQUEST_TIMEOUT_SECS" countBound 60
  let maxBodyBytes ← readNumber environment "EMBED_MAX_BODY_BYTES" countBound (32 * 1024 * 1024)
  return {
    modelId := (get? environment "EMBED_MODEL_ID").getD "BAAI/bge-small-zh-v1.5"
    modelDir := (get? environment "EMBED_MODEL_DIR").getD "./model/bge-small-zh-v1.5"
    revision := (get? environment "EMBED_MODEL_REVISION").getD "main"
    expectedDimension
    pins
    hubBase :=
      Text.trimEnd '/' ((get? environment "EMBED_HUB_BASE_URL").getD "https://huggingface.co")
    hubToken := get? environment "HF_TOKEN"
    host
    port
    batchSize
    maxTokens
    maxConcurrency
    timeoutSeconds
    maxBodyBytes
    logSpec := (get? environment "EMBED_LOG_LEVEL").getD "info"
    logDir := get? environment "EMBED_LOG_DIR" }

/-- The variable of the first number that is zero and must not be. -/
def zeroKey? (settings : Settings) : Option String :=
  if settings.batchSize = 0 then some "EMBED_BATCH_SIZE"
  else if settings.maxTokens = 0 then some "EMBED_MAX_TOKENS"
  else if settings.maxConcurrency = 0 then some "EMBED_MAX_CONCURRENCY"
  else if settings.timeoutSeconds = 0 then some "EMBED_REQUEST_TIMEOUT_SECS"
  else if settings.expectedDimension = some 0 then some "EMBED_MODEL_DIMENSION"
  else none

def ofEnvironment (environment : Environment) : Except Error Settings := do
  let settings ← read environment
  match settings.zeroKey? with
  | some key => throw (.zero key)
  | none => return settings

/-- The address and port to listen at, as it is written. -/
def bindAddress (settings : Settings) : String :=
  settings.host.withPort settings.port

end Settings

end TextVectors
