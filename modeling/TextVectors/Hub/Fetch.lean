import TextVectors.Digest
import TextVectors.Files
import TextVectors.Hub.Basic
import TextVectors.Weights.Headed

/-!
# Fetching a model

A model is fetched file by file in a fixed order: first the files that it must
have, then the one that it may have, and at last its weights, of which one form
is enough. So weights that are in place mean that all files are. When any
weights are pinned, those without a pin are passed over.

A file is checked when its body is complete, written under the name of a draft,
and then renamed, so that no file with its proper name is ever half-written. What
a fetch does is kept in order: its requests, its operations on files, and what
it tells the journal.
-/

namespace TextVectors

namespace Hub

/-- Where models are on the hub, and what is known of them. -/
structure Access where
  /-- The address of the hub; it does not end in a slash. -/
  base : String
  revision : String
  token : Option String
  pins : Pins
  deriving DecidableEq, Repr

namespace Access

def ofSettings (settings : Settings) : Access :=
  ⟨settings.hubBase, settings.revision, settings.hubToken, settings.pins⟩

def address (access : Access) (modelId file : String) : String :=
  access.base ++ "/" ++ modelId ++ "/resolve/" ++ access.revision ++ "/" ++ file

end Access

/-- Why a fetch fails. -/
inductive FetchError where
  | modelDirectory (path : String) (error : FileError)
  | directory (path : String) (error : FileError)
  | refused (address : String) (refusal : Refusal)
  | status (code : Nat) (address : String)
  | absent (modelId file : String)
  | unread (address detail : String)
  | wrongDigest (file expected found : String)
  | badHeader (file : String) (error : Weights.HeaderError)
  | draft (path : String) (error : FileError)
  | rename (source target : String) (error : FileError)
  | noWeights (modelId : String)
  deriving DecidableEq, Repr

def FetchError.failure : FetchError → Failure
  | .modelDirectory path error => ⟨"failed to create model dir " ++ path, [error.message]⟩
  | .directory path error => ⟨"failed to create " ++ path, [error.message]⟩
  | .refused address refusal => .context ("failed to download " ++ address) refusal.failure
  | .status code address => ⟨"HTTP " ++ toString code ++ " downloading " ++ address, []⟩
  | .absent modelId file => ⟨modelId ++ " has no " ++ file ++ " on the hub", []⟩
  | .unread address detail => ⟨"failed to read response body for " ++ address, [detail]⟩
  | .wrongDigest file expected found =>
    ⟨"SHA256 mismatch for " ++ file ++ ": expected " ++ expected ++ ", got " ++ found, []⟩
  | .badHeader file error =>
    ⟨"downloaded " ++ file ++ " is not valid safetensors: " ++ error.message, []⟩
  | .draft path error => ⟨"failed to create " ++ path, [error.message]⟩
  | .rename source target error =>
    ⟨"failed to rename " ++ source ++ " -> " ++ target, [error.message]⟩
  | .noWeights modelId =>
    ⟨modelId ++ " has none of " ++ Text.quotedList Model.weightFiles ++ " on the hub", []⟩

/-- What a fetch has done so far. -/
structure Progress where
  files : Files
  operations : List Files.Operation := []
  /-- All requests that the hub has received, also before this fetch. -/
  requests : List Request := []
  entries : List Journal.Entry := []

namespace Progress

def perform (progress : Progress) (operations : List Files.Operation) : Progress :=
  { progress with
    files := progress.files.applyAll operations
    operations := progress.operations ++ operations }

/-- The progress after telling the journal something. -/
def tell (progress : Progress) (text : String) : Progress :=
  { progress with entries := progress.entries ++ [⟨.info, .download, text⟩] }

/-- Makes a directory with all that is missing above it. -/
def makeDirectory (progress : Progress) (path : String) (wrap : FileError → FetchError) :
    Progress × Except FetchError Unit :=
  match progress.files.makeDirectories path with
  | (operations, none) => (progress.perform operations, .ok ())
  | (operations, some error) => (progress.perform operations, .error (wrap error))

/-- Writes a file under the name of a draft and renames it. -/
def store (progress : Progress) (path : String) (content : List UInt8) :
    Progress × Except FetchError Unit :=
  let draft := path ++ ".tmp"
  match progress.files.creatable draft with
  | .error error => (progress, .error (.draft draft error))
  | .ok place =>
    let progress := progress.perform [.create place, .fill place content]
    match progress.files.rename draft path with
    -- The draft has been filled by now, and stays.
    | .error error => (progress, .error (.rename draft path error))
    | .ok operation => (progress.perform [operation], .ok ())

end Progress

/-- Checks the content of a file against its pin, if there is one, and tells the journal what it
is. -/
def checkDigest (file : String) (pin : Option String) (content : List UInt8) :
    Except FetchError String :=
  let digest := Digest.sha256Hex content
  match pin with
  | some expected =>
    if digest ≠ expected then .error (.wrongDigest file expected digest)
    else
      .ok ("SHA256 verified for " ++ file ++ " (" ++ String.ofList (digest.toList.take 12) ++ ")")
  | none =>
    .ok ("Downloaded " ++ file ++ " (" ++ toString content.length ++ " bytes, sha256 " ++ digest ++
      ")")

/-- Checks the header of a file that must have one. -/
def checkHeader (file : String) (content : List UInt8) : Except FetchError Unit :=
  if Path.extension? file = some "safetensors" then
    match Weights.readHeader content with
    | .ok _ => .ok ()
    | .error error => .error (.badHeader file error)
  else .ok ()

/-- The last name of a file of a model, by which the journal calls it. -/
def lastName (file : String) : String :=
  (Path.fileName? file).getD ""

/-- Checks the body of a file and writes it. -/
def accept (file path : String) (pin : Option String) (content : List UInt8)
    (progress : Progress) : Progress × Except FetchError Unit :=
  match checkDigest (lastName file) pin content with
  | .error error => (progress, .error error)
  | .ok text =>
    let progress := progress.tell text
    match checkHeader (lastName file) content with
    | .error error => (progress, .error error)
    | .ok () => progress.store path content

/-- Downloads a file of a model to a path, and says whether the hub has it. -/
def download (hub : Hub) (access : Access) (modelId file path : String) (pin : Option String)
    (progress : Progress) : Progress × Except FetchError Bool :=
  let address := access.address modelId file
  let progress := progress.tell ("Downloading " ++ lastName file ++ " from " ++ address)
  let (requests, outcome) := hub.get access.token progress.requests address
  let progress := { progress with requests }
  match outcome with
  | .error refusal => (progress, .error (.refused address refusal))
  | .ok (status, body) =>
    if status = 404 then (progress.tell (lastName file ++ " not found on hub"), .ok false)
    else if 400 ≤ status then (progress, .error (.status status address))
    else
      -- The body of any other answer is the file, also that of a reference that is not followed.
      match body with
      | .broken detail => (progress, .error (.unread address detail))
      | .complete content =>
        let (progress, outcome) := accept file path pin content progress
        (progress, outcome.map fun () => true)

/-! ## The steps of a fetch -/

/-- A step of a fetch. -/
inductive Step where
  /-- Makes the directory of the model. -/
  | makeModelDirectory
  /-- Makes a directory in it. -/
  | makeDirectory (name : String)
  /-- Downloads a file that must be there. -/
  | required (file : String)
  /-- Downloads a file that may be missing. -/
  | optional (file : String)
  /-- Downloads weights; if they are there, the fetch ends. -/
  | weights (file : String)
  deriving DecidableEq, Repr

/-- The directory of the file that says how to pool. -/
def poolingDirectory : String := "1_Pooling"

/-- The steps of every fetch, in their order. -/
def steps : List Step :=
  [.makeModelDirectory, .required Model.configFile, .required Model.tokenizerFile,
    .makeDirectory poolingDirectory, .optional Model.poolingFile] ++
    Model.weightFiles.map .weights

/-- How a step ends. -/
inductive StepEnd where
  | goOn
  | finished
  | failed (error : FetchError)
  deriving DecidableEq, Repr

namespace Step

/-- The end of a step whose work ends in some way. -/
private def ending {α : Type} (next : α → StepEnd) : Except FetchError α → StepEnd
  | .ok value => next value
  | .error error => .failed error

/-- Takes a step of fetching a model into a directory. -/
def take (hub : Hub) (access : Access) (modelId directory : String) (progress : Progress) :
    Step → Progress × StepEnd
  | .makeModelDirectory =>
    let (progress, outcome) := progress.makeDirectory directory (.modelDirectory directory)
    (progress, ending (fun _ => .goOn) outcome)
  | .makeDirectory name =>
    let path := Path.join directory name
    let (progress, outcome) := progress.makeDirectory path (.directory path)
    (progress, ending (fun _ => .goOn) outcome)
  | .required file =>
    let (progress, outcome) :=
      download hub access modelId file (Path.join directory file) none progress
    (progress,
      ending (fun found => if found then .goOn else .failed (.absent modelId file)) outcome)
  | .optional file =>
    let (progress, outcome) :=
      download hub access modelId file (Path.join directory file) none progress
    (progress, ending (fun _ => .goOn) outcome)
  | .weights file =>
    let pin := access.pins.digest? file
    -- Once anything is pinned, weights without a pin are not asked for.
    if pin.isNone ∧ access.pins ≠ [] then
      (progress.tell ("Skipping " ++ file ++ " (no pinned SHA256)"), .goOn)
    else
      let (progress, outcome) :=
        download hub access modelId file (Path.join directory file) pin progress
      if outcome.toOption = some true then (progress.tell "Model download complete", .finished)
      else (progress, ending (fun _ => .goOn) outcome)

end Step

/-- Takes steps until one finishes the fetch or fails. -/
def takeSteps (hub : Hub) (access : Access) (modelId directory : String) :
    List Step → Progress → Progress × Except FetchError String
  | [], progress => (progress, .error (.noWeights modelId))
  | step :: rest, progress =>
    match step.take hub access modelId directory progress with
    | (progress, .goOn) => takeSteps hub access modelId directory rest progress
    | (progress, .finished) => (progress, .ok directory)
    | (progress, .failed error) => (progress, .error error)

/-- Fetches a model into a directory. -/
def fetch (hub : Hub) (access : Access) (modelId directory : String) (progress : Progress) :
    Progress × Except FetchError String :=
  takeSteps hub access modelId directory steps progress

/-! ## Machines -/

/-- A machine with its files, the requests that it has made, and the operations on its files. -/
structure Machine where
  files : Files
  requests : List Request := []
  operations : List Files.Operation := []

def Machine.perform (machine : Machine) (operations : List Files.Operation) : Machine :=
  { machine with
    files := machine.files.applyAll operations
    operations := machine.operations ++ operations }

/-- The fetcher of a machine that talks to a hub. -/
def fetcher (hub : Hub) (access : Access) : Model.Fetcher Machine :=
  fun modelId directory machine =>
    let (progress, outcome) :=
      fetch hub access modelId directory {
        files := machine.files, operations := machine.operations, requests := machine.requests }
    { outcome := outcome.mapError (·.failure)
      world := ⟨progress.files, progress.requests, progress.operations⟩
      entries := progress.entries }

end Hub

end TextVectors
