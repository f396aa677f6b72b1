import TextVectors.Hub.Fetch
import TextVectors.Journal.Filter
import TextVectors.Journal.Folder
import TextVectors.Mode
import TextVectors.Service.Basic
import TextVectors.Transformer.Loading

/-!
# A run of the program

The program starts in stages, and the first stage that fails ends it. It looks
at its arguments, reads its settings, opens its journal, finds the model, which
may mean to fetch it, loads the model, binds its address, and only then serves
requests, until it is told to stop. If the model was only to be fetched, the
program is done when it has been found.

A run keeps its milestones, one for every stage that it begins, the machine with
all that was done to it, and what the journal was told. `prepare` takes the
stages up to the loaded model, and `run` the rest as well.

Only Unicode arguments are covered: a program that is given any other breaks off
before it looks at one. The values of variables are Unicode too, see `Settings`.
-/

namespace TextVectors

namespace Startup

/-- What a run finds around it. -/
structure World where
  environment : Environment
  files : Files
  hub : Hub

/-- A stage that has begun. -/
inductive Milestone where
  | readSettings
  | openJournal
  | findModel
  | loadModel
  | bind
  | serve
  deriving DecidableEq, Repr

/-- How a run ends. -/
inductive Ending where
  /-- An argument is not understood. -/
  | misused (argument : String)
  | helped
  | done
  | failed (failure : Failure)
  /-- The run was broken off without an error of its own. -/
  | crashed (message : String)
  deriving DecidableEq, Repr

/-- What the program says of its use. -/
def usage : String := "\n".intercalate [
  "Usage: embedding-service [--download | --help]",
  "",
  "  (no flags)   resolve the model (fetching it if the local copy is incomplete), load it, " ++
    "serve HTTP",
  "  --download   resolve/fetch the model into EMBED_MODEL_DIR and exit",
  "  --help       print this message",
  "",
  "Configuration is read from the environment (EMBED_MODEL_ID, EMBED_MODEL_DIR, EMBED_PORT, ...)."]

namespace Ending

def code : Ending → Nat
  | .misused _ => 2
  | .helped => 0
  | .done => 0
  | .failed _ => 1
  | .crashed _ => 101

/-- What is printed in answer to the arguments. -/
def output : Ending → Option String
  | .helped => some usage
  | _ => none

/-- What is said of an ending that was not asked for. -/
def complaint : Ending → Option String
  | .misused argument => some ("unknown argument: " ++ argument ++ "\n\n" ++ usage)
  | .failed failure => some ("[embedding-service] fatal error: " ++ failure.report)
  | .crashed message => some message
  | _ => none

/-- What the journal is told of an ending. -/
def entries : Ending → List Journal.Entry
  | .failed failure => [⟨.error, .program, "Fatal error: " ++ failure.report⟩]
  | _ => []

end Ending

/-- What has happened so far: what was done to the machine, which stages have begun, and what the
journal was told by them. -/
structure Course where
  machine : Hub.Machine
  milestones : List Milestone := []
  entries : List Journal.Entry := []

namespace Course

/-- The course after a stage has begun. -/
def reach (course : Course) (milestone : Milestone) : Course :=
  { course with milestones := course.milestones ++ [milestone] }

/-- The course after the journal has been told something. -/
def tell (course : Course) (entries : List Journal.Entry) : Course :=
  { course with entries := course.entries ++ entries }

def perform (course : Course) (operations : List Files.Operation) : Course :=
  { course with machine := course.machine.perform operations }

end Course

/-! ## Stages -/

def readSettings (environment : Environment) : Except Failure Settings :=
  (Settings.ofEnvironment environment).mapError fun error =>
    .context "invalid configuration" error.failure

/-- How the journal of a run is shown. -/
structure Display where
  filter : Journal.Filter
  /-- Where the journal is kept as well. -/
  directory : Option String
  deriving DecidableEq, Repr

/-- The entries with which every journal begins. -/
def banner : List Journal.Entry :=
  let rule := "".pushn '=' 60
  [rule, "Embedding service starting", "Version: " ++ Settings.serviceVersion, "Platform: linux",
    rule].map fun text => ⟨.info, .logging, text⟩

/-- Makes the directory in which the journal is kept. -/
def makeJournalDirectory (directory : String) (course : Course) : Course × Except Failure Unit :=
  match course.machine.files.makeDirectories directory with
  | (operations, none) => (course.perform operations, .ok ())
  | (operations, some error) =>
    (course.perform operations,
      .error ⟨"failed creating log dir " ++ directory, [error.message]⟩)

def openJournal (settings : Settings) (course : Course) : Course × Except Failure Display :=
  let course := course.reach .openJournal
  match Journal.Filter.ofLine settings.logSpec with
  | .error defects => (course, .error (Journal.Filter.failure settings.logSpec defects))
  | .ok filter =>
    match settings.logDir with
    | none => (course.tell banner, .ok ⟨filter, none⟩)
    | some directory =>
      match makeJournalDirectory directory course with
      | (course, .error failure) => (course, .error failure)
      | (course, .ok ()) => (course.tell banner, .ok ⟨filter, some directory⟩)

/-- An entry that the program itself makes. -/
def note (text : String) : Journal.Entry :=
  ⟨.info, .program, text⟩

/-- What the journal is told of the source of a model. -/
def sourceNote (settings : Settings) : Model.Source → Journal.Entry
  | .local directory => note ("Model source: local (" ++ directory ++ ")")
  | .remote modelId =>
    note ("Model source: " ++ modelId ++ " fetched from " ++ settings.hubBase)

def findModel (settings : Settings) (hub : Hub) (course : Course) :
    Course × Except Failure Model.Resolved :=
  let announced := (course.reach .findModel).tell
    [note ("Model: " ++ settings.modelId ++ " (local dir " ++ settings.modelDir ++ ")")]
  let resolution := Model.resolve (.ofSettings settings) (·.files.store)
    (Hub.fetcher hub (.ofSettings settings)) announced.machine
  let course := { announced with machine := resolution.world }.tell resolution.entries
  match resolution.outcome with
  | .error error => (course, .error error.failure)
  | .ok resolved => (course.tell [sourceNote settings resolved.source], .ok resolved)

def endingOfFault : Fault → Ending
  | .failed failure => .failed failure
  | .crashed message => .crashed message

def loadModel (settings : Settings) (resolved : Model.Resolved) (course : Course) :
    Course × Except Ending (Encoder Number.Single) :=
  let model := Model.Descriptor.ofSettings settings
  let course := course.reach .loadModel
  let loading := Transformer.load course.machine.files resolved settings.maxTokens
    settings.expectedDimension
  let course := course.tell loading.entries
  match loading.outcome with
  | .error fault => (course, .error (endingOfFault (fault.fault model resolved.dir)))
  | .ok sentences =>
    let encoder := Encoder.ofModel model settings.batchSize sentences
    (course.tell [note ("Engine ready: " ++ encoder.modelId ++ " (" ++
      toString encoder.dimension ++ "D)")], .ok encoder)

/-- Finds the model, and loads it to serve it unless it was only to be fetched. -/
def obtain (mode : Mode) (settings : Settings) (hub : Hub) (course : Course) :
    Course × Except Ending (Service Number.Single) :=
  match findModel settings hub course with
  | (course, .error failure) => (course, .error (.failed failure))
  | (course, .ok resolved) =>
    if mode = .download then
      (course.tell [note ("Model ready at " ++ resolved.dir)], .error .done)
    else
      match loadModel settings resolved course with
      | (course, .error ending) => (course, .error ending)
      | (course, .ok encoder) =>
        (course, (Service.ofSettings settings encoder).mapError .crashed)

/-! ## Up to the loaded model -/

/-- A service that is ready to listen, with the settings that it was made of. -/
structure Ready where
  settings : Settings
  service : Service Number.Single

/-- What comes of the stages up to the loaded model. -/
structure Preparation where
  course : Course
  /-- How the journal is shown, once it is open. -/
  display : Option Display
  outcome : Except Ending Ready

/-- The preparation that ends before the journal is open. -/
def Preparation.early (course : Course) (ending : Ending) : Preparation :=
  ⟨course, none, .error ending⟩

/-- Takes the stages from the settings to the loaded model. -/
def configure (mode : Mode) (world : World) : Preparation :=
  let course : Course := { machine := { files := world.files }, milestones := [.readSettings] }
  match readSettings world.environment with
  | .error failure => .early course (.failed failure)
  | .ok settings =>
    match openJournal settings course with
    | (course, .error failure) => .early course (.failed failure)
    | (course, .ok display) =>
      match obtain mode settings world.hub course with
      | (course, .error ending) => ⟨course, some display, .error ending⟩
      | (course, .ok service) => ⟨course, some display, .ok ⟨settings, service⟩⟩

/-- Takes all stages up to the loaded model. -/
def prepare (arguments : List String) (world : World) : Preparation :=
  let course : Course := { machine := { files := world.files } }
  match Mode.ofArguments arguments with
  | .error argument => .early course (.misused argument)
  | .ok .help => .early course .helped
  | .ok mode => configure mode world

/-! ## The whole run -/

/-- The failure of a service that may not listen at its address. -/
def bindFailure (settings : Settings) (reason : String) : Failure :=
  ⟨"failed to bind " ++ settings.bindAddress, [reason]⟩

/-- What the journal is told when a service listens. -/
def listening (settings : Settings) : Journal.Entry :=
  ⟨.info, .server, "Embedding service listening on http://" ++ settings.bindAddress⟩

/-- What the journal is told when a service has to stop. -/
def stopping : Journal.Entry :=
  ⟨.info, .server, "Shutdown signal received, draining requests"⟩

/-- What the journal is told when a service has stopped. -/
def stopped : Journal.Entry :=
  note "=== Embedding service stopped ==="

/-- What comes of a run. -/
structure Run where
  course : Course
  display : Option Display
  ending : Ending
  /-- What was seen of the steps of the service. -/
  reports : List (Service.Report Number.Single)

/-- Lets a service that is ready listen, unless its address is refused for a reason, and take some
steps before it stops. -/
def attend (refusal : Option String) (steps : List Service.Step) (ready : Ready)
    (course : Course) : Course × Ending × List (Service.Report Number.Single) :=
  let course := course.reach .bind
  match refusal with
  | some reason => (course, .failed (bindFailure ready.settings reason), [])
  | none =>
    let reports := ready.service.run (.initial ready.service.permits) steps
    let told := (reports.map (·.events)).flatten.map (·.entry)
    ((course.reach .serve).tell (listening ready.settings :: told ++ [stopping, stopped]), .done,
      reports)

/-- A run of the program with some arguments. -/
def run (arguments : List String) (world : World) (refusal : Option String)
    (steps : List Service.Step) : Run :=
  let preparation := prepare arguments world
  match preparation.outcome with
  | .error ending => ⟨preparation.course, preparation.display, ending, []⟩
  | .ok ready =>
    let (course, ending, reports) := attend refusal steps ready preparation.course
    ⟨course, preparation.display, ending, reports⟩

/-- The lines of some entries that are shown; as long as the journal is not open, none is. -/
def shown (display : Option Display) (entries : List Journal.Entry) : List String :=
  match display with
  | none => []
  | some display => (entries.filter display.filter.admits).map (·.line)

namespace Run

/-- The lines of the journal that are shown, with what it is told of the ending. -/
def journal (run : Run) : List String :=
  shown run.display (run.course.entries ++ run.ending.entries)

/-- What is written besides the output. -/
def complaints (run : Run) : List String :=
  run.journal ++ run.ending.complaint.toList

/-- The machine after the journal has been kept. -/
def machine (run : Run) : Hub.Machine :=
  match run.display.bind (·.directory) with
  | none => run.course.machine
  | some directory =>
    run.course.machine.perform
      (Journal.Folder.keep run.course.machine.files directory run.journal)

end Run

end Startup

end TextVectors
