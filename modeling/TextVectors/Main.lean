import Std.Async
import Std.Http.Server
import TextVectors.Hub.Wire
import TextVectors.Startup

/-!
# The command line

The program as a process: what it reads of its machine, and what it does to it.
Every decision is made by `Startup` and `Service`; here files are looked at and
changed, requests are sent to the hub, and requests are taken and answered.

The hub of `Startup` is a function, so a run up to the loaded model is computed
with the answers that the hub has given so far. If it then asks for more, the
next request is sent, and the run is computed again with one answer more.
-/

namespace TextVectors

namespace Command

open Startup

/-! ## Files -/

/-- What stands at a place of the machine. -/
def look (place : Place) : IO (Option Node) := do
  match ← (IO.FS.readBinFile ("/" ++ "/".intercalate place)).toBaseIO with
  | .ok content => return some (.file content.toList)
  | .error (.inappropriateType ..) => return some .directory
  | .error _ => return none

/-- The place that a path leads to from a place if all that it names is there. -/
def placeOf (current : Place) (path : String) : Place :=
  (Path.parts path).foldl
    (fun place name =>
      if name = "/" then []
      else if name = "." then place
      else if name = ".." then place.dropLast
      else place ++ [name])
    current

/-- The paths below the directory of a model that matter. -/
def modelPaths (directory : String) : List String :=
  let files := [Model.configFile, Model.tokenizerFile, Model.poolingFile] ++ Model.weightFiles
  directory :: Path.join directory Hub.poolingDirectory ::
    files.flatMap fun file => [Path.join directory file, Path.join directory file ++ ".tmp"]

/-- What stands at some paths of the machine and above them. -/
def survey (paths : List String) : IO Files := do
  let current := placeOf [] (toString (← IO.currentDir))
  let mut files : Files := ⟨[], current⟩
  for path in "." :: paths do
    let place := placeOf current path
    for count in List.range (place.length + 1) do
      let here := place.take count
      if (files.node? here).isNone then
        if let some node ← look here then files := files.put here node
  return files

/-- The files that matter to a run with some settings. -/
def surveyFor (settings : Settings) : IO Files :=
  survey (modelPaths settings.modelDir ++ settings.logDir.toList)

/-- Whether a file can be opened. -/
def isThere (path : String) : IO Bool := do
  match ← (IO.FS.Handle.mk path .read).toBaseIO with
  | .ok _ => return true
  | .error _ => return false

/-- How many files of the journal that were put aside are looked for. -/
def asideLimit : Nat := 1000

/-- The files of the journal in a directory, without their contents. -/
def surveyJournal (directory : String) : IO Files := do
  let files ← survey [directory]
  let place := placeOf files.current directory
  let names := Journal.Folder.currentName :: (List.range asideLimit).map Journal.Folder.oldName
  let present ← names.filterM fun name => isThere (Path.join directory name)
  return present.foldl (fun files name => files.put (place ++ [name]) (.file [])) files

def perform (operation : Files.Operation) : IO Unit :=
  let pathOf (place : Place) : String := "/" ++ "/".intercalate place
  match operation with
  | .makeDirectory place => IO.FS.createDir (pathOf place)
  | .create place => IO.FS.writeBinFile (pathOf place) .empty
  | .fill place content => IO.FS.writeBinFile (pathOf place) content.toByteArray
  | .rename source target => IO.FS.rename (pathOf source) (pathOf target)

/-! ## The network -/

/-- What the machine calls the faults of its network, by their numbers. -/
def networkFaults : List (Nat × String) := [
  (13, "Permission denied"), (98, "Address already in use"),
  (99, "Cannot assign requested address"), (101, "Network is unreachable"),
  (104, "Connection reset by peer"), (110, "Connection timed out"), (111, "Connection refused"),
  (113, "No route to host")]

/-- The number of a fault of the machine. -/
def faultNumber? : IO.Error → Option Nat
  | .resourceBusy code _ | .resourceVanished code _ | .unsupportedOperation code _
  | .otherError code _ | .protocolError code _ | .timeExpired code _
  | .noSuchThing _ code _ | .permissionDenied _ code _ | .resourceExhausted _ code _
  | .invalidArgument _ code _ | .illegalOperation code _ =>
    some (if code.toNat < Nat.pow 2 31 then code.toNat else Nat.pow 2 32 - code.toNat)
  | _ => none

/-- The wording of a fault of the network. -/
def networkReason (error : IO.Error) : String :=
  match faultNumber? error with
  | none => toString error
  | some number =>
    match networkFaults.lookup number with
    | some name => name ++ " (os error " ++ toString number ++ ")"
    | none => toString error

/-- An address with a port, as the machine takes it. -/
def socketAddress (address : Address) (port : Nat) : Std.Net.SocketAddress :=
  match address with
  | .v4 octets =>
    let part (index : Nat) : UInt8 := (octets.getD index 0).toUInt8
    .v4 ⟨.ofParts (part 0) (part 1) (part 2) (part 3), port.toUInt16⟩
  | .v6 groups =>
    let part (index : Nat) : UInt16 := (groups.getD index 0).toUInt16
    .v6 ⟨.ofParts (part 0) (part 1) (part 2) (part 3) (part 4) (part 5) (part 6) (part 7),
      port.toUInt16⟩

def addressesOf (host : String) (port : Nat) : Std.Async.Async (List Std.Net.SocketAddress) := do
  let literal := String.ofList (host.toList.filter fun c => c ≠ '[' && c ≠ ']')
  match Address.ofString? literal with
  | some address => return [socketAddress address port]
  | none =>
    let found ← Std.Async.DNS.getAddrInfo host (toString port)
    return found.toList.map fun
      | .v4 address => .v4 ⟨address, port.toUInt16⟩
      | .v6 address => .v6 ⟨address, port.toUInt16⟩

/-- The bytes that come from a connection until it is closed. -/
partial def receive (client : Std.Async.TCP.Socket.Client) (sofar : ByteArray) :
    Std.Async.Async ByteArray := do
  match ← client.recv? 65536 with
  | some bytes => receive client (sofar ++ bytes)
  | none => return sofar

/-- Sends a request to the hub and reads the answer. -/
def ask (request : Hub.Request) : IO Hub.Response := do
  if request.url.scheme ≠ "http" then
    return .unreachable "Connection Failed: Connect error" "no secure connections on this machine"
  let port := request.url.port.getD 80
  match ← (addressesOf request.url.host port).block.toBaseIO with
  | .error error =>
    return .unreachable
      ("Dns Failed: resolve dns name '" ++ request.url.host ++ ":" ++ toString port ++ "'")
      ("failed to lookup address information: " ++ toString error)
  | .ok [] => return .unreachable "Dns Failed" "No ip address"
  | .ok (address :: _) =>
    let client ← Std.Async.TCP.Socket.Client.mk
    match ← (client.connect address).block.toBaseIO with
    | .error error =>
      return .unreachable "Connection Failed: Connect error" (networkReason error)
    | .ok () =>
      let exchanged := do
        client.send request.bytes.toByteArray
        receive client .empty
      match ← exchanged.block.toBaseIO with
      | .error error => return .unreachable "Network Error" (networkReason error)
      | .ok bytes => return .ofBytes bytes.toList

/-! ## The journal -/

/-- Where the journal of this process goes. -/
structure Journalist where
  display : Option Display
  /-- The file in which the journal is kept, once it has been begun. -/
  file : IO.Ref (Option IO.FS.Handle)

/-- The file in which the journal is kept; it is begun if it is not there. -/
def Journalist.open? (journalist : Journalist) : IO (Option IO.FS.Handle) := do
  match ← journalist.file.get, journalist.display.bind (·.directory) with
  | some handle, _ => return some handle
  | none, none => return none
  | none, some directory =>
    let files ← surveyJournal directory
    (Journal.Folder.start files (placeOf files.current directory)).forM perform
    let handle ← IO.FS.Handle.mk (Path.join directory Journal.Folder.currentName) .append
    journalist.file.set (some handle)
    return some handle

/-- Shows some entries. -/
def Journalist.tell (journalist : Journalist) (entries : List Journal.Entry) : IO Unit := do
  for line in shown journalist.display entries do
    IO.eprintln line
    if let some handle ← journalist.open? then
      handle.putStrLn line
      handle.flush

/-! ## The run -/

/-- What of a preparation has been carried out. -/
structure Carried where
  operations : Nat
  entries : Nat

/-- Carries out what is new in a preparation. -/
def carryOut (preparation : Preparation) (file : IO.Ref (Option IO.FS.Handle))
    (carried : Carried) : IO Carried := do
  let course := preparation.course
  (course.machine.operations.drop carried.operations).forM perform
  (Journalist.mk preparation.display file).tell (course.entries.drop carried.entries)
  return ⟨course.machine.operations.length, course.entries.length⟩

/-- Prepares a run with the answers that the hub has given so far, and asks it for more as long as
there is more to ask. -/
partial def prepareWith (arguments : List String) (environment : Environment) (files : Files)
    (file : IO.Ref (Option IO.FS.Handle)) (answers : Array Hub.Response) (carried : Carried) :
    IO Preparation := do
  let hub : Hub := fun earlier _ => answers.getD earlier.length (.unreachable "" "")
  let preparation := prepare arguments ⟨environment, files, hub⟩
  let carried ← carryOut preparation file carried
  match preparation.course.machine.requests[answers.size]? with
  | none => return preparation
  | some request =>
    let answer ← ask request
    prepareWith arguments environment files file (answers.push answer) carried

/-- A request as it arrives from the network. Of a body that is too long only so much is kept that
it still is. -/
def arrived (maxBodyBytes : Nat) (request : Std.Http.Request Std.Http.Body.Stream) :
    Std.Async.ContextAsync Service.Request := do
  let limit := min (maxBodyBytes + 1) (Nat.pow 2 40)
  let tooLong := List.replicate limit 0
  let body : List UInt8 ←
    try
      let bytes : ByteArray ← request.body.readAll (some (limit - 1).toUInt64)
      pure bytes.toList
    catch _ => pure tooLong
  return {
    method := toString request.line.method
    target := toString request.line.uri
    headers := request.line.headers.toList.map fun (name, value) =>
      (name.value, value.value.toUTF8.toList)
    body }

/-- An answer as it goes to the network. -/
def sent (answer : Service.Answer Number.Single) :
    Std.Async.ContextAsync (Std.Http.Response Std.Http.Body.Any) := do
  let status := (Std.Http.Status.ofCode none answer.status.toUInt16).getD .internalServerError
  let response := Std.Http.Response.new.status status
  let response :=
    match answer.contentType with
    | some media => response.header! "Content-Type" media
    | none => response
  let response :=
    match answer.allow with
    | some methods => response.header! "Allow" methods
    | none => response
  let full ← response.fromBytes answer.body.toUTF8
  return full

/-- Answers requests one after another, and tells the journal how long each has taken. -/
def answering (ready : Ready) (journalist : Journalist) (turn : Std.Mutex Service.State) :
    Std.Http.Server.StatelessHandler :=
  Std.Http.Server.Handler.ofFn fun request => do
    let request ← arrived ready.settings.maxBodyBytes request
    let answer ← turn.atomically do
      let began ← IO.monoMsNow
      let outcome := ready.service.handle (← get) request
      set outcome.state.forget
      let ended ← IO.monoMsNow
      let events := outcome.events.map fun
        | .encoded count _ => Service.Event.encoded count (ended - began)
        | event => event
      journalist.tell (events.map (·.entry))
      return outcome.answer
    sent answer

def waitForSignal : Std.Async.Async Unit := do
  let interrupt ← Std.Async.Signal.Waiter.mk .sigint false
  let terminate ← Std.Async.Signal.Waiter.mk .sigterm false
  Std.Async.Selectable.one #[
    .case interrupt.selector pure,
    .case terminate.selector pure]

/-- Listens, and answers requests until the process is told to stop. -/
def serve (ready : Ready) (journalist : Journalist) : IO Ending := do
  let settings := ready.settings
  let turn ← Std.Mutex.new (Service.State.initial ready.service.permits)
  let server := Std.Http.Server.serve (socketAddress settings.host settings.port)
    (answering ready journalist turn) {
      maxBodySize := Nat.pow 2 40
      serverName := none }
  match ← server.block.toBaseIO with
  | .error error => return .failed (bindFailure settings (networkReason error))
  | .ok server =>
    journalist.tell [listening settings]
    waitForSignal.block
    journalist.tell [stopping]
    server.shutdownAndWait.block
    journalist.tell [stopped]
    return .done

/-- Runs the program and gives its exit code. -/
def run (arguments : List String) : IO UInt32 := do
  let set ← Settings.keys.filterMapM fun key => do
    return (← IO.getEnv key).map (key, ·)
  let environment : Environment := fun key => set.lookup key
  let files ← match Mode.ofArguments arguments, Settings.ofEnvironment environment with
    | .ok .help, _ | .error _, _ | _, .error _ => pure ⟨[], []⟩
    | _, .ok settings => surveyFor settings
  let file ← IO.mkRef none
  let preparation ← prepareWith arguments environment files file #[] ⟨0, 0⟩
  let journalist : Journalist := ⟨preparation.display, file⟩
  let ending ← match preparation.outcome with
    | .error ending => pure ending
    | .ok ready => serve ready journalist
  journalist.tell ending.entries
  if let some text := ending.output then IO.println text
  if let some text := ending.complaint then IO.eprintln text
  return ending.code.toUInt32

end Command

end TextVectors

def main (arguments : List String) : IO UInt32 :=
  TextVectors.Command.run arguments
