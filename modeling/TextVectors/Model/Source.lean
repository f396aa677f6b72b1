import TextVectors.Failure
import TextVectors.Journal
import TextVectors.Path
import TextVectors.Settings

/-!
# Where a model comes from

A model is described by its identifier, its local directory and the names that
its weights may have. The local directory is used iff it holds at least one of
them; otherwise the model is fetched, once, and must then be found where the
fetch says. A fetch that fails or leaves no weights is an error.

Files are seen through a `Store`. What a fetch does to the world is left open:
a `Fetcher` turns one world into another, and a world has a store.
-/

namespace TextVectors

namespace Model

/-- The model to serve. -/
structure Descriptor where
  modelId : String
  localDir : String
  /-- The names that the weights may have, the preferred one first. -/
  weightFiles : List String
  /-- The number of components that the model must have, if it is pinned. -/
  expectedDimension : Option Nat
  deriving DecidableEq, Repr

def Descriptor.ofSettings (settings : Settings) : Descriptor where
  modelId := settings.modelId
  localDir := settings.modelDir
  weightFiles := Model.weightFiles
  expectedDimension := settings.expectedDimension

/-- Where a model is taken from: a directory, or the hub under an identifier. -/
inductive Source where
  | local (directory : String)
  | remote (modelId : String)
  deriving DecidableEq, Repr

/-- A source as it stands in the journal. -/
def Source.text : Source → String
  | .local directory => "Local(" ++ Text.quoted directory ++ ")"
  | .remote modelId => "Remote(" ++ Text.quoted modelId ++ ")"

/-- A view of files. -/
structure Store where
  isDir : String → Bool
  isFile : String → Bool

/-- The weights in a directory: the first of the names that is a file there. -/
def Store.findWeights (store : Store) (directory : String) (names : List String) : Option String :=
  if store.isDir directory then
    (names.map (Path.join directory)).find? fun path => store.isFile path
  else none

/-- The source of a model, and what the journal tells of the choice. -/
def Store.select (store : Store) (model : Descriptor) : Source × List Journal.Entry :=
  if !store.isDir model.localDir then
    (.remote model.modelId,
      [⟨.info, .resolver, "Model dir " ++ model.localDir ++ " does not exist"⟩])
  else
    match store.findWeights model.localDir model.weightFiles with
    | some _ => (.local model.localDir, [])
    | none =>
      (.remote model.modelId,
        [⟨.warn, .resolver, "Model dir " ++ model.localDir ++ " is incomplete (none of " ++
          Text.quotedList model.weightFiles ++ " present)"⟩])

/-- What a fetch comes to: the directory that now holds the model, the world afterwards, and what
the journal tells. -/
structure Fetched (ω : Type) where
  outcome : Except Failure String
  world : ω
  entries : List Journal.Entry

/-- A way to fetch the model of an identifier into a directory. -/
abbrev Fetcher (ω : Type) := String → String → ω → Fetched ω

/-- A model whose files are in place. -/
structure Resolved where
  source : Source
  dir : String
  weights : String
  deriving DecidableEq, Repr

/-- Why a model could not be found. -/
inductive ResolveError where
  | fetch (modelId : String) (cause : Failure)
  | noWeights (directory : String) (names : List String)
  deriving DecidableEq, Repr

def ResolveError.failure : ResolveError → Failure
  | .fetch modelId cause => Failure.context ("failed to fetch model " ++ modelId) cause
  | .noWeights directory names =>
    ⟨"model dir " ++ directory ++ " has no weight artifact after resolution (expected one of " ++
      Text.quotedList names ++ ")", []⟩

/-- What a resolution comes to. -/
structure Resolution (ω : Type) where
  outcome : Except ResolveError Resolved
  world : ω
  entries : List Journal.Entry

/-- Looks for the weights in a directory that should hold them. -/
def locate (model : Descriptor) (store : Store) (source : Source) (directory : String) :
    Except ResolveError Resolved × List Journal.Entry :=
  match store.findWeights directory model.weightFiles with
  | none => (.error (.noWeights directory model.weightFiles), [])
  | some weights =>
    (.ok ⟨source, directory, weights⟩,
      [⟨.info, .resolver, "Resolved model " ++ model.modelId ++ " (" ++ source.text ++
        "), weights " ++ weights⟩])

variable {ω : Type}

/-- Finds a model, fetching it if its local directory is not complete. -/
def resolve (model : Descriptor) (view : ω → Store) (fetch : Fetcher ω) (world : ω) :
    Resolution ω :=
  let (source, selection) := (view world).select model
  match source with
  | .local directory =>
    let (outcome, located) := locate model (view world) source directory
    ⟨outcome, world,
      selection ++ ⟨.info, .resolver, "Using local model at " ++ directory⟩ :: located⟩
  | .remote modelId =>
    let announced : Journal.Entry :=
      ⟨.info, .resolver, "Fetching model " ++ modelId ++ " into " ++ model.localDir⟩
    let fetched := fetch modelId model.localDir world
    match fetched.outcome with
    | .error cause =>
      ⟨.error (.fetch modelId cause), fetched.world, selection ++ announced :: fetched.entries⟩
    | .ok directory =>
      let (outcome, located) := locate model (view fetched.world) source directory
      ⟨outcome, fetched.world, selection ++ announced :: fetched.entries ++ located⟩

end Model

end TextVectors
