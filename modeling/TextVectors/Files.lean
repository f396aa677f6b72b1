import TextVectors.Model.Source
import TextVectors.Path

/-!
# Files

The files of a machine: directories and files with their contents, each at a
place, which is a list of names from the root. There are no links, so a place is
reached by one list of names only. The root is always a directory.

A path leads to a place from the root or from the working directory. Every
directory on the way must exist; the place itself need not. Files change by four
operations: making a directory, creating an empty file, filling a file, and
renaming one, which replaces what was there in one step. A machine may refuse
them for what stands at the places; but filling a file that is there never
fails, as if there were always room for its content.
-/

namespace TextVectors

/-- Why the machine refuses an operation. -/
inductive FileError where
  | notFound
  | exists
  | notDirectory
  | isDirectory
  | nameTooLong
  deriving DecidableEq, Repr

/-- The wording of a refusal, with its number. -/
def FileError.message : FileError → String
  | .notFound => "No such file or directory (os error 2)"
  | .exists => "File exists (os error 17)"
  | .notDirectory => "Not a directory (os error 20)"
  | .isDirectory => "Is a directory (os error 21)"
  | .nameTooLong => "File name too long (os error 36)"

/-- Names from the root. -/
abbrev Place := List String

/-- What stands at a place. -/
inductive Node where
  | directory
  | file (content : List UInt8)
  deriving DecidableEq, Repr

/-- The files of a machine, and the directory that relative paths start from. -/
structure Files where
  nodes : List (Place × Node)
  current : Place
  deriving DecidableEq, Repr

namespace Files

/-- What stands at a place. -/
def node? (files : Files) (place : Place) : Option Node :=
  if place = [] then some .directory else files.nodes.lookup place

/-- Puts something at a place, instead of what may be there. -/
def put (files : Files) (place : Place) (node : Node) : Files :=
  { files with nodes := (place, node) :: files.nodes.filter (·.1 ≠ place) }

/-- Leaves nothing at a place. -/
def erase (files : Files) (place : Place) : Files :=
  { files with nodes := files.nodes.filter (·.1 ≠ place) }

/-! ## Operations -/

/-- A change of the files. -/
inductive Operation where
  | makeDirectory (place : Place)
  | create (place : Place)
  | fill (place : Place) (content : List UInt8)
  | rename (source target : Place)
  deriving DecidableEq, Repr

/-- The files after an operation that is not refused. -/
def apply (files : Files) : Operation → Files
  | .makeDirectory place => files.put place .directory
  | .create place => files.put place (.file [])
  | .fill place content => files.put place (.file content)
  | .rename source target =>
    match files.node? source with
    | some node => (files.erase source).put target node
    | none => files

/-- The files after some operations. -/
def applyAll (files : Files) (operations : List Operation) : Files :=
  operations.foldl apply files

/-! ## Paths -/

/-- The longest name, in bytes. -/
def longestName : Nat := 255

/-- Follows names from a place. -/
def walk (files : Files) : Place → List String → Except FileError Place
  | here, [] => .ok here
  | here, name :: rest =>
    match files.node? here with
    | none => .error .notFound
    | some (.file _) => .error .notDirectory
    | some .directory =>
      -- Above the root is the root.
      if name = ".." then files.walk here.dropLast rest
      else if longestName < name.utf8ByteSize then .error .nameTooLong
      else files.walk (here ++ [name]) rest

/-- The place that a path leads to. -/
def locate (files : Files) (path : String) : Except FileError Place :=
  match Path.parts path with
  | [] => .error .notFound
  | "/" :: names => files.walk [] names
  | "." :: names => files.walk files.current names
  | names => files.walk files.current names

/-- What a path leads to. -/
def find? (files : Files) (path : String) : Option Node :=
  match files.locate path with
  | .ok place => files.node? place
  | .error _ => none

/-- Whether a path leads to a directory. -/
def isDir (files : Files) (path : String) : Bool :=
  files.find? path == some .directory

/-- Whether a path leads to a file. -/
def isFile (files : Files) (path : String) : Bool :=
  match files.find? path with
  | some (.file _) => true
  | _ => false

/-- The view that a model is looked for in. -/
def store (files : Files) : Model.Store where
  isDir := files.isDir
  isFile := files.isFile

/-- The content of the file that a path leads to. -/
def read (files : Files) (path : String) : Except FileError (List UInt8) := do
  match files.node? (← files.locate path) with
  | none => throw .notFound
  | some .directory => throw .isDirectory
  | some (.file content) => return content

/-- The text of the file that a path leads to. -/
def readText (files : Files) (path : String) : Except String String := do
  let content ← (files.read path).mapError (·.message)
  match String.fromUTF8? content.toByteArray with
  | some text => return text
  | none => throw "stream did not contain valid UTF-8"

/-! ## Operations on paths -/

/-- The operation that makes one directory. -/
def makeDirectory (files : Files) (path : String) : Except FileError Operation := do
  let place ← files.locate path
  if (files.node? place).isSome then throw .exists else return .makeDirectory place

/-- The place at which an empty file can be created, or a file can be emptied. -/
def creatable (files : Files) (path : String) : Except FileError Place := do
  let place ← files.locate path
  if files.node? place = some .directory then throw .isDirectory else return place

/-- The operation that moves a file to a path. -/
def rename (files : Files) (source target : String) : Except FileError Operation := do
  let source ← files.locate source
  let target ← files.locate target
  match files.node? source, files.node? target with
  | none, _ => throw .notFound
  | some (.file _), some .directory => throw .isDirectory
  | some .directory, some (.file _) => throw .notDirectory
  | some _, _ => return .rename source target

/-- The operations that make a directory and those above it that are missing, and the refusal that
ends them, if any. The names of the path are given from the last one on; for no names there is
nothing to make. -/
def makeAll (files : Files) (path : List String → String) :
    List String → List Operation × Option FileError
  | [] => ([], none)
  | name :: above =>
    match files.makeDirectory (path (name :: above)) with
    | .ok operation => ([operation], none)
    | .error .notFound =>
      match files.makeAll path above with
      | (operations, some error) => (operations, some error)
      | (operations, none) =>
        let files := files.applyAll operations
        match files.makeDirectory (path (name :: above)) with
        | .ok operation => (operations ++ [operation], none)
        | .error error =>
          (operations, if files.isDir (path (name :: above)) then none else some error)
    -- A directory that is there already need not be made.
    | .error error => ([], if files.isDir (path (name :: above)) then none else some error)

/-- The operations that make the directory of a path with all that is missing above it. -/
def makeDirectories (files : Files) (path : String) : List Operation × Option FileError :=
  files.makeAll (fun names => Path.ofParts names.reverse) (Path.parts path).reverse

/-! ## Listings -/

/-- The files and directories below a place, with their names from there on. -/
def below (files : Files) (place : Place) : List (String × Node) :=
  files.nodes.filterMap fun (other, node) =>
    if place.isPrefixOf other && place.length < other.length then
      some ("/".intercalate (other.drop place.length), node)
    else none

end Files

end TextVectors
