import TextVectors.Model.Source

/-!
# A sample world

A world of paths without contents, and a fetcher that gives a fixed directory or
fails like a hub that cannot be reached. The world counts the fetches.
-/

namespace TextVectors

namespace Sample

/-- Directories and files by their paths, and the number of fetches so far. -/
structure World where
  dirs : List String := []
  files : List String := []
  fetches : Nat := 0
  deriving DecidableEq, Repr

namespace World

/-- Adds a path unless it is there already. -/
private def add (paths : List String) (path : String) : List String :=
  if paths.any (Path.same path) then paths else paths ++ [path]

/-- The world with more directories and files. -/
def insert (world : World) (dirs files : List String) : World :=
  { world with dirs := dirs.foldl add world.dirs, files := files.foldl add world.files }

/-- The world without the paths that are written like one of the given texts. -/
def erase (world : World) (texts : List String) : World :=
  { world with
    dirs := world.dirs.filter (!texts.contains ·)
    files := world.files.filter (!texts.contains ·) }

def store (world : World) : Model.Store where
  isDir path := world.dirs.any (Path.same path)
  isFile path := world.files.any (Path.same path)

/-- Gives a fixed directory, or fails. -/
def fetcher (directory : Option String) : Model.Fetcher World := fun _ _ world =>
  let world := { world with fetches := world.fetches + 1 }
  match directory with
  | some directory => ⟨.ok directory, world, []⟩
  | none => ⟨.error ⟨"network unreachable", []⟩, world, []⟩

end World

end Sample

end TextVectors
