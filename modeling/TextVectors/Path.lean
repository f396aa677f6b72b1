import TextVectors.Text.Split

/-!
# Paths

A path is a text; its parts are the names between slashes. Empty names and dots
mean nothing, except that a dot at the very front and the slash of an absolute
path are parts of their own. Two paths are the same if their parts are.
-/

namespace TextVectors

namespace Path

/-- Whether a path begins at the root. -/
def isAbsolute (path : String) : Bool :=
  path.toList.head? == some '/'

/-- The parts of a path. The root is the part `/`. -/
def parts (path : String) : List String :=
  let names := (Text.pieces '/' path.toList).map String.ofList
  let front :=
    if isAbsolute path then ["/"]
    else if names.head? == some "." then ["."]
    else []
  front ++ names.filter fun name => name ≠ "" && name ≠ "."

def ofParts : List String → String
  | "/" :: names => String.ofList ('/' :: ['/'].intercalate (names.map String.toList))
  | names => String.ofList (['/'].intercalate (names.map String.toList))

/-- Whether two texts are the same path. -/
def same (left right : String) : Bool :=
  parts left == parts right

/-- A name below a directory. An absolute name stands for itself. -/
def join (directory name : String) : String :=
  if isAbsolute name then name
  else if directory = "" ∨ directory.toList.getLast? = some '/' then directory ++ name
  else directory ++ "/" ++ name

/-- The last name of a path, if it is neither a dot nor a step upwards. -/
def fileName? (path : String) : Option String :=
  match (parts path).getLast? with
  | some name => if name = "/" ∨ name = "." ∨ name = ".." then none else some name
  | none => none

/-- What follows the last dot of the last name, if something stands before the dot. -/
def extension? (path : String) : Option String :=
  match fileName? path with
  | none => none
  | some name =>
    let reversed := name.toList.reverse
    let ending := reversed.takeWhile (· ≠ '.')
    let before := reversed.drop (ending.length + 1)
    if ending.length < reversed.length ∧ before ≠ [] then some (String.ofList ending.reverse)
    else none

end Path

end TextVectors
