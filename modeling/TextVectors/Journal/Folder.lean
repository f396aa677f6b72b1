import TextVectors.Files

/-!
# The journal on disk

An operator may have the journal kept in a directory as well. The file of the
present run has a fixed name, and appears with the first line. A file of that
name from an earlier run is put aside then, under the number that follows those
of all files put aside before.
-/

namespace TextVectors

namespace Journal

namespace Folder

/-- The file of the present run. -/
def currentName : String := "embedding_service_rCURRENT.log"

/-- The front of the names of files put aside, before their numbers. -/
def front : String := "embedding_service_r"

/-- The end of the names of files put aside, behind their numbers. -/
def ending : String := ".log"

/-- How many digits a number has at least. -/
def width : Nat := 5

/-- The name of the file put aside under a number. -/
def oldName (number : Nat) : String :=
  let digits := toString number
  front ++ "".pushn '0' (width - digits.length) ++ digits ++ ending

/-- The number in the name of a file put aside. -/
def number? (name : String) : Option Nat :=
  let rest := name.toList.drop front.length
  let digits := rest.takeWhile Char.isDigit
  if name.startsWith front ∧ digits ≠ [] ∧ rest.drop digits.length = ending.toList then
    some (digits.foldl (fun value c => value * 10 + (c.toNat - '0'.toNat)) 0)
  else none

/-- The number that follows those in some names. -/
def nextNumber (names : List String) : Nat :=
  match (names.filterMap number?).max? with
  | some greatest => greatest + 1
  | none => 0

/-- The operations that put aside the file of an earlier run, if there is one, and begin a new
one. -/
def start (files : Files) (place : Place) : List Files.Operation :=
  let current := place ++ [currentName]
  let aside :=
    match files.node? current with
    | some (.file _) =>
      let names := (files.below place).map (·.1)
      [Files.Operation.rename current (place ++ [oldName (nextNumber names)])]
    | _ => []
  aside ++ [.create current]

/-- The operations that keep the lines of a run in a directory. -/
def keep (files : Files) (directory : String) (lines : List String) : List Files.Operation :=
  match lines, files.locate directory with
  | [], _ => []
  | _, .error _ => []
  | lines, .ok place =>
    let content := ("".intercalate (lines.map (· ++ "\n"))).toUTF8.toList
    start files place ++ [.fill (place ++ [currentName]) content]

end Folder

end Journal

end TextVectors
