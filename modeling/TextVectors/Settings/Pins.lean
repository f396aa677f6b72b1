import TextVectors.Failure
import TextVectors.Model.Artifacts
import TextVectors.Number.Hexadecimal
import TextVectors.Text.Blank
import TextVectors.Text.Quoted
import TextVectors.Text.Split

/-!
# Pinned digests

An operator may pin the weight files of a model: each pin gives the SHA-256 that
a recognized weight file must have. Pins are written as pieces `file=digest`
between commas. Blank pieces are skipped, spaces around a piece, a name and a
digest mean nothing, and digests may be given in either case; they are kept in
lower case. Reading goes from left to right and stops at the first bad piece.
-/

namespace TextVectors

/-- Weight files with the digests they must have, in increasing order of the names. -/
abbrev Pins := List (String × String)

namespace Pins

/-- What is wrong with a list of pins. -/
inductive Error where
  | notPair (piece : String)
  | unknownFile (file : String)
  | badDigest (file : String)
  | pinnedTwice (file : String)
  deriving DecidableEq, Repr

def Error.message : Error → String
  | .notPair piece =>
    "expected file=sha256 pairs (e.g. model.safetensors=<hex>), got " ++ Text.quoted piece
  | .unknownFile file =>
    Text.quoted file ++ " is not one of " ++ Text.quotedList Model.weightFiles
  | .badDigest file => "digest for " ++ file ++ " must be 64 hex characters"
  | .pinnedTwice file => file ++ " is pinned twice"

/-- Whether a digest has sixty-four hexadecimal digits. -/
def isDigest (digest : List Char) : Bool :=
  digest.length == 64 && digest.all Number.isHexDigit

/-- Adds a pin at its place in the order of the names. -/
def insert (file digest : String) : Pins → Pins
  | [] => [(file, digest)]
  | pin :: rest =>
    if file < pin.1 then (file, digest) :: pin :: rest else pin :: insert file digest rest

/-- The digest that a file must have, if it is pinned. -/
def digest? (pins : Pins) (file : String) : Option String :=
  pins.lookup file

/-- Reads one piece that is not blank. -/
def readPiece (pins : Pins) (piece : List Char) : Except Error Pins :=
  match Text.cut '=' piece with
  | none => .error (.notPair (String.ofList piece))
  | some (left, right) =>
    let file := String.ofList (Text.trimList left)
    let digest := (Text.trimList right).map Char.toLower
    if ¬ file ∈ Model.weightFiles then .error (.unknownFile file)
    else if !isDigest digest then .error (.badDigest file)
    else if (pins.digest? file).isSome then .error (.pinnedTwice file)
    else .ok (pins.insert file (String.ofList digest))

/-- Reads the pieces of a list of pins. -/
def ofString (text : String) : Except Error Pins :=
  ((Text.pieces ',' text.toList).map Text.trimList).filter (!·.isEmpty) |>.foldlM readPiece []

end Pins

end TextVectors
