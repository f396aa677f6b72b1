import TextVectors.Json.Tree
import TextVectors.Text.Quoted
import TextVectors.Weights.Basic

/-!
# Tensors behind a header

A file of tensors begins with the length of its header in eight bytes. The
header is a JSON object that gives each tensor an encoding, a shape, and the two
ends of its bytes in the rest of the file. The tensors must fill the rest
without gap or overlap, and each must have as many bytes as its shape and its
encoding ask for.
-/

namespace TextVectors

namespace Weights

/-- What is wrong with a header. -/
inductive HeaderError where
  | headerTooSmall
  | headerTooLarge
  | invalidHeaderLength
  | invalidHeader
  | invalidHeaderText
  | invalidOffset (name : String)
  | overflow
  | wrongSize
  | incomplete
  deriving DecidableEq, Repr

def HeaderError.message : HeaderError → String
  | .headerTooSmall => "HeaderTooSmall"
  | .headerTooLarge => "HeaderTooLarge"
  | .invalidHeaderLength => "InvalidHeaderLength"
  | .invalidHeader => "InvalidHeader"
  | .invalidHeaderText => "InvalidHeaderDeserialization"
  | .invalidOffset name => "InvalidOffset(" ++ Text.quoted name ++ ")"
  | .overflow => "ValidationOverflow"
  | .wrongSize => "TensorInvalidInfo"
  | .incomplete => "MetadataIncompleteBuffer"

/-- What a header says of a tensor. -/
structure Entry where
  encoding : Encoding
  shape : List Nat
  first : Nat
  last : Nat

namespace Entry

/-- The name of an encoding, alone or as the only member of an object. -/
private def encodingName? : Json.Tree → Option String
  | .text name => some name
  | .object [(name, .null)] => some name
  | _ => none

private def sizes? (tree : Json.Tree) : Option (List Nat) :=
  (tree.asItems >>= List.mapM Json.Tree.asSize).toOption

private def ofParts? (encoding shape ends : Json.Tree) : Option Entry := do
  let encoding ← encoding? (← encodingName? encoding)
  let shape ← sizes? shape
  match ← sizes? ends with
  | [first, last] => return ⟨encoding, shape, first, last⟩
  | _ => none

/-- The only member of a name. -/
private def only? (members : List (String × Json.Tree)) (name : String) : Option Json.Tree :=
  match members.filter (·.1 == name) with
  | [(_, value)] => some value
  | _ => none

/-- The entry of a tree. Members of other names mean nothing. -/
def ofTree? : Json.Tree → Option Entry
  | .object members => do
    ofParts? (← only? members "dtype") (← only? members "shape") (← only? members "data_offsets")
  | .list [encoding, shape, ends] => ofParts? encoding shape ends
  | _ => none

/-- Whether an entry stands before another or beside it. -/
def notAfter (left right : String × Entry) : Bool :=
  left.2.first < right.2.first ||
    (left.2.first == right.2.first && left.2.last ≤ right.2.last)

end Entry

/-- The member for remarks, which are texts. -/
def remarksKey : String := "__metadata__"

private def isRemarks : Json.Tree → Bool
  | .null => true
  | .object members => members.all fun (_, value) => value.asText.toBool
  | _ => false

/-- The last member of each name. -/
private def latest : List (String × Entry) → List (String × Entry)
  | [] => []
  | entry :: entries =>
    if entries.any (·.1 == entry.1) then latest entries else entry :: latest entries

/-- The entries of a header in the order of their bytes. -/
def entriesOf? (header : Json.Tree) : Option (List (String × Entry)) := do
  let members ← header.asMembers.toOption
  let (remarks, tensors) := members.partition (·.1 == remarksKey)
  guard (remarks.length ≤ 1 && remarks.all fun (_, value) => isRemarks value)
  let entries ← tensors.mapM fun (name, value) => do return (name, ← Entry.ofTree? value)
  return (latest entries).mergeSort Entry.notAfter

def longestHeader : Nat := 100000000

/-- The least number that does not fit a size. -/
private def sizeLimit : Nat := Nat.pow 2 64

/-- The bytes that a shape takes in an encoding, if all products on the way fit a size. -/
def byteCount? (encoding : Encoding) (shape : List Nat) : Option Nat := do
  let fits (value : Nat) : Option Nat := if value < sizeLimit then some value else none
  let count ← shape.foldlM (fun product length => fits (product * length)) 1
  fits (count * encoding.size)

/-- Checks entries of which the first must begin at a place; gives the place after the last. -/
def checkEntries : Nat → List (String × Entry) → Except HeaderError Nat
  | place, [] => .ok place
  | place, (name, entry) :: entries =>
    -- There is no gap between tensors, and they do not overlap.
    if entry.first ≠ place ∨ entry.last < entry.first then .error (.invalidOffset name)
    else
      match byteCount? entry.encoding entry.shape with
      | none => .error .overflow
      | some count =>
        if entry.last - entry.first ≠ count then .error .wrongSize
        else checkEntries entry.last entries

/-- The entries of a file and the bytes behind its header. -/
def readHeader (file : List UInt8) :
    Except HeaderError (List (String × Entry) × List UInt8) := do
  let some (length, rest) := Number.takeWord 8 file | throw .headerTooSmall
  if longestHeader < length then throw .headerTooLarge
  if rest.length < length then throw .invalidHeaderLength
  let some text := String.fromUTF8? (rest.take length).toByteArray | throw .invalidHeader
  let .ok header := Json.readWhole (Json.tree Json.greatestDepth) text.toUTF8.toList
    | throw .invalidHeaderText
  let some entries := entriesOf? header | throw .invalidHeaderText
  let last ← checkEntries 0 entries
  let data := rest.drop length
  if last ≠ data.length then throw .incomplete
  return (entries, data)

/-- The tensors of a file. -/
def ofHeaded (file : List UInt8) : Except HeaderError Weights := do
  let (entries, data) ← readHeader file
  return entries.map fun (name, entry) =>
    let numbers :=
      entry.encoding.read (Tensor.size entry.shape)
        ((data.drop entry.first).take (entry.last - entry.first))
    (name, numbers.map fun numbers => ⟨entry.shape, numbers⟩)

end Weights

end TextVectors
