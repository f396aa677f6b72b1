import TextVectors.Json.Lexeme
import TextVectors.Number.Single

/-!
# Readers of typed values

Readers for texts, truth values, numbers, lists and records. A record is written
as an object, whose unknown members are passed over, or as a list of its fields
in order. A value of another kind is described in the message; a scalar is read
to its end first, so that a malformed one is reported as such.

A record with a defect of its own, such as a missing field, is reported where
reading would go on, that is after its closing bracket if that comes next.
-/

namespace TextVectors

namespace Json

/-- The defect of a value that is not of the expected kind, at whose first byte the text stands. -/
def wrongKind {α : Type} (expected : String) : List UInt8 → Except Defect α
  | [] => Defect.before .endInValue []
  | byte :: rest =>
    let scalar (found : String) (rest : List UInt8) : Except Defect α :=
      Defect.before (.wrongKind found expected) rest
    if byte = 0x6E then do scalar "null" (← literal nullRest rest)
    else if byte = 0x74 then do scalar "boolean `true`" (← literal trueRest rest)
    else if byte = 0x66 then do scalar "boolean `false`" (← literal falseRest rest)
    else if beginsNumber byte then do
      let (numeral, rest) ← number (byte :: rest)
      scalar numeral.found rest
    else if byte = 0x22 then do
      let (text, rest) ← stringRest rest
      scalar ("string " ++ Text.quoted text) rest
    else if byte = 0x5B then scalar "sequence" (byte :: rest)
    else if byte = 0x7B then scalar "map" (byte :: rest)
    else Defect.at .expectedValue (byte :: rest)

def string : Reader String := fun bytes =>
  match skipBlanks bytes with
  | 0x22 :: rest => stringRest rest
  | bytes => wrongKind "a string" bytes

/-- Reads a truth value. -/
def boolean : Reader Bool := fun bytes =>
  match skipBlanks bytes with
  | 0x74 :: rest => (literal trueRest rest).map (true, ·)
  | 0x66 :: rest => (literal falseRest rest).map (false, ·)
  | bytes => wrongKind "a boolean" bytes

/-- Reads a number. -/
def numeral (expected : String) : Reader Numeral := fun bytes =>
  match skipBlanks bytes with
  | [] => Defect.before .endInValue []
  | byte :: rest =>
    if beginsNumber byte then number (byte :: rest) else wrongKind expected (byte :: rest)

/-- A natural number, which must be less than a bound. -/
def Numeral.naturalBelow (bound : Nat) (expected : String) : Numeral → Except Fault Nat
  | .natural value =>
    if value < bound then .ok value
    else .error (.wrongValue (Numeral.natural value).found expected)
  | .opposite value => .error (.wrongValue (Numeral.opposite value).found expected)
  | .real value => .error (.wrongKind (Numeral.real value).found expected)

/-- Reads a natural number below a bound. -/
private def naturalBelow (bound : Nat) (expected : String) : Reader Nat := fun bytes => do
  let (value, rest) ← numeral expected bytes
  match value.naturalBelow bound expected with
  | .ok value => return (value, rest)
  | .error fault => Defect.before fault rest

/-- Reads a natural number that fits sixty-four bits. -/
def size : Reader Nat :=
  naturalBelow (Nat.pow 2 64) "usize"

/-- Reads a natural number that fits thirty-two bits. -/
def word : Reader Nat :=
  naturalBelow (Nat.pow 2 32) "u32"

/-- The number nearest to a numeral in a format. A floating-point numeral has been rounded once
before. -/
def Numeral.toBinary (format : Number.Format) : Numeral → Number.Binary
  | .natural value => format.ofInt value
  | .opposite value => format.ofInt (-value)
  | .real value => format.convert value

/-- Reads a number as one of the single format. -/
def single : Reader Number.Single := fun bytes => do
  let (value, rest) ← numeral "f32" bytes
  return (Number.Single.nearest (value.toBinary .single), rest)

/-- Reads a number as one of the double format. -/
def double : Reader Number.Binary := fun bytes => do
  let (value, rest) ← numeral "f64" bytes
  return (value.toBinary .double, rest)

/-- Reads a value that may be `null`. -/
def optional {α : Type} (read : Reader α) : Reader (Option α) := fun bytes =>
  match skipBlanks bytes with
  | 0x6E :: rest => (literal nullRest rest).map (none, ·)
  | bytes => (read bytes).map fun (value, rest) => (some value, rest)

/-! ## Lists -/

/-- Whether a list goes on, and the bytes from its next item or from its end on. -/
def nextItem (first : Bool) (bytes : List UInt8) : Except Defect (Bool × List UInt8) :=
  match skipBlanks bytes with
  | [] => Defect.before .endInList []
  | byte :: rest =>
    if byte = 0x5D then .ok (false, byte :: rest)
    else if first then .ok (true, byte :: rest)
    else if byte = 0x2C then
      match skipBlanks rest with
      | [] => Defect.before .endInValue []
      | byte :: rest =>
        if byte = 0x5D then Defect.at .trailingComma (byte :: rest) else .ok (true, byte :: rest)
    else Defect.at .expectedListEnd (byte :: rest)

/-- The bytes after the end of a list that has no more items to be read. -/
def closeList (bytes : List UInt8) : Except Defect (List UInt8) :=
  match skipBlanks bytes with
  | [] => Defect.before .endInList []
  | byte :: rest =>
    if byte = 0x5D then .ok rest
    else if byte = 0x2C then
      match skipBlanks rest with
      | 0x5D :: rest => Defect.at .trailingComma (0x5D :: rest)
      | rest => Defect.at .trailingCharacters rest
    else Defect.at .trailingCharacters (byte :: rest)

/-- Where the end of a list with a defect of its own is reported. -/
def listPlace (bytes : List UInt8) : List UInt8 :=
  match skipBlanks bytes with
  | 0x5D :: rest => rest
  | 0x2C :: rest => skipBlanks rest
  | rest => rest

/-- Reads the items of a list from the one numbered `index` on, at most `fuel` of them. -/
def items {α : Type} (read : Reader α) : Nat → Nat → Bool → Reader (List α)
  | 0, _, _, bytes => Defect.before .endInList bytes
  | fuel + 1, index, first, bytes => do
    let (more, rest) ← nextItem first bytes
    if more then
      let (value, rest) ← (read rest).mapError (·.within (.item index))
      let (values, rest) ← items read fuel (index + 1) false rest
      return (value :: values, rest)
    else return ([], rest.drop 1)

def list {α : Type} (read : Reader α) : Reader (List α) := fun bytes =>
  match skipBlanks bytes with
  | 0x5B :: rest => items read (rest.length + 1) 0 true rest
  | bytes => wrongKind "a sequence" bytes

/-! ## Records -/

/-- Whether an object goes on; if so, the bytes after the quote that opens the next key, and if not,
the bytes from its end on. -/
def nextKey (first : Bool) (bytes : List UInt8) : Except Defect (Bool × List UInt8) :=
  match skipBlanks bytes with
  | [] => Defect.before .endInObject []
  | byte :: rest =>
    if byte = 0x7D then .ok (false, byte :: rest)
    else if first then
      if byte = 0x22 then .ok (true, rest) else Defect.at .keyNotString (byte :: rest)
    else if byte = 0x2C then
      match skipBlanks rest with
      | [] => Defect.before .endInValue []
      | byte :: rest =>
        if byte = 0x22 then .ok (true, rest)
        else if byte = 0x7D then Defect.at .trailingComma (byte :: rest)
        else Defect.at .keyNotString (byte :: rest)
    else Defect.at .expectedObjectEnd (byte :: rest)

/-- The bytes after the colon that follows a key. -/
def colon (bytes : List UInt8) : Except Defect (List UInt8) :=
  match skipBlanks bytes with
  | [] => Defect.before .endInObject []
  | byte :: rest => if byte = 0x3A then .ok rest else Defect.at .expectedColon (byte :: rest)

/-- Where the end of an object with a defect of its own is reported. -/
def objectPlace (bytes : List UInt8) : List UInt8 :=
  match skipBlanks bytes with
  | 0x7D :: rest => rest
  | rest => rest

/-- What it means that a field is not given. -/
inductive Absence (σ : Type) where
  | required
  /-- The field may be left out of an object. -/
  | optional (fill : σ → σ)
  /-- The field may be left out of an object and of a list. -/
  | standard (fill : σ → σ)

/-- A field of a record of which `σ` holds what has been read so far. -/
structure Field (σ : Type) where
  name : String
  isFilled : σ → Bool
  read : σ → Reader σ
  absence : Absence σ

/-- A field that holds a value once it has been read. -/
def Field.of {σ α : Type} (name : String) (get : σ → Option α) (set : σ → α → σ) (read : Reader α)
    (absence : Absence σ) : Field σ :=
  { name
    isFilled := fun draft => (get draft).isSome
    read := fun draft bytes => (read bytes).map fun (value, rest) => (set draft value, rest)
    absence }

/-- The shape of a record: its name in messages, its fields in order, and what is held before any of
them has been read. -/
structure Shape (σ : Type) where
  name : String
  fields : List (Field σ)
  empty : σ

namespace Shape

variable {σ : Type}

/-- How a record is named as the expected value. -/
def expected (shape : Shape σ) : String :=
  "struct " ++ shape.name

/-- How a list of all fields is named as the expected value. -/
def expectedLength (shape : Shape σ) : String :=
  shape.expected ++ " with " ++ toString shape.fields.length ++
    if shape.fields.length = 1 then " element" else " elements"

/-- Fills the fields that an object did not give. -/
def fillAbsent : List (Field σ) → σ → Except Fault σ
  | [], draft => .ok draft
  | field :: fields, draft =>
    if field.isFilled draft then fillAbsent fields draft
    else
      match field.absence with
      | .required => .error (.missingField field.name)
      | .optional fill => fillAbsent fields (fill draft)
      | .standard fill => fillAbsent fields (fill draft)

/-- Reads the members of an object, at most `fuel` of them. -/
def members (shape : Shape σ) : Nat → Bool → σ → Reader σ
  | 0, _, _, bytes => Defect.before .endInObject bytes
  | fuel + 1, first, draft, bytes => do
    let (more, rest) ← nextKey first bytes
    if more then
      let (key, rest) ← stringRest rest
      match shape.fields.find? (·.name = key) with
      | some field =>
        if field.isFilled draft then Defect.before (.duplicateField key) (objectPlace rest)
        else
          let rest ← colon rest
          let (draft, rest) ← (field.read draft rest).mapError (·.within (.field key))
          members shape fuel false draft rest
      | none =>
        let rest ← colon rest
        let rest ← (skipValue rest).mapError (·.within (.field key))
        members shape fuel false draft rest
    else
      match fillAbsent shape.fields draft with
      | .ok draft => return (draft, rest.drop 1)
      | .error fault => Defect.before fault (rest.drop 1)

/-- Reads the fields of a list from the one numbered `index` on. -/
def listed (shape : Shape σ) : List (Field σ) → Nat → σ → Reader σ
  | [], _, draft, bytes => .ok (draft, bytes)
  | field :: fields, index, draft, bytes => do
    let (more, rest) ← nextItem (index = 0) bytes
    if more then
      let (draft, rest) ← (field.read draft rest).mapError (·.within (.item index))
      listed shape fields (index + 1) draft rest
    else
      match field.absence with
      | .standard fill => listed shape fields (index + 1) (fill draft) rest
      | _ => Defect.before (.wrongLength index shape.expectedLength) (listPlace rest)

def read (shape : Shape σ) : Reader σ := fun bytes => do
  match skipBlanks bytes with
  | 0x5B :: rest =>
    let (draft, rest) ← listed shape shape.fields 0 shape.empty rest
    return (draft, ← closeList rest)
  | 0x7B :: rest => members shape (rest.length + 1) true shape.empty rest
  | bytes => wrongKind shape.expected bytes

end Shape

/-! ## Whole texts -/

/-- Reads a text that holds nothing after its value but blanks. -/
def readWhole {α : Type} (read : Reader α) (bytes : List UInt8) : Except Defect α := do
  let (value, rest) ← read bytes
  match skipBlanks rest with
  | [] => return value
  | rest => Defect.at .trailingCharacters rest

/-- Reads the value at the front of a text, whatever comes after it. -/
def readFront {α : Type} (read : Reader α) (bytes : List UInt8) : Except Defect α :=
  (read bytes).map (·.1)

end Json

end TextVectors
