/-!
# What can be wrong with a JSON text

A text is read from the front, and reading stops at the first defect. A defect
says what was met, where, and inside which value. The place is kept as the
number of bytes that are still unread there, so that a reader need not know what
came before; the line and the column are found from the whole text.

Two kinds of fault are told apart. A malformed text is no JSON at all as far as
it was read; a misshapen one is, but holds something else than was asked for.
-/

namespace TextVectors

namespace Json

/-- What a reader meets that it cannot accept. -/
inductive Fault where
  | endInValue
  | endInString
  | endInList
  | endInObject
  | expectedColon
  | expectedListEnd
  | expectedObjectEnd
  | expectedLiteral
  | expectedValue
  | invalidEscape
  | invalidNumber
  | numberOutOfRange
  | invalidText
  | controlCharacter
  | keyNotString
  | loneSurrogate
  | unfinishedSurrogate
  | trailingComma
  | trailingCharacters
  | tooDeep
  /-- A value of another kind than the expected one. -/
  | wrongKind (found expected : String)
  /-- A value of the expected kind that lies outside of what is allowed. -/
  | wrongValue (found expected : String)
  | wrongLength (length : Nat) (expected : String)
  | missingField (name : String)
  | duplicateField (name : String)
  | unknownVariant (name : String) (known : List String)
  /-- A rule of the value that was read. -/
  | rule (text : String)
  deriving DecidableEq, Repr

namespace Fault

/-- Whether the text is JSON as far as it was read, but not of the shape that was asked for. -/
def isMisshapen : Fault → Bool
  | .wrongKind _ _ => true
  | .wrongValue _ _ => true
  | .wrongLength _ _ => true
  | .missingField _ => true
  | .duplicateField _ => true
  | .unknownVariant _ _ => true
  | .rule _ => true
  | _ => false

/-- The names of the known variants as a choice. -/
private def choice (known : List String) : String :=
  let ticked := known.map fun name => "`" ++ name ++ "`"
  match ticked with
  | [] => "there are no variants"
  | [one] => "expected " ++ one
  | [one, other] => "expected " ++ one ++ " or " ++ other
  | several => "expected one of " ++ ", ".intercalate several

def message : Fault → String
  | .endInValue => "EOF while parsing a value"
  | .endInString => "EOF while parsing a string"
  | .endInList => "EOF while parsing a list"
  | .endInObject => "EOF while parsing an object"
  | .expectedColon => "expected `:`"
  | .expectedListEnd => "expected `,` or `]`"
  | .expectedObjectEnd => "expected `,` or `\x7d`"
  | .expectedLiteral => "expected ident"
  | .expectedValue => "expected value"
  | .invalidEscape => "invalid escape"
  | .invalidNumber => "invalid number"
  | .numberOutOfRange => "number out of range"
  | .invalidText => "invalid unicode code point"
  | .controlCharacter => "control character (\\u0000-\\u001F) found while parsing a string"
  | .keyNotString => "key must be a string"
  | .loneSurrogate => "lone leading surrogate in hex escape"
  | .unfinishedSurrogate => "unexpected end of hex escape"
  | .trailingComma => "trailing comma"
  | .trailingCharacters => "trailing characters"
  | .tooDeep => "recursion limit exceeded"
  | .wrongKind found expected => "invalid type: " ++ found ++ ", expected " ++ expected
  | .wrongValue found expected => "invalid value: " ++ found ++ ", expected " ++ expected
  | .wrongLength length expected =>
    "invalid length " ++ toString length ++ ", expected " ++ expected
  | .missingField name => "missing field `" ++ name ++ "`"
  | .duplicateField name => "duplicate field `" ++ name ++ "`"
  | .unknownVariant name known => "unknown variant `" ++ name ++ "`, " ++ choice known
  | .rule text => text

end Fault

/-- One step from a value into a part of it. -/
inductive Step where
  | item (index : Nat)
  | field (name : String)
  deriving DecidableEq, Repr

/-- Where reading stopped, and why. -/
structure Defect where
  fault : Fault
  /-- How many bytes of the text are left at the place that is reported. -/
  left : Nat
  /-- The way from the whole value to the part that was being read. -/
  path : List Step := []
  deriving DecidableEq, Repr

namespace Defect

/-- A defect inside a part of a value. -/
def within (step : Step) (defect : Defect) : Defect :=
  { defect with path := step :: defect.path }

/-- The steps of a path after the first one. -/
private def pathRest : List Step → String
  | [] => ""
  | .item index :: rest => "[" ++ toString index ++ "]" ++ pathRest rest
  | .field name :: rest => "." ++ name ++ pathRest rest

/-- The text of a path: the name of a field at its front has no dot. -/
def pathText : List Step → String
  | .field name :: rest => name ++ pathRest rest
  | path => pathRest path

/-- The line and the column after some bytes: the number of line feeds plus one, and the number of
bytes since the last of them. -/
def position (read : List UInt8) : Nat × Nat :=
  (read.count 10 + 1, (read.reverse.takeWhile (· ≠ 10)).length)

def message (text : List UInt8) (defect : Defect) : String :=
  let (line, column) := position (text.take (text.length - defect.left))
  defect.fault.message ++ " at line " ++ toString line ++ " column " ++ toString column

/-- The wording of a defect with the part of the value that it lies in. -/
def messageWithPath (text : List UInt8) (defect : Defect) : String :=
  if defect.path.isEmpty then defect.message text
  else pathText defect.path ++ ": " ++ defect.message text

end Defect

/-- A reader of values of one kind from the front of a text: what was read, and the bytes after
it. -/
abbrev Reader (α : Type) := List UInt8 → Except Defect (α × List UInt8)

/-- A defect in front of the unread bytes. -/
def Defect.before {α : Type} (fault : Fault) (rest : List UInt8) : Except Defect α :=
  .error ⟨fault, rest.length, []⟩

/-- A defect at the next byte, which counts as read if there is one. -/
def Defect.at {α : Type} (fault : Fault) (rest : List UInt8) : Except Defect α :=
  .error ⟨fault, rest.length - 1, []⟩

end Json

end TextVectors
