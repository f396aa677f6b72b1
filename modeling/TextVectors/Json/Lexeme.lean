import TextVectors.Json.Defect
import TextVectors.Number.Decimal
import TextVectors.Number.Hexadecimal
import TextVectors.Text.Quoted

/-!
# The words of JSON

Blanks, literals, strings and numbers, read from the front of a sequence of
bytes. A number is read as an integer if it is written as one and fits
sixty-four bits, and as a floating-point number otherwise. The latter takes as
many digits as fit sixty-four bits and scales them by one power of ten, so its
last bit may differ from the nearest number.
-/

namespace TextVectors

namespace Json

/-- The blanks that may stand between words. -/
def isBlank (byte : UInt8) : Bool :=
  byte == 0x20 || byte == 0x0A || byte == 0x09 || byte == 0x0D

/-- The bytes after the blanks at the front. -/
def skipBlanks (bytes : List UInt8) : List UInt8 :=
  bytes.dropWhile isBlank

def isDigit (byte : UInt8) : Bool :=
  0x30 ≤ byte && byte ≤ 0x39

def digitValue (byte : UInt8) : Nat :=
  byte.toNat - 0x30

/-- The bytes after the rest of a literal, of which the first letter has been read. -/
def literal : List UInt8 → List UInt8 → Except Defect (List UInt8)
  | [], rest => .ok rest
  | _ :: _, [] => Defect.before .endInValue []
  | expected :: more, found :: rest =>
    if expected = found then literal more rest else Defect.before .expectedLiteral rest

/-- The letters of `null` after the first. -/
def nullRest : List UInt8 := [0x75, 0x6C, 0x6C]

/-- The letters of `true` after the first. -/
def trueRest : List UInt8 := [0x72, 0x75, 0x65]

/-- The letters of `false` after the first. -/
def falseRest : List UInt8 := [0x61, 0x6C, 0x73, 0x65]

/-! ## Strings -/

/-- The character that a short escape stands for. -/
def shortEscape? (byte : UInt8) : Option Char :=
  if byte = 0x22 then some '"'
  else if byte = 0x5C then some '\\'
  else if byte = 0x2F then some '/'
  else if byte = 0x62 then some '\x08'
  else if byte = 0x66 then some '\x0c'
  else if byte = 0x6E then some '\n'
  else if byte = 0x72 then some '\r'
  else if byte = 0x74 then some '\t'
  else none

/-- The four hexadecimal digits of an escape. -/
def hexUnit : Reader Nat
  | a :: b :: c :: d :: rest =>
    match Number.readHex? ([a, b, c, d].map fun byte => Char.ofNat byte.toNat) with
    | some value => .ok (value, rest)
    | none => Defect.before .invalidEscape rest
  | _ => Defect.before .endInString []

/-- Whether a unit is the first half of a pair. -/
def isLeading (unit : Nat) : Bool :=
  0xD800 ≤ unit && unit ≤ 0xDBFF

/-- Whether a unit is the second half of a pair. -/
def isTrailing (unit : Nat) : Bool :=
  0xDC00 ≤ unit && unit ≤ 0xDFFF

/-- The code point of a pair. -/
def pairValue (leading trailing : Nat) : Nat :=
  (leading - 0xD800) * 0x400 + (trailing - 0xDC00) + 0x10000

/-- The second half of a pair, with the escape in front of it. -/
def trailingUnit : Reader Nat
  | 0x5C :: 0x75 :: rest => do
    let (unit, rest) ← hexUnit rest
    if isTrailing unit then return (unit, rest) else Defect.before .loneSurrogate rest
  | 0x5C :: _ :: rest => Defect.before .unfinishedSurrogate rest
  | 0x5C :: [] => Defect.before .endInString []
  | _ :: rest => Defect.before .unfinishedSurrogate rest
  | [] => Defect.before .endInString []

/-- The character that an escape stands for, after its `\u`. -/
def unicodeEscape : Reader Char := fun bytes => do
  let (unit, rest) ← hexUnit bytes
  if isTrailing unit then Defect.before .loneSurrogate rest
  else if isLeading unit then
    let (trailing, rest) ← trailingUnit rest
    return (Char.ofNat (pairValue unit trailing), rest)
  else return (Char.ofNat unit, rest)

/-- The character that an escape stands for, after its backslash. -/
def escape : Reader Char
  | [] => Defect.before .endInString []
  | byte :: rest =>
    if byte = 0x75 then unicodeEscape rest
    else
      match shortEscape? byte with
      | some meant => .ok (meant, rest)
      | none => Defect.before .invalidEscape rest

/-- Whether a byte stands for itself inside a string. -/
def isPlain (byte : UInt8) : Bool :=
  byte ≠ 0x22 && byte ≠ 0x5C && 0x20 ≤ byte

/-- How many bytes from `start` on are whole characters, looking at `fuel` characters at most. -/
def textLength (bytes : ByteArray) : Nat → Nat → Nat
  | 0, start => start
  | fuel + 1, start =>
    match bytes.utf8DecodeChar? start with
    | some c => textLength bytes fuel (start + c.utf8Size)
    | none => start

/-- The text of plain bytes in front of others. The first byte that is no text counts as read. -/
def plainText (plain after : List UInt8) : Except Defect String :=
  let bytes := plain.toByteArray
  match String.fromUTF8? bytes with
  | some text => .ok text
  | none => Defect.before .invalidText
      (plain.drop (textLength bytes plain.length 0 + 1) ++ after)

/-- The text of a string after its opening quote. At most `fuel` escapes are read. -/
def contents : Nat → Reader String
  | 0, bytes => Defect.before .endInString bytes
  | fuel + 1, bytes =>
    let plain := bytes.takeWhile isPlain
    match bytes.dropWhile isPlain with
    | [] => Defect.before .endInString []
    | byte :: rest =>
      if byte = 0x22 then do
        return (← plainText plain (byte :: rest), rest)
      else if byte = 0x5C then do
        let text ← plainText plain (byte :: rest)
        let (meant, rest) ← escape rest
        let (more, rest) ← contents fuel rest
        return (text ++ meant.toString ++ more, rest)
      else Defect.before .controlCharacter rest

/-- The text of a string after its opening quote. -/
def stringRest : Reader String := fun bytes =>
  contents (bytes.length + 1) bytes

/-! ## Numbers -/

/-- The value of a number. -/
inductive Numeral where
  | natural (value : Nat)
  /-- The opposite of a positive number. -/
  | opposite (value : Nat)
  | real (value : Number.Binary)
  deriving DecidableEq, Repr

/-- One more than the largest significand. -/
def significandBound : Nat := Nat.pow 2 64

/-- One more than the largest exponent that is read. -/
def exponentBound : Nat := Nat.pow 2 31

/-- Extends a significand by digits as long as it stays below the bound; also how many digits were
taken, and whether some were left. -/
def extend : Nat → Nat → List UInt8 → Nat × Nat × Bool
  | significand, taken, [] => (significand, taken, false)
  | significand, taken, digit :: rest =>
    if significand * 10 + digitValue digit < significandBound then
      extend (significand * 10 + digitValue digit) (taken + 1) rest
    else (significand, taken, true)

/-- The largest power of ten that is used as one factor. -/
def largestPower : Nat := 308

/-- The number nearest to a power of ten. -/
def tenTo (exponent : Nat) : Number.Binary :=
  Number.Format.double.nearest false (Nat.pow 10 exponent) 1

/-- Divides by powers of ten, the largest first, at most `fuel` times. -/
def shrink : Nat → Number.Binary → Nat → Number.Binary
  | 0, value, _ => value
  | fuel + 1, value, exponent =>
    if exponent ≤ largestPower then Number.Format.double.div value (tenTo exponent)
    else shrink fuel (Number.Format.double.div value (tenTo largestPower)) (exponent - largestPower)

/-- A significand times a power of ten, or nothing if it is too large. The value is zero after three
divisions by the largest power. -/
def scale? (significand : Nat) (exponent : Int) : Option Number.Binary :=
  let value := Number.Format.double.nearest false significand 1
  if exponent < 0 then some (shrink 3 value (-exponent).toNat)
  else if exponent.toNat ≤ largestPower then
    match Number.Format.double.mul value (tenTo exponent.toNat) with
    | .infinite _ => none
    | scaled => some scaled
  else if significand = 0 then some value
  else none

/-- A floating-point number with its sign. -/
def realNumeral (negative : Bool) : Number.Binary → Numeral
  | .finite _ significand exponent => .real (.finite negative significand exponent)
  | value => .real value

/-- The value of a scaled significand in front of the unread bytes. -/
def scaled (negative : Bool) (significand : Nat) (exponent : Int) (rest : List UInt8) :
    Except Defect (Numeral × List UInt8) :=
  match scale? significand exponent with
  | some value => .ok (realNumeral negative value, rest)
  | none => Defect.before .numberOutOfRange rest

/-- An exponent moved up or down. -/
def moved (start : Int) (up : Bool) (distance : Nat) : Int :=
  if up then start + distance else start - distance

/-- Reads the digits of an exponent after the first one. A digit that makes it too large ends the
number: it is zero if the exponent is negative or there is nothing to scale. -/
def exponentDigits (negative : Bool) (significand : Nat) (start : Int) (up : Bool) :
    Nat → List UInt8 → Except Defect (Numeral × List UInt8)
  | exponent, [] => scaled negative significand (moved start up exponent) []
  | exponent, byte :: rest =>
    if isDigit byte then
      if exponent * 10 + digitValue byte < exponentBound then
        exponentDigits negative significand start up (exponent * 10 + digitValue byte) rest
      else if significand ≠ 0 ∧ up then Defect.before .numberOutOfRange rest
      else .ok (realNumeral negative (Number.Format.double.zero false), rest.dropWhile isDigit)
    else
      scaled negative significand (moved start up exponent) (byte :: rest)

/-- Reads an exponent after its letter. -/
def exponentPart (negative : Bool) (significand : Nat) (start : Int) (bytes : List UInt8) :
    Except Defect (Numeral × List UInt8) :=
  let (up, bytes) : Bool × List UInt8 :=
    match bytes with
    | 0x2B :: rest => (true, rest)
    | 0x2D :: rest => (false, rest)
    | _ => (true, bytes)
  match bytes with
  | [] => Defect.before .endInValue []
  | byte :: rest =>
    if isDigit byte then exponentDigits negative significand start up (digitValue byte) rest
    else Defect.before .invalidNumber rest

/-- Whether a byte is the letter of an exponent. -/
def isExponentMark (byte : UInt8) : Bool :=
  byte == 0x65 || byte == 0x45

/-- Reads the exponent, if there is one, and scales. -/
def exponentOrEnd (negative : Bool) (significand : Nat) (start : Int) (bytes : List UInt8) :
    Except Defect (Numeral × List UInt8) :=
  match bytes with
  | byte :: rest =>
    if isExponentMark byte then exponentPart negative significand start rest
    else scaled negative significand start bytes
  | [] => scaled negative significand start []

/-- Reads the digits after a decimal point. -/
def fractionPart (negative : Bool) (significand : Nat) (start : Int) (bytes : List UInt8) :
    Except Defect (Numeral × List UInt8) :=
  let digits := bytes.takeWhile isDigit
  let rest := bytes.dropWhile isDigit
  if digits.isEmpty then
    match rest with
    | [] => Defect.before .endInValue []
    | _ => Defect.at .invalidNumber rest
  else
    let (significand, taken, _) := extend significand 0 digits
    exponentOrEnd negative significand (start - (taken : Int)) rest

/-- The integer with a sign; a negative one too large for its word is rounded, and negative zero is
no integer. -/
def integer (negative : Bool) (value : Nat) : Numeral :=
  if !negative then .natural value
  else if 0 < value ∧ value ≤ Nat.pow 2 63 then .opposite value
  else realNumeral true (Number.Format.double.nearest false value 1)

/-- Reads what follows the digits before the decimal point: `dropped` of them did not fit the
significand. -/
def afterDigits (negative : Bool) (significand dropped : Nat) (bytes : List UInt8) :
    Except Defect (Numeral × List UInt8) :=
  match bytes with
  | byte :: rest =>
    if byte = 0x2E then fractionPart negative significand dropped rest
    else if isExponentMark byte then exponentPart negative significand dropped rest
    else if dropped = 0 then .ok (integer negative significand, bytes)
    else scaled negative significand dropped bytes
  | [] =>
    if dropped = 0 then .ok (integer negative significand, [])
    else scaled negative significand dropped []

/-- Reads a number after its sign. -/
def unsigned (negative : Bool) : Reader Numeral
  | [] => Defect.before .endInValue []
  | first :: rest =>
    -- Behind a zero at the front stands no digit.
    if first = 0x30 then
      match rest with
      | next :: _ =>
        if isDigit next then Defect.at .invalidNumber rest else afterDigits negative 0 0 rest
      | [] => afterDigits negative 0 0 []
    else if isDigit first then
      let digits := first :: rest.takeWhile isDigit
      let (significand, taken, _) := extend 0 0 digits
      afterDigits negative significand (digits.length - taken) (rest.dropWhile isDigit)
    else Defect.before .invalidNumber rest

def beginsNumber (byte : UInt8) : Bool :=
  byte == 0x2D || isDigit byte

def number : Reader Numeral
  | 0x2D :: rest => unsigned true rest
  | bytes => unsigned false bytes

/-- Floating-point numbers in messages: positional from five zeros after the point up to sixteen
digits before it. -/
def doubleLayout : Number.Layout := ⟨some (-4, 16), ".0", "+"⟩

/-- How a number is named in a message. -/
def Numeral.found : Numeral → String
  | .natural value => "integer `" ++ toString value ++ "`"
  | .opposite value => "integer `-" ++ toString value ++ "`"
  | .real value =>
    "floating point `" ++ (value.text? .double doubleLayout).getD "null" ++ "`"

/-! ## Values that are passed over -/

/-- The bytes after the digits of a number that is not needed; its size does not matter. -/
def skipExponent (bytes : List UInt8) : Except Defect (List UInt8) :=
  let bytes :=
    match bytes with
    | 0x2B :: rest => rest
    | 0x2D :: rest => rest
    | _ => bytes
  match bytes with
  | [] => Defect.before .invalidNumber []
  | byte :: rest =>
    if isDigit byte then .ok (rest.dropWhile isDigit) else Defect.before .invalidNumber rest

/-- The bytes after the exponent of a number that is not needed, if it has one. -/
def skipExponentOrEnd : List UInt8 → Except Defect (List UInt8)
  | byte :: rest => if isExponentMark byte then skipExponent rest else .ok (byte :: rest)
  | [] => .ok []

/-- The bytes after a number that is not needed, from its digits on. -/
def skipUnsigned : List UInt8 → Except Defect (List UInt8)
  | [] => Defect.before .invalidNumber []
  | first :: rest => do
    let rest ←
      if first = 0x30 then
        match rest with
        | next :: _ => if isDigit next then Defect.at .invalidNumber rest else .ok rest
        | [] => .ok []
      else if isDigit first then .ok (rest.dropWhile isDigit)
      else Defect.before .invalidNumber rest
    match rest with
    | 0x2E :: fraction =>
      if (fraction.takeWhile isDigit).isEmpty then Defect.at .invalidNumber fraction
      else skipExponentOrEnd (fraction.dropWhile isDigit)
    | _ => skipExponentOrEnd rest

/-- The bytes after an escape that is not needed: a short one, or one with four digits. -/
def skipEscape : List UInt8 → Except Defect (List UInt8)
  | [] => Defect.before .endInString []
  | byte :: rest =>
    if byte = 0x75 then (hexUnit rest).map (·.2)
    else if (shortEscape? byte).isSome then .ok rest
    else Defect.before .invalidEscape rest

/-- The bytes after a string that is not needed; it need not be text. At most `fuel` escapes are
passed over. -/
def skipString : Nat → List UInt8 → Except Defect (List UInt8)
  | 0, bytes => Defect.before .endInString bytes
  | fuel + 1, bytes =>
    match bytes.dropWhile isPlain with
    | [] => Defect.before .endInString []
    | byte :: rest =>
      if byte = 0x22 then .ok rest
      else if byte = 0x5C then do skipString fuel (← skipEscape rest)
      else Defect.before .controlCharacter (byte :: rest)

/-- An open container. -/
inductive Frame where
  | list
  | object
  deriving DecidableEq, Repr

/-- What is to come inside the open containers of a value that is passed over. -/
inductive Awaiting where
  | value
  /-- The first item of the innermost container or its end. -/
  | first
  /-- A comma or the end of the innermost container. -/
  | next
  deriving DecidableEq, Repr

/-- The bytes after the key and the colon of a member that is not needed. -/
def skipKey (bytes : List UInt8) : Except Defect (List UInt8) := do
  match skipBlanks bytes with
  | [] => Defect.before .endInObject []
  | byte :: rest =>
    if byte = 0x22 then
      let rest ← skipString (rest.length + 1) rest
      match skipBlanks rest with
      | [] => Defect.before .endInObject []
      | byte :: rest =>
        if byte = 0x3A then return rest else Defect.at .expectedColon (byte :: rest)
    else Defect.at .keyNotString (byte :: rest)

/-- The bytes after a scalar that is not needed, or the container that is opened. -/
def skipScalar : List UInt8 → Except Defect (Option Frame × List UInt8)
  | [] => Defect.before .endInValue []
  | byte :: rest =>
    if byte = 0x6E then return (none, ← literal nullRest rest)
    else if byte = 0x74 then return (none, ← literal trueRest rest)
    else if byte = 0x66 then return (none, ← literal falseRest rest)
    else if byte = 0x2D then return (none, ← skipUnsigned rest)
    else if isDigit byte then return (none, ← skipUnsigned (byte :: rest))
    else if byte = 0x22 then return (none, ← skipString (rest.length + 1) rest)
    else if byte = 0x5B then return (some .list, rest)
    else if byte = 0x7B then return (some .object, rest)
    else Defect.at .expectedValue (byte :: rest)

/-- The byte that closes a container. -/
def Frame.closing : Frame → UInt8
  | .list => 0x5D
  | .object => 0x7D

/-- The defect of a text that ends inside a container. -/
def Frame.ended : Frame → Fault
  | .list => .endInList
  | .object => .endInObject

/-- The defect of something else than a comma or the end of a container. -/
def Frame.unclosed : Frame → Fault
  | .list => .expectedListEnd
  | .object => .expectedObjectEnd

/-- Passes over a value inside open containers, the innermost first, up to the end of the outermost
of them. Each step but one in two reads a byte, so twice the number of bytes is enough `fuel`. -/
def skipFrom : Nat → Awaiting → List Frame → List UInt8 → Except Defect (List UInt8)
  | 0, _, _, bytes => Defect.before .endInValue bytes
  | fuel + 1, .value, frames, bytes => do
    match ← skipScalar (skipBlanks bytes) with
    | (some frame, rest) => skipFrom fuel .first (frame :: frames) rest
    | (none, rest) => skipFrom fuel .next frames rest
  | _ + 1, _, [], bytes => .ok bytes
  | fuel + 1, awaiting, frame :: frames, bytes => do
    match skipBlanks bytes with
    | [] => Defect.before frame.ended []
    | byte :: rest =>
      if byte = frame.closing then skipFrom fuel .next frames rest
      else
        match awaiting with
        | .next =>
          if byte = 0x2C then
            let rest ← if frame = .object then skipKey rest else pure rest
            skipFrom fuel .value (frame :: frames) rest
          else Defect.at frame.unclosed (byte :: rest)
        | _ =>
          let rest ← if frame = .object then skipKey (byte :: rest) else pure (byte :: rest)
          skipFrom fuel .value (frame :: frames) rest

/-- The bytes after a value that is not needed. -/
def skipValue (bytes : List UInt8) : Except Defect (List UInt8) :=
  skipFrom (2 * bytes.length + 2) .value [] bytes

end Json

end TextVectors
