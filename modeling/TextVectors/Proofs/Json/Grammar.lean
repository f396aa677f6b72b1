import Mathlib.Data.List.Basic

/-!
# The grammar of JSON

Which sequences of bytes are JSON values, and which texts their strings denote.
The grammar is given without a reader, as the sentences of the standard give it:
a container holds pieces with commas between them, and blanks may stand around
each piece, each key and each value.

Two things are told apart that often agree. The body of a string is well formed
if its escapes are; it denotes a text only if the bytes between them are
characters in UTF-8 and no half of a surrogate pair is left alone. A value that
nobody looks at need only be well formed, whatever its strings denote.
-/

namespace TextVectors

namespace Json

/-- Nothing but spaces, tabs and line ends. -/
def Blanks (bytes : List UInt8) : Prop :=
  ∀ byte ∈ bytes, byte ∈ ([0x20, 0x09, 0x0A, 0x0D] : List UInt8)

instance (bytes : List UInt8) : Decidable (Blanks bytes) :=
  inferInstanceAs (Decidable (∀ byte ∈ bytes, _))

/-! ## Numbers -/

def Digit (byte : UInt8) : Prop :=
  0x30 ≤ byte ∧ byte ≤ 0x39

instance (byte : UInt8) : Decidable (Digit byte) :=
  inferInstanceAs (Decidable (_ ∧ _))

/-- At least one digit and nothing else. -/
def Digits (bytes : List UInt8) : Prop :=
  bytes ≠ [] ∧ ∀ byte ∈ bytes, Digit byte

/-- The digits before the point, which begin with zero only if that is all. -/
inductive Whole : List UInt8 → Prop where
  | zero : Whole [0x30]
  | digits {first : UInt8} {others : List UInt8} (digit : Digit first) (positive : first ≠ 0x30)
      (digits : ∀ byte ∈ others, Digit byte) : Whole (first :: others)

inductive Fraction : List UInt8 → Prop where
  | none : Fraction []
  | digits {digits : List UInt8} (some : Digits digits) : Fraction (0x2E :: digits)

inductive Exponent : List UInt8 → Prop where
  | none : Exponent []
  | digits {mark : UInt8} {sign digits : List UInt8} (letter : mark = 0x65 ∨ mark = 0x45)
      (signed : sign = [] ∨ sign = [0x2B] ∨ sign = [0x2D]) (some : Digits digits) :
      Exponent (mark :: (sign ++ digits))

/-- A number without a sign. -/
inductive Unsigned : List UInt8 → Prop where
  | mk {whole fraction exponent : List UInt8} (wholePart : Whole whole)
      (fractionPart : Fraction fraction) (exponentPart : Exponent exponent) :
      Unsigned (whole ++ (fraction ++ exponent))

/-! ## Strings -/

/-- A hexadecimal digit of either case and its value. -/
inductive HexDigit : UInt8 → Nat → Prop where
  | decimal {byte : UInt8} (digit : Digit byte) : HexDigit byte (byte.toNat - 0x30)
  | lower {byte : UInt8} (least : 0x61 ≤ byte) (most : byte ≤ 0x66) :
      HexDigit byte (byte.toNat - 0x61 + 10)
  | upper {byte : UInt8} (least : 0x41 ≤ byte) (most : byte ≤ 0x46) :
      HexDigit byte (byte.toNat - 0x41 + 10)

/-- Four hexadecimal digits and their value. -/
inductive CodeUnit : List UInt8 → Nat → Prop where
  | mk {a b c d : UInt8} {i j k l : Nat} (first : HexDigit a i) (second : HexDigit b j)
      (third : HexDigit c k) (fourth : HexDigit d l) :
      CodeUnit [a, b, c, d] (((i * 16 + j) * 16 + k) * 16 + l)

/-- The letters that may follow a backslash, and the characters they stand for with it. -/
def shortEscapes : List (UInt8 × Char) :=
  [(0x22, '"'), (0x5C, '\\'), (0x2F, '/'), (0x62, '\x08'), (0x66, '\x0c'), (0x6E, '\n'),
    (0x72, '\r'), (0x74, '\t')]

/-- What may stand between the quotes of a string. -/
inductive Body : List UInt8 → Prop where
  | nil : Body []
  | plain {byte : UInt8} {body : List UInt8} (visible : 0x20 ≤ byte) (notQuote : byte ≠ 0x22)
      (notBackslash : byte ≠ 0x5C) (later : Body body) : Body (byte :: body)
  | short {byte : UInt8} {c : Char} {body : List UInt8} (escape : (byte, c) ∈ shortEscapes)
      (later : Body body) : Body (0x5C :: byte :: body)
  | unit {digits : List UInt8} {value : Nat} {body : List UInt8} (escape : CodeUnit digits value)
      (later : Body body) : Body (0x5C :: 0x75 :: (digits ++ body))

/-- The characters that stand between the quotes of a string: by themselves, behind a short escape,
as a unit, or as a pair of units. -/
inductive Denotes : List UInt8 → List Char → Prop where
  | nil : Denotes [] []
  | plain {c : Char} {body : List UInt8} {text : List Char} (visible : 0x20 ≤ c.toNat)
      (notQuote : c ≠ '"') (notBackslash : c ≠ '\\') (later : Denotes body text) :
      Denotes (String.utf8EncodeChar c ++ body) (c :: text)
  | short {byte : UInt8} {c : Char} {body : List UInt8} {text : List Char}
      (escape : (byte, c) ∈ shortEscapes) (later : Denotes body text) :
      Denotes (0x5C :: byte :: body) (c :: text)
  | unit {digits : List UInt8} {c : Char} {body : List UInt8} {text : List Char}
      (escape : CodeUnit digits c.toNat) (later : Denotes body text) :
      Denotes (0x5C :: 0x75 :: (digits ++ body)) (c :: text)
  | pair {leading trailing : List UInt8} {high low : Nat} {c : Char} {body : List UInt8}
      {text : List Char} (first : CodeUnit leading high) (second : CodeUnit trailing low)
      (isHigh : 0xD800 ≤ high ∧ high ≤ 0xDBFF) (isLow : 0xDC00 ≤ low ∧ low ≤ 0xDFFF)
      (together : c.toNat = 0x10000 + (high - 0xD800) * 0x400 + (low - 0xDC00))
      (later : Denotes body text) :
      Denotes (0x5C :: 0x75 :: (leading ++ 0x5C :: 0x75 :: (trailing ++ body))) (c :: text)

/-- A string with a body. -/
def quoted (body : List UInt8) : List UInt8 :=
  0x22 :: (body ++ [0x22])

/-! ## Values -/

/-- A value with the blanks around it. -/
structure Item where
  before : List UInt8
  value : List UInt8
  after : List UInt8
  blanks_before : Blanks before
  blanks_after : Blanks after

def Item.text (item : Item) : List UInt8 :=
  item.before ++ (item.value ++ item.after)

/-- The key of a member with the blanks around it, and the value of the member. -/
structure Member where
  before : List UInt8
  key : List UInt8
  between : List UInt8
  item : Item
  blanks_before : Blanks before
  body_key : Body key
  blanks_between : Blanks between

def Member.text (member : Member) : List UInt8 :=
  member.before ++ (quoted member.key ++ (member.between ++ 0x3A :: member.item.text))

/-- Pieces with a comma in front of each. -/
def behindCommas (pieces : List (List UInt8)) : List UInt8 :=
  pieces.flatMap (0x2C :: ·)

/-- Pieces with commas between them. -/
def joined : List (List UInt8) → List UInt8
  | [] => []
  | piece :: pieces => piece ++ behindCommas pieces

/-- Pieces between brackets. If there is none, blanks may stand there. -/
def enclosed (opening : UInt8) (lead : List UInt8) (pieces : List (List UInt8)) (closing : UInt8) :
    List UInt8 :=
  opening :: (lead ++ (joined pieces ++ [closing]))

def listText (lead : List UInt8) (items : List Item) : List UInt8 :=
  enclosed 0x5B lead (items.map Item.text) 0x5D

def objectText (lead : List UInt8) (members : List Member) : List UInt8 :=
  enclosed 0x7B lead (members.map Member.text) 0x7D

/-- A JSON value. -/
inductive Value : List UInt8 → Prop where
  | nullWord : Value [0x6E, 0x75, 0x6C, 0x6C]
  | trueWord : Value [0x74, 0x72, 0x75, 0x65]
  | falseWord : Value [0x66, 0x61, 0x6C, 0x73, 0x65]
  | number {text : List UInt8} (unsigned : Unsigned text) : Value text
  | negative {text : List UInt8} (unsigned : Unsigned text) : Value (0x2D :: text)
  | string {body : List UInt8} (wellFormed : Body body) : Value (quoted body)
  | list {lead : List UInt8} {items : List Item} (blanks : Blanks lead)
      (values : ∀ item ∈ items, Value item.value) : Value (listText lead items)
  | object {lead : List UInt8} {members : List Member} (blanks : Blanks lead)
      (values : ∀ member ∈ members, Value member.item.value) : Value (objectText lead members)

/-- A text that is JSON as a whole: a value with nothing but blanks around it. -/
def Document (bytes : List UInt8) : Prop :=
  ∃ before v after, Blanks before ∧ Value v ∧ Blanks after ∧ bytes = before ++ (v ++ after)

end Json

end TextVectors
