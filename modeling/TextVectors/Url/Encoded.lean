import TextVectors.Number.Hexadecimal

/-!
# Percent-encoding

A byte that may not stand in a part of an address is written as a percent sign
and two upper-case hexadecimal digits. Each part has its own set of characters
that are encoded; bytes beyond ASCII always are, and percent signs never.
-/

namespace TextVectors

namespace Url

def encodedByte (byte : UInt8) : List Char :=
  '%' :: (Number.writeByte byte).map Char.toUpper

/-- Control characters and all beyond ASCII. -/
def encodedAlways (c : Char) : Bool :=
  c.toNat < 0x20 || 0x7F ≤ c.toNat

def encodedInFragment (c : Char) : Bool :=
  encodedAlways c || [' ', '"', '<', '>', '\x60'].contains c

def encodedInPath (c : Char) : Bool :=
  encodedInFragment c || ['#', '?', '^', '\x7b', '\x7d'].contains c

def encodedInCredentials (c : Char) : Bool :=
  encodedInPath c || ['/', ':', ';', '=', '@', '[', '\\', ']', '|'].contains c

def encodedInQuery (c : Char) : Bool :=
  encodedAlways c || [' ', '"', '#', '<', '>', '\''].contains c

/-- Text in which the characters of a set are encoded. -/
def encode (isEncoded : Char → Bool) (text : List Char) : List Char :=
  text.flatMap fun c =>
    if isEncoded c then (String.singleton c).toUTF8.toList.flatMap encodedByte else [c]

/-- The bytes of text, where encoded bytes are read. -/
def decode : List Char → List UInt8
  | '%' :: high :: low :: rest =>
    match Number.readHex? [high, low] with
    | some value => value.toUInt8 :: decode rest
    | none => 0x25 :: decode (high :: low :: rest)
  | c :: rest => (String.singleton c).toUTF8.toList ++ decode rest
  | [] => []
termination_by text => text.length

end Url

end TextVectors
