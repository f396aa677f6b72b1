import TextVectors.Number.Hexadecimal

/-!
# Digests

The hash SHA-256 of a sequence of bytes, as fixed by the Secure Hash Standard.
The message is padded to whole blocks of sixty-four bytes, and each block is
compressed into a state of eight words.
-/

namespace TextVectors

namespace Digest

/-- The round constants: the first bits of the fractional parts of the cube roots of primes. -/
def roundConstants : List UInt32 := [
  0x428a2f98, 0x71374491, 0xb5c0fbcf, 0xe9b5dba5, 0x3956c25b, 0x59f111f1, 0x923f82a4, 0xab1c5ed5,
  0xd807aa98, 0x12835b01, 0x243185be, 0x550c7dc3, 0x72be5d74, 0x80deb1fe, 0x9bdc06a7, 0xc19bf174,
  0xe49b69c1, 0xefbe4786, 0x0fc19dc6, 0x240ca1cc, 0x2de92c6f, 0x4a7484aa, 0x5cb0a9dc, 0x76f988da,
  0x983e5152, 0xa831c66d, 0xb00327c8, 0xbf597fc7, 0xc6e00bf3, 0xd5a79147, 0x06ca6351, 0x14292967,
  0x27b70a85, 0x2e1b2138, 0x4d2c6dfc, 0x53380d13, 0x650a7354, 0x766a0abb, 0x81c2c92e, 0x92722c85,
  0xa2bfe8a1, 0xa81a664b, 0xc24b8b70, 0xc76c51a3, 0xd192e819, 0xd6990624, 0xf40e3585, 0x106aa070,
  0x19a4c116, 0x1e376c08, 0x2748774c, 0x34b0bcb5, 0x391c0cb3, 0x4ed8aa4a, 0x5b9cca4f, 0x682e6ff3,
  0x748f82ee, 0x78a5636f, 0x84c87814, 0x8cc70208, 0x90befffa, 0xa4506ceb, 0xbef9a3f7, 0xc67178f2]

/-- The eight words of the state between two blocks. -/
structure State where
  a : UInt32
  b : UInt32
  c : UInt32
  d : UInt32
  e : UInt32
  f : UInt32
  g : UInt32
  h : UInt32

/-- The state before the first block. -/
def State.initial : State :=
  ⟨0x6a09e667, 0xbb67ae85, 0x3c6ef372, 0xa54ff53a, 0x510e527f, 0x9b05688c, 0x1f83d9ab, 0x5be0cd19⟩

/-- A word turned to the right by a number of bits between 1 and 31. -/
def rotate (word bits : UInt32) : UInt32 :=
  (word >>> bits) ||| (word <<< (32 - bits))

/-- One round with a word of the schedule and its constant. -/
def State.round (s : State) (word constant : UInt32) : State :=
  let choice := (s.e &&& s.f) ^^^ (~~~s.e &&& s.g)
  let majority := (s.a &&& s.b) ^^^ (s.a &&& s.c) ^^^ (s.b &&& s.c)
  let upper := rotate s.a 2 ^^^ rotate s.a 13 ^^^ rotate s.a 22
  let lower := rotate s.e 6 ^^^ rotate s.e 11 ^^^ rotate s.e 25
  let mixed := s.h + lower + choice + constant + word
  ⟨mixed + upper + majority, s.a, s.b, s.c, s.d + mixed, s.e, s.f, s.g⟩

/-- The wordwise sum of two states. -/
def State.add (s t : State) : State :=
  ⟨s.a + t.a, s.b + t.b, s.c + t.c, s.d + t.d, s.e + t.e, s.f + t.f, s.g + t.g, s.h + t.h⟩

/-- The next word of a schedule of which `words` holds the latest first. -/
def nextWord (words : Array UInt32) : UInt32 :=
  let ago (back : Nat) := words.getD (words.size - back) 0
  let far := ago 15
  let near := ago 2
  let low := rotate far 7 ^^^ rotate far 18 ^^^ (far >>> 3)
  let high := rotate near 17 ^^^ rotate near 19 ^^^ (near >>> 10)
  ago 16 + low + ago 7 + high

/-- The sixty-four words of a block, of which the first sixteen are given. -/
def schedule (words : Array UInt32) : Array UInt32 :=
  (List.range 48).foldl (fun words _ => words.push (nextWord words)) words

/-- The big-endian words of a block of bytes. -/
def wordsOf : List UInt8 → List UInt32
  | a :: b :: c :: d :: rest =>
    ((a.toUInt32 <<< 24) ||| (b.toUInt32 <<< 16) ||| (c.toUInt32 <<< 8) ||| d.toUInt32) ::
      wordsOf rest
  | _ => []

/-- The state after one more block. -/
def State.compress (s : State) (block : List UInt8) : State :=
  let words := schedule (wordsOf block).toArray
  let rounds := words.toList.zip roundConstants
  s.add (rounds.foldl (fun s (word, constant) => s.round word constant) s)

/-- The bytes of a number, the highest first. -/
def bigEndian (count value : Nat) : List UInt8 :=
  (List.range count).reverse.map fun i => (value / Nat.pow 256 i).toUInt8

/-- A message with its padding: a one bit, zeros up to eight bytes before the end of a block, and
the length in bits. -/
def padded (message : List UInt8) : List UInt8 :=
  let zeros := (55 + 64 - message.length % 64) % 64
  message ++ 0x80 :: List.replicate zeros 0 ++ bigEndian 8 (8 * message.length % Nat.pow 2 64)

/-- The state after as many whole blocks as `count` allows. -/
def absorb : Nat → State → List UInt8 → State
  | 0, s, _ => s
  | count + 1, s, bytes => absorb count (s.compress (bytes.take 64)) (bytes.drop 64)

/-- The words of a state as bytes. -/
def State.bytes (s : State) : List UInt8 :=
  [s.a, s.b, s.c, s.d, s.e, s.f, s.g, s.h].flatMap fun word => bigEndian 4 word.toNat

/-- The thirty-two bytes of the digest of a message. -/
def sha256 (message : List UInt8) : List UInt8 :=
  let whole := padded message
  (absorb (whole.length / 64) State.initial whole).bytes

/-- The digest of a message in lower-case hexadecimal digits. -/
def sha256Hex (message : List UInt8) : String :=
  Number.writeBytes (sha256 message)

end Digest

end TextVectors
