/-!
# Words of bytes

A word is a natural number written as bytes, the least significant one first.
-/

namespace TextVectors

namespace Number

/-- The number of a word. -/
def ofLittleEndian (bytes : List UInt8) : Nat :=
  bytes.foldr (fun byte rest => byte.toNat + 256 * rest) 0

/-- The word of `size` bytes at the front, and what comes after it. -/
def takeWord (size : Nat) (bytes : List UInt8) : Option (Nat × List UInt8) :=
  if size ≤ bytes.length then some (ofLittleEndian (bytes.take size), bytes.drop size) else none

/-- The first `count` words of `size` bytes each; a word that is cut off counts as far as it
goes. -/
def words (size : Nat) : Nat → List UInt8 → List Nat
  | 0, _ => []
  | count + 1, bytes => ofLittleEndian (bytes.take size) :: words size count (bytes.drop size)

end Number

end TextVectors
