import TextVectors.Number.Hexadecimal

/-!
# Sets of characters

A set of code points is kept as the increasing list of the points where
membership changes, starting outside the set. A code point belongs to the set
iff an odd number of these points are not above it. The sets here are Unicode
properties; each is written as the distances between its points of change, in
hexadecimal.
-/

namespace TextVectors

namespace Text

/-- A set of code points, given by the increasing points where membership changes. -/
structure CodeSet where
  changes : Array Nat

namespace CodeSet

/-- Reads a set from the distances between its points of change. -/
def ofDistances (lines : List String) : CodeSet :=
  let distances := (lines.flatMap (·.splitOn " ")).map fun word =>
    (Number.readHex? word.toList).getD 0
  ⟨(distances.foldl (fun (points, last) d => (points.push (last + d), last + d))
    ((#[], 0) : Array Nat × Nat)).1⟩

/-- The number of points from `low` on and before `high` that are not above `code`, plus `low`,
for an increasing array whose points before `low` are not above `code`. -/
def countUpTo (points : Array Nat) (code low high : Nat) : Nat :=
  if low < high then
    let middle := (low + high) / 2
    if points.getD middle 0 ≤ code then countUpTo points code (middle + 1) high
    else countUpTo points code low middle
  else low
termination_by high - low

/-- Whether a character belongs to a set. -/
def contains (set : CodeSet) (c : Char) : Bool :=
  countUpTo set.changes c.toNat 0 set.changes.size % 2 == 1

end CodeSet

/-- Characters that a quoted text does not show as they are: controls, formats, surrogates,
private and unassigned code points, separators other than the space, and marks that extend the
character before them. -/
def hiddenSet : CodeSet :=
  CodeSet.ofDistances
    ["0 20 5f 22 c 1 252 70 8 2 6 4 7 1 1 1 14 1 e0 7 a6 1 26 2 32 2 3 2e 1 1 1 2 1 2 1 9 1b 4 6",
    "11 a b 1 1 2e 15 10 1 65 8 1 6 2 2 1 4 20 2 1 1 1e 1d 59 b 1 e 2b 9 7 3 18 4 1 9 1 3 1 7 f 1",
    "19 5 1 1 b 5 1f 11 2a 39 37 1 1 1 4 8 4 1 3 7 a 2 1d 1 2 1 8 2 2 2 16 1 7 1 1 3 4 3 1 1 2 6",
    "2 2 2 1 1 d 2 1 3 4 18 5 1 1 6 4 2 2 16 1 7 1 2 1 2 1 2 4 3 18 4 1 1 7 a 2 3 1 1 c 1 1 9 1 3",
    "1 16 1 7 1 2 1 5 3 4 8 1 1 2 3 1 f 2 4 c 7 1 8 2 1 8 2 2 2 16 1 7 1 2 1 5 3 1 2 1 6 2 2 2 f",
    "2 1 3 4 12 b 1 1 6 3 3 1 4 3 2 1 1 1 2 3 2 3 3 3 c 5 1 1 2 3 3 1 3 3 1 15 15 6 3 1 8 1 3 1",
    "17 1 10 3 1 3 4 13 3 2 1 2 2 4 a 7 a 1 b 1 3 1 17 1 a 1 5 3 2 1 2 1 2 2 2 1 2 11 2 1 2 4 a 1",
    "2 f b 1 3 1 29 2 1 1 2 5 3 1 3 1 2 4 3 1 a 4 1a 2 2 1 12 3 18 1 9 1 1 2 7 9 2 6 7 7 a 2 3 c",
    "30 1 2 b 8 8 d 25 2 1 1 1 5 1 18 1 1 1 a 1 2 9 1 2 5 1 1 9 a 2 4 20 18 2 1b 1 1 1 1 1 e 1 24",
    "12 1 5 1 2 5 31 8 1 6 1 d 25 2d 4 1 6 1 2 2 2 19 2 4 3 10 4 d 1 2 2 6 1 f 1 28 1 1 5 1 2 179",
    "1 4 2 7 1 1 1 4 2 29 1 4 2 21 1 4 2 7 1 1 1 4 2 f 1 39 1 4 2 43 5 1d 3 1a 6 56 2 6 2 280 1",
    "1c 3 59 7 12 3 1 9 13 2 3 9 12 e d 1 3 f 34 2 1 7 8 1 2 b 9 3 a 6 a 6 b 5 a 6 59 7 5 2 22 1",
    "1 5 46 a 1f 4 4 2 3 4 2 1 6 7 1 3 2a 2 5 b 2c 4 1a 6 b 3 39 2 2 3 38 1 1 9 1 1 2 8 6 d a 6 a",
    "6 e 56 30 7 1 1 5 1 a 3 1b 9 b 3 20 4 2 2 1 3 38 1 1 2 3 1 1 3 2 8 30 8 2 5 f 3 3c 7 2b 2 b",
    "b 1 d 1 7 4 1 6 1 3 2 1 5 c0 40 116 2 6 2 26 2 6 2 8 1 1 1 1 1 1 1 1f 2 35 1 f 1 e 2 6 1 13",
    "2 3 1 9 11 18 8 2f 11 2 2 1b 1 d 3 21 3f 8c 4 297 19 b 15 714 2 20 1 158 3 2 5 2d 1 1 5 1 2",
    "38 7 2 f 17 9 7 1 7 1 7 1 7 1 7 1 7 1 7 1 7 21 5e 22 1a 1 59 c d6 1a c 5 29 6 10 1 56 4 65 5",
    "2b 1 5e 1 54 c 2f 1 726d 3 37 9 15c 14 2f 4 1 a 20 2 50 2 6 8 cb 5 2 1 1 1 5 18 10 1 3 1 4 1",
    "19 2 5 4 a 6 38 8 44 a c 18 d 1 26 8 19 b 2 b 1e 6 30 1 2 4 2 2 10 1 b 4 7 1 19 1 29 6 2 2 2",
    "b 3 1 8 1 1 2 a 2 20 1 33 1 1 3 2 2 5 2 1 1 1 18 11 2 8 b 6 2 6 2 6 9 7 1 7 1 3c 4 75 1 2 1",
    "4 3 a 6 2ba4 c 17 4 31 2104 16e 2 6a 26 7 c 5 5 1 1 18 1 5 1 1 1 2 1 2 1 7d 10 1bd 2 36 7 1",
    "20 10 10 a 16 23 1 13 1 4 4 5 1 87 4 9d 2 1f 3 6 2 6 2 6 2 3 3 7 1 7 d 2 2 c 1 1a 1 13 1 2 1",
    "f 2 e 22 7b 5 3 4 2d 3 58 1 d 3 1 2f 2d 83 1d 3 31 10 1b 4 24 9 1e 5 26 a 1e 1 25 4 e 2a 9e",
    "2 a 6 24 4 24 4 28 8 34 b c 1 f 1 7 1 2 1 b 1 f 1 7 1 2 43 137 9 16 a 8 18 6 1 2a 1 9 45 6 2",
    "1 1 2c 1 2 3 1 2 17 1 48 8 9 30 13 1 2 5 21 3 1b 5 1 40 38 4 14 2 2f f 4 1 3 1 1d a 9 7 9 7",
    "40 20 25 6 c 9 36 3 1d 2 1b 5 1a 7 4 c 7 50 49 37 33 d 33 7 2a c a 126 1f 1 2a 3 1 2 2 4e 28",
    "8 16 b 9 16 12 4 4 26 1c 14 17 9 1 1 36 f 7 4 1e 1 2 2 1 c 31 4 2 2 2 1 4 e 19 7 a 9 24 5 1",
    "9 12 8 23 1 3 b 34 9 a 4 2 1 10 1 14 b 12 1 1c 3 2 1 1 2 6 42 7 1 1 1 4 1 f 1 b 6 2f 1 3 d a",
    "8 2 1 8 2 2 2 16 1 7 1 2 1 5 3 1 1 1 1 4 2 2 2 3 2 1 c 7 9c 38 8 2 3 1 1 15 1 1 1 3 1e 30 1",
    "2 6 1 1 2 1 1 2 1 2 4 8 a a6 2f 1 2 6 4 2 1 2 1b 24 33 8 2 1 1 2 4 b a 6 d 13 2b 1 1 1 2 6 1",
    "1 2 6 a 36 1b 5 2 4 1 9 17 b9 2f 9 1 2 1 64 53 c 8 2 1 2 8 1 2 1 18 1 5 1 2 4 1 1 4 1 3 9 a",
    "46 8 2 2a 8 4 1 4 1b 1 a 28 6 2 4 8 9 1 6 2 3 2e d 1 2 9 d 49 107 9 1 26 e 1 1 6 a 1d 3 20",
    "19 1 7 1 2 1 4b 7 1 2 1 26 15 1 9 a 6 6 1 2 1 25 4 2 1 1 1 1 7 a 136 13 2 4 b7 1 f 32 d 39b",
    "66 6f 1 5 b c4 a4c 63 d 42f fd1 247 21b9 239 7 1f 1 a 4 51 1 a 6 1e 7 1 a 30 7 f a a 1 7 1",
    "15 5 13 2b0 5b 65 4b 5 38 b d 40 4 c 2 e 17f8 8 4d6 2a 9 22e7 4 1 7 1 2 1 123 2d 3 11 4 8",
    "18c 904 6b 5 d 3 9 7 a 2 1 2 1 12b0 74 3c f6 a 27 2 3c 1 1 3 4 15 2 7 1e 4 3d 15 42 3 1 9a",
    "14 c 57 9 19 87 55 1 47 1 2 2 1 2 2 2 4 1 c 1 1 1 7 1 41 1 4 2 8 1 7 1 1c 1 4 1 5 1 1 3 7 1",
    "154 2 124 2 232 37 4 32 8 1 e 1 7 474 1f 1e1 2d a 7 2 a 4 2 140 1e 12 2c 4 a 5 1 4e0 7 1 4 1",
    "2 1 f 1 c5 2 9 30 44 7 1 4 a 4 2 311 44 4c 3d c2 4 1 1b 1 2 1 1 2 1 1 a 1 4 1 1 1 1 6 1 4 1",
    "1 1 1 1 1 3 1 2 1 1 2 1 1 1 1 1 1 1 1 1 1 2 1 1 2 4 1 7 1 4 1 4 1 1 1 a 1 11 5 3 1 5 1 11 34",
    "2 10e 2c 4 64 c f 2 f 1 f 1 25 a ae 38 1d d 2c 4 9 7 2 e 6 9a 3d8 5 10 3 d 3 74 c 59 7 c 4 1",
    "f c 4 38 8 a 6 28 8 1e 2 2 4e 154 c e 2 5 3 5 3 7 9 1d 3 b 5 6 a a 6 8 8 7 9 93 1 37 25 a",
    "406 a6e0 20 1039 7 de 2 1682 e 1d31 c1f 21e 5e2 134b"]

/-- Characters of words: letters, marks, decimal digits, letter numbers, connecting punctuation
and the two joiners. -/
def wordSet : CodeSet :=
  CodeSet.ofDistances
    ["30 a 7 1a 4 1 1 1a 2f 1 a 1 4 1 5 17 1 1f 1 1ca 4 c e 5 7 1 1 1 11 75 1 2 2 4 1 1 6 1 1 3 1",
    "1 1 14 1 53 1 8b 1 ad 1 26 2 1 6 29 8 2d 1 1 1 2 1 2 1 1 8 1b 4 4 1d b 5 4a 4 66 1 8 2 a 1",
    "13 2 1 10 3b 2 65 e 36 4 1 2 1 2 2e 12 1c 4 b 5 18 1 6 9 4a 1 81 2 a 1 13 1 8 2 2 2 16 1 7 1",
    "1 3 4 2 9 2 2 2 4 8 1 4 2 1 5 2 c a 1 1 1 2 3 1 6 4 2 2 16 1 7 1 2 1 2 1 2 2 1 1 5 4 2 2 3 3",
    "1 7 4 1 1 7 10 b 3 1 9 1 3 1 16 1 7 1 2 1 5 2 a 1 3 1 3 2 1 f 4 2 a 9 7 1 3 1 8 2 2 2 16 1 7",
    "1 2 1 5 2 9 2 2 2 3 7 3 4 2 1 5 2 a 1 1 10 2 1 6 3 3 1 4 3 2 1 1 1 2 3 2 3 3 3 c 4 5 3 3 1 4",
    "2 1 6 1 e a 10 d 1 3 1 17 1 10 2 9 1 3 1 4 7 2 1 3 2 1 2 4 2 a 10 4 1 8 1 3 1 17 1 a 1 5 2 9",
    "1 3 1 4 7 2 6 2 1 4 2 a 1 2 d d 1 3 1 33 1 3 1 5 5 4 7 5 2 a a 6 1 3 1 12 3 18 1 9 1 1 2 7 3",
    "1 4 6 1 1 1 8 6 a 2 2 d 3a 5 f 1 a 27 2 1 1 1 5 1 18 1 1 1 17 2 5 1 1 1 6 2 a 2 4 20 1 17 2",
    "6 a b 1 1 1 1 1 4 a 1 24 4 14 1 12 1 24 9 1 39 4a 6 4e 2 26 1 1 5 1 2 2b 1 14d 1 4 2 7 1 1 1",
    "4 2 29 1 4 2 21 1 4 2 7 1 1 1 4 2 f 1 39 1 4 2 43 2 3 20 10 10 56 2 6 3 26c 2 11 1 1a 5 4b 3",
    "b 7 16 9 16 b 14 c d 1 3 1 2 c 54 3 1 4 2 2 a 21 3 1 b 6 59 7 2b 5 46 a 1f 1 c 4 c a 28 2 5",
    "b 2c 4 1a 6 a 26 1c 4 3f 1 1d 2 b 6 a d 1 8 1f 31 4d 3 a 11 9 c 74 c 38 8 a 3 31 2 9 7 2b 2",
    "3 10 3 1 27 5 216 2 6 2 26 2 6 2 8 1 1 1 1 1 1 1 1f 2 35 1 7 1 1 3 3 1 7 3 4 2 6 4 d 5 3 1 7",
    "f 2 31 2 13 1 1c 1 d 1 10 d 33 21 11 1 4 1 2 a 1 1 3 5 6 1 1 1 1 1 1 4 1 b 2 4 5 5 4 1 11 29",
    "32d 34 716 e5 6 9 c 26 1 1 5 1 2 38 7 1 f 18 9 7 1 7 1 7 1 7 1 7 1 7 1 7 1 7 1 20 2f 1 1d5 3",
    "19 f 1 5 2 5 4 56 2 2 2 3 1 5a 1 4 5 2b 1 5e 11 20 30 10 200 19c0 40 568d 43 2e 2 10d 3 1c",
    "14 33 1 a 1 73 25 9 2 67 2 40 5 2 1 1 1 5 18 36 4 1 13 34 c 46 a a 6 18 3 1 1 31 2 24 c 1d 3",
    "41 e b 6 1f 1 37 9 e 2 a 6 17 3 49 18 3 2 10 2 5 a 6 2 6 2 6 9 7 1 7 1 2b 1 e 6 7b 1 2 2 a 6",
    "2ba4 c 17 4 31 2104 16e 2 6a 26 7 c 5 5 c 1 d 1 5 1 1 1 2 1 2 1 6c 21 16b 12 40 2 36 28 c 4",
    "10 10 10 3 2 18 3 20 5 1 87 13 a 7 1a 4 1 1 1a b 59 3 6 2 6 2 6 2 3 23 c 1 1a 1 13 1 2 1 f 2",
    "e 22 7b 45 35 88 1 82 1d 3 31 f 1 1f 20 d 1e 5 2b 5 1e 2 24 4 8 1 5 2a 9e 2 a 6 24 4 24 4 28",
    "8 34 c b 1 f 1 7 1 2 1 b 1 f 1 7 1 2 43 137 9 16 a 8 18 6 1 2a 1 9 45 6 2 1 1 2c 1 2 3 1 2",
    "17 a 17 9 1f 41 13 1 2 a 16 a 1a 46 38 6 2 40 4 1 2 5 8 1 3 1 1d 2 3 4 1 20 1d 3 1d 23 8 1",
    "1e 19 36 a 16 a 13 d 12 6e 49 37 33 d 33 d 28 8 a 146 2a 1 2 3 2 4e 1d a 1 8 21 1f 16 2a 15",
    "1b 17 9 47 1f 10 9 3c 7 1 d 19 7 a 6 35 1 a 4 4 8 24 2 1 9 45 4 4 1 d 1 1 23 12 1 25 6 1 41",
    "7 1 1 1 4 1 f 1 a 7 3b 5 a 6 4 1 8 2 2 2 16 1 7 1 2 1 5 1 a 2 2 2 3 2 1 6 1 5 7 2 7 3 5 8b",
    "4b 5 a 4 4 1e 46 1 1 8 a a6 36 2 9 17 6 22 41 3 1 b a 26 39 7 a 36 1b 2 f 4 a 6 7 b9 3b 65",
    "4a 15 8 2 1 2 8 1 2 1 1e 1 2 2 9 c a 46 8 2 2e 2 8 1 2 1b 3f 8 1 8 4a 3 1 12 49 107 9 1 2d 1",
    "9 f a 18 1e 2 16 1 e 49 7 1 2 1 2c 3 1 1 2 1 9 8 a 6 6 1 2 1 25 1 2 1 6 7 a 136 17 b9 1 4f",
    "39a 66 6f 11 c4 a4c 61 f 42f fd1 247 21b9 239 7 1f 1 a 6 4f 1 a 6 1e 2 5 b 37 9 4 c a 9 15 5",
    "13 2b0 40 80 4b 4 39 7 11 40 2 1 2 b 2 e 17f8 8 4d6 2a 9 22e7 4 1 7 1 2 1 123 2d 3 11 4 8",
    "18c 904 6b 5 d 3 9 7 a 3 2 1261 2e 2 17 21e 5 3 6 8 8 2 7 1e 4 94 3 1bb 55 1 47 1 2 2 1 2 2",
    "2 4 1 c 1 1 1 7 1 41 1 4 2 8 1 7 1 1c 1 4 1 5 1 1 3 7 1 154 2 19 1 19 1 1f 1 19 1 1f 1 19 1",
    "1f 1 19 1 1f 1 19 1 8 2 32 200 37 4 32 8 1 e 1 16 5 1 f 450 1f e1 7 1 11 2 7 1 2 1 5 d5 2d 3",
    "e 2 a 4 1 141 1f 11 3a 4e6 7 1 4 1 2 1 f 1 c5 b 7 29 4c 4 a 4a6 4 1 1b 1 2 1 1 2 1 1 a 1 4 1",
    "1 1 1 6 1 4 1 1 1 1 1 1 3 1 2 1 1 2 1 1 1 1 1 1 1 1 1 1 2 1 1 2 4 1 7 1 4 1 4 1 1 1 a 1 11 5",
    "3 1 5 1 11 274 1a 6 1a 6 1a a66 a 406 a6e0 20 1039 7 de 2 1682 e 1d31 c1f 21e 5e2 134b aedb5",
    "f0"]

/-- Characters whose general category is one of the punctuations. -/
def punctuationSet : CodeSet :=
  CodeSet.ofDistances
    ["21 3 1 6 1 4 a 2 3 2 1a 3 1 1 1b 1 1 1 23 1 5 1 3 1 a 2 3 1 3 1 2be 1 8 1 1d2 6 29 2 33 1 1",
    "1 2 1 2 1 2c 2 14 2 1 2 d 1 1 3 4a 4 66 1 2b e e9 3 36 f 1f 1 105 2 a 1 8c 1 78 1 79 1 186 1",
    "c 1 16f 1 5a 1 a 2 a8 f 1 1 25 4 47 1 4a 5 4 2 6f 6 ab 1 264 9 97 1 26d 1 2c 2 4e 3 47 2 9d",
    "3 1 3 25 b 139 2 d8 2 80 7 1 6 ac 7 1c 2 7d 4 3b 5 3e 2 40 8 b 1 33c 18 8 14 1 d 1 c 1e 2 e",
    "2 279 4 1d 2 43d e 4f 2 1f a 193 16 3f 4 20 2 2fb 4 1 2 70 1 8f 2f 1 20 2 c 1a3 3 4 a 2 c 10",
    "1 c 1 62 1 5a 1 7402 2 10d 3 63 1 a 1 73 6 17c 4 56 2 28 3 1 1 31 2 2f 1 61 d 10 2 7c 4 7e 2",
    "10 2 f9 1 5152 2 d0 a 16 23 1 e 1 1 4 1 1 2 95 3 1 6 1 4 a 2 3 2 1a 3 1 1 1b 1 1 1 1 7 19a 3",
    "29c 1 30 1 19e 1 2e7 1 c7 1 1f 1 110 9 26 1 70 7 42 7 59 4 310 1 a7 5 2c 4 bd 7 6d 2 1 4 7e",
    "4 30 2 4f 4 4 1 d 1 1 3 58 6 6b 1 1a1 5 a 2 1 1 68 1 fa 17 69 3 1c d 4c 1 82 3 fc 1 108 3 9b",
    "1 5c 8 53 3 1 5 19e 5 2a 2 285 2 106 1 470 5 b7c 2 3a7b 2 85 1 41 5 8 1 352 4 147 1 4cbc 1",
    "1de7 5 ed2 2"]

/-- Controls, formats, private and unassigned code points. -/
def otherSet : CodeSet :=
  CodeSet.ofDistances
    ["0 20 5f 21 d 1 2ca 2 6 4 7 1 1 1 14 1 18d 1 26 2 32 2 3 1 37 8 1b 4 6 11 16 1 c0 1 30 2 3b 2",
    "65 e 3b 2 31 2 f 1 1c 2 1 1 b 5 1f 9 4a 1 a1 1 8 2 2 2 16 1 7 1 1 3 4 2 9 2 2 2 4 8 1 4 2 1",
    "5 2 19 2 3 1 6 4 2 2 16 1 7 1 2 1 2 1 2 2 1 1 5 4 2 2 3 3 1 7 4 1 1 7 11 a 3 1 9 1 3 1 16 1",
    "7 1 2 1 5 2 a 1 3 1 3 2 1 f 4 2 c 7 7 1 3 1 8 2 2 2 16 1 7 1 2 1 5 2 9 2 2 2 3 7 3 4 2 1 5 2",
    "12 a 2 1 6 3 3 1 4 3 2 1 1 1 2 3 2 3 3 3 c 4 5 3 3 1 4 2 1 6 1 e 15 5 d 1 3 1 17 1 10 2 9 1",
    "3 1 4 7 2 1 3 2 1 2 4 2 a 7 16 1 3 1 17 1 a 1 5 2 9 1 3 1 4 7 2 6 2 1 4 2 a 1 2 d d 1 3 1 33",
    "1 3 1 6 4 10 2 1a 1 3 1 12 3 18 1 9 1 1 2 7 3 1 4 6 1 1 1 8 6 a 2 3 c 3a 4 1d 25 2 1 1 1 5 1",
    "18 1 1 1 17 2 5 1 1 1 6 2 a 2 4 20 48 1 24 4 27 1 24 1 f 1 d 25 c6 1 1 5 1 2 179 1 4 2 7 1 1",
    "1 4 2 29 1 4 2 21 1 4 2 7 1 1 1 4 2 f 1 39 1 4 2 43 2 20 3 1a 6 56 2 6 2 29d 3 59 7 16 9 18",
    "9 14 c d 1 3 1 2 c 5e 2 a 6 a 6 e 1 b 6 59 7 2b 5 46 a 1f 1 c 4 c 4 1 3 2a 2 5 b 2c 4 1a 6 b",
    "3 3e 2 41 1 1d 2 b 6 a 6 e 2 1f 31 4d 3 2f 1 74 8 3c 3 f 3 3c 7 2b 2 b 8 2b 5 216 2 6 2 26 2",
    "6 2 8 1 1 1 1 1 1 1 1f 2 35 1 f 1 e 2 6 1 13 2 3 1 9 1 b 5 1a 5 31 10 2 2 1b 1 d 3 21 f 21 f",
    "8c 4 297 19 b 15 714 2 20 1 15d 5 2d 1 1 5 1 2 38 7 2 e 18 9 7 1 7 1 7 1 7 1 7 1 7 1 7 1 7 1",
    "7e 22 1a 1 59 c d6 1a c 4 40 1 56 2 67 5 2b 1 5e 1 54 c 2f 1 726d 3 37 9 15c 14 b8 8 cb 5 2",
    "1 1 1 5 18 3b 3 a 6 38 8 46 8 c 6 74 b 1e 3 4e 1 b 4 21 1 37 9 e 2 a 2 67 18 1c a 6 2 6 2 6",
    "9 7 1 7 1 3c 4 7e 2 a 6 2ba4 c 17 4 31 4 800 1900 16e 2 6a 26 7 c 5 5 1a 1 5 1 1 1 2 1 2 1",
    "7d 10 1bd 2 36 7 1 20 2a 6 33 1 13 1 4 4 5 1 87 4 be 3 6 2 6 2 6 2 3 3 7 1 7 d 2 2 c 1 1a 1",
    "13 1 2 1 f 2 e 22 7b 5 3 4 2d 3 58 1 d 3 1 2f 2e 82 1d 3 31 f 1c 4 24 9 1e 5 2b 5 1e 1 25 4",
    "e 2a 9e 2 a 6 24 4 24 4 28 8 34 b c 1 f 1 7 1 2 1 b 1 f 1 7 1 2 43 137 9 16 a 8 18 6 1 2a 1",
    "9 45 6 2 1 1 2c 1 2 3 1 2 17 1 48 8 9 30 13 1 2 5 21 3 1b 5 1 40 38 4 14 2 32 1 2 5 8 1 3 1",
    "1d 2 3 4 a 7 9 7 40 20 27 4 c 9 36 3 1d 2 1b 5 1a 7 4 c 7 50 49 37 33 d 33 7 2e 8 a 126 1f 1",
    "2a 1 3 2 2 4e 28 8 2a 16 1a 26 1c 14 17 9 4e 4 24 9 3e 1 5 d 19 7 a 6 35 1 12 8 27 9 60 1 14",
    "b 12 1 2c 41 7 1 1 1 4 1 f 1 b 6 3b 5 a 6 4 1 8 2 2 2 16 1 7 1 2 1 5 1 a 2 2 2 3 2 1 6 1 5 7",
    "2 7 3 5 8b 5c 1 5 1e 48 8 a a6 36 2 26 22 45 b a 6 d 13 3a 6 a 36 1b 2 f 4 17 b9 3c 64 53 c",
    "8 2 1 2 8 1 2 1 1e 1 2 2 c 9 a 46 8 2 2e 2 b 1b 48 8 53 d 49 107 9 1 2d 1 e a 1d 3 20 2 16 1",
    "e 49 7 1 2 1 2c 3 1 1 2 1 9 8 a 6 6 1 2 1 25 1 2 1 6 7 a 136 19 b7 1 f 32 d 39b 66 6f 1 5 b",
    "c4 a4c 63 d 42f fd1 247 21b9 239 7 1f 1 a 4 51 1 a 6 1e 2 6 a 46 a a 1 7 1 15 5 13 2b0 5b 65",
    "4b 4 39 7 11 40 5 b 2 e 17f8 8 4d6 2a 9 22e7 4 1 7 1 2 1 123 2d 3 11 4 8 18c 904 6b 5 d 3 9",
    "7 a 2 4 1260 2e 2 17 9 74 3c f6 a 27 2 4a 8 70 15 46 9a 14 c 57 9 19 87 55 1 47 1 2 2 1 2 2",
    "2 4 1 c 1 1 1 7 1 41 1 4 2 8 1 7 1 1c 1 4 1 5 1 1 3 7 1 154 2 124 2 2be f 5 1 f 450 1f e1 7",
    "1 11 2 7 1 2 1 5 d5 2d 3 e 2 a 4 2 140 1f 11 3a 5 1 4e0 7 1 4 1 2 1 f 1 c5 2 10 29 4c 4 a 4",
    "2 311 44 4c 3d c2 4 1 1b 1 2 1 1 2 1 1 a 1 4 1 1 1 1 6 1 4 1 1 1 1 1 1 3 1 2 1 1 2 1 1 1 1 1",
    "1 1 1 1 1 2 1 1 2 4 1 7 1 4 1 4 1 1 1 a 1 11 5 3 1 5 1 11 34 2 10e 2c 4 64 c f 2 f 1 f 1 25",
    "a ae 38 1d d 2c 4 9 7 2 e 6 9a 3d8 5 10 3 d 3 74 c 59 7 c 4 1 f c 4 38 8 a 6 28 8 1e 2 2 4e",
    "154 c e 2 5 3 5 3 7 9 1d 3 b 5 6 a a 6 8 8 7 9 93 1 37 25 a 406 a6e0 20 1039 7 de 2 1682 e",
    "1d31 c1f 21e 5e2 134b aedb5 f0"]

/-- Marks that take no space of their own. -/
def nonspacingSet : CodeSet :=
  CodeSet.ofDistances
    ["300 70 113 5 109 2d 1 1 1 2 1 2 1 1 48 b 30 15 10 1 65 7 2 6 2 2 1 4 23 1 1e 1b 5b b 3a 9 9",
    "1 18 4 1 9 1 3 1 5 2b 3 3c 8 2a 18 1 20 37 1 1 1 4 8 4 1 3 7 a 2 1d 1 3a 1 4 4 8 1 14 2 1a 1",
    "2 2 39 1 4 2 4 2 2 3 3 1 1e 2 3 1 b 2 39 1 4 5 1 2 4 1 14 2 16 6 1 1 3a 1 2 1 1 4 8 1 7 2 b",
    "2 1e 1 3d 1 c 1 32 1 3 1 37 1 1 3 5 3 1 4 7 2 b 2 1d 1 3a 1 2 1 6 1 5 2 14 2 1c 2 39 2 4 4 8",
    "1 14 2 1d 1 48 1 7 3 1 1 5a 1 2 7 c 8 62 1 2 9 b 6 4a 2 1b 1 1 1 1 1 37 e 1 5 1 2 5 b 1 24 9",
    "1 66 4 1 6 1 2 2 2 19 2 4 3 10 4 d 1 2 2 6 1 f 1 2bf 3 3b2 3 1d 2 1e 2 1e 2 40 2 1 7 8 1 2 b",
    "9 1 2d 3 1 1 75 2 22 1 76 3 4 2 9 1 6 3 db 2 2 1 3a 1 1 7 1 1 1 1 2 8 6 a 2 1 30 e 1 10 31 4",
    "30 1 1 5 1 1 5 1 28 9 c 2 20 4 2 2 1 3 38 1 1 2 3 1 1 3 3a 8 2 2 98 3 1 d 1 7 4 1 6 1 3 2 c6",
    "40 2d0 d 4 1 3 c bfe 3 8d 1 60 20 22a 4 6b 2 75d4 1 4 a 20 2 50 2 110 1 3 1 4 1 19 2 5 1 97",
    "2 1a 12 d 1 26 8 19 b 2e 3 30 1 2 4 2 2 27 1 43 6 2 2 2 2 c 1 8 1 2f 1 33 1 1 3 2 2 5 2 1 1",
    "2a 2 8 1 ee 1 2 1 4 1 4f30 1 2e1 10 10 10 3cd 1 e2 1 95 5 686 3 1 2 5 4 28 3 4 1 a5 2 23d 4",
    "183 2 99 b 31 4 7b 1 36 f 29 1 2 2 a 3 31 4 2 2 7 1 3d 3 24 5 1 8 3e 1 c 2 34 9 a 4 2 1 5f 3",
    "2 1 1 2 6 1 a0 1 3 8 15 2 39 2 3 1 25 7 3 5 c3 8 2 3 1 1 17 1 54 6 1 1 4 2 1 2 ee 4 6 2 1 2",
    "1b 2 55 8 2 1 1 2 6a 1 1 1 2 6 1 1 65 3 2 4 1 5 103 9 1 2 100 2 1 1 4 1 90 4 2 2 4 1 20 a 28",
    "6 2 4 8 1 9 6 2 3 2e d 1 2 196 7 1 6 1 1 52 16 2 7 1 2 1 2 7a 6 3 1 1 2 1 7 1 1 48 2 3 1 1 1",
    "15b 2 4bfb 5 3b 7 418 1 3f 4 51 1 4cb8 2 1261 2e 2 17 220 3 11 8 2 7 1e 4 94 3 7bb 37 4 32 8",
    "1 e 1 16 5 1 f 550 7 1 11 2 7 1 2 1 5 105 7 177 1 3d 4 5e0 7 6d 7 c17b5 f0"]

end Text

end TextVectors
