/-!
# Labels in plain letters

A label of a host name that is not ASCII is written in letters, digits and
hyphens. The ASCII characters come first; then, for every other character in the
order of their code points, follows the distance from the last one, counted over
all code points and all places in the label. A distance is written in digits of
base thirty-six, the lowest first, and every digit below a threshold ends it;
the thresholds adapt to the size of the distances.
-/

namespace TextVectors

namespace Text

namespace Punycode

/-- The digit of a value below thirty-six. -/
def digit (value : Nat) : Char :=
  if value < 26 then Char.ofNat ('a'.toNat + value) else Char.ofNat ('0'.toNat + (value - 26))

/-- The threshold of the digit at a position, counted in steps of thirty-six from one step on. -/
def threshold (bias position : Nat) : Nat :=
  max 1 (min 26 (position - bias))

/-- A distance in digits from a position on. -/
def digits (bias : Nat) (position value : Nat) : List Char :=
  let least := threshold bias position
  if value < least then [digit value]
  else
    let rest := value - least
    digit (least + rest % (36 - least)) :: digits bias (position + 36) (rest / (36 - least))
termination_by value
decreasing_by
  have positive : 1 ≤ threshold bias position := Nat.le_max_left _ _
  have quotient := Nat.div_le_self (value - threshold bias position)
    (36 - threshold bias position)
  omega

/-- Divides a distance until it is small, and counts the steps. -/
def shrink (distance steps : Nat) : Nat × Nat :=
  if 455 < distance then shrink (distance / 35) (steps + 1) else (distance, steps)
termination_by distance

/-- The bias after a distance, when `count` characters have been written. -/
def adapt (distance count : Nat) (first : Bool) : Nat :=
  let scaled := if first then distance / 700 else distance / 2
  let (rest, steps) := shrink (scaled + scaled / count) 0
  36 * steps + 36 * rest / (rest + 38)

/-- How far a label has been written. -/
structure State where
  written : List Char
  distance : Nat
  bias : Nat
  /-- The characters that have been written. -/
  count : Nat
  /-- Whether no distance has been written yet. -/
  first : Bool

/-- Passes over a character of the label while a code point is written. -/
def State.pass (code : Nat) (state : State) (c : Char) : State :=
  if c.toNat < code then { state with distance := state.distance + 1 }
  else if c.toNat = code then
    { written := state.written ++ digits state.bias 36 state.distance
      distance := 0
      bias := adapt state.distance (state.count + 1) state.first
      count := state.count + 1
      first := false }
  else state

/-- Writes the code points of a label that are given in increasing order. -/
def writeCodes (label : List Char) : List Nat → Nat → State → State
  | [], _, state => state
  | code :: codes, least, state =>
    let state :=
      { state with distance := state.distance + (code - least) * (state.count + 1) }
    let state := label.foldl (State.pass code) state
    writeCodes label codes (code + 1) { state with distance := state.distance + 1 }

/-- The letters and digits for a label. -/
def encode (label : List Char) : List Char :=
  let plain := label.filter (·.toNat < 0x80)
  let codes := (((label.map Char.toNat).filter (0x80 ≤ ·)).eraseDups).mergeSort
  let hyphen := if plain.isEmpty then [] else ['-']
  plain ++ hyphen ++ (writeCodes label codes 0x80 ⟨[], 0, 72, plain.length, true⟩).written

end Punycode

end Text

end TextVectors
