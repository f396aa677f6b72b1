import TextVectors.Encoder

/-!
# A sample provider

A provider without a model: the row of a text follows from the bytes of the
text. It can be told to fail on a text, to lose its last row, to give rows of
another length than it announces, and to take its time.
-/

namespace TextVectors

namespace Sample

open Number (Single)

/-- The seed of a text: the sum of its bytes plus their number. -/
def seed (text : String) : Nat :=
  let bytes := text.toUTF8.toList
  bytes.foldl (fun sum byte => sum + byte.toNat) 0 + bytes.length

/-- The raw row of a text: whole numbers from 1 to 13. -/
def row (text : String) (length : Nat) : List Single :=
  (List.range length).map fun i =>
    Single.nearest (Number.Format.single.nearest false ((seed text + i * 7) % 13 + 1) 1)

/-- How a sample provider behaves. -/
structure Behaviour where
  dimension : Nat
  rowLength : Nat
  /-- Any batch that holds this text fails. -/
  failOn : Option String := none
  dropsLastRow : Bool := false
  /-- How long each batch takes. -/
  delay : Nat := 0

def provider (behaviour : Behaviour) : Provider Single where
  dimension := behaviour.dimension
  embed texts :=
    let rows := texts.map (row · behaviour.rowLength)
    { rows :=
        if texts.any (fun text => behaviour.failOn == some text) then
          .error (.failed ⟨"simulated inference failure", []⟩)
        else .ok (if behaviour.dropsLastRow then rows.dropLast else rows)
      elapsed := behaviour.delay }

end Sample

end TextVectors
