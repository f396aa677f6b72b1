import TextVectors.Proofs.Json.Writing
import TextVectors.Proofs.Result
import TextVectors.Weights.Headed

/-!
# Reading tensors behind a header

A file of tensors is read if its header lists entries that fill what comes behind. Entries that
are listed in the order of their bytes are not moved when they are sorted.
-/

namespace TextVectors

namespace Weights

variable {file data : List UInt8} {header : String} {entries : List (String × Entry)}

/-- A list as it is if it is in order, or else sorted. -/
def inOrder {α : Type} (notAfter : α → α → Bool) (items : List α) : List α :=
  if items.Pairwise fun left right => notAfter left right then items
  else items.mergeSort notAfter

theorem mergeSort_eq_inOrder {α : Type} (notAfter : α → α → Bool) (items : List α) :
    items.mergeSort notAfter = inOrder notAfter items := by
  unfold inOrder
  split
  · next ordered => exact List.mergeSort_of_pairwise ordered
  · rfl

/-- The entries that a header lists. -/
def listed? (header : String) : Option (List (String × Entry)) :=
  (Json.readWhole (Json.tree Json.greatestDepth) (Json.utf8 header)).toOption.bind entriesOf?

/-- The tensors of entries, of the bytes behind their header. -/
def tensors (entries : List (String × Entry)) (data : List UInt8) : Weights :=
  entries.map fun (name, entry) =>
    (name, (entry.encoding.read (Tensor.size entry.shape)
      ((data.drop entry.first).take (entry.last - entry.first))).map fun numbers =>
        ⟨entry.shape, numbers⟩)

theorem ofHeaded_eq (file : List UInt8) :
    ofHeaded file = (readHeader file).map fun (entries, data) => tensors entries data := by
  rw [ofHeaded]
  cases readHeader file <;> rfl

/-- A file is read whose header is not too long and lists entries that fill the rest. -/
theorem ofHeaded_eq_ok {length : Nat} (whole : (Json.utf8 header).length = length)
    (counted : Number.takeWord 8 file = some (length, Json.utf8 header ++ data))
    (short : length ≤ longestHeader) (listed : listed? header = some entries)
    (filled : checkEntries 0 entries = .ok data.length) :
    ofHeaded file = .ok (tensors entries data) := by
  have long : ¬(Json.utf8 header ++ data).length < length := by
    rw [List.length_append]
    omega
  have decoded : String.fromUTF8? ((Json.utf8 header ++ data).take length).toByteArray =
      some header := by
    rw [List.take_left' whole, Json.fromUTF8?_utf8]
  rcases Option.bind_eq_some_iff.mp listed with ⟨tree, parsed, entered⟩
  have parsed := eq_ok_of_toOption parsed
  have read : readHeader file = .ok (entries, data) := by
    simp only [readHeader, counted, if_neg (Nat.not_lt.mpr short), if_neg long, decoded]
    rw [show header.toUTF8.toList = Json.utf8 header from rfl]
    simp only [parsed, entered, filled, ok_bind, List.drop_left' whole, ne_eq, not_true_eq_false,
      if_false]
    rfl
  rw [ofHeaded_eq, read]
  rfl

end Weights

end TextVectors
