import Mathlib.Algebra.Order.Floor.Div
import Mathlib.Data.List.Forall2
import TextVectors.Encoder

/-!
# Lists cut into pieces

The batches of an encoder are the pieces into which its texts are cut. The
pieces make up the list again, none of them is empty, and the piece with a given
number is the slice of the list that begins at that multiple of the size.

What a provider gives for the pieces has the lengths of the pieces, and so it is
cut in the same places: `cut_flatten_of_lengths` finds the results of the pieces
again in the list of all results.
-/

namespace TextVectors

namespace Encoder

variable {α β : Type}

@[simp]
theorem cut_nil (size : Nat) : cut size ([] : List α) = [] := by
  rw [cut]

theorem cut_cons (size : Nat) (x : α) (xs : List α) :
    cut size (x :: xs) = (x :: xs.take size) :: cut size (xs.drop size) := by
  rw [cut]

@[simp]
theorem flatten_cut (size : Nat) (xs : List α) : (cut size xs).flatten = xs := by
  fun_induction cut size xs with
  | case1 => rfl
  | case2 x xs ih => simp [ih]

theorem ne_nil_of_mem_cut {size : Nat} {xs piece : List α} (mem : piece ∈ cut size xs) :
    piece ≠ [] := by
  fun_induction cut size xs with
  | case1 => simp at mem
  | case2 x xs ih =>
      rcases List.mem_cons.mp mem with rfl | later
      · simp
      · exact ih later

/-- The piece with a number is a slice of the list. -/
theorem getElem?_cut {size number : Nat} {xs : List α}
    (inside : number * (size + 1) < xs.length) :
    (cut size xs)[number]? = some ((xs.drop (number * (size + 1))).take (size + 1)) := by
  induction number generalizing xs with
  | zero =>
      cases xs with
      | nil => simp at inside
      | cons x xs => simp [cut_cons]
  | succ number ih =>
      cases xs with
      | nil => simp at inside
      | cons x xs =>
          have split : (number + 1) * (size + 1) = number * (size + 1) + size + 1 :=
            Nat.succ_mul number (size + 1)
          rw [split, List.length_cons] at inside
          rw [cut_cons, List.getElem?_cons_succ, ih (by rw [List.length_drop]; omega), split,
            List.drop_succ_cons, List.drop_drop, Nat.add_comm size (number * (size + 1))]

theorem length_cut (size : Nat) (xs : List α) :
    (cut size xs).length = xs.length ⌈/⌉ (size + 1) := by
  rw [Nat.ceilDiv_eq_add_pred_div, Nat.add_succ_sub_one]
  fun_induction cut size xs with
  | case1 => exact (Nat.div_eq_of_lt (by simp)).symm
  | case2 x xs ih =>
      rw [List.length_cons, ih, List.length_drop, List.length_cons]
      rcases Nat.lt_or_ge xs.length size with short | long
      · rw [Nat.sub_eq_zero_of_le short.le, Nat.div_eq_of_lt (by omega)]
        exact (Nat.div_eq_of_lt_le (by omega) (by omega)).symm
      · rw [← Nat.add_div_right _ (Nat.succ_pos size)]
        congr 1
        omega

/-- Lists as long as the pieces of another list are the pieces of what they make up. -/
theorem cut_flatten_of_lengths {size : Nat} {xs : List α} {pieces : List (List β)}
    (lengths : List.Forall₂ (fun left right => left.length = right.length) (cut size xs) pieces) :
    cut size pieces.flatten = pieces := by
  fun_induction cut size xs generalizing pieces with
  | case1 =>
      rw [List.forall₂_nil_left_iff] at lengths
      simp [lengths]
  | case2 x xs ih =>
      rcases List.forall₂_cons_left_iff.mp lengths with ⟨piece, rest, same, later, rfl⟩
      cases piece with
      | nil => simp at same
      | cons y ys =>
          have length_ys : ys.length = min size xs.length := by
            simpa using same.symm
          rw [List.flatten_cons, List.cons_append, cut_cons]
          rcases Nat.lt_or_ge xs.length size with short | long
          · have last : rest = [] := by
              simpa [List.drop_eq_nil_of_le short.le] using later
            simp [last, List.take_of_length_le (by omega : ys.length ≤ size),
              List.drop_eq_nil_of_le (by omega : ys.length ≤ size)]
          · have full : ys.length = size := by omega
            rw [List.take_left' full, List.drop_left' full, ih later]

end Encoder

end TextVectors
