import Mathlib.Algebra.BigOperators.Fin
import Mathlib.Algebra.BigOperators.Group.Finset.Basic
import Mathlib.Algebra.Field.Rat
import Mathlib.Algebra.Order.Field.Basic
import Mathlib.Algebra.Order.Ring.Rat
import Mathlib.Data.Fintype.BigOperators
import TextVectors.Proofs.SentenceEncoder.Filling

/-!
# Means over real tokens

In exact arithmetic the mean of a text is the arithmetic mean of the vectors of its real tokens,
those whose mark is one. Both the sum of the marked vectors and the sum of the marks are sums over
all positions in which only the real ones count. So a mean is the same if these two sums are, and
values at fillers, more fillers and the order of the positions change neither.

The tiny number is never divided by but where no token is real, and then the sum is zero.
-/

namespace TextVectors

open Finset

namespace Pooling

/-! ## Averages -/

section
variable {K : Type} [Field K] {tokens : Nat}

/-- The mean over the positions that are marked with one, and zero if there are none. -/
def average (value : Fin tokens → K) (mark : Fin tokens → Int) : K :=
  let real := univ.filter fun token => mark token = 1
  if real = ∅ then 0 else (∑ token ∈ real, value token) / real.card

variable {value : Fin tokens → K} {mark : Fin tokens → Int}
  (bits : ∀ token, mark token = 0 ∨ mark token = 1)
include bits

theorem sum_mul_mark :
    ∑ token, value token * (mark token : K) =
      ∑ token ∈ univ.filter (fun token => mark token = 1), value token := by
  rw [sum_filter]
  apply sum_congr rfl
  intro token _
  rcases bits token with filler | real
  · simp [filler]
  · simp [real]

theorem sum_mark :
    ∑ token, (mark token : K) = (univ.filter fun token => mark token = 1).card := by
  have ones : ∑ token, 1 * (mark token : K) =
      ∑ _token ∈ univ.filter (fun token => mark token = 1), 1 := sum_mul_mark bits
  simpa using ones

theorem average_eq_div :
    average value mark = (∑ token, value token * (mark token : K)) / ∑ token, (mark token : K) := by
  rw [sum_mul_mark bits, sum_mark bits, average]
  split
  · next none => simp [none]
  · rfl

/-- An average follows from the sum of the marked values and the sum of the marks. -/
theorem average_eq_average {others : Nat} {other : Fin others → K} {otherMark : Fin others → Int}
    (otherBits : ∀ token, otherMark token = 0 ∨ otherMark token = 1)
    (sums : ∑ token, other token * (otherMark token : K) = ∑ token, value token * (mark token : K))
    (counts : ∑ token, (otherMark token : K) = ∑ token, (mark token : K)) :
    average other otherMark = average value mark := by
  rw [average_eq_div otherBits, average_eq_div bits, sums, counts]

/-- The tiny number is less than any count of real tokens. -/
theorem average_eq_div_max [LinearOrder K] [IsStrictOrderedRing K] :
    average value mark =
      (∑ token, value token * (mark token : K)) / max (∑ token, (mark token : K)) (1 / 10 ^ 9) := by
  rw [sum_mul_mark bits, sum_mark bits, average]
  split
  · next none => simp [none]
  · next some =>
    have one_le : (1 : K) ≤ (univ.filter fun token => mark token = 1).card := by
      exact_mod_cast card_pos.mpr (nonempty_iff_ne_empty.mpr some)
    have tiny : (1 : K) / 10 ^ 9 ≤ 1 := by
      apply div_le_one_of_le₀
      · exact one_le_pow₀ Nat.one_le_ofNat
      · exact pow_nonneg (Nat.ofNat_nonneg 10) 9
    rw [max_eq_left (tiny.trans one_le)]

end

/-! ## Means of lists -/

namespace Arithmetic

/-- The exact arithmetic of an ordered field. -/
def ofField (K : Type) [Field K] [LinearOrder K] : Arithmetic K where
  zero := 0
  add := (· + ·)
  mul := (· * ·)
  div := (· / ·)
  max := Max.max
  ofInt value := value
  tiny := 1 / 10 ^ 9

variable {K : Type} [Field K] [LinearOrder K] {tokens width : Nat}

theorem weighted_ofFn (vector : Fin tokens → Fin width → K) (mark : Fin tokens → Int) :
    (ofField K).weighted width (List.ofFn fun token => List.ofFn (vector token)) (List.ofFn mark) =
      List.ofFn fun index => ∑ token, vector token index * (mark token : K) := by
  have run (sums : Fin width → K) :
      ((List.ofFn fun token => List.ofFn (vector token)).zip (List.ofFn mark)).foldl
        (fun sums marked => List.zipWith (ofField K).add sums
          (marked.1.map fun component => (ofField K).mul component ((ofField K).ofInt marked.2)))
        (List.ofFn sums) =
      List.ofFn fun index => sums index + ∑ token, vector token index * (mark token : K) := by
    induction tokens generalizing sums with
    | zero => simp
    | succ tokens ih =>
        simp only [List.ofFn_succ, List.zip_cons_cons, List.foldl_cons, List.map_ofFn,
          zipWith_ofFn, ih, Fin.sum_univ_succ, ← add_assoc]
        rfl
  have zeros : List.replicate width (ofField K).zero = List.ofFn fun _ : Fin width => (0 : K) := by
    rw [List.ofFn_const]
    rfl
  rw [weighted, zeros]
  apply (run _).trans
  simp only [zero_add]

theorem divisor_ofFn (mark : Fin tokens → Int) :
    (ofField K).divisor (List.ofFn mark) =
      Max.max (∑ token, (mark token : K)) (1 / 10 ^ 9) := by
  have run (sum : K) :
      (List.ofFn mark).foldl (fun sum mark => (ofField K).add sum ((ofField K).ofInt mark)) sum =
        sum + ∑ token, (mark token : K) := by
    induction tokens generalizing sum with
    | zero => simp
    | succ tokens ih =>
        rw [List.ofFn_succ, List.foldl_cons, ih, Fin.sum_univ_succ, ← add_assoc]
        rfl
  have all := run 0
  rw [zero_add] at all
  rw [divisor, ← all]
  rfl

section
variable [IsStrictOrderedRing K]

theorem divisor_pos (marks : List Int) : 0 < (ofField K).divisor marks := by
  have tiny : (0 : K) < (ofField K).tiny := by
    apply div_pos zero_lt_one
    exact pow_pos Nat.ofNat_pos 9
  exact lt_max_of_lt_right tiny

/-- The mean of a text is the average of each component over its real tokens. -/
theorem mean_ofFn (vector : Fin tokens → Fin width → K) {mark : Fin tokens → Int}
    (bits : ∀ token, mark token = 0 ∨ mark token = 1) :
    (ofField K).mean width (List.ofFn fun token => List.ofFn (vector token)) (List.ofFn mark) =
      List.ofFn fun index => average (vector · index) mark := by
  rw [mean, weighted_ofFn, divisor_ofFn, List.map_ofFn]
  congr 1
  funext index
  exact (average_eq_div_max bits).symm

end

end Arithmetic

end Pooling

/-! ## Tables of numbers -/

namespace Tensor

variable {α : Type} {count length : Nat}

theorem place_lt {row column : Nat} (inside : row < count) (within : column < length) :
    row * length + column < count * length := by
  calc
    row * length + column < row * length + length := Nat.add_lt_add_left within _
    _ = (row + 1) * length := (Nat.succ_mul row length).symm
    _ ≤ count * length := Nat.mul_le_mul_right length inside

/-- The item of a row, in rows of one length. -/
def item (data : List α) (full : data.length = count * length) (row : Fin count)
    (column : Fin length) : α :=
  data.get ⟨row * length + column, full ▸ place_lt row.isLt column.isLt⟩

theorem rows_eq_ofFn {data : List α} (full : data.length = count * length) :
    rows length count data =
      List.ofFn fun row => List.ofFn fun column => item data full row column := by
  apply List.ext_getElem
  · simp
  · intro row there inside
    have inside : row < count := by simpa using inside
    have standing := (List.getElem_eq_iff there).mpr (getElem?_rows inside data)
    have enough : row * length + length ≤ data.length := by
      rw [full, ← Nat.succ_mul]
      exact Nat.mul_le_mul_right length inside
    rw [standing, List.getElem_ofFn]
    apply List.ext_getElem
    · simp only [slice, List.length_take, List.length_drop, List.length_ofFn]
      omega
    · intro column _ _
      simp [slice, item]

theorem tokenVectors_eq_ofFn {vectors : Tensor α} {texts tokens width : Nat}
    (full : vectors.data.length = texts * (tokens * width)) :
    vectors.tokenVectors texts tokens width =
      List.ofFn fun text => List.ofFn fun token => List.ofFn fun index =>
        item vectors.data full text
          ⟨token * width + index, place_lt token.isLt index.isLt⟩ := by
  rw [tokenVectors, rows_eq_ofFn full, List.map_ofFn]
  congr 1
  funext text
  have row : (List.ofFn fun column => item vectors.data full text column).length =
      tokens * width := List.length_ofFn
  rw [Function.comp_apply, rows_eq_ofFn row]
  simp [item]

end Tensor

/-! ## Means of tensors -/

namespace Pooling

/-- Vectors of the tokens of some texts with their marks, each zero or one. -/
structure Marked (σ : Type) (texts tokens width : Nat) where
  vectors : Tensor σ
  marks : Tensor Int
  vectors_shape : vectors.shape = [texts, tokens, width]
  marks_shape : marks.shape = [texts, tokens]
  vectors_full : vectors.data.length = texts * (tokens * width)
  marks_full : marks.data.length = texts * tokens
  bits : ∀ mark ∈ marks.data, mark = 0 ∨ mark = 1

namespace Marked

variable {K : Type} {texts tokens width : Nat}

/-- A component of the vector of a token. -/
def component (input : Marked K texts tokens width) (text : Fin texts) (token : Fin tokens)
    (index : Fin width) : K :=
  Tensor.item input.vectors.data input.vectors_full text
    ⟨token * width + index, Tensor.place_lt token.isLt index.isLt⟩

/-- The mark of a token. -/
def mark (input : Marked K texts tokens width) (text : Fin texts) (token : Fin tokens) : Int :=
  Tensor.item input.marks.data input.marks_full text token

theorem mark_bit (input : Marked K texts tokens width) (text : Fin texts) (token : Fin tokens) :
    input.mark text token = 0 ∨ input.mark text token = 1 :=
  input.bits _ (List.get_mem _ _)

variable [Field K] [LinearOrder K]

/-- The mean over the tokens of each text, in exact arithmetic. -/
def mean (input : Marked K texts tokens width) : Except TensorError (List (List K)) :=
  Tensor.mean (.ofField K) input.vectors input.marks

variable [IsStrictOrderedRing K]

theorem mean_eq_averages (input : Marked K texts tokens width) :
    input.mean = .ok (List.ofFn fun text => List.ofFn fun index =>
      average (input.component text · index) (input.mark text)) := by
  rw [mean, Tensor.mean_of_shapes input.vectors_shape input.marks_shape input.marks_full,
    Tensor.tokenVectors_eq_ofFn input.vectors_full, Tensor.rows_eq_ofFn input.marks_full,
    List.zip, zipWith_ofFn, List.map_ofFn]
  congr 2
  funext text
  exact Arithmetic.mean_ofFn (input.component text) (input.mark_bit text)

/-- A mean follows from the sums of the marked vectors and of the marks of each text. -/
theorem mean_eq_mean {others : Nat} {input : Marked K texts tokens width}
    {other : Marked K texts others width}
    (sums : ∀ text index, ∑ token, other.component text token index * (other.mark text token : K) =
      ∑ token, input.component text token index * (input.mark text token : K))
    (counts : ∀ text, ∑ token, (other.mark text token : K) =
      ∑ token, (input.mark text token : K)) :
    other.mean = input.mean := by
  rw [mean_eq_averages, mean_eq_averages]
  congr 2
  funext text
  congr 1
  funext index
  exact average_eq_average (input.mark_bit text) (other.mark_bit text) (sums text index)
    (counts text)

/-- The mean of a text is the average of each component over its real tokens, for which nothing is
ever divided by zero. So it stays the same with other values at fillers, with more fillers behind,
and in another order of the positions, and it follows from what is given of its own text. -/
theorem mean_over_real_tokens (input : Marked K texts tokens width) :
    (input.mean = .ok (List.ofFn fun text => List.ofFn fun index =>
        average (input.component text · index) (input.mark text)) ∧
      ∀ marks, (Arithmetic.ofField K).divisor marks ≠ 0) ∧
    (∀ other : Marked K texts tokens width,
      (∀ text token, other.mark text token = input.mark text token ∧
        (input.mark text token = 1 → other.component text token = input.component text token)) →
      other.mean = input.mean) ∧
    (∀ (more : Nat) (longer : Marked K texts (tokens + more) width),
      (∀ text token, longer.mark text (token.castAdd more) = input.mark text token ∧
        longer.component text (token.castAdd more) = input.component text token) →
      (∀ text filler, longer.mark text (Fin.natAdd tokens filler) = 0) →
      longer.mean = input.mean) ∧
    (∀ (other : Marked K texts tokens width) (order : Fin texts → Equiv.Perm (Fin tokens)),
      (∀ text token, other.mark text token = input.mark text (order text token) ∧
        other.component text token = input.component text (order text token)) →
      other.mean = input.mean) ∧
    (∀ (others : Nat) (other : Marked K others tokens width) (text : Fin texts) (its : Fin others),
      (∀ token, other.mark its token = input.mark text token ∧
        other.component its token = input.component text token) →
      ∃ rows otherRows row, input.mean = .ok rows ∧ other.mean = .ok otherRows ∧
        rows[text.val]? = some row ∧ otherRows[its.val]? = some row) := by
  refine ⟨⟨input.mean_eq_averages, ?_⟩, ?_, ?_, ?_, ?_⟩
  · intro marks
    exact (Arithmetic.divisor_pos marks).ne'
  · intro other same
    apply mean_eq_mean
    · intro text index
      apply sum_congr rfl
      intro token _
      rcases same text token with ⟨marks, values⟩
      rcases input.mark_bit text token with filler | real
      · simp [marks, filler]
      · rw [marks, values real]
    · intro text
      simp only [(same text _).1]
  · intro more longer same fillers
    apply mean_eq_mean
    · intro text index
      simp [Fin.sum_univ_add, same, fillers]
    · intro text
      simp [Fin.sum_univ_add, same, fillers]
  · intro other order same
    apply mean_eq_mean
    · intro text index
      simp only [same]
      exact Equiv.sum_comp (order text) fun token =>
        input.component text token index * (input.mark text token : K)
    · intro text
      simp only [same]
      exact Equiv.sum_comp (order text) fun token => (input.mark text token : K)
  · intro others other text its same
    have marks : other.mark its = input.mark text := by
      funext token
      exact (same token).1
    have values : other.component its = input.component text := by
      funext token
      exact (same token).2
    refine ⟨_, _, List.ofFn fun index =>
      average (input.component text · index) (input.mark text), input.mean_eq_averages,
      other.mean_eq_averages, by simp, ?_⟩
    simp [marks, values]

end Marked

end Pooling

namespace Sample

/-- Two texts, one of two real tokens and a filler and one of fillers only. -/
def padded (filler : ℚ) : Pooling.Marked ℚ 2 3 2 where
  vectors := ⟨[2, 3, 2], [1, 2, 3, 4] ++ List.replicate 8 filler⟩
  marks := ⟨[2, 3], [1, 1, 0, 0, 0, 0]⟩
  vectors_shape := rfl
  marks_shape := rfl
  vectors_full := by simp
  marks_full := rfl
  bits := by decide

end Sample

/-- Fillers cannot be seen in the mean, and without a real token it is zero. -/
theorem Pooling.Marked.mean_over_real_tokens_sample :
    (Sample.padded 100).mean = .ok [[2, 3], [0, 0]] ∧
      (Sample.padded 5).mean = (Sample.padded 100).mean := by
  have facts := mean_over_real_tokens (Sample.padded 100)
  constructor
  · rw [facts.1.1]
    decide +kernel
  · apply facts.2.1 (Sample.padded 5)
    intro text token
    refine ⟨rfl, ?_⟩
    intro real
    funext index
    revert text token index
    decide +kernel

end TextVectors
