import TextVectors.Proofs.Lists
import TextVectors.SentenceEncoder

/-!
# Fillers

A batch holds texts of different lengths. It `Holds` them if each row begins with
the tokens of its text, all rows have one length, and the marks tell tokens from
fillers, whatever the fillers are.

Fillers leave no trace in what is pooled. The vector of the first token is the
same with and without them, and so is the mean if zero adds nothing and
multiplies to zero, as in exact arithmetic. Numbers of the single format do not
always obey the second law: there zero times infinity is no number.
-/

namespace TextVectors

/-! ## Rows of a tensor -/

namespace Tensor

variable {α : Type}

@[simp]
theorem length_rows (length count : Nat) (data : List α) :
    (rows length count data).length = count := by
  induction count generalizing data with
  | zero => rfl
  | succ count ih => simp [rows, ih]

theorem length_of_mem_rows {length count : Nat} {data : List α}
    (enough : count * length ≤ data.length) {row : List α} (mem : row ∈ rows length count data) :
    row.length = length := by
  induction count generalizing data with
  | zero => cases mem
  | succ count ih =>
      rw [Nat.succ_mul] at enough
      rcases List.mem_cons.mp mem with rfl | later
      · rw [List.length_take]
        omega
      · refine ih ?_ later
        rw [List.length_drop]
        omega

/-- Rows of equal length are found again in their numbers. -/
theorem rows_flatten {length : Nat} {pieces : List (List α)}
    (lengths : ∀ piece ∈ pieces, piece.length = length) :
    rows length pieces.length pieces.flatten = pieces := by
  induction pieces with
  | nil => rfl
  | cons piece pieces ih =>
      have first : piece.length = length := lengths piece (by simp)
      rw [List.length_cons, List.flatten_cons, rows, List.take_left' first, List.drop_left' first,
        ih fun later mem => lengths later (by simp [mem])]

/-- The piece of `length` items that stands at `index`, after as many pieces of its length. -/
def slice (length index : Nat) (data : List α) : List α :=
  (data.drop (index * length)).take length

theorem getElem?_rows {length count index : Nat} (inside : index < count) (data : List α) :
    (rows length count data)[index]? = some (slice length index data) := by
  induction count generalizing index data with
  | zero => omega
  | succ count ih =>
      cases index with
      | zero => simp [rows, slice]
      | succ index =>
          have later := ih (Nat.lt_of_succ_lt_succ inside) (data.drop length)
          simpa [rows, slice, Nat.succ_mul, Nat.add_comm] using later

theorem slice_flatten {length index : Nat} {pieces : List (List α)} {piece : List α}
    (lengths : ∀ piece ∈ pieces, piece.length = length) (found : pieces[index]? = some piece) :
    slice length index pieces.flatten = piece := by
  have inside := (List.getElem?_eq_some_iff.mp found).1
  have standing : (rows length pieces.length pieces.flatten)[index]? =
      some (slice length index pieces.flatten) := getElem?_rows inside _
  rw [rows_flatten lengths, found] at standing
  exact (Option.some.inj standing).symm

/-- Rows of equal length fill a tensor. -/
theorem ofData_flatten {pieces : List (List α)} {count length : Nat} (all : pieces.length = count)
    (lengths : ∀ piece ∈ pieces, piece.length = length) :
    ofData [count, length] pieces.flatten = .ok ⟨[count, length], pieces.flatten⟩ := by
  apply if_pos
  simp [length_flatten_eq_mul lengths, size, all]

theorem headD_rows {length count : Nat} (positive : 0 < count) (data : List α) :
    (rows length count data).headD [] = data.take length := by
  cases count with
  | zero => cases positive
  | succ count => rfl

theorem repeated_of_length_eq {count : Nat} {items : List α} (length : items.length = count) :
    repeated count items = items := by
  unfold repeated
  split
  · rw [← length]
    rfl
  · rfl

/-- The vectors of the tokens of each text, in a tensor of texts by tokens by components. -/
def tokenVectors (vectors : Tensor α) (texts tokens width : Nat) : List (List (List α)) :=
  (rows (tokens * width) texts vectors.data).map (rows width tokens)

theorem mem_tokenVectors {vectors : Tensor α} {texts tokens width : Nat}
    (full : vectors.data.length = texts * (tokens * width)) {perToken : List (List α)}
    (mem : perToken ∈ vectors.tokenVectors texts tokens width) :
    perToken.length = tokens ∧ ∀ vector ∈ perToken, vector.length = width := by
  rcases List.mem_map.mp mem with ⟨row, inside, rfl⟩
  refine ⟨length_rows _ _ _, fun vector later => length_of_mem_rows ?_ later⟩
  exact Nat.le_of_eq (length_of_mem_rows (Nat.le_of_eq full.symm) inside).symm

section
variable {texts : List (List (List α))} {tokens width : Nat}
  (lengths : ∀ perToken ∈ texts, perToken.length = tokens ∧
    ∀ vector ∈ perToken, vector.length = width)
include lengths

theorem length_of_mem_map_flatten {piece : List α} (mem : piece ∈ texts.map List.flatten) :
    piece.length = tokens * width := by
  rcases List.mem_map.mp mem with ⟨perToken, inside, rfl⟩
  rw [length_flatten_eq_mul (lengths perToken inside).2, (lengths perToken inside).1]

theorem length_flatten_map_flatten :
    (texts.map List.flatten).flatten.length = texts.length * (tokens * width) := by
  rw [length_flatten_eq_mul fun _ => length_of_mem_map_flatten lengths, List.length_map]

/-- Vectors put one after another are found again in their tensor. -/
theorem tokenVectors_flatten (shape : List Nat) :
    tokenVectors ⟨shape, (texts.map List.flatten).flatten⟩ texts.length tokens width = texts := by
  have outer := rows_flatten fun _ => length_of_mem_map_flatten lengths
  rw [List.length_map] at outer
  rw [tokenVectors, outer, List.map_map]
  refine (List.map_congr_left fun perToken mem => ?_).trans texts.map_id
  have inner := rows_flatten (lengths perToken mem).2
  rwa [(lengths perToken mem).1] at inner

end

/-- The first vectors of a tensor are those of the first tokens. -/
theorem firsts_eq_ok {vectors : Tensor α} {texts tokens width : Nat}
    (shape : vectors.shape = [texts, tokens, width]) (positive : 0 < tokens) :
    vectors.firsts =
      .ok ((vectors.tokenVectors texts tokens width).map fun perToken => perToken.headD []) := by
  simp only [firsts, shape, tokenVectors, if_neg (Nat.pos_iff_ne_zero.mp positive), List.map_map]
  congr 1
  refine List.map_congr_left fun row _ => ?_
  exact (headD_rows positive row).symm

theorem mean_of_shapes {arithmetic : Pooling.Arithmetic α} {vectors : Tensor α}
    {marks : Tensor Int} {texts tokens width : Nat}
    (shape : vectors.shape = [texts, tokens, width]) (marked : marks.shape = [texts, tokens])
    (full : marks.data.length = texts * tokens) :
    mean arithmetic vectors marks =
      .ok (((vectors.tokenVectors texts tokens width).zip (rows tokens texts marks.data)).map
        fun (perToken, marks) => arithmetic.mean width perToken marks) := by
  have same : (rows tokens texts marks.data).map (repeated tokens) =
      rows tokens texts marks.data := by
    refine (List.map_congr_left fun row mem => ?_).trans (List.map_id _)
    exact repeated_of_length_eq (length_of_mem_rows (Nat.le_of_eq full.symm) mem)
  simp only [mean, unsqueeze, shape, marked, same, repeated_of_length_eq (length_rows _ _ _)]
  simp [stretches, bind, Except.bind, pure, Except.pure, tokenVectors]

/-- The means of a tensor are those of its texts, each with the marks of its own. -/
theorem mean_eq_ok {arithmetic : Pooling.Arithmetic α} {vectors : Tensor α} {texts : Nat}
    {tokens width : Nat} (shape : vectors.shape = [texts, tokens, width]) {marks : List (List Int)}
    (count : marks.length = texts) (lengths : ∀ row ∈ marks, row.length = tokens) :
    mean arithmetic vectors ⟨[texts, tokens], marks.flatten⟩ =
      .ok (((vectors.tokenVectors texts tokens width).zip marks).map fun (perToken, marks) =>
        arithmetic.mean width perToken marks) := by
  rw [mean_of_shapes shape rfl (by rw [length_flatten_eq_mul lengths, count]), ← count,
    rows_flatten lengths]

end Tensor

/-! ## Means -/

namespace Pooling.Arithmetic

variable {σ : Type}

theorem length_weighted_le (arithmetic : Arithmetic σ) (width : Nat) (vectors : List (List σ))
    (marks : List Int) : (arithmetic.weighted width vectors marks).length ≤ width := by
  unfold weighted
  refine List.foldlRecOn _ _ (motive := fun sums : List σ => sums.length ≤ width) ?_ ?_
  · exact Nat.le_of_eq List.length_replicate
  · intro sums narrow _ _
    rw [List.length_zipWith]
    exact Nat.le_trans (Nat.min_le_left _ _) narrow

/-- The laws of exact arithmetic by which a mark of zero leaves its vector out. -/
structure Exact (arithmetic : Arithmetic σ) : Prop where
  ofInt_zero : arithmetic.ofInt 0 = arithmetic.zero
  mul_zero : ∀ component, arithmetic.mul component arithmetic.zero = arithmetic.zero
  add_zero : ∀ sum, arithmetic.add sum arithmetic.zero = sum

variable {arithmetic : Arithmetic σ} (exact : arithmetic.Exact)
include exact

theorem Exact.zipWith_add_unmarked {sums vector : List σ} (long : sums.length ≤ vector.length) :
    List.zipWith arithmetic.add sums
      (vector.map fun component => arithmetic.mul component (arithmetic.ofInt 0)) = sums := by
  induction sums generalizing vector with
  | nil => simp
  | cons sum sums ih =>
      cases vector with
      | nil => simp at long
      | cons component vector =>
          rw [List.map_cons, List.zipWith_cons_cons, exact.ofInt_zero, exact.mul_zero,
            exact.add_zero, ← exact.ofInt_zero, ih (by simpa using long)]

/-- Vectors with marks of zero add nothing to sums of their length. -/
theorem Exact.foldl_unmarked {width : Nat} {fillers : List (List σ)}
    (widths : ∀ vector ∈ fillers, vector.length = width) (count : Nat) {sums : List σ}
    (narrow : sums.length ≤ width) :
    (fillers.zip (List.replicate count 0)).foldl
      (fun sums (vector, mark) =>
        List.zipWith arithmetic.add sums
          (vector.map fun component => arithmetic.mul component (arithmetic.ofInt mark))) sums =
      sums := by
  induction fillers generalizing count with
  | nil => simp
  | cons vector fillers ih =>
      cases count with
      | zero => simp
      | succ count =>
          have width : sums.length ≤ vector.length := by
            rwa [widths vector (by simp)]
          simp only [List.replicate_succ, List.zip_cons_cons, List.foldl_cons,
            exact.zipWith_add_unmarked width]
          exact ih (fun later mem => widths later (by simp [mem])) count

theorem Exact.divisor_append_zeros (marks : List Int) (count : Nat) :
    arithmetic.divisor (marks ++ List.replicate count 0) = arithmetic.divisor marks := by
  have unchanged (sum : σ) :
      (List.replicate count 0).foldl
        (fun sum mark => arithmetic.add sum (arithmetic.ofInt mark)) sum = sum := by
    induction count with
    | zero => rfl
    | succ count ih =>
        rw [List.replicate_succ, List.foldl_cons, exact.ofInt_zero, exact.add_zero, ih]
  simp only [divisor, List.foldl_append, unchanged]

/-- The mean of the vectors of a text is the same with fillers behind them. -/
theorem Exact.mean_fillers {width : Nat} {vectors fillers : List (List σ)} {marks : List Int}
    (marked : vectors.length = marks.length)
    (widths : ∀ vector ∈ fillers, vector.length = width) (count : Nat) :
    arithmetic.mean width (vectors ++ fillers) (marks ++ List.replicate count 0) =
      arithmetic.mean width vectors marks := by
  have same : arithmetic.weighted width (vectors ++ fillers) (marks ++ List.replicate count 0) =
      arithmetic.weighted width vectors marks := by
    rw [weighted, List.zip_append marked, List.foldl_append]
    exact exact.foldl_unmarked widths count (length_weighted_le arithmetic width vectors marks)
  rw [mean, same, exact.divisor_append_zeros, mean]

end Pooling.Arithmetic

/-! ## Batches -/

namespace Encoding

/-- An encoding of nothing but tokens. -/
def Unpadded (encoding : Encoding) : Prop :=
  encoding.mask = List.replicate encoding.ids.length 1

end Encoding

namespace Batch

/-- A batch of the tokens of some texts, filled up behind them. -/
structure Holds (batch : Batch) (texts : List (List Nat)) : Prop where
  nonempty : texts ≠ []
  tokens_nonempty : ∀ tokens ∈ texts, tokens ≠ []
  ids : List.Forall₂ (fun tokens row => tokens <+: row ∧ row.length = batch.length) texts batch.ids
  marks : batch.marks = texts.map fun tokens =>
    List.replicate tokens.length 1 ++ List.replicate (batch.length - tokens.length) 0

theorem longest_le_iff {encodings : List Encoding} {limit : Nat} :
    longest encodings ≤ limit ↔ ∀ encoding ∈ encodings, encoding.ids.length ≤ limit := by
  have bound (least : Nat) :
      encodings.foldl (fun length encoding => max length encoding.ids.length) least ≤ limit ↔
        least ≤ limit ∧ ∀ encoding ∈ encodings, encoding.ids.length ≤ limit := by
    induction encodings generalizing least with
    | nil => simp
    | cons encoding encodings ih =>
        simp only [List.foldl_cons, ih, Nat.max_le, List.forall_mem_cons, and_assoc]
  simp [longest, bound]

theorem length_le_longest {encodings : List Encoding} {encoding : Encoding}
    (mem : encoding ∈ encodings) : encoding.ids.length ≤ longest encodings :=
  longest_le_iff.mp (Nat.le_refl _) encoding mem

theorem length_fill {α : Type} {length : Nat} (filler : α) {row : List α}
    (short : row.length ≤ length) : (fill length filler row).length = length := by
  rw [fill, List.length_append, List.length_replicate]
  omega

/-- The batch of encodings of nothing but tokens holds them. -/
theorem ofEncodings_holds (padId : Nat) {encodings : List Encoding} (filled : encodings ≠ [])
    (unpadded : ∀ encoding ∈ encodings, encoding.Unpadded)
    (nonempty : ∀ encoding ∈ encodings, encoding.ids ≠ []) :
    (ofEncodings padId encodings).Holds (encodings.map (·.ids)) where
  nonempty := by simpa using filled
  tokens_nonempty := by simpa using nonempty
  ids := by
    rw [ofEncodings, List.forall₂_map_left_iff, List.forall₂_map_right_iff, List.forall₂_same]
    intro encoding mem
    exact ⟨List.prefix_append _ _, length_fill padId (length_le_longest mem)⟩
  marks := by
    rw [ofEncodings, List.map_map]
    refine List.map_congr_left fun encoding mem => ?_
    rw [unpadded encoding mem]
    rfl

theorem mem_flatten_ids_ofEncodings {padId : Nat} {encodings : List Encoding} {id : Nat}
    (mem : id ∈ (ofEncodings padId encodings).ids.flatten) :
    id = padId ∨ ∃ encoding ∈ encodings, id ∈ encoding.ids := by
  simp only [ofEncodings, List.mem_flatten, List.mem_map, fill] at mem
  rcases mem with ⟨_, ⟨encoding, inside, rfl⟩, mem⟩
  rcases List.mem_append.mp mem with token | filler
  · exact .inr ⟨encoding, inside, token⟩
  · exact .inl (List.eq_of_mem_replicate filler)

namespace Holds

variable {batch : Batch} {texts : List (List Nat)} (holds : batch.Holds texts)
include holds

theorem length_ids : batch.ids.length = texts.length :=
  holds.ids.length_eq.symm

theorem length_marks : batch.marks.length = texts.length := by
  rw [holds.marks, List.length_map]

theorem length_le {tokens : List Nat} (mem : tokens ∈ texts) : tokens.length ≤ batch.length := by
  rcases List.mem_iff_getElem.mp mem with ⟨index, inside, rfl⟩
  have bound := holds.ids.get inside (holds.ids.length_eq ▸ inside)
  exact bound.2 ▸ bound.1.length_le

theorem length_pos : 0 < batch.length := by
  rcases List.exists_mem_of_ne_nil texts holds.nonempty with ⟨tokens, mem⟩
  exact Nat.lt_of_lt_of_le (List.length_pos_iff.mpr (holds.tokens_nonempty tokens mem))
    (holds.length_le mem)

theorem length_of_mem_marks {row : List Int} (mem : row ∈ batch.marks) :
    row.length = batch.length := by
  rw [holds.marks] at mem
  rcases List.mem_map.mp mem with ⟨tokens, inside, rfl⟩
  have short := holds.length_le inside
  rw [List.length_append, List.length_replicate, List.length_replicate]
  omega

theorem length_of_mem_ids {row : List Nat} (mem : row ∈ batch.ids) : row.length = batch.length := by
  rcases List.mem_iff_getElem.mp mem with ⟨index, inside, rfl⟩
  exact (holds.ids.get (holds.ids.length_eq ▸ inside) inside).2

/-- The numbers of a batch fill a tensor, and so do its marks. -/
theorem tensors : (∃ ids, batch.idTensor = .ok ids) ∧
    batch.markTensor = .ok ⟨[texts.length, batch.length], batch.marks.flatten⟩ := by
  rw [idTensor, markTensor, size, holds.length_ids,
    Tensor.ofData_flatten holds.length_ids fun _ => holds.length_of_mem_ids,
    Tensor.ofData_flatten holds.length_marks fun _ => holds.length_of_mem_marks]
  exact ⟨⟨_, rfl⟩, rfl⟩

end Holds

end Batch

end TextVectors
