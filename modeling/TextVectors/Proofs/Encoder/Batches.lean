import TextVectors.Proofs.Encoder.Outcome
import TextVectors.Proofs.Lists

/-!
# Batches and positions

An encode hands out its texts in slices, all of the same length but for the last
one of the whole list, and so the text at a position stands in the slice whose
number is the position divided by that length, at the remainder. The vectors of
a successful encode are cut in the same places as its texts. This is why the
vector at a position comes from the row that the provider gives for the text at
this position, whatever the number of texts.
-/

namespace TextVectors

namespace Encoder

variable {σ : Type} (encoder : Encoder σ)

theorem chunkSize_pos : 0 < encoder.chunkSize :=
  Nat.lt_of_lt_of_le Nat.one_pos (Nat.le_max_right _ _)

/-- The number of a slice and a position in it, put together. -/
theorem chunkSize_mul_div_add_mod (index : Nat) :
    index / encoder.chunkSize * encoder.chunkSize + index % encoder.chunkSize = index := by
  rw [Nat.mul_comm]
  exact Nat.div_add_mod index encoder.chunkSize

private theorem chunkSize_pred_succ : encoder.chunkSize - 1 + 1 = encoder.chunkSize :=
  Nat.sub_add_cancel encoder.chunkSize_pos

/-- A piece of a list that is cut as the texts are. -/
theorem getElem?_cut_chunkSize {α : Type} {xs : List α} {number : Nat}
    (inside : number * encoder.chunkSize < xs.length) :
    (cut (encoder.chunkSize - 1) xs)[number]? =
      some ((xs.drop (number * encoder.chunkSize)).take encoder.chunkSize) := by
  rw [← chunkSize_pred_succ] at inside
  have slice := getElem?_cut inside
  rwa [chunkSize_pred_succ] at slice

theorem getElem?_chunks {texts : List String} {number : Nat}
    (inside : number * encoder.chunkSize < texts.length) :
    (encoder.chunks texts)[number]? =
      some ((texts.drop (number * encoder.chunkSize)).take encoder.chunkSize) :=
  encoder.getElem?_cut_chunkSize inside

theorem length_chunks (texts : List String) :
    (encoder.chunks texts).length = texts.length ⌈/⌉ encoder.chunkSize := by
  rw [chunks, length_cut, chunkSize_pred_succ]

@[simp]
theorem flatten_chunks (texts : List String) : (encoder.chunks texts).flatten = texts :=
  flatten_cut _ texts

/-- A slice begins before the end of the texts. -/
theorem mul_chunkSize_lt_of_lt_length_chunks {texts : List String} {number : Nat}
    (inside : number < (encoder.chunks texts).length) :
    number * encoder.chunkSize < texts.length := by
  rw [length_chunks, Nat.ceilDiv_eq_add_pred_div, Nat.lt_div_iff_mul_lt encoder.chunkSize_pos]
    at inside
  omega

/-- A slice ends no later than the texts. -/
theorem end_le_length {texts batch : List String} {number : Nat}
    (found : (encoder.chunks texts)[number]? = some batch) :
    number * encoder.chunkSize + batch.length ≤ texts.length := by
  rcases List.getElem?_eq_some_iff.mp found with ⟨inside, _⟩
  have begins := encoder.mul_chunkSize_lt_of_lt_length_chunks inside
  rw [encoder.getElem?_chunks begins, Option.some.injEq] at found
  subst found
  simp only [List.length_take, List.length_drop]
  omega

/-- The place of a position in its slice. -/
theorem getElem?_slice {α : Type} (xs : List α) (index : Nat) :
    ((xs.drop (index / encoder.chunkSize * encoder.chunkSize)).take
      encoder.chunkSize)[index % encoder.chunkSize]? = xs[index]? := by
  rw [List.getElem?_take_of_lt (Nat.mod_lt _ encoder.chunkSize_pos), List.getElem?_drop,
    encoder.chunkSize_mul_div_add_mod]

/-! ## Batches received -/

theorem received_prefix_chunks (texts : List String) :
    (encoder.encode texts).received <+: encoder.chunks texts :=
  encoder.received_encodeFrom_prefix 0 _

/-- A batch that the provider receives is a slice of the texts. -/
theorem getElem?_received {texts : List String} {number : Nat}
    (inside : number < (encoder.encode texts).received.length) :
    number * encoder.chunkSize < texts.length ∧
      (encoder.encode texts).received[number]? =
        some ((texts.drop (number * encoder.chunkSize)).take encoder.chunkSize) := by
  have initial := encoder.received_prefix_chunks texts
  have begins : number * encoder.chunkSize < texts.length :=
    encoder.mul_chunkSize_lt_of_lt_length_chunks (inside.trans_le initial.length_le)
  refine ⟨begins, ?_⟩
  rcases initial with ⟨rest, whole⟩
  rw [← encoder.getElem?_chunks begins, ← whole, List.getElem?_append_left inside]

/-- A batch that is shorter than the others is the last slice of all. -/
theorem length_received_batch {texts batch : List String} {number : Nat}
    (found : (encoder.encode texts).received[number]? = some batch) :
    batch.length = encoder.chunkSize ∨
      number + 1 = (encoder.encode texts).received.length ∧
        (encoder.encode texts).received.flatten = texts ∧ batch.length < encoder.chunkSize := by
  rcases List.getElem?_eq_some_iff.mp found with ⟨inside, _⟩
  have length_batch : batch.length = min encoder.chunkSize
      (texts.length - number * encoder.chunkSize) := by
    rw [(encoder.getElem?_received inside).2, Option.some.injEq] at found
    simp [← found]
  by_cases full : encoder.chunkSize ≤ texts.length - number * encoder.chunkSize
  · left
    omega
  · right
    -- No slice begins after this one, so the provider has received all of them.
    have last : (encoder.chunks texts).length ≤ number + 1 := by
      by_contra more
      have begins := encoder.mul_chunkSize_lt_of_lt_length_chunks (not_le.mp more)
      rw [Nat.succ_mul] at begins
      omega
    have initial := encoder.received_prefix_chunks texts
    have all : (encoder.encode texts).received = encoder.chunks texts :=
      initial.eq_of_length_le (last.trans inside)
    refine ⟨?_, by rw [all, encoder.flatten_chunks], by omega⟩
    rw [all] at inside ⊢
    omega

/-! ## Positions -/

/-- The vector at a position and the row that it comes from: the one that the provider gives for
the text at this position, in the slice in which the text stands. -/
def VectorAt (texts : List String) (index : Nat) (vector : List σ) : Prop :=
  ∃ batch rows row,
    (encoder.chunks texts)[index / encoder.chunkSize]? = some batch ∧
      batch[index % encoder.chunkSize]? = texts[index]? ∧
      (encoder.provider.embed batch).rows = .ok rows ∧ rows.length = batch.length ∧
      rows[index % encoder.chunkSize]? = some row ∧ encoder.Accepts row vector

variable {encoder}

/-- The same, with the slice written out. -/
theorem VectorAt.exists_rows {texts : List String} {index : Nat} {vector : List σ}
    (vectorAt : encoder.VectorAt texts index vector) (inside : index < texts.length) :
    ∃ batch rows row,
      batch = (texts.drop (index / encoder.chunkSize * encoder.chunkSize)).take
          encoder.chunkSize ∧
        batch[index % encoder.chunkSize]? = texts[index]? ∧
        (encoder.provider.embed batch).rows = .ok rows ∧ rows.length = batch.length ∧
        rows[index % encoder.chunkSize]? = some row ∧ encoder.Accepts row vector := by
  rcases vectorAt with ⟨batch, rows, row, batchFound, given⟩
  have begins : index / encoder.chunkSize * encoder.chunkSize < texts.length :=
    (Nat.div_mul_le_self _ _).trans_lt inside
  rw [encoder.getElem?_chunks begins, Option.some.injEq] at batchFound
  exact ⟨batch, rows, row, batchFound.symm, given⟩

theorem length_of_encode {texts : List String} {vectors : List (List σ)}
    (succeeded : (encoder.encode texts).outcome = .ok vectors) :
    vectors.length = texts.length := by
  rcases encoder.encode_outcome_eq_ok_iff.mp succeeded with ⟨pieces, yields, rfl⟩
  rw [← length_flatten_eq (yields.imp fun _ _ => Yields.length_eq), encoder.flatten_chunks]

theorem exists_vectorAt {texts : List String} {vectors : List (List σ)}
    (succeeded : (encoder.encode texts).outcome = .ok vectors) {index : Nat}
    (inside : index < texts.length) :
    ∃ vector, vectors[index]? = some vector ∧ encoder.VectorAt texts index vector := by
  have length_vectors := length_of_encode succeeded
  rcases encoder.encode_outcome_eq_ok_iff.mp succeeded with ⟨pieces, yields, rfl⟩
  have begins : index / encoder.chunkSize * encoder.chunkSize < texts.length :=
    (Nat.div_mul_le_self _ _).trans_lt inside
  have batchFound := encoder.getElem?_chunks begins
  rcases exists_getElem?_of_forall₂ yields batchFound with ⟨piece, pieceFound, given⟩
  rcases given with ⟨rows, embedded, count, accepted⟩
  have textFound := encoder.getElem?_slice texts index
  rcases List.getElem?_eq_some_iff.mp (textFound.trans (List.getElem?_eq_getElem inside)) with
    ⟨insideBatch, _⟩
  have rowFound := List.getElem?_eq_getElem (insideBatch.trans_eq count.symm)
  rcases exists_getElem?_of_forall₂ accepted rowFound with ⟨vector, vectorFound, accepts⟩
  -- The pieces are the slices of the vectors, for they are as long as those of the texts.
  have pieceSlice : pieces[index / encoder.chunkSize]? =
      some ((pieces.flatten.drop (index / encoder.chunkSize * encoder.chunkSize)).take
        encoder.chunkSize) := by
    have slice := encoder.getElem?_cut_chunkSize (begins.trans_eq length_vectors.symm)
    rwa [cut_flatten_of_lengths (yields.imp fun _ _ => Yields.length_eq)] at slice
  rw [pieceFound, Option.some.injEq] at pieceSlice
  rw [pieceSlice, encoder.getElem?_slice] at vectorFound
  exact ⟨vector, vectorFound, _, rows, _, batchFound, textFound, embedded, count, rowFound,
    accepts⟩

/-! ## Main result -/

/-- Batching neither loses nor repeats nor moves a text. What the provider receives are slices of
the texts, one after another, and if the encode succeeds they are all the texts. Each vector then
comes from the row that the provider gave for its text in the slice where the text stands. -/
theorem encode_in_batches {δ : Type} (arithmetic : UnitVector.Arithmetic σ δ) (modelId : String)
    (provider : Provider σ) (batchSize : Nat) (texts : List String) :
    let run := (ofProvider arithmetic modelId provider batchSize).encode texts
    let size := max batchSize 1
    run.received.flatten <+: texts ∧
      (∀ number < run.received.length,
        run.received[number]? = some ((texts.drop (number * size)).take size)) ∧
      (∀ batch ∈ run.received, batch ≠ []) ∧
      (∀ number batch, run.received[number]? = some batch →
        batch.length = size ∨
          number + 1 = run.received.length ∧ run.received.flatten = texts ∧
            batch.length < size) ∧
      ∀ vectors, run.outcome = .ok vectors →
        run.received.flatten = texts ∧ run.received.length = texts.length ⌈/⌉ size ∧
          vectors.length = texts.length ∧
          ∀ index < texts.length, ∃ batch rows row vector,
            run.received[index / size]? = some batch ∧ batch[index % size]? = texts[index]? ∧
              (provider.embed batch).rows = .ok rows ∧ rows.length = batch.length ∧
              rows[index % size]? = some row ∧ arithmetic.normalize row = .ok vector ∧
              vectors[index]? = some vector ∧ vector.length = provider.dimension := by
  intro run size
  let encoder := ofProvider arithmetic modelId provider batchSize
  have initial : run.received <+: encoder.chunks texts := encoder.received_prefix_chunks texts
  refine ⟨?_, ?_, ?_, ?_, ?_⟩
  · simpa using initial.flatten
  · intro number inside
    exact (encoder.getElem?_received inside).2
  · intro batch mem
    exact ne_nil_of_mem_cut (initial.subset mem)
  · intro number batch found
    exact encoder.length_received_batch found
  · intro vectors succeeded
    have all : run.received = encoder.chunks texts := encoder.received_encodeFrom_of_ok succeeded
    refine ⟨by simp [all], by rw [all, encoder.length_chunks]; rfl, length_of_encode succeeded, ?_⟩
    intro index inside
    rcases exists_vectorAt succeeded inside with
      ⟨vector, vectorFound, batch, rows, row, batchFound, textFound, embedded, count, rowFound,
        dimension, normalized⟩
    refine ⟨batch, rows, row, vector, ?_, textFound, embedded, count, rowFound, normalized,
      vectorFound, ?_⟩
    · rw [all]
      exact batchFound
    · rw [arithmetic.length_of_normalize normalized]
      exact dimension

end Encoder

end TextVectors
