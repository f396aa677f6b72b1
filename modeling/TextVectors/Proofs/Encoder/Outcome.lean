import TextVectors.Proofs.Encoder.Cut
import TextVectors.Proofs.Lists
import TextVectors.Proofs.Result

/-!
# How an encode ends

An encode takes its batches one after another and stops at the first one that
does not give vectors. Whether a batch gives vectors does not depend on where it
stands: positions go into the wording of errors only. So a whole encode succeeds
iff each batch `Yields` vectors, and its vectors are those of the batches in
their order.

The provider receives the batches in their order too, and all of them if the
encode succeeds.
-/

namespace TextVectors

namespace UnitVector.Arithmetic

variable {σ δ : Type} (arithmetic : Arithmetic σ δ)

theorem length_of_normalize {vector unit : List σ}
    (normalized : arithmetic.normalize vector = .ok unit) : unit.length = vector.length := by
  simp only [normalize] at normalized
  split at normalized
  · cases normalized
  · split at normalized
    · cases normalized
    · cases normalized
      simp

end UnitVector.Arithmetic

variable {σ : Type}

/-- The batches that the provider received in a run, in their order. -/
def Run.received (run : Run σ) : List (List String) :=
  run.calls.map (·.texts)

namespace Encoder

variable (encoder : Encoder σ)

/-- A raw row of the right length and the vector that it is brought to. -/
def Accepts (row vector : List σ) : Prop :=
  row.length = encoder.dimension ∧ encoder.normalize row = .ok vector

/-- A batch for each of whose texts the provider gives a row, and the vectors of these rows. -/
def Yields (batch : List String) (vectors : List (List σ)) : Prop :=
  ∃ rows, (encoder.provider.embed batch).rows = .ok rows ∧ rows.length = batch.length ∧
    List.Forall₂ encoder.Accepts rows vectors

theorem accept_eq_ok_iff {index : Nat} {row vector : List σ} :
    encoder.accept index row = .ok vector ↔ encoder.Accepts row vector := by
  unfold accept Accepts
  by_cases length : row.length = encoder.dimension
  · simp [length, mapError_eq_ok_iff]
  · simp [length]

theorem acceptAll_eq_ok_iff {index : Nat} {rows vectors : List (List σ)} :
    encoder.acceptAll index rows = .ok vectors ↔ List.Forall₂ encoder.Accepts rows vectors := by
  induction rows generalizing index vectors with
  | nil => simp [acceptAll, eq_comm]
  | cons row rows ih =>
      simp only [acceptAll, bind_eq_ok_iff, accept_eq_ok_iff, ih, List.forall₂_cons_left_iff,
        pure, Except.pure, Except.ok.injEq]
      constructor
      · rintro ⟨vector, accepted, rest, later, rfl⟩
        exact ⟨vector, rest, accepted, later, rfl⟩
      · rintro ⟨vector, rest, accepted, later, rfl⟩
        exact ⟨vector, accepted, rest, later, rfl⟩

theorem encodeChunk_eq_ok_iff {offset : Nat} {batch : List String} {vectors : List (List σ)} :
    encoder.encodeChunk offset batch = .ok vectors ↔ encoder.Yields batch vectors := by
  unfold encodeChunk Yields
  cases (encoder.provider.embed batch).rows with
  | error fault => cases fault <;> simp
  | ok rows =>
      by_cases count : rows.length = batch.length
      · simp [count, mapError_eq_ok_iff, acceptAll_eq_ok_iff]
      · simp [count]

theorem Yields.length_eq {encoder : Encoder σ} {batch : List String} {vectors : List (List σ)}
    (yields : encoder.Yields batch vectors) : batch.length = vectors.length := by
  rcases yields with ⟨rows, _, count, accepted⟩
  rw [← count, accepted.length_eq]

/-! ## Batches one after another -/

theorem encodeFrom_cons_of_error {number : Nat} {batch : List String}
    (rest : List (List String)) {fault : EncodeFault}
    (failed : encoder.encodeChunk (number * encoder.chunkSize) batch = .error fault) :
    encoder.encodeFrom number (batch :: rest) =
      ⟨[⟨0, batch⟩], (encoder.provider.embed batch).elapsed, .error fault⟩ := by
  simp [encodeFrom, failed]

theorem encodeFrom_cons_of_ok {number : Nat} {batch : List String} (rest : List (List String))
    {piece : List (List σ)}
    (given : encoder.encodeChunk (number * encoder.chunkSize) batch = .ok piece) :
    encoder.encodeFrom number (batch :: rest) =
      let elapsed := (encoder.provider.embed batch).elapsed
      let later := encoder.encodeFrom (number + 1) rest
      ⟨⟨0, batch⟩ :: later.calls.map (·.shift elapsed), elapsed + later.elapsed,
        later.outcome.map (piece ++ ·)⟩ := by
  simp [encodeFrom, given]

theorem encodeFrom_outcome_eq_ok_iff {number : Nat} {batches : List (List String)}
    {vectors : List (List σ)} :
    (encoder.encodeFrom number batches).outcome = .ok vectors ↔
      ∃ pieces, List.Forall₂ encoder.Yields batches pieces ∧ vectors = pieces.flatten := by
  induction batches generalizing number vectors with
  | nil => simp [encodeFrom, eq_comm]
  | cons batch rest ih =>
      constructor
      · intro succeeded
        cases first : encoder.encodeChunk (number * encoder.chunkSize) batch with
        | error fault => simp [encoder.encodeFrom_cons_of_error rest first] at succeeded
        | ok piece =>
            rw [encoder.encodeFrom_cons_of_ok rest first] at succeeded
            rcases map_eq_ok_iff.mp succeeded with ⟨others, later, rfl⟩
            rcases ih.mp later with ⟨pieces, yields, rfl⟩
            exact ⟨piece :: pieces, .cons (encoder.encodeChunk_eq_ok_iff.mp first) yields, rfl⟩
      · rintro ⟨pieces, yields, rfl⟩
        rcases List.forall₂_cons_left_iff.mp yields with ⟨piece, others, first, later, rfl⟩
        rw [encoder.encodeFrom_cons_of_ok rest (encoder.encodeChunk_eq_ok_iff.mpr first)]
        simp [ih.mpr ⟨others, later, rfl⟩, Except.map]

/-! ## Batches received -/

theorem received_encodeFrom_cons_of_error {number : Nat} {batch : List String}
    (rest : List (List String)) {fault : EncodeFault}
    (failed : encoder.encodeChunk (number * encoder.chunkSize) batch = .error fault) :
    (encoder.encodeFrom number (batch :: rest)).received = [batch] := by
  simp [encoder.encodeFrom_cons_of_error rest failed, Run.received]

theorem received_encodeFrom_cons_of_ok {number : Nat} {batch : List String}
    (rest : List (List String)) {piece : List (List σ)}
    (given : encoder.encodeChunk (number * encoder.chunkSize) batch = .ok piece) :
    (encoder.encodeFrom number (batch :: rest)).received =
      batch :: (encoder.encodeFrom (number + 1) rest).received := by
  simp [encoder.encodeFrom_cons_of_ok rest given, Run.received, Call.shift]

theorem received_encodeFrom_prefix (number : Nat) (batches : List (List String)) :
    (encoder.encodeFrom number batches).received <+: batches := by
  induction batches generalizing number with
  | nil => simp [encodeFrom, Run.received]
  | cons batch rest ih =>
      cases first : encoder.encodeChunk (number * encoder.chunkSize) batch with
      | error fault => simp [encoder.received_encodeFrom_cons_of_error rest first]
      | ok piece =>
          rw [encoder.received_encodeFrom_cons_of_ok rest first, List.prefix_cons_inj]
          exact ih (number + 1)

theorem received_encodeFrom_of_ok {number : Nat} {batches : List (List String)}
    {vectors : List (List σ)}
    (succeeded : (encoder.encodeFrom number batches).outcome = .ok vectors) :
    (encoder.encodeFrom number batches).received = batches := by
  induction batches generalizing number vectors with
  | nil => simp [encodeFrom, Run.received]
  | cons batch rest ih =>
      cases first : encoder.encodeChunk (number * encoder.chunkSize) batch with
      | error fault => simp [encoder.encodeFrom_cons_of_error rest first] at succeeded
      | ok piece =>
          rw [encoder.encodeFrom_cons_of_ok rest first] at succeeded
          rcases map_eq_ok_iff.mp succeeded with ⟨others, later, _⟩
          rw [encoder.received_encodeFrom_cons_of_ok rest first, ih later]

theorem encode_outcome_eq_ok_iff {texts : List String} {vectors : List (List σ)} :
    (encoder.encode texts).outcome = .ok vectors ↔
      ∃ pieces, List.Forall₂ encoder.Yields (encoder.chunks texts) pieces ∧
        vectors = pieces.flatten :=
  encoder.encodeFrom_outcome_eq_ok_iff

/-- A vector of an encode comes from a row that was accepted. -/
theorem exists_accepts_of_mem_encode {texts : List String} {vectors : List (List σ)}
    (succeeded : (encoder.encode texts).outcome = .ok vectors) {vector : List σ}
    (mem : vector ∈ vectors) : ∃ row, encoder.Accepts row vector := by
  rcases encoder.encode_outcome_eq_ok_iff.mp succeeded with ⟨pieces, yields, rfl⟩
  rcases List.mem_flatten.mp mem with ⟨piece, piece_mem, inside⟩
  rcases exists_mem_of_forall₂_right yields piece_mem with ⟨batch, _, rows, _, _, accepted⟩
  rcases exists_mem_of_forall₂_right accepted inside with ⟨row, _, accepts⟩
  exact ⟨row, accepts⟩

end Encoder

end TextVectors
