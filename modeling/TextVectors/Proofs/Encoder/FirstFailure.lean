import TextVectors.Proofs.Encoder.Batches
import TextVectors.Sample.Provider

/-!
# The first failure

An encode that fails has stopped at the first of its batches that does not pass. The
provider has received the batches up to this one and no other, and the error is about
this batch, `fails_at_first_bad_batch`: the provider's own error comes before a wrong
number of rows, this before any bad row, and of bad rows the first is reported, by its
position among all texts.

A batch is told what the number of texts before it is, which is why the positions in an
error are right: it is the number of the batch times the size of the batches.
-/

namespace TextVectors

namespace Encoder

variable {σ : Type} (encoder : Encoder σ)

/-- A raw row that can be brought to a vector. -/
def Sound (row : List σ) : Prop :=
  ∃ vector, encoder.Accepts row vector

/-- A batch for each of whose texts the provider gives a sound row. -/
def Passes (batch : List String) : Prop :=
  ∃ rows, (encoder.provider.embed batch).rows = .ok rows ∧ rows.length = batch.length ∧
    ∀ row ∈ rows, encoder.Sound row

/-- The first raw row that is not sound stands at a place, and is the given one. -/
structure FirstBad (rows : List (List σ)) (index : Nat) (row : List σ) : Prop where
  found : rows[index]? = some row
  earlier : ∀ other ∈ rows.take index, encoder.Sound other
  bad : ¬encoder.Sound row

/-- What is said of a batch that does not pass, when `offset` texts stand before it. -/
inductive Complaint (offset : Nat) (batch : List String) : Failure → Prop where
  | provider {cause : Failure}
      (embedded : (encoder.provider.embed batch).rows = .error (.failed cause)) :
      Complaint offset batch
        ⟨"encode failed for inputs " ++ toString offset ++ ".." ++
          toString (offset + batch.length), cause.message :: cause.causes⟩
  | rowCount {rows : List (List σ)}
      (embedded : (encoder.provider.embed batch).rows = .ok rows)
      (count : rows.length ≠ batch.length) :
      Complaint offset batch
        ⟨"provider returned " ++ toString rows.length ++ " vectors for " ++
          toString batch.length ++ " inputs (offset " ++ toString offset ++ ")", []⟩
  | rowLength {rows : List (List σ)} {index : Nat} {row : List σ}
      (embedded : (encoder.provider.embed batch).rows = .ok rows)
      (count : rows.length = batch.length) (first : encoder.FirstBad rows index row)
      (length : row.length ≠ encoder.dimension) :
      Complaint offset batch
        ⟨"vector " ++ toString (offset + index) ++ " has dimension " ++ toString row.length ++
          ", expected " ++ toString encoder.dimension, []⟩
  | degenerate {rows : List (List σ)} {index : Nat} {row : List σ}
      {reason : UnitVector.Degenerate}
      (embedded : (encoder.provider.embed batch).rows = .ok rows)
      (count : rows.length = batch.length) (first : encoder.FirstBad rows index row)
      (length : row.length = encoder.dimension)
      (refused : encoder.normalize row = .error reason) :
      Complaint offset batch ⟨"vector " ++ toString (offset + index), [reason.message]⟩

/-- The batch with a number among those of some texts. -/
def slice (texts : List String) (number : Nat) : List String :=
  (texts.drop (number * encoder.chunkSize)).take encoder.chunkSize

/-- An encode stops at the batch with a number: it is the first that does not pass, and the last
that the provider receives. -/
structure StopsAt (texts : List String) (number : Nat) : Prop where
  begins : number * encoder.chunkSize < texts.length
  passed : ∀ earlier < number, encoder.Passes (encoder.slice texts earlier)
  refused : ¬encoder.Passes (encoder.slice texts number)
  received : (encoder.encode texts).received =
    (List.range (number + 1)).map (encoder.slice texts)

/-! ## Rows -/

theorem accept_fails_iff {index : Nat} {row : List σ} :
    (∃ error, encoder.accept index row = .error error) ↔ ¬encoder.Sound row := by
  constructor
  · rintro ⟨error, refused⟩ ⟨vector, accepts⟩
    rw [encoder.accept_eq_ok_iff.mpr accepts] at refused
    cases refused
  · intro bad
    cases accepted : encoder.accept index row with
    | error error => exact ⟨error, rfl⟩
    | ok vector => exact absurd ⟨vector, encoder.accept_eq_ok_iff.mp accepted⟩ bad

theorem accept_eq_error_iff {index : Nat} {row : List σ} {error : EncodeError} :
    encoder.accept index row = .error error ↔
      row.length ≠ encoder.dimension ∧
          error = .rowLength index row.length encoder.dimension ∨
        row.length = encoder.dimension ∧ ∃ reason,
          encoder.normalize row = .error reason ∧ error = .degenerate index reason := by
  unfold accept
  by_cases length : row.length = encoder.dimension
  · simp [length, mapError_eq_error_iff, eq_comm (a := error)]
  · simp [length, eq_comm]

/-- The first row that cannot be brought to a vector is the one that is reported. -/
theorem acceptAll_eq_error_iff {first : Nat} {rows : List (List σ)} {error : EncodeError} :
    encoder.acceptAll first rows = .error error ↔
      ∃ index row, encoder.FirstBad rows index row ∧
        encoder.accept (first + index) row = .error error := by
  induction rows generalizing first with
  | nil =>
      constructor
      · intro refused
        cases refused
      · rintro ⟨index, row, bad, _⟩
        cases bad.found
  | cons row rows ih =>
      rw [acceptAll, bind_eq_error_iff]
      constructor
      · rintro (refused | ⟨vector, accepted, later⟩)
        · have bad := encoder.accept_fails_iff.mp ⟨error, refused⟩
          exact ⟨0, row, ⟨rfl, List.forall_mem_nil _, bad⟩, refused⟩
        · have later : encoder.acceptAll (first + 1) rows = .error error := by
            rcases bind_eq_error_iff.mp later with refused | ⟨vectors, _, made⟩
            · exact refused
            · cases made
          rcases ih.mp later with ⟨index, other, bad, refused⟩
          refine ⟨index + 1, other, ⟨bad.found, ?_, bad.bad⟩, ?_⟩
          · intro earlier mem
            rcases List.mem_cons.mp mem with rfl | behind
            · exact ⟨vector, encoder.accept_eq_ok_iff.mp accepted⟩
            · exact bad.earlier earlier behind
          · rw [← Nat.add_assoc, Nat.add_right_comm]
            exact refused
      · rintro ⟨index, other, bad, refused⟩
        cases index with
        | zero =>
            left
            rw [← Option.some.inj bad.found] at refused
            exact refused
        | succ index =>
            right
            rcases bad.earlier row List.mem_cons_self with ⟨vector, accepts⟩
            have behind : encoder.FirstBad rows index other :=
              ⟨bad.found, fun earlier mem => bad.earlier earlier (List.mem_cons_of_mem _ mem),
                bad.bad⟩
            refine ⟨vector, encoder.accept_eq_ok_iff.mpr accepts, ?_⟩
            rw [← Nat.add_assoc, Nat.add_right_comm] at refused
            rw [ih.mpr ⟨index, other, behind, refused⟩]
            rfl

/-! ## One batch -/

theorem passes_iff_exists_yields {batch : List String} :
    encoder.Passes batch ↔ ∃ vectors, encoder.Yields batch vectors := by
  constructor
  · rintro ⟨rows, embedded, count, sound⟩
    rcases exists_forall₂_of_forall_mem sound with ⟨vectors, accepted⟩
    exact ⟨vectors, rows, embedded, count, accepted⟩
  · rintro ⟨vectors, rows, embedded, count, accepted⟩
    refine ⟨rows, embedded, count, fun row mem => ?_⟩
    rcases List.mem_iff_getElem?.mp mem with ⟨index, found⟩
    rcases exists_getElem?_of_forall₂ accepted found with ⟨vector, _, accepts⟩
    exact ⟨vector, accepts⟩

theorem passes_iff (offset : Nat) {batch : List String} :
    encoder.Passes batch ↔ ∃ vectors, encoder.encodeChunk offset batch = .ok vectors := by
  rw [passes_iff_exists_yields]
  exact exists_congr fun _ => encoder.encodeChunk_eq_ok_iff.symm

theorem not_passes_of_error {offset : Nat} {batch : List String} {fault : EncodeFault}
    (failed : encoder.encodeChunk offset batch = .error fault) : ¬encoder.Passes batch := by
  rw [encoder.passes_iff offset, failed]
  rintro ⟨vectors, given⟩
  cases given

theorem encodeChunk_eq_crashed_iff {offset : Nat} {batch : List String} {message : String} :
    encoder.encodeChunk offset batch = .error (.crashed message) ↔
      (encoder.provider.embed batch).rows = .error (.crashed message) := by
  unfold encodeChunk
  cases (encoder.provider.embed batch).rows with
  | error fault => cases fault <;> simp
  | ok rows =>
      by_cases count : rows.length = batch.length
      · simp [count, mapError_eq_error_iff]
      · simp [count]

theorem encodeChunk_eq_failed_iff {offset : Nat} {batch : List String} {error : EncodeError} :
    encoder.encodeChunk offset batch = .error (.failed error) ↔
      (∃ cause, (encoder.provider.embed batch).rows = .error (.failed cause) ∧
          error = .provider offset (offset + batch.length) cause) ∨
        ∃ rows, (encoder.provider.embed batch).rows = .ok rows ∧
          (rows.length ≠ batch.length ∧ error = .rowCount rows.length batch.length offset ∨
            rows.length = batch.length ∧ encoder.acceptAll offset rows = .error error) := by
  unfold encodeChunk
  cases (encoder.provider.embed batch).rows with
  | error fault => cases fault <;> simp [eq_comm]
  | ok rows =>
      by_cases count : rows.length = batch.length
      · simp [count, mapError_eq_error_iff]
      · simp [count, eq_comm (a := error)]

/-- What is said of a batch is the wording of the error with which it fails. -/
theorem complaint_iff {offset : Nat} {batch : List String} {failure : Failure} :
    encoder.Complaint offset batch failure ↔
      ∃ error, encoder.encodeChunk offset batch = .error (.failed error) ∧
        error.failure = failure := by
  simp only [encodeChunk_eq_failed_iff, acceptAll_eq_error_iff, accept_eq_error_iff]
  constructor
  · intro complaint
    cases complaint with
    | provider embedded => exact ⟨_, .inl ⟨_, embedded, rfl⟩, rfl⟩
    | rowCount embedded count => exact ⟨_, .inr ⟨_, embedded, .inl ⟨count, rfl⟩⟩, rfl⟩
    | rowLength embedded count first length =>
        exact ⟨_, .inr ⟨_, embedded, .inr ⟨count, _, _, first, .inl ⟨length, rfl⟩⟩⟩, rfl⟩
    | degenerate embedded count first length refused =>
        exact ⟨_, .inr ⟨_, embedded, .inr ⟨count, _, _, first,
          .inr ⟨length, _, refused, rfl⟩⟩⟩, rfl⟩
  · rintro ⟨error, ⟨cause, embedded, rfl⟩ | ⟨rows, embedded, given⟩, rfl⟩
    · exact .provider embedded
    · rcases given with ⟨count, rfl⟩ | ⟨count, index, row, first, refused⟩
      · exact .rowCount embedded count
      · rcases refused with ⟨length, rfl⟩ | ⟨length, reason, refused, rfl⟩
        · exact .rowLength embedded count first length
        · exact .degenerate embedded count first length refused

/-! ## Batches one after another -/

/-- Batches fail with the first of them that does not pass, which is the last that the provider
receives. -/
theorem encodeFrom_outcome_eq_error_iff {number : Nat} {batches : List (List String)}
    {fault : EncodeFault} :
    (encoder.encodeFrom number batches).outcome = .error fault ↔
      ∃ before batch after, batches = before ++ batch :: after ∧
        (∀ earlier ∈ before, encoder.Passes earlier) ∧
        encoder.encodeChunk ((number + before.length) * encoder.chunkSize) batch = .error fault ∧
        (encoder.encodeFrom number batches).received = before ++ [batch] := by
  -- on the batches, for any number of the first: it grows by one with every batch that passes
  induction batches generalizing number with
  | nil => simp [encodeFrom]
  | cons batch rest ih =>
      cases first : encoder.encodeChunk (number * encoder.chunkSize) batch with
      | error other =>
          rw [encoder.received_encodeFrom_cons_of_error rest first,
            encoder.encodeFrom_cons_of_error rest first]
          constructor
          · rintro ⟨⟩
            exact ⟨[], batch, rest, rfl, List.forall_mem_nil _, first, rfl⟩
          · rintro ⟨before, bad, after, whole, passed, failed, _⟩
            cases before with
            | nil =>
                cases whole
                rw [List.length_nil, Nat.add_zero, first] at failed
                exact failed
            | cons earlier more =>
                cases whole
                exact absurd (passed batch List.mem_cons_self)
                  (encoder.not_passes_of_error first)
      | ok piece =>
          have passes : encoder.Passes batch := (encoder.passes_iff _).mpr ⟨piece, first⟩
          rw [encoder.received_encodeFrom_cons_of_ok rest first,
            encoder.encodeFrom_cons_of_ok rest first, map_eq_error_iff, ih]
          constructor
          · rintro ⟨before, bad, after, rfl, passed, failed, received⟩
            refine ⟨batch :: before, bad, after, rfl, ?_, ?_, ?_⟩
            · intro earlier mem
              rcases List.mem_cons.mp mem with rfl | behind
              · exact passes
              · exact passed earlier behind
            · rw [List.length_cons, ← Nat.add_assoc, Nat.add_right_comm]
              exact failed
            · rw [received, List.cons_append]
          · rintro ⟨before, bad, after, whole, passed, failed, received⟩
            cases before with
            | nil =>
                cases whole
                rw [List.length_nil, Nat.add_zero, first] at failed
                cases failed
            | cons earlier more =>
                cases whole
                refine ⟨more, bad, after, rfl, ?_, ?_, ?_⟩
                · exact fun other mem => passed other (List.mem_cons_of_mem _ mem)
                · rw [List.length_cons, ← Nat.add_assoc, Nat.add_right_comm] at failed
                  exact failed
                · rw [List.cons_append, List.cons_inj_right] at received
                  exact received

/-- The batches before one with a number are the slices before it. -/
theorem eq_map_slice_of_chunks {texts : List String} {before after : List (List String)}
    {batch : List String} (whole : encoder.chunks texts = before ++ batch :: after) :
    before.length * encoder.chunkSize < texts.length ∧
      batch = encoder.slice texts before.length ∧
      before = (List.range before.length).map (encoder.slice texts) := by
  have inside : before.length < (encoder.chunks texts).length := by
    rw [whole, List.length_append, List.length_cons]
    omega
  have sliced : ∀ number ≤ before.length,
      (encoder.chunks texts)[number]? = some (encoder.slice texts number) := by
    intro number le
    exact encoder.getElem?_chunks
      (encoder.mul_chunkSize_lt_of_lt_length_chunks (Nat.lt_of_le_of_lt le inside))
  refine ⟨encoder.mul_chunkSize_lt_of_lt_length_chunks inside, ?_, ?_⟩
  · have last := sliced before.length le_rfl
    rw [whole, List.getElem?_append_right le_rfl, Nat.sub_self] at last
    exact Option.some.inj last
  · apply List.ext_getElem?
    intro number
    rcases Nat.lt_or_ge number before.length with early | late
    · have found := sliced number early.le
      rw [whole, List.getElem?_append_left early] at found
      rw [found, List.getElem?_map, List.getElem?_range early, Option.map_some]
    · rw [List.getElem?_eq_none late, List.getElem?_eq_none (by simpa using late)]

theorem StopsAt.unique {encoder : Encoder σ} {texts : List String} {number other : Nat}
    (stops : encoder.StopsAt texts number) (otherStops : encoder.StopsAt texts other) :
    number = other := by
  rcases Nat.lt_trichotomy number other with before | same | behind
  · exact absurd (otherStops.passed number before) stops.refused
  · exact same
  · exact absurd (stops.passed other behind) otherStops.refused

/-- An encode fails as the first of its batches does that does not pass. -/
theorem encode_outcome_eq_error_iff {texts : List String} {fault : EncodeFault} :
    (encoder.encode texts).outcome = .error fault ↔
      ∃ number, encoder.StopsAt texts number ∧
        encoder.encodeChunk (number * encoder.chunkSize) (encoder.slice texts number) =
          .error fault := by
  have stopped {other : EncodeFault} (failed : (encoder.encode texts).outcome = .error other) :
      ∃ number, encoder.StopsAt texts number ∧
        encoder.encodeChunk (number * encoder.chunkSize) (encoder.slice texts number) =
          .error other := by
    rcases encoder.encodeFrom_outcome_eq_error_iff.mp failed with
      ⟨before, batch, after, whole, passed, refused, received⟩
    rcases encoder.eq_map_slice_of_chunks whole with ⟨begins, batch_eq, before_eq⟩
    rw [Nat.zero_add, batch_eq] at refused
    refine ⟨before.length, ⟨begins, ?_, encoder.not_passes_of_error refused, ?_⟩, refused⟩
    · intro earlier lt
      apply passed
      rw [before_eq]
      exact List.mem_map_of_mem (List.mem_range.mpr lt)
    · rw [List.range_succ, List.map_append, ← before_eq, List.map_singleton, ← batch_eq]
      exact received
  constructor
  · exact stopped
  · rintro ⟨number, stops, refused⟩
    cases outcome : (encoder.encode texts).outcome with
    | ok vectors =>
        -- a successful encode has received batches that pass only
        rcases encoder.encode_outcome_eq_ok_iff.mp outcome with ⟨pieces, yields, _⟩
        rcases exists_getElem?_of_forall₂ yields (encoder.getElem?_chunks stops.begins) with
          ⟨piece, _, given⟩
        exact absurd (encoder.passes_iff_exists_yields.mpr ⟨piece, given⟩) stops.refused
    | error other =>
        rcases stopped outcome with ⟨otherNumber, otherStops, otherRefused⟩
        rw [← stops.unique otherStops, refused] at otherRefused
        exact otherRefused.symm

/-! ## Main result -/

/-- An encode that fails stops at the first batch that does not pass, and reports it with the
positions of its texts among all of them. -/
theorem fails_at_first_bad_batch (encoder : Encoder σ) (texts : List String) :
    let run := encoder.encode texts
    let offset (number : Nat) := number * max encoder.batchSize 1
    (∀ failure, (∃ error, run.outcome = .error (.failed error) ∧ error.failure = failure) ↔
        ∃ number, encoder.StopsAt texts number ∧
          encoder.Complaint (offset number) (encoder.slice texts number) failure) ∧
      ∀ message, run.outcome = .error (.crashed message) ↔
        ∃ number, encoder.StopsAt texts number ∧
          (encoder.provider.embed (encoder.slice texts number)).rows =
            .error (.crashed message) := by
  intro run offset
  constructor
  · intro failure
    constructor
    · rintro ⟨error, failed, rfl⟩
      rcases encoder.encode_outcome_eq_error_iff.mp failed with ⟨number, stops, refused⟩
      exact ⟨number, stops, encoder.complaint_iff.mpr ⟨error, refused, rfl⟩⟩
    · rintro ⟨number, stops, complaint⟩
      rcases encoder.complaint_iff.mp complaint with ⟨error, refused, rfl⟩
      exact ⟨error, encoder.encode_outcome_eq_error_iff.mpr ⟨number, stops, refused⟩, rfl⟩
  · intro message
    rw [encoder.encode_outcome_eq_error_iff]
    simp only [encodeChunk_eq_crashed_iff]

/-- Of five texts in batches of two, the second batch is the first with a bad text. -/
example :
    let behaviour : Sample.Behaviour := { dimension := 2, rowLength := 2, failOn := some "bad" }
    let encoder := ofProvider .rounded "sample" (Sample.provider behaviour) 2
    let run := encoder.encode ["a", "b", "c", "bad", "bad"]
    run.received = [["a", "b"], ["c", "bad"]] ∧
      (match run.outcome with
        | .error (.failed error) => error.failure.oneLine
        | _ => "") = "encode failed for inputs 2..4: simulated inference failure" := by
  decide +kernel

end Encoder

end TextVectors
