import TextVectors.Proofs.Encoder.FirstFailure

/-!
# Positions in machine words

An encode counts its batches and computes where each of them begins and ends, and
where each of its rows stands among all texts. A machine does this in registers of
sixty-four bits, and it either breaks off or goes on with a wrong number when a result
does not fit one. The number of a batch is multiplied by a size that may be as large as
a register allows, so it is not the size alone that keeps the product small: a batch
with a number exists only if the batches before it are full.

The ranges of the batches say this. Each begins where the one before ends, and the last
ends behind the last text, `tiles_ranges`. Every number that is computed for a batch lies
in its range or at its border, so the encode in registers, `encodeIn`, is the same as the
encode with numbers of any size.
-/

namespace TextVectors

/-! ## Ranges -/

/-- Ranges that lead from a position to another: none of them is empty, and each begins where the
one before it ends. A range is given by its first position and the one behind its last. -/
inductive Tiles : Nat → List (Nat × Nat) → Nat → Prop where
  | nil (first : Nat) : Tiles first [] first
  | cons {first next last : Nat} {ranges : List (Nat × Nat)} (nonempty : first < next)
      (rest : Tiles next ranges last) : Tiles first ((first, next) :: ranges) last

namespace Tiles

variable {first last : Nat} {ranges : List (Nat × Nat)}

theorem le (tiles : Tiles first ranges last) : first ≤ last := by
  induction tiles with
  | nil => exact le_rfl
  | cons nonempty _ ih => omega

/-- The positions in the ranges are all those from the first to the last, each once. -/
theorem flatMap_positions (tiles : Tiles first ranges last) :
    (ranges.flatMap fun range => List.range' range.1 (range.2 - range.1)) =
      List.range' first (last - first) := by
  induction tiles with
  | nil first => simp
  | @cons first next last ranges nonempty rest ih =>
      have whole : last - first = (next - first) + (last - next) := by
        have le := rest.le
        omega
      have joint : next = first + (next - first) := by omega
      rw [List.flatMap_cons, ih, whole, ← List.range'_append_1, ← joint]

end Tiles

namespace EncodeError

/-- The positions that an error names are those of a range: its two ends, the first of them with a
number of texts, or a position inside. -/
inductive Names : EncodeError → Nat × Nat → Prop where
  | provider (first behind : Nat) (cause : Failure) :
      Names (.provider first behind cause) (first, behind)
  | rowCount (rows texts offset : Nat) :
      Names (.rowCount rows texts offset) (offset, offset + texts)
  | rowLength {first behind index : Nat} (found expected : Nat) (begun : first ≤ index)
      (inside : index < behind) : Names (.rowLength index found expected) (first, behind)
  | degenerate {first behind index : Nat} (reason : UnitVector.Degenerate) (begun : first ≤ index)
      (inside : index < behind) : Names (.degenerate index reason) (first, behind)

end EncodeError

/-! ## Registers -/

/-- A register of sixty-four bits: what it holds of the exact result of an operation, unless the
machine breaks off. A result that fits is held as it is. -/
structure Register where
  hold : Nat → Option Nat
  hold_of_lt : ∀ number < 2 ^ 64, hold number = some number

/-- The register of a machine that breaks off when a result does not fit. -/
def Register.checked : Register where
  hold number := if number < 2 ^ 64 then some number else none
  hold_of_lt _ fits := if_pos fits

/-- The register of a machine that loses the upper digits of a result that does not fit. -/
def Register.wrapping : Register where
  hold number := some (number % 2 ^ 64)
  hold_of_lt _ fits := congrArg some (Nat.mod_eq_of_lt fits)

/-- A result that does not fit makes a difference. -/
example : Register.checked.hold (2 ^ 63 * 2) = none ∧
    Register.wrapping.hold (2 ^ 63 * 2) = some 0 := by
  decide

namespace Encoder

variable {σ : Type} (encoder : Encoder σ) (register : Register)

/-- The vectors of the raw rows of a batch that begins at `offset`, of which the first given has a
place among all. The position of each row is computed, whether an error needs it or not. -/
def acceptAllIn (offset : Nat) :
    Nat → List (List σ) → Option (Except EncodeError (List (List σ)))
  | _, [] => some (.ok [])
  | place, row :: rows => do
    let next ← register.hold (place + 1)
    let index ← register.hold (offset + place)
    match encoder.accept index row with
    | .error error => return .error error
    | .ok vector =>
      let vectors ← acceptAllIn offset next rows
      return vectors.map (vector :: ·)

/-- The vectors of the batch with a number. Where it begins and ends is computed, whether an error
needs it or not. -/
def encodeChunkIn (number : Nat) (chunk : List String) :
    Option (Except EncodeFault (List (List σ))) := do
  let offset ← register.hold (number * encoder.chunkSize)
  let behind ← register.hold (offset + chunk.length)
  match (encoder.provider.embed chunk).rows with
  | .error (.crashed message) => return .error (.crashed message)
  | .error (.failed failure) => return .error (.failed (.provider offset behind failure))
  | .ok rows =>
    if rows.length ≠ chunk.length then
      return .error (.failed (.rowCount rows.length chunk.length offset))
    else
      let vectors ← encoder.acceptAllIn register offset 0 rows
      return vectors.mapError .failed

/-- Encodes batches of which the first has a number among all batches. -/
def encodeFromIn : Nat → List (List String) → Option (Run σ)
  | _, [] => some ⟨[], 0, .ok []⟩
  | number, chunk :: rest => do
    let next ← register.hold (number + 1)
    let elapsed := (encoder.provider.embed chunk).elapsed
    match ← encoder.encodeChunkIn register number chunk with
    | .error fault => return ⟨[⟨0, chunk⟩], elapsed, .error fault⟩
    | .ok vectors =>
      let later ← encodeFromIn next rest
      return ⟨⟨0, chunk⟩ :: later.calls.map (·.shift elapsed), elapsed + later.elapsed,
        later.outcome.map (vectors ++ ·)⟩

/-- Encodes texts on a machine with registers, unless it breaks off. -/
def encodeIn (texts : List String) : Option (Run σ) :=
  encoder.encodeFromIn register 0 (encoder.chunks texts)

/-! ## The ranges of the batches -/

/-- Where batches stand of which the first has a number among all: each begins at its number times
the size of the batches, and ends behind its texts. -/
def rangesFrom : Nat → List (List String) → List (Nat × Nat)
  | _, [] => []
  | number, batch :: rest =>
    (number * encoder.chunkSize, number * encoder.chunkSize + batch.length) ::
      rangesFrom (number + 1) rest

/-- Where the batches of some texts stand. -/
def ranges (texts : List String) : List (Nat × Nat) :=
  encoder.rangesFrom 0 (encoder.chunks texts)

theorem getElem?_rangesFrom (number index : Nat) (batches : List (List String)) :
    (encoder.rangesFrom number batches)[index]? = batches[index]?.map fun batch =>
      ((number + index) * encoder.chunkSize,
        (number + index) * encoder.chunkSize + batch.length) := by
  induction batches generalizing number index with
  | nil => simp [rangesFrom]
  | cons batch rest ih =>
      cases index with
      | zero => simp [rangesFrom]
      | succ index =>
          rw [rangesFrom, List.getElem?_cons_succ, List.getElem?_cons_succ, ih,
            Nat.add_right_comm number 1 index, Nat.add_assoc number index 1]

theorem getElem?_ranges {texts batch : List String} {number : Nat}
    (found : (encoder.chunks texts)[number]? = some batch) :
    (encoder.ranges texts)[number]? =
      some (number * encoder.chunkSize, number * encoder.chunkSize + batch.length) := by
  rw [ranges, getElem?_rangesFrom, found, Option.map_some, Nat.zero_add]

theorem length_rangesFrom (number : Nat) (batches : List (List String)) :
    (encoder.rangesFrom number batches).length = batches.length := by
  induction batches generalizing number with
  | nil => rfl
  | cons batch rest ih => rw [rangesFrom, List.length_cons, List.length_cons, ih]

/-- A batch that is not the last is full, and so the next one begins where it ends. -/
theorem tiles_rangesFrom_cut (number : Nat) (texts : List String) :
    Tiles (number * encoder.chunkSize)
      (encoder.rangesFrom number (cut (encoder.chunkSize - 1) texts))
      (number * encoder.chunkSize + texts.length) := by
  fun_induction cut (encoder.chunkSize - 1) texts generalizing number with
  | case1 => exact .nil _
  | case2 text texts ih =>
      have positive := encoder.chunkSize_pos
      rw [rangesFrom]
      refine .cons (by simp) ?_
      -- A piece that is not full takes all that is left.
      rcases Nat.lt_or_ge texts.length (encoder.chunkSize - 1) with short | long
      · rw [List.take_of_length_le short.le, List.drop_eq_nil_of_le short.le, cut_nil, rangesFrom]
        exact .nil _
      · have later := ih (number + 1)
        have begins : number * encoder.chunkSize +
            (text :: texts.take (encoder.chunkSize - 1)).length =
              (number + 1) * encoder.chunkSize := by
          rw [List.length_cons, List.length_take_of_le long, Nat.succ_mul]
          omega
        have ends : number * encoder.chunkSize + (text :: texts).length =
            (number + 1) * encoder.chunkSize + (texts.drop (encoder.chunkSize - 1)).length := by
          rw [List.length_cons, List.length_drop, Nat.succ_mul]
          omega
        rwa [begins, ends]

/-- The ranges of the batches lead from the first text to behind the last. -/
theorem tiles_ranges (texts : List String) :
    Tiles 0 (encoder.ranges texts) texts.length := by
  have tiles := encoder.tiles_rangesFrom_cut 0 texts
  rwa [Nat.zero_mul, Nat.zero_add] at tiles

/-! ## The same in registers -/

theorem acceptAllIn_eq {offset place : Nat} {rows : List (List σ)}
    (fits : offset + place + rows.length < 2 ^ 64) :
    encoder.acceptAllIn register offset place rows =
      some (encoder.acceptAll (offset + place) rows) := by
  induction rows generalizing place with
  | nil => rfl
  | cons row rows ih =>
      rw [List.length_cons] at fits
      have later : encoder.acceptAllIn register offset (place + 1) rows =
          some (encoder.acceptAll (offset + place + 1) rows) := ih (by omega)
      rw [acceptAllIn, register.hold_of_lt (place + 1) (by omega),
        register.hold_of_lt (offset + place) (by omega), acceptAll]
      cases accepted : encoder.accept (offset + place) row with
      | error error =>
          simp only [accepted, Option.bind_eq_bind, Option.bind_some]
          rfl
      | ok vector =>
          simp only [accepted, later, Option.bind_eq_bind, Option.bind_some, ok_bind]
          cases encoder.acceptAll (offset + place + 1) rows <;> rfl

theorem encodeChunkIn_eq {number : Nat} {chunk : List String}
    (fits : number * encoder.chunkSize + chunk.length < 2 ^ 64) :
    encoder.encodeChunkIn register number chunk =
      some (encoder.encodeChunk (number * encoder.chunkSize) chunk) := by
  rw [encodeChunkIn, register.hold_of_lt (number * encoder.chunkSize) (by omega)]
  simp only [Option.bind_eq_bind, Option.bind_some]
  rw [register.hold_of_lt _ fits, encodeChunk, Option.bind_some]
  cases embedded : (encoder.provider.embed chunk).rows with
  | error fault => cases fault <;> rfl
  | ok rows =>
      by_cases count : rows.length = chunk.length
      · have accepted : encoder.acceptAllIn register (number * encoder.chunkSize) 0 rows =
            some (encoder.acceptAll (number * encoder.chunkSize) rows) :=
          encoder.acceptAllIn_eq register (by omega)
        simp [count, accepted]
      · simp [count]

/-- Batches whose ranges fit are encoded in registers as they are with numbers of any size. -/
theorem encodeFromIn_eq {first last number : Nat} {batches : List (List String)}
    (tiles : Tiles first (encoder.rangesFrom number batches) last) (fits : last < 2 ^ 64) :
    encoder.encodeFromIn register number batches = some (encoder.encodeFrom number batches) := by
  induction batches generalizing first number with
  | nil => rfl
  | cons batch rest ih =>
      rw [rangesFrom] at tiles
      cases tiles with
      | cons nonempty later =>
          -- The batch ends before what comes behind it, and its number is no larger than the
          -- position at which it begins, for no size is zero.
          have behind := later.le
          have counted : number ≤ number * encoder.chunkSize :=
            Nat.le_mul_of_pos_right number encoder.chunkSize_pos
          have same : encoder.encodeChunkIn register number batch =
              some (encoder.encodeChunk (number * encoder.chunkSize) batch) :=
            encoder.encodeChunkIn_eq register (by omega)
          rw [encodeFromIn, register.hold_of_lt (number + 1) (by omega), same, encodeFrom]
          cases encoder.encodeChunk (number * encoder.chunkSize) batch with
          | error fault => simp
          | ok vectors => simp [ih later]

theorem encodeIn_eq {texts : List String} (few : texts.length < 2 ^ 64) :
    encoder.encodeIn register texts = some (encoder.encode texts) :=
  encoder.encodeFromIn_eq register (encoder.tiles_ranges texts) few

/-! ## Positions in errors -/

theorem names_of_encodeChunk {offset : Nat} {batch : List String} {error : EncodeError}
    (failed : encoder.encodeChunk offset batch = .error (.failed error)) :
    error.Names (offset, offset + batch.length) := by
  rcases encoder.encodeChunk_eq_failed_iff.mp failed with
    ⟨cause, _, rfl⟩ | ⟨rows, _, ⟨_, rfl⟩ | ⟨count, refused⟩⟩
  · exact .provider offset (offset + batch.length) cause
  · exact .rowCount rows.length batch.length offset
  · rcases encoder.acceptAll_eq_error_iff.mp refused with ⟨index, row, bad, refused⟩
    rcases List.getElem?_eq_some_iff.mp bad.found with ⟨inside, _⟩
    rcases encoder.accept_eq_error_iff.mp refused with ⟨_, rfl⟩ | ⟨_, reason, _, rfl⟩
    · exact .rowLength row.length encoder.dimension (by omega) (by omega)
    · exact .degenerate reason (by omega) (by omega)

/-- An error names positions in the range of the last batch that the provider received. -/
theorem names_of_encode {texts : List String} {error : EncodeError}
    (failed : (encoder.encode texts).outcome = .error (.failed error)) :
    ∃ number range, (encoder.encode texts).received.length = number + 1 ∧
      (encoder.ranges texts)[number]? = some range ∧ error.Names range := by
  rcases encoder.encode_outcome_eq_error_iff.mp failed with ⟨number, stops, refused⟩
  refine ⟨number, _, ?_, encoder.getElem?_ranges (encoder.getElem?_chunks stops.begins),
    encoder.names_of_encodeChunk refused⟩
  rw [stops.received, List.length_map, List.length_range]

/-! ## Main result -/

/-- An encode computes no number beyond the number of its texts, whatever the size of its batches,
and so its run in registers is the run with numbers of any size, whatever a register does with a
result that does not fit. The ranges of the batches lead without a gap from the first text to behind
the last; the encode goes through them in their order, through all of them if it succeeds, and an
error names positions in the one that it has come to. -/
theorem positions_held (encoder : Encoder σ) (texts : List String) (few : texts.length < 2 ^ 64) :
    let run := encoder.encode texts
    let ranges := encoder.ranges texts
    let offset (number : Nat) := number * max encoder.batchSize 1
    (∀ register, encoder.encodeIn register texts = some run) ∧
      Tiles 0 ranges texts.length ∧
      (ranges.flatMap fun range => List.range' range.1 (range.2 - range.1)) =
        List.range texts.length ∧
      (∀ number batch, run.received[number]? = some batch →
        ranges[number]? = some (offset number, offset number + batch.length) ∧
          offset number < texts.length ∧ offset number + batch.length ≤ texts.length ∧
          ∀ rows, (encoder.provider.embed batch).rows = .ok rows → rows.length = batch.length →
            ∀ place < rows.length, offset number + place < texts.length) ∧
      (∀ vectors, run.outcome = .ok vectors → run.received.length = ranges.length) ∧
      ∀ error, run.outcome = .error (.failed error) →
        ∃ number range, run.received.length = number + 1 ∧ ranges[number]? = some range ∧
          error.Names range := by
  intro run ranges offset
  have tiles : Tiles 0 ranges texts.length := encoder.tiles_ranges texts
  refine ⟨fun register => encoder.encodeIn_eq register few, tiles, ?_, ?_, ?_,
    fun error => encoder.names_of_encode⟩
  · rw [tiles.flatMap_positions, Nat.sub_zero, List.range_eq_range']
  · intro number batch found
    rcases List.getElem?_eq_some_iff.mp found with ⟨inside, _⟩
    have begins : offset number < texts.length := (encoder.getElem?_received inside).1
    have listed : (encoder.chunks texts)[number]? = some batch := by
      rw [encoder.getElem?_chunks begins, ← (encoder.getElem?_received inside).2]
      exact found
    have ends : offset number + batch.length ≤ texts.length := encoder.end_le_length listed
    refine ⟨encoder.getElem?_ranges listed, begins, ends, ?_⟩
    intro rows _ count place inside
    omega
  · intro vectors succeeded
    have all : run.received = encoder.chunks texts := encoder.received_encodeFrom_of_ok succeeded
    rw [all]
    exact (encoder.length_rangesFrom 0 _).symm

theorem positions_held_sample :
    let behaviour : Sample.Behaviour := { dimension := 2, rowLength := 2, failOn := some "bad" }
    let encoder := ofProvider .rounded "sample" (Sample.provider behaviour) 2
    let texts := ["a", "b", "c", "bad", "d"]
    let run := encoder.encode texts
    texts.length < 2 ^ 64 ∧
      encoder.encodeIn .checked texts = some run ∧ encoder.encodeIn .wrapping texts = some run ∧
      encoder.ranges texts = [(0, 2), (2, 4), (4, 5)] ∧
      ∃ error, run.outcome = .error (.failed error) ∧ error.Names (2, 4) := by
  intro behaviour encoder texts run
  have few : texts.length < 2 ^ 64 := by decide
  have ranges : encoder.ranges texts = [(0, 2), (2, 4), (4, 5)] := by decide +kernel
  have received : run.received.length = 2 := by decide +kernel
  have failed : run.outcome =
      .error (.failed (.provider 2 4 ⟨"simulated inference failure", []⟩)) := by
    decide +kernel
  rcases positions_held encoder texts few with ⟨same, _, _, _, _, reported⟩
  refine ⟨few, same .checked, same .wrapping, ranges, _, failed, ?_⟩
  rcases reported _ failed with ⟨number, range, length, found, names⟩
  obtain rfl : number = 1 := Nat.succ.inj (length.symm.trans received)
  rw [ranges] at found
  cases found
  exact names

end Encoder

end TextVectors
