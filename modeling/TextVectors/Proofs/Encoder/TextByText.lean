import TextVectors.Proofs.Encoder.Batches
import TextVectors.Sample.Provider

/-!
# Providers that work text by text

Some providers look at one text at a time: they fail on a batch iff they fail on
one of its texts, and otherwise give the row of each text. How the texts are cut
into batches cannot be seen in what an encoder makes of such a provider.

Two ways of cutting meet a text that fails after different work, and perhaps in
a different check, so the runs themselves cannot be compared step by step.
Instead, success is described without batches: `encode_outcome_eq_ok_iff_forall₂`
says that an encode succeeds iff every text `Embeds` to a vector, and this is
the same for all sizes of a batch.
-/

namespace TextVectors

/-- A provider that works text by text. -/
structure Provider.TextByText {σ : Type} (provider : Provider σ)
    (row? : String → Option (List σ)) : Prop where
  fails_iff : ∀ batch, batch ≠ [] →
    ((∃ fault, (provider.embed batch).rows = .error fault) ↔ ∃ text ∈ batch, row? text = none)
  rows_eq : ∀ batch rows, batch ≠ [] →
    (provider.embed batch).rows = .ok rows → rows.map some = batch.map row?

namespace Encoder

/-! ## Success without batches -/

variable {σ : Type} {row? : String → Option (List σ)}

theorem embed_eq_ok_iff {provider : Provider σ} (textByText : provider.TextByText row?)
    {batch : List String} (nonempty : batch ≠ []) {rows : List (List σ)} :
    (provider.embed batch).rows = .ok rows ↔
      List.Forall₂ (fun text row => row? text = some row) batch rows := by
  rw [← List.forall₂_map_right_iff, ← List.forall₂_map_left_iff, List.forall₂_eq_eq_eq]
  constructor
  · intro embedded
    exact (textByText.rows_eq batch rows nonempty embedded).symm
  · intro given
    cases embedded : (provider.embed batch).rows with
    | error fault =>
        rcases (textByText.fails_iff batch nonempty).mp ⟨fault, embedded⟩ with ⟨text, mem, fails⟩
        have noRow : none ∈ rows.map some := by
          rw [← given, ← fails]
          exact List.mem_map_of_mem mem
        simp at noRow
    | ok others =>
        have same := textByText.rows_eq batch others nonempty embedded
        rw [given] at same
        rw [List.map_injective_iff.mpr (Option.some_injective _) same]

variable (encoder : Encoder σ)

/-- A text and the vector that its row is brought to. -/
def Embeds (row? : String → Option (List σ)) (text : String) (vector : List σ) : Prop :=
  ∃ row, row? text = some row ∧ encoder.Accepts row vector

/-- The vectors of a batch for each of whose texts the provider gives a row of its own. -/
theorem yields_iff_forall₂ {Given : String → List σ → Prop} {batch : List String}
    (given : ∀ rows, (encoder.provider.embed batch).rows = .ok rows ↔
      List.Forall₂ Given batch rows) {vectors : List (List σ)} :
    encoder.Yields batch vectors ↔
      List.Forall₂ (fun text vector => ∃ row, Given text row ∧ encoder.Accepts row vector)
        batch vectors := by
  unfold Yields
  rw [← exists_forall₂_iff]
  simp only [given]
  constructor
  · rintro ⟨rows, rowwise, _, accepted⟩
    exact ⟨rows, rowwise, accepted⟩
  · rintro ⟨rows, rowwise, accepted⟩
    exact ⟨rows, rowwise, rowwise.length_eq.symm, accepted⟩

/-- An encode of texts for each of which the provider gives a row of its own, whatever stands beside
it in a batch, succeeds iff each of them has a vector. -/
theorem encode_outcome_eq_ok_iff_of_given {Given : String → List σ → Prop} {texts : List String}
    (given : ∀ batch, batch ≠ [] → (∀ text ∈ batch, text ∈ texts) → ∀ rows,
      (encoder.provider.embed batch).rows = .ok rows ↔ List.Forall₂ Given batch rows)
    {vectors : List (List σ)} :
    (encoder.encode texts).outcome = .ok vectors ↔
      List.Forall₂ (fun text vector => ∃ row, Given text row ∧ encoder.Accepts row vector)
        texts vectors := by
  have batchwise (pieces : List (List (List σ))) :
      List.Forall₂ encoder.Yields (encoder.chunks texts) pieces ↔
        List.Forall₂ (List.Forall₂ fun text vector =>
          ∃ row, Given text row ∧ encoder.Accepts row vector) (encoder.chunks texts) pieces := by
    refine forall₂_congr_of_forall_mem fun batch mem _ => encoder.yields_iff_forall₂ ?_
    refine given batch (ne_nil_of_mem_cut mem) fun text inside => ?_
    rw [← encoder.flatten_chunks texts]
    exact List.mem_flatten_of_mem mem inside
  simp only [encode_outcome_eq_ok_iff, batchwise, ← forall₂_flatten_left_iff, flatten_chunks]

/-- An encode succeeds iff each of its texts has a vector. -/
theorem encode_outcome_eq_ok_iff_forall₂ (textByText : encoder.provider.TextByText row?)
    {texts : List String} {vectors : List (List σ)} :
    (encoder.encode texts).outcome = .ok vectors ↔
      List.Forall₂ (encoder.Embeds row?) texts vectors :=
  encoder.encode_outcome_eq_ok_iff_of_given fun _ nonempty _ _ =>
    embed_eq_ok_iff textByText nonempty

/-! ## Main result -/

/-- How the texts are cut into batches cannot be seen. An encode succeeds iff each text has a row
of the right length that can be brought to unit length, its vectors are these rows brought to unit
length, and the encode of two lists, one after the other, is the encodes of both. -/
theorem encode_text_by_text {δ : Type} (arithmetic : UnitVector.Arithmetic σ δ) (modelId : String)
    (provider : Provider σ) (textByText : provider.TextByText row?) :
    let outcome (batchSize : Nat) (texts : List String) :=
      ((ofProvider arithmetic modelId provider batchSize).encode texts).outcome
    (∀ first second texts vectors,
        outcome first texts = .ok vectors ↔ outcome second texts = .ok vectors) ∧
      (∀ batchSize texts,
        (∃ vectors, outcome batchSize texts = .ok vectors) ↔
          ∀ text ∈ texts, ∃ row vector, row? text = some row ∧
            row.length = provider.dimension ∧ arithmetic.normalize row = .ok vector) ∧
      (∀ batchSize texts vectors, outcome batchSize texts = .ok vectors →
        vectors.map some = texts.map fun text =>
          (row? text).bind fun row => (arithmetic.normalize row).toOption) ∧
      ∀ batchSize xs ys vectors,
        outcome batchSize (xs ++ ys) = .ok vectors ↔
          ∃ us vs, outcome batchSize xs = .ok us ∧ outcome batchSize ys = .ok vs ∧
            vectors = us ++ vs := by
  intro outcome
  let Embeds := (ofProvider arithmetic modelId provider 0).Embeds row?
  have outcome_eq_ok_iff (batchSize : Nat) (texts : List String) (vectors : List (List σ)) :
      outcome batchSize texts = .ok vectors ↔ List.Forall₂ Embeds texts vectors :=
    (ofProvider arithmetic modelId provider batchSize).encode_outcome_eq_ok_iff_forall₂ textByText
  simp only [outcome_eq_ok_iff]
  refine ⟨fun _ _ _ _ => trivial, ?_, ?_, fun _ _ _ _ => forall₂_append_left_iff⟩
  · intro batchSize texts
    constructor
    · rintro ⟨vectors, embeds⟩ text mem
      rcases List.mem_iff_getElem?.mp mem with ⟨index, found⟩
      rcases exists_getElem?_of_forall₂ embeds found with ⟨vector, _, row, given, accepted⟩
      exact ⟨row, vector, given, accepted⟩
    · intro partner
      apply exists_forall₂_of_forall_mem
      intro text mem
      rcases partner text mem with ⟨row, vector, given, accepted⟩
      exact ⟨vector, row, given, accepted⟩
  · intro batchSize texts vectors embeds
    induction embeds with
    | nil => rfl
    | cons first _ ih =>
        rcases first with ⟨row, given, dimension, normalized⟩
        have normalized : arithmetic.normalize row = .ok _ := normalized
        simp [ih, given, normalized, Except.toOption]

end Encoder

/-! ## The sample provider -/

/-- The row of a text, unless the sample provider fails on it. -/
def Sample.row? (behaviour : Sample.Behaviour) (text : String) :
    Option (List Number.Single) :=
  if behaviour.failOn = some text then none else some (Sample.row text behaviour.rowLength)

/-- The sample provider works text by text as long as it keeps its last row. -/
theorem Sample.provider_textByText {behaviour : Sample.Behaviour}
    (keeps : behaviour.dropsLastRow = false) :
    (Sample.provider behaviour).TextByText (Sample.row? behaviour) where
  fails_iff batch _ := by
    by_cases fails : ∃ text ∈ batch, behaviour.failOn = some text
    · simp [Sample.provider, Sample.row?, fails]
    · simp [Sample.provider, Sample.row?, fails]
  rows_eq batch rows _ embedded := by
    simp only [Sample.provider, keeps] at embedded
    split at embedded
    · cases embedded
    · rename_i fits
      cases embedded
      simp_all [Sample.row?]

theorem Encoder.encode_text_by_text_sample :
    let behaviour : Sample.Behaviour := { dimension := 2, rowLength := 2, failOn := some "boom" }
    let provider := Sample.provider behaviour
    let outcome (batchSize : Nat) (texts : List String) :=
      ((ofProvider .rounded "sample" provider batchSize).encode texts).outcome
    provider.TextByText (Sample.row? behaviour) ∧
      (¬∃ vectors, outcome 1 ["fine", "boom", "fine"] = .ok vectors) ∧
      ∃ vectors, outcome 1 ["a", "b", "a"] = .ok vectors ∧
        outcome 2 ["a", "b", "a"] = .ok vectors := by
  intro behaviour provider outcome
  have textByText := Sample.provider_textByText (show behaviour.dropsLastRow = false from rfl)
  have result := encode_text_by_text .rounded "sample" provider textByText
  refine ⟨textByText, ?_, ?_⟩
  · rw [result.2.1]
    intro partner
    rcases partner "boom" (by decide) with ⟨row, vector, given, _⟩
    cases given
  · have directed : ∀ text ∈ ["a", "b", "a"],
        ((UnitVector.Arithmetic.rounded.normalize (Sample.row text 2)).toOption).isSome := by
      decide +kernel
    have succeeds : ∃ vectors, outcome 1 ["a", "b", "a"] = .ok vectors := by
      rw [result.2.1]
      intro text mem
      cases normalized : UnitVector.Arithmetic.rounded.normalize (Sample.row text 2) with
      | error reason =>
          have found := directed text mem
          simp [normalized, Except.toOption] at found
      | ok vector =>
          have fine : text ≠ "boom" := by
            rintro rfl
            simp at mem
          refine ⟨Sample.row text 2, vector, ?_, by simp [Sample.row, provider, behaviour,
            Sample.provider], normalized⟩
          simp [Sample.row?, behaviour, fine.symm]
    rcases succeeds with ⟨vectors, succeeded⟩
    exact ⟨vectors, succeeded, (result.1 1 2 _ vectors).mp succeeded⟩

end TextVectors
