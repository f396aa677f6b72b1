import TextVectors.Proofs.Encoder.TextByText
import TextVectors.Proofs.SentenceEncoder.Filling
import TextVectors.Proofs.Tokens.Limit
import TextVectors.Proofs.Transformer.Loading
import TextVectors.Sample.Sentences

/-!
# The neighbours of a text

The batch that a text lands in decides how far it is filled up, and its tokens go
through the network together with those of its neighbours. Neither can be seen
in its vector, provided that the network `Separates` the texts of a batch: what
it gives for the tokens of a text follows from these tokens alone.

The argument has two halves. A batch of unpadded encodings holds their tokens,
so `embed_eq_ok_iff` can say what an encoder gives for it text by text. What an
encoder of vectors makes of rows that are given text by text is known already.
-/

namespace TextVectors

namespace SentenceEncoder

variable {σ : Type}

/-- What is assumed of the network of an encoder. It has as many positions as the limit says and
knows some numbers of tokens; `alone` are the vectors of the tokens of a text, whatever else is in
the batch. -/
structure Separates (encoder : SentenceEncoder σ) (limit : Nat) (known : Nat → Prop)
    (alone : List Nat → List (List σ)) : Prop where
  padId_known : known encoder.padId
  /-- It fails just on batches for which it lacks a position or a number. -/
  succeeds_iff : ∀ {batch texts}, batch.Holds texts →
    ((∃ vectors, encoder.forward batch = .ok vectors) ↔
      batch.length ≤ limit ∧ ∀ id ∈ batch.ids.flatten, known id)
  shape_eq : ∀ {batch texts vectors}, batch.Holds texts → encoder.forward batch = .ok vectors →
    vectors.shape = [texts.length, batch.length, encoder.dimension]
  length_data : ∀ {batch texts vectors}, batch.Holds texts → encoder.forward batch = .ok vectors →
    vectors.data.length = texts.length * (batch.length * encoder.dimension)
  /-- Neither other texts nor what follows the tokens of a text counts for them. -/
  alone_eq : ∀ {batch texts vectors}, batch.Holds texts → encoder.forward batch = .ok vectors →
    List.Forall₂ (fun tokens perToken => perToken.take tokens.length = alone tokens) texts
      (vectors.tokenVectors texts.length batch.length encoder.dimension)

/-- The row of a text, of the vectors of its tokens. -/
def pooled (encoder : SentenceEncoder σ) (alone : List Nat → List (List σ)) (tokens : List Nat) :
    List σ :=
  match encoder.pooling with
  | .first => (alone tokens).headD []
  | .mean =>
    encoder.arithmetic.mean encoder.dimension (alone tokens) (List.replicate tokens.length 1)

/-- A text that the encoder can take, and its row. -/
def Gives (encoder : SentenceEncoder σ) (limit : Nat) (known : Nat → Prop)
    (alone : List Nat → List (List σ)) (text : String) (row : List σ) : Prop :=
  ∃ encoding, encoder.tokenize text = .ok encoding ∧
    (encoding.ids.length ≤ limit ∧ ∀ id ∈ encoding.ids, known id) ∧
    encoder.pooled alone encoding.ids = row

variable {encoder : SentenceEncoder σ} {limit : Nat} {known : Nat → Prop}
  {alone : List Nat → List (List σ)}

/-! ## Pooling a batch -/

theorem headD_take {α : Type} {count : Nat} (positive : 0 < count) (items : List α) (default : α) :
    (items.take count).headD default = items.headD default := by
  cases items with
  | nil => simp
  | cons item items =>
      cases count with
      | zero => cases positive
      | succ count => rfl

/-- The mean of a row of a batch is the mean over the tokens of its text. -/
theorem mean_eq_pooled {arithmetic : Pooling.Arithmetic σ} (exact : arithmetic.Exact)
    {width length count : Nat} {perToken : List (List σ)} (all : perToken.length = length)
    (widths : ∀ vector ∈ perToken, vector.length = width) (short : count ≤ length) :
    arithmetic.mean width perToken
        (List.replicate count 1 ++ List.replicate (length - count) 0) =
      arithmetic.mean width (perToken.take count) (List.replicate count 1) := by
  have marked : (perToken.take count).length = (List.replicate count (1 : Int)).length := by
    rw [List.length_take, List.length_replicate, all, Nat.min_eq_left short]
  have fillers : ∀ vector ∈ perToken.drop count, vector.length = width :=
    fun vector mem => widths vector (List.mem_of_mem_drop mem)
  rw [← exact.mean_fillers marked fillers, List.take_append_drop]

theorem Separates.pool_eq_ok (separates : encoder.Separates limit known alone)
    (exact : encoder.pooling = .mean → encoder.arithmetic.Exact) {batch : Batch}
    {texts : List (List Nat)} (holds : batch.Holds texts) {vectors : Tensor σ}
    (given : encoder.forward batch = .ok vectors) :
    encoder.pool vectors ⟨[texts.length, batch.length], batch.marks.flatten⟩ =
      .ok (texts.map (encoder.pooled alone)) := by
  have shape := separates.shape_eq holds given
  have own := separates.alone_eq holds given
  have count := own.length_eq
  unfold pool
  cases pooling : encoder.pooling with
  | first =>
      simp only [Tensor.firsts_eq_ok shape holds.length_pos, Except.ok.injEq]
      refine List.ext_getElem (by simpa using count.symm) fun index inside inside' => ?_
      have here : index < texts.length := by simpa using inside'
      have mine := own.get here (count ▸ here)
      have positive : 0 < (texts.get ⟨index, here⟩).length :=
        List.length_pos_iff.mpr (holds.tokens_nonempty _ (List.get_mem _ _))
      rw [List.getElem_map, List.getElem_map, pooled, pooling, ← headD_take positive]
      exact congrArg (List.headD · []) mine
  | mean =>
      simp only [Tensor.mean_eq_ok shape holds.length_marks fun _ => holds.length_of_mem_marks,
        Except.ok.injEq]
      refine List.ext_getElem (by simp [← count, holds.length_marks]) fun index inside inside' => ?_
      have here : index < texts.length := by simpa using inside'
      have mine := own.get here (count ▸ here)
      have parts := Tensor.mem_tokenVectors (separates.length_data holds given)
        (List.getElem_mem (count ▸ here))
      simp only [List.getElem_map, List.getElem_zip, pooled, pooling, holds.marks]
      rw [mean_eq_pooled (exact pooling) parts.1 parts.2 (holds.length_le (List.getElem_mem here))]
      exact congrArg (encoder.arithmetic.mean encoder.dimension · _) mine

/-! ## A batch text by text -/

theorem embed_eq_ok_iff_exists {texts : List String} (nonempty : texts ≠ []) {rows : List (List σ)} :
    encoder.embed texts = .ok rows ↔
      ∃ encodings,
        List.Forall₂ (fun text encoding => encoder.tokenize text = .ok encoding) texts encodings ∧
          let batch := Batch.ofEncodings encoder.padId encodings
          (∃ ids, batch.idTensor = .ok ids) ∧
            ∃ marks vectors, batch.markTensor = .ok marks ∧ encoder.forward batch = .ok vectors ∧
              encoder.pool vectors marks = .ok rows := by
  have filled : texts.isEmpty = false := by simpa using nonempty
  simp only [embed, filled, SentenceEncoder.batch, bind_eq_ok_iff, mapError_eq_ok_iff,
    map_eq_ok_iff, mapM_eq_ok_iff, Bool.false_eq_true, if_false]
  constructor
  · rintro ⟨_, ⟨encodings, tokenized, rfl⟩, ids, idsGiven, marks, marksGiven, vectors, given, pooled⟩
    exact ⟨encodings, tokenized, ⟨ids, idsGiven⟩, marks, vectors, marksGiven, given, pooled⟩
  · rintro ⟨encodings, tokenized, ⟨ids, idsGiven⟩, marks, vectors, marksGiven, given, pooled⟩
    exact ⟨_, ⟨encodings, tokenized, rfl⟩, ids, idsGiven, marks, marksGiven, vectors, given, pooled⟩

/-- What an encoder can take of a batch, it can take of each of its encodings. -/
theorem fits_ofEncodings_iff (padId_known : known encoder.padId) {encodings : List Encoding} :
    ((Batch.ofEncodings encoder.padId encodings).length ≤ limit ∧
        ∀ id ∈ (Batch.ofEncodings encoder.padId encodings).ids.flatten, known id) ↔
      ∀ encoding ∈ encodings, encoding.ids.length ≤ limit ∧ ∀ id ∈ encoding.ids, known id := by
  constructor
  · rintro ⟨short, allKnown⟩ encoding mem
    refine ⟨Batch.longest_le_iff.mp short encoding mem, fun id token => allKnown id ?_⟩
    refine List.mem_flatten.mpr ⟨_, List.mem_map_of_mem mem, ?_⟩
    exact List.mem_append_left _ token
  · intro fits
    refine ⟨Batch.longest_le_iff.mpr fun encoding mem => (fits encoding mem).1, fun id mem => ?_⟩
    rcases Batch.mem_flatten_ids_ofEncodings mem with rfl | ⟨encoding, inside, token⟩
    · exact padId_known
    · exact (fits encoding inside).2 id token

/-- The rows of a batch are those of its texts. -/
theorem embed_eq_ok_iff (separates : encoder.Separates limit known alone)
    (exact : encoder.pooling = .mean → encoder.arithmetic.Exact)
    (unpadded : ∀ text encoding, encoder.tokenize text = .ok encoding → encoding.Unpadded)
    {texts : List String} (nonempty : texts ≠ [])
    (tokens : ∀ text ∈ texts, ∀ encoding,
      encoder.tokenize text = .ok encoding → encoding.ids ≠ [])
    {rows : List (List σ)} :
    encoder.embed texts = .ok rows ↔ List.Forall₂ (encoder.Gives limit known alone) texts rows := by
  let Fits (encoding : Encoding) := encoding.ids.length ≤ limit ∧ ∀ id ∈ encoding.ids, known id
  have textwise : List.Forall₂ (encoder.Gives limit known alone) texts rows ↔
      ∃ encodings,
        List.Forall₂ (fun text encoding => encoder.tokenize text = .ok encoding) texts encodings ∧
          (∀ encoding ∈ encodings, Fits encoding) ∧
            encodings.map (fun encoding => encoder.pooled alone encoding.ids) = rows := by
    refine exists_forall₂_iff.symm.trans (exists_congr fun encodings => and_congr_right fun _ => ?_)
    rw [List.forall₂_and_left, ← List.forall₂_map_left_iff (R := Eq), List.forall₂_eq_eq_eq]
  rw [textwise, embed_eq_ok_iff_exists nonempty]
  refine exists_congr fun encodings => and_congr_right fun tokenized => ?_
  have holds : (Batch.ofEncodings encoder.padId encodings).Holds (encodings.map (·.ids)) := by
    refine Batch.ofEncodings_holds _ ?_ ?_ ?_
    · rintro rfl
      exact nonempty (List.forall₂_nil_right_iff.mp tokenized)
    · intro encoding mem
      rcases exists_mem_of_forall₂_right tokenized mem with ⟨text, _, given⟩
      exact unpadded text encoding given
    · intro encoding mem
      rcases exists_mem_of_forall₂_right tokenized mem with ⟨text, inside, given⟩
      exact tokens text inside encoding given
  rw [← fits_ofEncodings_iff separates.padId_known, ← separates.succeeds_iff holds]
  constructor
  · rintro ⟨_, marks, vectors, marksGiven, given, pooled⟩
    rw [holds.tensors.2] at marksGiven
    cases marksGiven
    rw [separates.pool_eq_ok exact holds given] at pooled
    rw [List.map_map] at pooled
    exact ⟨⟨vectors, given⟩, Except.ok.inj pooled⟩
  · rintro ⟨⟨vectors, given⟩, rfl⟩
    refine ⟨holds.tensors.1, _, vectors, holds.tensors.2, given, ?_⟩
    rw [separates.pool_eq_ok exact holds given, List.map_map]
    rfl

end SentenceEncoder

/-! ## Main result -/

namespace Encoder

variable {σ : Type}

/-- The neighbours of a text cannot be seen in its vector. Where each text has at least one token,
an encode succeeds iff it succeeds for each text alone, the vector of a text is the one that it has
alone, and texts in another order have their vectors in this order. The sizes of the batches may
differ. -/
theorem encode_beside_neighbours {δ : Type} (arithmetic : UnitVector.Arithmetic σ δ)
    (modelId : String) {sentences : SentenceEncoder σ} {limit : Nat} {known : Nat → Prop}
    {alone : List Nat → List (List σ)} (separates : sentences.Separates limit known alone)
    (exact : sentences.pooling = .mean → sentences.arithmetic.Exact)
    (unpadded : ∀ text encoding, sentences.tokenize text = .ok encoding → encoding.Unpadded)
    {texts : List String}
    (tokens : ∀ text ∈ texts, ∀ encoding,
      sentences.tokenize text = .ok encoding → encoding.ids ≠ []) :
    let outcome (batchSize : Nat) (texts : List String) :=
      ((ofProvider arithmetic modelId sentences.provider batchSize).encode texts).outcome
    ∀ batchSize other,
      ((∃ vectors, outcome batchSize texts = .ok vectors) ↔
          ∀ text ∈ texts, ∃ vectors, outcome other [text] = .ok vectors) ∧
        ∀ vectors, outcome batchSize texts = .ok vectors →
          List.Forall₂ (fun text vector => outcome other [text] = .ok [vector]) texts vectors ∧
            ∀ pairs, (texts.zip vectors).Perm pairs →
              outcome other (pairs.map (·.1)) = .ok (pairs.map (·.2)) := by
  intro outcome batchSize other
  let HasVector (text : String) (vector : List σ) : Prop :=
    ∃ row, sentences.Gives limit known alone text row ∧
      (ofProvider arithmetic modelId sentences.provider 0).Accepts row vector
  have outcome_eq_ok_iff (batchSize : Nat) {chosen : List String}
      (inside : ∀ text ∈ chosen, text ∈ texts)
      {vectors : List (List σ)} :
      outcome batchSize chosen = .ok vectors ↔ List.Forall₂ HasVector chosen vectors := by
    refine encode_outcome_eq_ok_iff_of_given _ fun batch nonempty within rows => ?_
    exact SentenceEncoder.embed_eq_ok_iff separates exact unpadded nonempty
      fun text mem => tokens text (inside text (within text mem))
  have single_eq_ok_iff {text : String} (mem : text ∈ texts) {vectors : List (List σ)} :
      outcome other [text] = .ok vectors ↔ ∃ vector, HasVector text vector ∧ vectors = [vector] := by
    rw [outcome_eq_ok_iff other (by simpa using mem), List.forall₂_cons_left_iff]
    simp
  refine ⟨?_, fun vectors succeeded => ?_⟩
  · simp only [outcome_eq_ok_iff batchSize fun _ mem => mem]
    constructor
    · rintro ⟨vectors, related⟩ text mem
      rcases List.mem_iff_getElem?.mp mem with ⟨index, found⟩
      rcases exists_getElem?_of_forall₂ related found with ⟨vector, _, has⟩
      exact ⟨[vector], (single_eq_ok_iff mem).mpr ⟨vector, has, rfl⟩⟩
    · intro singles
      refine exists_forall₂_of_forall_mem fun text mem => ?_
      rcases singles text mem with ⟨vectors, succeeded⟩
      rcases (single_eq_ok_iff mem).mp succeeded with ⟨vector, has, _⟩
      exact ⟨vector, has⟩
  · have related := (outcome_eq_ok_iff batchSize fun _ mem => mem).mp succeeded
    have paired : ∀ pair ∈ texts.zip vectors, HasVector pair.1 pair.2 :=
      fun pair mem => (List.forall₂_iff_zip.mp related).2 mem
    refine ⟨?_, fun pairs perm => ?_⟩
    · refine List.forall₂_iff_zip.mpr ⟨related.length_eq, fun {text vector} mem => ?_⟩
      exact (single_eq_ok_iff (List.of_mem_zip mem).1).mpr ⟨vector, paired _ mem, rfl⟩
    · rw [outcome_eq_ok_iff, List.forall₂_map_left_iff, List.forall₂_map_right_iff,
        List.forall₂_same]
      · exact fun pair mem => paired pair (perm.mem_iff.mpr mem)
      · intro text mem
        rcases List.mem_map.mp mem with ⟨pair, inside, rfl⟩
        exact (List.of_mem_zip (perm.mem_iff.mpr inside)).1

end Encoder

/-! ## The sample encoder -/

namespace Sample

theorem means_exact : means.Exact where
  ofInt_zero := Int.cast_zero
  mul_zero := mul_zero
  add_zero := add_zero

theorem sentences_unpadded {text : String} {encoding : Encoding}
    (encoded : sentences.tokenize text = .ok encoding) : encoding.Unpadded := by
  simp only [sentences, bind_eq_ok_iff, pure, Except.pure, Except.ok.injEq] at encoded
  rcases encoded with ⟨ids, _, rfl⟩
  rfl

theorem lookUp_eq_ok_iff {batch : Batch} {vectors : Tensor ℚ} :
    lookUp batch = .ok vectors ↔
      (batch.length ≤ 3 ∧ ∀ id ∈ batch.ids.flatten, id < 2) ∧
        vectors = ⟨[batch.size, batch.length, 2],
          ((batch.ids.map (List.map wordVector)).map List.flatten).flatten⟩ := by
  unfold lookUp
  split
  · rename_i fits
    rw [Except.ok.injEq, and_iff_right fits, eq_comm]
  · rename_i lacks
    simp only [reduceCtorEq, lacks, false_and]

theorem lengths_wordVectors {batch : Batch} {texts : List (List Nat)} (holds : batch.Holds texts) :
    ∀ perToken ∈ batch.ids.map (List.map wordVector), perToken.length = batch.length ∧
      ∀ vector ∈ perToken, vector.length = 2 := by
  intro perToken mem
  rcases List.mem_map.mp mem with ⟨ids, inside, rfl⟩
  refine ⟨by rw [List.length_map, holds.length_of_mem_ids inside], fun vector mem => ?_⟩
  rcases List.mem_map.mp mem with ⟨id, _, rfl⟩
  unfold wordVector
  split <;> rfl

theorem sentences_separates : sentences.Separates 3 (· < 2) (List.map wordVector) where
  padId_known := by decide
  succeeds_iff _ := by
    simp only [sentences, lookUp_eq_ok_iff, exists_and_left, exists_eq, and_true]
  shape_eq holds given := by
    rcases lookUp_eq_ok_iff.mp given with ⟨_, rfl⟩
    rw [← holds.length_ids]
    rfl
  length_data holds given := by
    rcases lookUp_eq_ok_iff.mp given with ⟨_, rfl⟩
    have full := Tensor.length_flatten_map_flatten (lengths_wordVectors holds)
    rwa [List.length_map, holds.length_ids] at full
  alone_eq {batch _ _} holds given := by
    rcases lookUp_eq_ok_iff.mp given with ⟨_, rfl⟩
    have found := Tensor.tokenVectors_flatten (lengths_wordVectors holds)
      [batch.size, batch.length, 2]
    rw [List.length_map, holds.length_ids] at found
    rw [show sentences.dimension = 2 from rfl, found, List.forall₂_map_right_iff]
    refine holds.ids.imp fun tokens row fit => ?_
    rw [← List.map_take, List.prefix_iff_eq_take.mp fit.1]
    simp

end Sample

/-- Two texts of different lengths, side by side and in the other order. -/
theorem Encoder.encode_beside_neighbours_sample :
    let outcome (batchSize : Nat) (texts : List String) :=
      ((ofProvider Sample.scaling "sample" Sample.sentences.provider batchSize).encode texts).outcome
    Sample.sentences.Separates 3 (· < 2) (List.map Sample.wordVector) ∧
      Sample.sentences.arithmetic.Exact ∧
      outcome 2 ["aa", "b"] = .ok [[4 / 5, 3 / 5], [3 / 5, 4 / 5]] ∧
      outcome 1 ["aa"] = .ok [[4 / 5, 3 / 5]] ∧
      outcome 1 ["b", "aa"] = .ok [[3 / 5, 4 / 5], [4 / 5, 3 / 5]] := by
  intro outcome
  have tokens : ∀ text ∈ ["aa", "b"], ∀ encoding,
      Sample.sentences.tokenize text = .ok encoding → encoding.ids ≠ [] := by
    have filled : ∀ text ∈ ["aa", "b"],
        (Sample.sentences.tokenize text).toOption.all fun encoding => !encoding.ids.isEmpty := by
      decide +kernel
    intro text mem encoding encoded
    simpa [encoded, Except.toOption] using filled text mem
  have succeeded : outcome 2 ["aa", "b"] = .ok [[4 / 5, 3 / 5], [3 / 5, 4 / 5]] := by
    decide +kernel
  have result := ((encode_beside_neighbours Sample.scaling "sample" Sample.sentences_separates
    (fun _ => Sample.means_exact) (fun _ _ => Sample.sentences_unpadded) tokens) 2 1).2 _ succeeded
  refine ⟨Sample.sentences_separates, Sample.means_exact, succeeded, ?_, ?_⟩
  · exact (List.forall₂_cons.mp result.1).1
  · exact result.2 [("b", [3 / 5, 4 / 5]), ("aa", [4 / 5, 3 / 5])] (List.Perm.swap _ _ _)

/-! ## Loaded models -/

namespace Tokenizer

theorem encode_unpadded {tokenizer : Tokenizer} (plain : tokenizer.padding = none) {text : String}
    {encoding : Encoding} (encoded : tokenizer.encode text = .ok encoding) :
    encoding.Unpadded := by
  simp only [encode, plain, bind_eq_ok_iff, pure, Except.pure, Except.ok.injEq] at encoded
  rcases encoded with ⟨ids, _, rfl⟩
  rfl

end Tokenizer

/-- A loaded model pads no encoding by itself, whatever its tokenizer says of padding. -/
theorem Transformer.tokenize_unpadded_of_load {files : Files} {resolved : Model.Resolved}
    {maxTokens : Nat} {expected : Option Nat} {sentences : SentenceEncoder Number.Single}
    (loaded : (load files resolved maxTokens expected).outcome = .ok sentences) {text : String}
    {encoding : Encoding} (encoded : sentences.tokenize text = .ok encoding) :
    encoding.Unpadded := by
  rcases load_eq_ok_iff.mp loaded with ⟨config, pooling, _, assembled⟩
  rcases assemble_eq_ok_iff.mp assembled with ⟨_, _, _, _, _, _, _, set, rfl⟩
  rcases Tokenizer.withLimit_eq_ok_iff.mp set with ⟨_, rfl⟩
  exact Tokenizer.encode_unpadded rfl encoded

end TextVectors
