import TextVectors.Proofs.SentenceEncoder.Neighbours
import TextVectors.Proofs.Tokens.Limit
import TextVectors.Proofs.Weights.Headed

/-!
# The tensors of a batch

A loaded model puts the tokens of its texts into two tensors, a row for each text. Every row is
as long as the longest text, so each begins where it has to, and what is marked in a row is just
its text. The longest text is cut to the limit of the tokenizer, which is at most the number of
positions that the network was given: the network never looks for a position that it lacks,
however long the texts are.
-/

namespace TextVectors

namespace Batch

variable {padId : Nat} {encodings : List Encoding}

theorem exists_longest (filled : encodings ≠ []) :
    ∃ encoding ∈ encodings, encoding.ids.length = longest encodings := by
  by_contra none
  have shorter : ∀ encoding ∈ encodings, encoding.ids.length < longest encodings := by
    intro encoding mem
    apply Nat.lt_of_le_of_ne (length_le_longest mem)
    intro same
    exact none ⟨encoding, mem, same⟩
  have less : longest encodings ≤ longest encodings - 1 := by
    apply longest_le_iff.mpr
    intro encoding mem
    have := shorter encoding mem
    omega
  rcases List.exists_mem_of_ne_nil encodings filled with ⟨encoding, mem⟩
  have := shorter encoding mem
  omega

/-- The tokens of a text are those that are marked among fillers. -/
theorem filter_marked (tokens : List Nat) (filler count : Nat) :
    (((tokens ++ List.replicate count filler).zip
      (List.replicate tokens.length (1 : Int) ++ List.replicate count 0)).filter (·.2 = 1)).map
        (·.1) = tokens := by
  induction tokens with
  | nil => simp [List.zip_replicate']
  | cons token tokens ih => simpa [List.replicate_succ] using ih

/-- Two tensors hold the rows of a batch, one after another: the tokens of each text and their
marks, both filled up behind. -/
structure LaidOut (batch : Batch) (padId : Nat) (encodings : List Encoding) (ids : Tensor Nat)
    (marks : Tensor Int) : Prop where
  shapes : ids.shape = [encodings.length, batch.length] ∧
    marks.shape = [encodings.length, batch.length]
  full : ids.data.length = encodings.length * batch.length ∧
    marks.data.length = encodings.length * batch.length
  fits : ∀ encoding ∈ encodings, encoding.ids.length ≤ batch.length
  attained : ∃ encoding ∈ encodings, encoding.ids.length = batch.length
  rows : ∀ {index encoding}, encodings[index]? = some encoding →
    let missing := batch.length - encoding.ids.length
    Tensor.slice batch.length index ids.data = encoding.ids ++ List.replicate missing padId ∧
      Tensor.slice batch.length index marks.data = encoding.mask ++ List.replicate missing 0
  marked : ∀ {index encoding}, encodings[index]? = some encoding →
    (((Tensor.slice batch.length index ids.data).zip
      (Tensor.slice batch.length index marks.data)).filter (·.2 = 1)).map (·.1) = encoding.ids

/-- The tensors of a batch of unpadded texts cannot fail, and they are laid out. -/
theorem exists_laidOut (padId : Nat) (filled : encodings ≠ [])
    (unpadded : ∀ encoding ∈ encodings, encoding.Unpadded) :
    let batch := ofEncodings padId encodings
    ∃ ids marks, batch.idTensor = .ok ids ∧ batch.markTensor = .ok marks ∧
      batch.LaidOut padId encodings ids marks := by
  intro batch
  have size : batch.ids.length = encodings.length ∧ batch.marks.length = encodings.length := by
    simp [batch, ofEncodings]
  have idLengths : ∀ row ∈ batch.ids, row.length = batch.length := by
    intro row mem
    rcases List.mem_map.mp mem with ⟨encoding, inside, rfl⟩
    exact length_fill padId (length_le_longest inside)
  have markLengths : ∀ row ∈ batch.marks, row.length = batch.length := by
    intro row mem
    rcases List.mem_map.mp mem with ⟨encoding, inside, rfl⟩
    have short : encoding.ids.length ≤ batch.length := length_le_longest inside
    rw [unpadded encoding inside, List.length_append, List.length_replicate, List.length_replicate]
    exact Nat.add_sub_cancel' short
  have slices {index : Nat} {encoding : Encoding} (found : encodings[index]? = some encoding) :
      let missing := batch.length - encoding.ids.length
      Tensor.slice batch.length index batch.ids.flatten =
          encoding.ids ++ List.replicate missing padId ∧
        Tensor.slice batch.length index batch.marks.flatten =
          encoding.mask ++ List.replicate missing 0 := by
    constructor
    · apply Tensor.slice_flatten idLengths
      simp [batch, ofEncodings, fill, found]
    · apply Tensor.slice_flatten markLengths
      simp [batch, ofEncodings, found]
  have tensors : batch.idTensor = .ok ⟨[encodings.length, batch.length], batch.ids.flatten⟩ ∧
      batch.markTensor = .ok ⟨[encodings.length, batch.length], batch.marks.flatten⟩ := by
    rw [idTensor, markTensor, Batch.size, size.1]
    exact ⟨Tensor.ofData_flatten size.1 idLengths, Tensor.ofData_flatten size.2 markLengths⟩
  refine ⟨_, _, tensors.1, tensors.2, ?_⟩
  exact {
    shapes := ⟨rfl, rfl⟩
    full := by
      rw [length_flatten_eq_mul idLengths, length_flatten_eq_mul markLengths, size.1, size.2]
      exact ⟨rfl, rfl⟩
    fits := fun _ => length_le_longest
    attained := exists_longest filled
    rows := slices
    marked := by
      intro index encoding found
      rw [(slices found).1, (slices found).2, unpadded encoding (List.mem_of_getElem? found)]
      apply filter_marked }

end Batch

namespace SentenceEncoder

variable {σ : Type} {encoder : SentenceEncoder σ} {texts : List String}

theorem embed_of_batch_error {error : Tokens.VocabularyError} (nonempty : texts ≠ [])
    (given : encoder.batch texts = .error error) :
    encoder.embed texts = .error (.failed ⟨"tokenize: " ++ error.message, []⟩) := by
  have filled : texts.isEmpty = false := by simpa using nonempty
  simp only [embed, filled, given]
  rfl

theorem embed_of_batch {batch : Batch} {ids : Tensor Nat} {marks : Tensor Int}
    (nonempty : texts ≠ []) (given : encoder.batch texts = .ok batch)
    (idsGiven : batch.idTensor = .ok ids) (marksGiven : batch.markTensor = .ok marks) :
    encoder.embed texts = (do
      let vectors ← encoder.forward batch
      (encoder.pool vectors marks).mapError (.failed ·.failure)) := by
  have filled : texts.isEmpty = false := by simpa using nonempty
  simp only [embed, filled, given, Except.mapError, ok_bind, idsGiven, marksGiven]
  rfl

end SentenceEncoder

/-- A network that has a position for every token lacks nothing but words and kinds. -/
theorem Network.eq_of_findMissing {network : Network} {batch : Batch} {error : TensorError}
    (positions : batch.length ≤ network.positions.length)
    (missing : network.findMissing batch = some error) :
    (∃ id ∈ batch.ids.flatten, network.words.size ≤ id ∧
        error = .badIndex id network.words.size) ∨
      (network.kinds = [] ∧ error = .badIndex 0 0) := by
  unfold findMissing at missing
  split at missing
  · next id found =>
    refine .inl ⟨id, List.mem_of_find?_eq_some found, ?_, (Option.some.inj missing).symm⟩
    simpa using List.find?_some found
  · split at missing
    · next kindless => exact .inr ⟨by simpa using kindless.1, (Option.some.inj missing).symm⟩
    · rw [if_neg (Nat.not_lt.mpr positions)] at missing
      cases missing

namespace Transformer

variable {files : Files} {resolved : Model.Resolved} {maxTokens : Nat} {expected : Option Nat}
  {config : Config} {weights : Weights} {net : Network}
  {sentences : SentenceEncoder Number.Single} {texts : List String}

theorem length_of_matrix {name : String} {height width : Nat} {rows : List Vec}
    (read : matrix weights name height width = .ok rows) : rows.length = height := by
  simp only [matrix, bind_eq_ok_iff] at read
  rcases read with ⟨tensor, _, made⟩
  cases made
  apply Tensor.length_rows

/-- A network has the sizes that it was made for. -/
structure Sized (net : Network) (config : Config) : Prop where
  width : net.width = config.width
  words : net.words.size = config.words
  positions : net.positions.length = config.positions
  kinds : net.kinds.length = config.kinds
  heads : ∀ layer ∈ net.layers, layer.attention.heads = config.heads ∧
    layer.attention.headWidth = config.width / config.heads

theorem heads_of_layersFrom {family : String} {count index : Nat} {layers : List Layer}
    (read : layersFrom weights config family count index = .ok layers) :
    ∀ layer ∈ layers, layer.attention.heads = config.heads ∧
      layer.attention.headWidth = config.width / config.heads := by
  induction count generalizing index layers with
  | zero =>
      cases read
      simp
  | succ count ih =>
      simp only [layersFrom, bind_eq_ok_iff] at read
      rcases read with ⟨first, made, rest, later, whole⟩
      cases whole
      simp only [Layer.ofWeights, bind_eq_ok_iff] at made
      rcases made with ⟨_, _, _, _, _, _, _, _, _, _, _, _, _, _, _, _, made⟩
      cases made
      intro layer mem
      rcases List.mem_cons.mp mem with rfl | behind
      · exact ⟨rfl, rfl⟩
      · exact ih later layer behind

theorem sized_of_networkOf {family : String}
    (connected : networkOf weights config family = .ok net) : Sized net config := by
  simp only [networkOf, bind_eq_ok_iff] at connected
  rcases connected with
    ⟨words, wordsRead, positions, positionsRead, kinds, kindsRead, _, _, layers, layersRead, made⟩
  cases made
  exact {
    width := rfl
    words := by rw [List.size_toArray, length_of_matrix wordsRead]
    positions := length_of_matrix positionsRead
    kinds := length_of_matrix kindsRead
    heads := heads_of_layersFrom layersRead }

theorem sized_of_network (connected : network weights config = .ok net) : Sized net config := by
  unfold network at connected
  split at connected
  · cases connected
  · split at connected
    · next alone =>
      cases connected
      exact sized_of_networkOf alone
    · cases connected
    · split at connected
      · next behind =>
        cases connected
        exact sized_of_networkOf behind
      · cases connected

/-- The batch of some texts, if each of them can be cut into tokens, is laid out in two tensors that
the network takes, and no row is longer than the limit or than there are positions. -/
theorem batch_of_load
    (loaded : (load files resolved maxTokens expected).outcome = .ok sentences)
    (framed : ∀ tokenizer, readTokenizer files resolved.dir = .ok tokenizer →
      ∃ front back, tokenizer.frame.Surrounds front back)
    (nonempty : texts ≠ []) :
    ∃ config, ∃ net : Network, GivesSizes files resolved.dir config ∧
      sentences.forward = net.forward ∧ net.positions.length = config.positions ∧
      ((∃ error, sentences.batch texts = .error error ∧
          sentences.embed texts = .error (.failed ⟨"tokenize: " ++ error.message, []⟩)) ∨
        ∃ encodings batch ids marks,
          List.Forall₂ (fun text encoding => sentences.tokenize text = .ok encoding ∧
            encoding.Unpadded) texts encodings ∧
          sentences.batch texts = .ok batch ∧ batch.idTensor = .ok ids ∧
          batch.markTensor = .ok marks ∧
          batch.LaidOut sentences.padId encodings ids marks ∧
          batch.length ≤ min maxTokens config.positions ∧
          (∀ error, net.findMissing batch = some error →
            (∃ id ∈ batch.ids.flatten, net.words.size ≤ id ∧
              error = .badIndex id net.words.size) ∨
            (net.kinds = [] ∧ error = .badIndex 0 0)) ∧
          sentences.embed texts = (do
            let vectors ← net.forward batch
            (sentences.pool vectors marks).mapError (.failed ·.failure))) := by
  rcases load_eq_ok_iff.mp loaded with ⟨config, pooling, read, assembled⟩
  rcases assemble_eq_ok_iff.mp assembled with
    ⟨weights, net, tokenizer, limited, _, connected, parsed, set, rfl⟩
  have positions := (sized_of_network connected).positions
  refine ⟨config, net, (readConfig_eq_ok read).1, rfl, positions, ?_⟩
  cases given : (encoder config pooling net limited tokenizer.padId).batch texts with
  | error error =>
      left
      exact ⟨error, rfl, SentenceEncoder.embed_of_batch_error nonempty given⟩
  | ok batch =>
      right
      have made := given
      simp only [SentenceEncoder.batch, map_eq_ok_iff, mapM_eq_ok_iff] at made
      rcases made with ⟨encodings, tokenized, rfl⟩
      have some : encodings ≠ [] := by
        rintro rfl
        exact nonempty (List.forall₂_nil_right_iff.mp tokenized)
      have unpadded : ∀ encoding ∈ encodings, encoding.Unpadded := by
        intro encoding mem
        rcases exists_mem_of_forall₂_right tokenized mem with ⟨text, _, encoded⟩
        exact tokenize_unpadded_of_load loaded encoded
      have short : (Batch.ofEncodings tokenizer.padId encodings).length ≤
          min maxTokens config.positions := by
        apply Batch.longest_le_iff.mpr
        intro encoding mem
        rcases exists_mem_of_forall₂_right tokenized mem with ⟨text, _, encoded⟩
        rcases framed tokenizer parsed with ⟨front, back, surrounds⟩
        exact Tokenizer.length_encode_le set rfl surrounds encoded
      rcases Batch.exists_laidOut tokenizer.padId some unpadded with
        ⟨ids, marks, idsGiven, marksGiven, laidOut⟩
      refine ⟨encodings, _, ids, marks, ?_, rfl, idsGiven, marksGiven, laidOut, short, ?_, ?_⟩
      · apply tokenized.imp
        intro text encoding encoded
        exact ⟨encoded, tokenize_unpadded_of_load loaded encoded⟩
      · intro error missing
        apply Network.eq_of_findMissing ?_ missing
        rw [positions]
        exact Nat.le_trans short (Nat.min_le_right _ _)
      · exact SentenceEncoder.embed_of_batch nonempty given idsGiven marksGiven

end Transformer

/-! ## A sample model -/

theorem Files.readText_of_read {files : Files} {path text : String}
    (found : files.read path = .ok (Json.utf8 text)) : files.readText path = .ok text := by
  simp only [readText, found, Except.mapError, ok_bind, Json.fromUTF8?_utf8]
  rfl

namespace Transformer

variable {files : Files} {directory path text : String}

theorem readConfig_of_text {config : Config} {pooling : Pooling}
    (read : files.readText (Path.join directory Model.configFile) = .ok text)
    (parsed : Json.readWhole Config.read (Json.utf8 text) = .ok config)
    (pooled : Pooling.ofModel files directory = .ok pooling) :
    readConfig files directory none = .ok (config, pooling) := by
  rw [Json.utf8] at parsed
  simp only [readConfig, read, parsed, pooled, Except.mapError, ok_bind]
  rfl

theorem readTokenizer_of_text {tokenizer : Tokenizer}
    (read : files.readText (Path.join directory Model.tokenizerFile) = .ok text)
    (parsed : Json.readWhole Tokenizer.read (Json.utf8 text) = .ok tokenizer) :
    readTokenizer files directory = .ok tokenizer := by
  rw [Json.utf8] at parsed
  simp only [readTokenizer, read, parsed, Except.mapError, ok_bind]

theorem readWeights_of_headed {content : List UInt8} {weights : Weights}
    (headed : Path.extension? path = some "safetensors") (read : files.read path = .ok content)
    (made : Weights.ofHeaded content = .ok weights) : readWeights files path = .ok weights := by
  simp only [readWeights, read, headed, made, Except.mapError, ok_bind, if_true]

end Transformer

namespace Sample

/-- The bytes of a file of tensors, whose header takes 282 bytes. -/
def tensorBytes (header : String) : List UInt8 :=
  [26, 1, 0, 0, 0, 0, 0, 0] ++ (Json.utf8 header ++ List.replicate 40 0)

/-- The sizes of a network without layers that has four words and three positions. -/
def sizes : String :=
  "[4,1,0,1,1,\"relu\",0,3,1,0,0,0,\"absolute\",false,null,null]"

/-- The tensors of the network. -/
def tensorHeader : String :=
  "\x7b\"embeddings.word_embeddings.weight\":[\"F32\",[4,1],[0,16]]," ++
    "\"embeddings.position_embeddings.weight\":[\"F32\",[3,1],[16,28]]," ++
    "\"embeddings.token_type_embeddings.weight\":[\"F32\",[1,1],[28,32]]," ++
    "\"embeddings.LayerNorm.weight\":[\"F32\",[1],[32,36]]," ++
    "\"embeddings.LayerNorm.bias\":[\"F32\",[1],[36,40]]\x7d"

/-- A tokenizer that finds one letter, between two special tokens. -/
def tokenizerText : String :=
  "\x7b\"version\":\"1.0\",\"added_tokens\":[\x7b\"id\":2,\"content\":\"x\"," ++
    "\"single_word\":false,\"lstrip\":false,\"rstrip\":false,\"normalized\":false," ++
    "\"special\":false\x7d],\"post_processor\":\x7b\"type\":\"BertProcessing\"," ++
    "\"sep\":[\"[SEP]\",1],\"cls\":[\"[CLS]\",0]\x7d," ++
    "\"model\":\x7b\"type\":\"WordLevel\",\"vocab\":\x7b\"x\":2\x7d,\"unk_token\":\"x\"\x7d\x7d"

/-- The files of the model. -/
def model : Files where
  nodes := [
    (["m"], .directory), (["m", "config.json"], .file (Json.utf8 sizes)),
    (["m", "model.safetensors"], .file (tensorBytes tensorHeader)),
    (["m", "tokenizer.json"], .file (Json.utf8 tokenizerText))]
  current := []

/-- The model where it lies. -/
def found : Model.Resolved where
  source := .local "/m"
  dir := "/m"
  weights := "/m/model.safetensors"

def config : Transformer.Config where
  words := 4
  width := 1
  layers := 0
  heads := 1
  innerWidth := 1
  activation := .positivePart
  positions := 3
  kinds := 1
  epsilon := .finite false 0 (-1074)
  family := none

theorem readConfig_found :
    Transformer.readConfig model found.dir none = .ok (config, .mean) := by
  have parsed : Json.readWhole Transformer.Config.read (Json.utf8 sizes) = .ok config := by
    decide +kernel
  exact Transformer.readConfig_of_text (Files.readText_of_read rfl) parsed rfl

theorem exists_network : ∃ weights net,
    Transformer.readWeights model found.weights = .ok weights ∧
      Transformer.network weights config = .ok net := by
  have length : (Json.utf8 tensorHeader).length = 282 := by decide +kernel
  have listed : (Weights.listed? tensorHeader).any fun entries =>
      (Weights.checkEntries 0 entries).toOption == some 40 &&
        (Transformer.network (Weights.tensors entries (List.replicate 40 0))
          config).toOption.isSome := by
    unfold Weights.listed? Weights.entriesOf?
    simp only [Weights.mergeSort_eq_inOrder]
    decide +kernel
  rcases (Option.any_eq_true _ _).mp listed with ⟨entries, entered, facts⟩
  simp only [Bool.and_eq_true, beq_iff_eq] at facts
  rcases Option.isSome_iff_exists.mp facts.2 with ⟨net, connected⟩
  have made : Weights.ofHeaded (tensorBytes tensorHeader) =
      .ok (Weights.tensors entries (List.replicate 40 0)) := by
    apply Weights.ofHeaded_eq_ok length rfl (by decide) entered
    exact eq_ok_of_toOption facts.1
  exact ⟨_, net, Transformer.readWeights_of_headed (by decide) rfl made,
    eq_ok_of_toOption connected⟩

theorem exists_tokenizer : ∃ tokenizer encodings,
    Transformer.readTokenizer model found.dir = .ok tokenizer ∧
      tokenizer.frame = [.special [0], .content, .special [1]] ∧
      ["", "xx"].mapM { tokenizer with padding := none, limit := some 3 }.encode = .ok encodings ∧
      (Batch.ofEncodings tokenizer.padId encodings).marks = [[1, 1, 0], [1, 1, 1]] := by
  have parsed : (Json.readWhole Tokenizer.read (Json.utf8 tokenizerText)).toOption.any
      fun tokenizer => tokenizer.frame = [.special [0], .content, .special [1]] ∧
        (["", "xx"].mapM
          { tokenizer with padding := none, limit := some 3 }.encode).toOption.any
          fun encodings =>
            (Batch.ofEncodings tokenizer.padId encodings).marks = [[1, 1, 0], [1, 1, 1]] := by
    decide +kernel
  rcases (Option.any_eq_true _ _).mp parsed with ⟨tokenizer, whole, facts⟩
  simp only [decide_eq_true_eq, Option.any_eq_true] at facts
  rcases facts with ⟨framed, encodings, encoded, marked⟩
  have read : Transformer.readTokenizer model found.dir = .ok tokenizer :=
    Transformer.readTokenizer_of_text (Files.readText_of_read rfl) (eq_ok_of_toOption whole)
  exact ⟨tokenizer, encodings, read, framed, eq_ok_of_toOption encoded, marked⟩

end Sample

/-- A text without words and one with two of them, of which one fits: the first row is filled up. -/
theorem Transformer.batch_of_load_sample :
    ∃ sentences, (load Sample.model Sample.found 5 none).outcome = .ok sentences ∧
      (∀ tokenizer, readTokenizer Sample.model Sample.found.dir = .ok tokenizer →
        ∃ front back, tokenizer.frame.Surrounds front back) ∧
      ∃ encodings batch ids marks, sentences.batch ["", "xx"] = .ok batch ∧
        batch.marks = [[1, 1, 0], [1, 1, 1]] ∧ batch.idTensor = .ok ids ∧
        batch.markTensor = .ok marks ∧ batch.LaidOut sentences.padId encodings ids marks ∧
        batch.length ≤ min 5 3 := by
  rcases Sample.exists_network with ⟨weights, net, stored, connected⟩
  rcases Sample.exists_tokenizer with ⟨tokenizer, encodings, parsed, parts, encoded, marked⟩
  have framed : ∀ other, readTokenizer Sample.model Sample.found.dir = .ok other →
      ∃ front back, other.frame.Surrounds front back := by
    intro other read
    cases parsed.symm.trans read
    rw [parts]
    exact ⟨_, _, Tokens.Frame.surrounds_specials [[0]] [[1]]⟩
  let plain := { tokenizer with padding := none }
  let limited := { plain with limit := some 3 }
  have set : plain.withLimit (limit Sample.config 5) = .ok limited := by
    apply Tokenizer.withLimit_eq_ok_iff.mpr
    refine ⟨?_, rfl⟩
    rw [show plain.frame = _ from parts]
    decide
  have loaded := load_eq_ok_iff.mpr ⟨_, _, Sample.readConfig_found,
    assemble_eq_ok_iff.mpr ⟨weights, net, tokenizer, limited, stored, connected, parsed, set, rfl⟩⟩
  refine ⟨_, loaded, framed, ?_⟩
  have given : (encoder Sample.config .mean net limited tokenizer.padId).batch ["", "xx"] =
      .ok (Batch.ofEncodings tokenizer.padId encodings) := by
    rw [SentenceEncoder.batch, show (encoder _ _ _ limited _).tokenize = limited.encode from rfl,
      encoded]
    rfl
  rcases batch_of_load loaded framed (List.cons_ne_nil "" ["xx"]) with
    ⟨config, _, gives, _, _, ⟨error, failed, _⟩ | ⟨others, batch, ids, marks, _, batched, idsGiven,
      marksGiven, laidOut, short, _⟩⟩
  · cases given.symm.trans failed
  · cases given.symm.trans batched
    cases gives.unique (readConfig_eq_ok Sample.readConfig_found).1
    exact ⟨others, _, ids, marks, given, marked, idsGiven, marksGiven, laidOut, short⟩

end TextVectors
