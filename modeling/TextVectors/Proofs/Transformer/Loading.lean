import TextVectors.Proofs.Result
import TextVectors.Transformer.Loading

/-!
# How loading ends

What is loaded has the width that the file of sizes gives, and the number of
components that was expected of it, if any was. Where another number was expected
nothing is loaded, whatever the files of the pooling, the weights and the tokenizer
hold, for they are read later.

Loading breaks down only over layers without heads. Every other fault has an error
of its own.
-/

namespace TextVectors

namespace Transformer

variable {files : Files} {resolved : Model.Resolved} {directory : String} {maxTokens : Nat}
  {expected : Option Nat} {config : Config} {pooling : Pooling}
  {sentences : SentenceEncoder Number.Single}

/-- The file of sizes in a directory gives some sizes. -/
def GivesSizes (files : Files) (directory : String) (config : Config) : Prop :=
  ∃ text, files.readText (Path.join directory Model.configFile) = .ok text ∧
    Json.readWhole Config.read text.toUTF8.toList = .ok config

theorem GivesSizes.unique {config other : Config} (gives : GivesSizes files directory config)
    (also : GivesSizes files directory other) : config = other := by
  rcases gives with ⟨text, read, sized⟩
  rcases also with ⟨again, read_again, sized_again⟩
  cases read.symm.trans read_again
  exact Except.ok.inj (sized.symm.trans sized_again)

theorem readConfig_eq_ok (read : readConfig files directory expected = .ok (config, pooling)) :
    GivesSizes files directory config ∧ ∀ dimension ∈ expected, dimension = config.width := by
  simp only [readConfig, bind_eq_ok_iff, mapError_eq_ok_iff] at read
  rcases read with ⟨text, read, sizes, sized, checked⟩
  cases expected with
  | none =>
      simp only [bind_eq_ok_iff] at checked
      rcases checked with ⟨_, _, made⟩
      cases made
      exact ⟨⟨text, read, sized⟩, by simp⟩
  | some dimension =>
      by_cases same : dimension = sizes.width
      · simp only [same, ne_eq, not_true_eq_false, if_false, bind_eq_ok_iff] at checked
        rcases checked with ⟨_, _, made⟩
        cases made
        exact ⟨⟨text, read, sized⟩, by simp [same]⟩
      · simp [same, bind_eq_ok_iff, throw, throwThe, MonadExceptOf.throw] at checked

theorem assemble_eq_ok_iff :
    assemble files resolved maxTokens config pooling = .ok sentences ↔
      ∃ weights net tokenizer limited, readWeights files resolved.weights = .ok weights ∧
        network weights config = .ok net ∧ readTokenizer files resolved.dir = .ok tokenizer ∧
        { tokenizer with padding := none }.withLimit (limit config maxTokens) = .ok limited ∧
        sentences = encoder config pooling net limited tokenizer.padId := by
  simp only [assemble, bind_eq_ok_iff, mapError_eq_ok_iff]
  constructor
  · rintro ⟨weights, stored, net, connected, tokenizer, read, limited, set, made⟩
    cases made
    exact ⟨weights, net, tokenizer, limited, stored, connected, read, set, rfl⟩
  · rintro ⟨weights, net, tokenizer, limited, stored, connected, read, set, rfl⟩
    exact ⟨weights, stored, net, connected, tokenizer, read, limited, set, rfl⟩

theorem load_eq_ok_iff : (load files resolved maxTokens expected).outcome = .ok sentences ↔
    ∃ config pooling, readConfig files resolved.dir expected = .ok (config, pooling) ∧
      assemble files resolved maxTokens config pooling = .ok sentences := by
  constructor
  · intro loaded
    unfold load at loaded
    split at loaded
    · cases loaded
    · next config pooling read =>
      split at loaded
      · cases loaded
      · next encoder assembled =>
        cases loaded
        exact ⟨config, pooling, read, assembled⟩
  · rintro ⟨config, pooling, read, assembled⟩
    unfold load
    rw [read]
    simp only [assembled]

theorem dimension_of_assemble
    (assembled : assemble files resolved maxTokens config pooling = .ok sentences) :
    sentences.dimension = config.width := by
  rcases assemble_eq_ok_iff.mp assembled with ⟨_, _, _, _, _, _, _, _, rfl⟩
  rfl

/-- What is loaded has the width that the file of sizes gives, and it is the one expected. -/
theorem dimension_of_load
    (loaded : (load files resolved maxTokens expected).outcome = .ok sentences) :
    ∃ config, GivesSizes files resolved.dir config ∧ sentences.dimension = config.width ∧
      ∀ dimension ∈ expected, dimension = sentences.dimension := by
  rcases load_eq_ok_iff.mp loaded with ⟨config, pooling, read, assembled⟩
  have width := dimension_of_assemble assembled
  rcases readConfig_eq_ok read with ⟨gives, pinned⟩
  exact ⟨config, gives, width, by simpa only [width] using pinned⟩

/-- A model of another width than the one expected is not loaded, whatever else its files hold. -/
theorem load_of_width_ne {dimension : Nat} (gives : GivesSizes files resolved.dir config)
    (other : dimension ≠ config.width) (maxTokens : Nat) :
    load files resolved maxTokens (some dimension) =
      ⟨.error (.failed (.dimension dimension config.width)), []⟩ := by
  rcases gives with ⟨text, read, sized⟩
  have refused : readConfig files resolved.dir (some dimension) =
      .error (.dimension dimension config.width) := by
    simp only [readConfig, read, sized, Except.mapError, ok_bind, ne_eq, other, not_false_eq_true,
      if_true]
    rfl
  unfold load
  rw [refused]

/-! ## Breakdowns -/

theorem network_crashed {weights : Weights} {message : String}
    (crashed : network weights config = .error (.crashed message)) :
    config.heads = 0 ∧ 0 < config.layers := by
  unfold network at crashed
  split at crashed
  · next headless => exact headless
  · split at crashed
    · cases crashed
    · cases crashed
    · split at crashed
      · cases crashed
      · cases crashed

theorem assemble_crashed {message : String}
    (crashed : assemble files resolved maxTokens config pooling = .error (.crashed message)) :
    config.heads = 0 ∧ 0 < config.layers := by
  have named {α ε : Type} {result : Except ε α} {wording : ε → LoadError} :
      result.mapError (fun error => LoadFault.failed (wording error)) ≠
        .error (.crashed message) := by
    cases result <;> simp [Except.mapError]
  simp only [assemble, bind_eq_error_iff] at crashed
  rcases crashed with reading | ⟨weights, _, connecting | ⟨network, _, reading | ⟨_, _, later⟩⟩⟩
  · exact absurd reading named
  · exact network_crashed connecting
  · exact absurd reading named
  · rcases later with limiting | ⟨_, _, made⟩
    · exact absurd limiting named
    · cases made

/-- Loading breaks down only over layers without heads. -/
theorem load_crashed {message : String}
    (crashed : (load files resolved maxTokens expected).outcome = .error (.crashed message)) :
    ∃ config, GivesSizes files resolved.dir config ∧ config.heads = 0 ∧ 0 < config.layers := by
  unfold load at crashed
  split at crashed
  · cases crashed
  · next config pooling read =>
    split at crashed
    · next fault assembled =>
      cases crashed
      exact ⟨config, (readConfig_eq_ok read).1, assemble_crashed assembled⟩
    · cases crashed

end Transformer

end TextVectors
