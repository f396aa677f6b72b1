import TextVectors.Proofs.Transformer.Layout

/-!
# What a loaded network separates

That texts stand beside others in a batch cannot be seen in their vectors if the
network `Separates` them. A loaded network does most of what this asks for: it
fails just on batches for which it lacks a position or a number, and what it
gives has texts, tokens and components as its axes. It only has to have
components and kinds of tokens, and heads that make up whole vectors.

What is left are its numbers: that there are as many as the shape has room for,
and that those of a text are its own.
-/

namespace TextVectors

namespace Network

/-- A network with components and kinds of tokens, whose heads make up whole vectors. -/
structure Consistent (network : Network) : Prop where
  width_ne_zero : network.width ≠ 0
  kinds_ne_nil : network.kinds ≠ []
  heads : ∀ layer, network.layers.head? = some layer →
    layer.attention.heads * layer.attention.headWidth = network.width

variable {network : Network} {batch : Batch}

theorem findMissing_eq_none_iff (kinds : network.kinds ≠ []) :
    network.findMissing batch = none ↔
      batch.length ≤ network.positions.length ∧
        ∀ id ∈ batch.ids.flatten, id < network.words.size := by
  unfold findMissing
  cases found : batch.ids.flatten.find? (network.words.size ≤ ·) with
  | some id =>
      have unknown : network.words.size ≤ id := by simpa using List.find?_some found
      simp only [reduceCtorEq, false_iff]
      rintro ⟨_, known⟩
      exact (known id (List.mem_of_find?_eq_some found)).not_ge unknown
  | none =>
      have known : ∀ id ∈ batch.ids.flatten, id < network.words.size := by
        intro id mem
        simpa using List.find?_eq_none.mp found id mem
      by_cases long : network.positions.length < batch.length
      · simp [kinds, long]
      · simp only [List.isEmpty_iff, kinds, false_and, if_false, long, not_lt.mp long, true_and]
        exact iff_of_true trivial known

theorem findMisfit_eq_none (consistent : network.Consistent) : network.findMisfit batch = none := by
  unfold findMisfit
  cases layers : network.layers with
  | nil => rfl
  | cons layer others =>
      have whole := consistent.heads layer (by rw [layers, List.head?_cons])
      simp [whole]

theorem forward_of_missing {error : TensorError} (missing : network.findMissing batch = some error) :
    network.forward batch = .error (.failed error.failure) := by
  simp [forward, missing, throw, throwThe, MonadExceptOf.throw, bind, Except.bind]

section
variable (consistent : network.Consistent) {texts : List (List Nat)} (holds : batch.Holds texts)
include consistent holds

theorem forward_of_found (found : network.findMissing batch = none) :
    network.forward batch =
      .ok ⟨[texts.length, batch.length, network.width],
        (List.zipWith network.applyText batch.ids batch.marks).flatten.flatten.map
          fun component => ⟨component.toBits⟩⟩ := by
  rw [← holds.length_ids]
  simp [forward, found, consistent.width_ne_zero, holds.length_pos.ne',
    findMisfit_eq_none consistent, Batch.size, pure, Except.pure]

/-- A consistent network fails just on batches for which it lacks a position or a number. -/
theorem forward_succeeds_iff :
    (∃ vectors, network.forward batch = .ok vectors) ↔
      batch.length ≤ network.positions.length ∧
        ∀ id ∈ batch.ids.flatten, id < network.words.size := by
  rw [← findMissing_eq_none_iff consistent.kinds_ne_nil]
  cases missing : network.findMissing batch with
  | some error => simp [forward_of_missing missing]
  | none => simp [forward_of_found consistent holds missing]

/-- What a network gives for a batch has texts, tokens and components as its axes. -/
theorem shape_of_forward {vectors : Tensor Number.Single}
    (given : network.forward batch = .ok vectors) :
    vectors.shape = [texts.length, batch.length, network.width] := by
  cases missing : network.findMissing batch with
  | some error => simp [forward_of_missing missing] at given
  | none =>
      rw [forward_of_found consistent holds missing] at given
      cases given
      rfl

end

end Network

namespace Transformer

variable {files : Files} {resolved : Model.Resolved} {maxTokens : Nat} {expected : Option Nat}
  {config : Config} {sentences : SentenceEncoder Number.Single}

/-- A network that is made for sizes with components and kinds of tokens is consistent if the
components can be shared out among the heads. -/
theorem Sized.consistent {net : Network} (sized : Sized net config) (width : config.width ≠ 0)
    (kinds : config.kinds ≠ 0) (heads : config.heads ∣ config.width) : net.Consistent where
  width_ne_zero := by rwa [sized.width]
  kinds_ne_nil := by
    rw [← List.length_pos_iff, sized.kinds]
    exact Nat.pos_of_ne_zero kinds
  heads layer first := by
    rcases sized.heads layer (List.mem_of_mem_head? first) with ⟨count, each⟩
    rw [count, each, sized.width, Nat.mul_div_cancel' heads]

/-! ## Main result -/

/-- A loaded model has as many positions and knows as many numbers of tokens as its sizes say. If
these are sound, nothing but its numbers decides whether it separates the texts of a batch. -/
theorem separates_of_load
    (loaded : (load files resolved maxTokens expected).outcome = .ok sentences)
    (gives : GivesSizes files resolved.dir config) (width : config.width ≠ 0)
    (kinds : config.kinds ≠ 0) (heads : config.heads ∣ config.width)
    (padId : sentences.padId < config.words) {alone : List Nat → List (List Number.Single)}
    (full : ∀ {batch texts vectors}, batch.Holds texts → sentences.forward batch = .ok vectors →
      vectors.data.length = texts.length * (batch.length * sentences.dimension))
    (own : ∀ {batch texts vectors}, batch.Holds texts → sentences.forward batch = .ok vectors →
      List.Forall₂ (fun tokens perToken => perToken.take tokens.length = alone tokens) texts
        (vectors.tokenVectors texts.length batch.length sentences.dimension)) :
    sentences.Separates config.positions (· < config.words) alone := by
  rcases load_eq_ok_iff.mp loaded with ⟨sizes, pooling, read, assembled⟩
  cases gives.unique (readConfig_eq_ok read).1
  rcases assemble_eq_ok_iff.mp assembled with
    ⟨weights, net, tokenizer, limited, _, connected, _, _, rfl⟩
  have sized := sized_of_network connected
  have consistent := sized.consistent width kinds heads
  exact {
    padId_known := padId
    succeeds_iff := by
      intro batch texts holds
      rw [← sized.positions, ← sized.words]
      exact Network.forward_succeeds_iff consistent holds
    shape_eq := by
      intro batch texts vectors holds given
      rw [Network.shape_of_forward consistent holds given, sized.width]
      rfl
    length_data := full
    alone_eq := own }

end Transformer

end TextVectors
