import TextVectors.Payload
import TextVectors.Proofs.Json.Writing

/-!
# There and back

Whatever the service says is understood as it was meant: the text of an answer, of a
state of health or of a problem is read as what was written, whichever characters its
strings have, however many vectors there are and however long they are.

One thing has no text of its own, a component that is infinite or undefined. An answer
that has one can still be written, but not be read. Of the other components it is
assumed that their texts are read as themselves.
-/

namespace TextVectors

namespace Payload

open Json
open Number (Single)

/-! ## Vectors -/

/-- The text of a component is read as the component. -/
def ReadsBack (component : Single) : Prop :=
  single (utf8 (writeSingle component)) = .ok (component, [])

instance (component : Single) : Decidable (ReadsBack component) :=
  decidable_of_iff ((single (utf8 (writeSingle component))).toOption = some (component, []))
    ⟨eq_ok_of_toOption, fun reads => congrArg Except.toOption reads⟩

theorem conveys_component {component : Single}
    (reads : component.isFinite = true → ReadsBack component) :
    Conveys single (writeSingle component) component (component.isFinite = true) := by
  by_cases finite : component.isFinite = true
  · rcases exists_value_of_single (reads finite) with ⟨blanks, v, blank, value, same, finds⟩
    have text : Json.Item.text ⟨blanks, v, [], blank, blanks_nil⟩ =
        utf8 (writeSingle component) := by
      simp [Json.Item.text, same]
    exact ⟨_, ⟨text, value⟩, FindsWithin.congr finds fun found => by simp [finite, eq_comm]⟩
  · -- What has no text is written as the word for nothing, and no component is found there.
    have written : writeSingle component = "null" := by
      unfold writeSingle
      unfold Single.isFinite at finite
      cases value : component.value <;> simp_all [Number.Binary.text?, Number.Binary.isFinite]
    have word : utf8 "null" = [0x6E, 0x75, 0x6C, 0x6C] := by
      rw [utf8_eq]
      rfl
    rw [written]
    apply conveys_of_value
    · rw [word]
      exact .nullWord
    · rw [word]
      exact FindsWithin.congr single_finds_null fun found => by simp [finite]

namespace Item

/-- All components are finite. -/
def Finite (item : Payload.Item Single) : Prop :=
  ∀ component ∈ item.embedding, component.isFinite = true

/-- The finite components are read as themselves. -/
def ReadsBack (item : Payload.Item Single) : Prop :=
  ∀ component ∈ item.embedding, component.isFinite = true → Payload.ReadsBack component

instance (item : Payload.Item Single) : Decidable item.Finite :=
  inferInstanceAs (Decidable (∀ component ∈ item.embedding, component.isFinite = true))

instance (item : Payload.Item Single) : Decidable item.ReadsBack :=
  inferInstanceAs (Decidable (∀ component ∈ item.embedding,
    component.isFinite = true → Payload.ReadsBack component))

end Item

theorem conveys_item {item : Item Single} (small : item.index < Nat.pow 2 64)
    (reads : item.ReadsBack) : Conveys readItem item.text item item.Finite := by
  have components : ∀ component ∈ item.embedding,
      Conveys single (writeSingle component) (id component) (component.isFinite = true) :=
    fun component mem => conveys_component (reads component mem)
  have pair := @conveys_pair _ _ "EncodeItem" "index" "embedding" _ _ _ _ _ _ _ _ (by decide)
    (conveys_natural small) (conveys_list components)
  rw [true_and, List.map_id] at pair
  exact @Conveys.map _ _ _ readItem (fun draft => ⟨draft.1.getD 0, draft.2.getD []⟩) _ _ _ pair
    fun _ => rfl

/-! ## Answers -/

namespace Embeddings

/-- All components of all vectors are finite. -/
def Finite (answer : Embeddings Single) : Prop :=
  ∀ item ∈ answer.items, item.Finite

/-- The positions have sixty-four bits, and finite components are read as themselves. -/
structure Sendable (answer : Embeddings Single) : Prop where
  index_lt : ∀ item ∈ answer.items, item.index < Nat.pow 2 64
  readsBack : ∀ item ∈ answer.items, item.ReadsBack

instance (answer : Embeddings Single) : Decidable answer.Finite :=
  inferInstanceAs (Decidable (∀ item ∈ answer.items, item.Finite))

instance (answer : Embeddings Single) : Decidable answer.Sendable :=
  decidable_of_iff ((∀ item ∈ answer.items, item.index < Nat.pow 2 64) ∧
      ∀ item ∈ answer.items, item.ReadsBack)
    ⟨fun both => ⟨both.1, both.2⟩, fun sendable => ⟨sendable.1, sendable.2⟩⟩

end Embeddings

theorem conveys_embeddings {answer : Embeddings Single} (sendable : answer.Sendable) :
    Conveys readEmbeddings answer.text answer answer.Finite := by
  have items : ∀ item ∈ answer.items, Conveys readItem item.text (id item) item.Finite :=
    fun item mem => conveys_item (sendable.index_lt item mem) (sendable.readsBack item mem)
  have pair := @conveys_pair _ _ "EncodeResponse" "data" "model" _ _ _ _ _ _ _ _ (by decide)
    (conveys_list items) (conveys_string answer.model)
  rw [and_true, List.map_id] at pair
  exact @Conveys.map _ _ _ readEmbeddings (fun draft => ⟨draft.1.getD [], draft.2.getD ""⟩) _ _ _
    pair fun _ => rfl

/-! ## Texts in pairs -/

theorem conveys_texts {name first second : String} (different : first ≠ second) (x y : String) :
    Conveys (pairShape name first second).read
      (writeObject [(first, writeString x), (second, writeString y)]) (some x, some y) True := by
  have pair := @conveys_pair _ _ name _ _ _ _ _ _ _ _ _ _ different (conveys_string x)
    (conveys_string y)
  rwa [and_true] at pair

theorem conveys_health (health : Health) : Conveys readHealth health.text health True := by
  have pair := @conveys_texts "HealthResponse" "status" "model" (by decide) health.status
    health.model
  exact @Conveys.map _ _ _ readHealth (fun draft => ⟨draft.1.getD "", draft.2.getD ""⟩) _ _ _ pair
    fun _ => rfl

theorem conveys_problem (problem : Problem) : Conveys readProblem problem.text problem True := by
  have pair := @conveys_texts "ErrorResponse" "error" "code" (by decide) problem.error problem.code
  exact @Conveys.map _ _ _ readProblem (fun draft => ⟨draft.1.getD "", draft.2.getD ""⟩) _ _ _ pair
    fun _ => rfl

/-! ## Vectors in their order -/

section
variable {σ : Type} (vectors : List (List σ)) (model : String)

theorem map_embedding_ofVectors :
    (Embeddings.ofVectors vectors model).items.map Item.embedding = vectors := by
  rw [Embeddings.ofVectors, List.map_map]
  exact List.zipIdx_map_fst 0 vectors

theorem map_index_ofVectors :
    (Embeddings.ofVectors vectors model).items.map Item.index = List.range vectors.length := by
  rw [Embeddings.ofVectors, List.map_map, List.range_eq_range']
  exact List.zipIdx_map_snd 0 vectors

end

theorem sendable_ofVectors {vectors : List (List Single)} {model : String}
    (few : vectors.length ≤ Nat.pow 2 64)
    (reads : ∀ vector ∈ vectors, ∀ component ∈ vector, ReadsBack component) :
    (Embeddings.ofVectors vectors model).Sendable := by
  constructor
  · intro item mem
    have inside := List.mem_map_of_mem (f := Item.index) mem
    rw [map_index_ofVectors, List.mem_range] at inside
    exact inside.trans_le few
  · intro item mem component inVector _
    have inside := List.mem_map_of_mem (f := Item.embedding) mem
    rw [map_embedding_ofVectors] at inside
    exact reads item.embedding inside component inVector

theorem finite_ofVectors {vectors : List (List Single)} {model : String}
    (finite : ∀ vector ∈ vectors, ∀ component ∈ vector, component.isFinite = true) :
    (Embeddings.ofVectors vectors model).Finite := by
  intro item mem component inVector
  have inside := List.mem_map_of_mem (f := Item.embedding) mem
  rw [map_embedding_ofVectors] at inside
  exact finite item.embedding inside component inVector

/-! ## There and back -/

/-- What was written is read as what it was, and writing that again gives the same text. -/
def Returns {α : Type} (read : Reader α) (write : α → String) (x : α) : Prop :=
  readWhole read (utf8 (write x)) = .ok x ∧
    (readWhole read (utf8 (write x))).map write = .ok (write x)

theorem Returns.of_conveys {α : Type} {read : Reader α} {write : α → String} {x : α}
    {sound : Prop} (conveys : Conveys read (write x) x sound) (holds : sound) :
    Returns read write x := by
  have back := conveys.readWhole.mpr ⟨holds, rfl⟩
  exact ⟨back, by rw [back]; rfl⟩

/-- Nothing is read of an answer with a component that has no text. -/
theorem exists_error_of_not_finite {answer : Embeddings Single} (sendable : answer.Sendable)
    (other : ¬answer.Finite) :
    ∃ defect, readWhole readEmbeddings (utf8 answer.text) = .error defect := by
  cases read : readWhole readEmbeddings (utf8 answer.text) with
  | ok found => exact absurd ((conveys_embeddings sendable).readWhole.mp read).1 other
  | error defect => exact ⟨defect, rfl⟩

/-- What the service says is read as what it was, unless a component of a vector is infinite or
undefined: then nothing is read. Vectors return in their order, each with its position. -/
theorem said_and_understood :
    (∀ answer : Embeddings Single, answer.Sendable →
      (answer.Finite → Returns readEmbeddings Embeddings.text answer) ∧
        (¬answer.Finite → ∃ defect, readWhole readEmbeddings (utf8 answer.text) = .error defect)) ∧
    (∀ health : Health, Returns readHealth Health.text health) ∧
    (∀ problem : Problem, Returns readProblem Problem.text problem) ∧
    ∀ (vectors : List (List Single)) (model : String), vectors.length ≤ Nat.pow 2 64 →
      (∀ vector ∈ vectors, ∀ component ∈ vector,
        component.isFinite = true ∧ ReadsBack component) →
      ∃ answer,
        readWhole readEmbeddings (utf8 (Embeddings.ofVectors vectors model).text) = .ok answer ∧
          answer.items.map Item.embedding = vectors ∧
          answer.items.map Item.index = List.range vectors.length ∧ answer.model = model := by
  refine ⟨?_, ?_, ?_, ?_⟩
  · intro answer sendable
    exact ⟨.of_conveys (conveys_embeddings sendable), exists_error_of_not_finite sendable⟩
  · intro health
    exact .of_conveys (conveys_health health) trivial
  · intro problem
    exact .of_conveys (conveys_problem problem) trivial
  · intro vectors model few whole
    have sendable : (Embeddings.ofVectors vectors model).Sendable := by
      apply sendable_ofVectors few
      intro vector mem component inside
      exact (whole vector mem component inside).2
    have finite : (Embeddings.ofVectors vectors model).Finite := by
      apply finite_ofVectors
      intro vector mem component inside
      exact (whole vector mem component inside).1
    exact ⟨_, (conveys_embeddings sendable).readWhole.mpr ⟨finite, rfl⟩,
      map_embedding_ofVectors vectors model, map_index_ofVectors vectors model, rfl⟩

/-- An answer with the greatest position, an empty vector, and characters that need an escape. -/
def crowded : Embeddings Single :=
  ⟨[⟨18446744073709551615, [⟨0x3EAAAAAB⟩, ⟨0x80000000⟩, ⟨0x00000001⟩]⟩, ⟨0, []⟩],
    "\"\\\u0001\n😀"⟩

/-- An answer with an undefined component. -/
def undefined : Embeddings Single :=
  ⟨[⟨0, [⟨0x3F000000⟩, .nan]⟩], "m"⟩

theorem said_and_understood_crowded :
    crowded.Sendable ∧ Returns readEmbeddings Embeddings.text crowded ∧
      undefined.Sendable ∧
        ∃ defect, readWhole readEmbeddings (utf8 undefined.text) = .error defect := by
  have sendable : crowded.Sendable := by decide +kernel
  have finite : crowded.Finite := by decide +kernel
  have sendable' : undefined.Sendable := by decide +kernel
  have other : ¬undefined.Finite := by decide +kernel
  exact ⟨sendable, (said_and_understood.1 crowded sendable).1 finite, sendable',
    (said_and_understood.1 undefined sendable').2 other⟩

end Payload

end TextVectors
