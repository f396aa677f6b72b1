import TextVectors.Proofs.Result
import TextVectors.Tokens.Tokenizer

/-!
# Limits of encodings

A limit counts the special tokens, although they are put around a text only after it has been
cut. The number that a frame announces is the length of what it makes of no text,
`length_apply_nil`, so a frame that surrounds every text in the same way leaves room for just
the rest of the limit. What does not fit is cut off at the end of the text, and a text that fits
is encoded as it is without a limit.
-/

namespace TextVectors

namespace Tokens.Frame

variable {frame : Frame} {front back : List Nat}

/-- A frame puts the same numbers in front of every text, and the same behind it. -/
def Surrounds (frame : Frame) (front back : List Nat) : Prop :=
  ∀ content, frame.apply content = front ++ content ++ back

/-- Special tokens on both sides of one place for the text surround it. -/
theorem surrounds_specials (before after : List (List Nat)) :
    Surrounds (before.map .special ++ .content :: after.map .special) before.flatten
      after.flatten := by
  have specials (parts : List (List Nat)) (content : List Nat) :
      apply (parts.map .special) content = parts.flatten := by
    induction parts with
    | nil => rfl
    | cons part parts ih => simpa [apply] using ih
  intro content
  have parts : apply (before.map .special ++ .content :: after.map .special) content =
      apply (before.map .special) content ++ (content ++ apply (after.map .special) content) := by
    simp [apply]
  rw [parts, specials, specials, List.append_assoc]

theorem length_apply_nil (frame : Frame) : (frame.apply []).length = frame.added := by
  rw [added, ← List.sum_eq_foldl]
  induction frame with
  | nil => rfl
  | cons part frame ih =>
      rw [List.map_cons, List.sum_cons, ← ih]
      cases part <;> simp [apply]

/-- What a frame announces is what it puts around a text. -/
theorem Surrounds.added_eq (surrounds : frame.Surrounds front back) :
    frame.added = front.length + back.length := by
  rw [← length_apply_nil, surrounds]
  simp

end Tokens.Frame

namespace Tokenizer

variable {tokenizer limited : Tokenizer} {front back content : List Nat} {limit : Nat}
  {text : String}

theorem withLimit_eq_error_iff :
    (∃ error, tokenizer.withLimit limit = .error error) ↔ limit ≤ tokenizer.frame.added := by
  unfold withLimit
  split
  · next narrow => exact iff_of_true ⟨_, rfl⟩ narrow
  · next wide => exact iff_of_false (by simp) wide

theorem withLimit_eq_ok_iff : tokenizer.withLimit limit = .ok limited ↔
    tokenizer.frame.added < limit ∧ limited = { tokenizer with limit := some limit } := by
  unfold withLimit
  split
  · next narrow => exact iff_of_false (by simp) fun room => absurd room.1 (Nat.not_lt.mpr narrow)
  · next wide => simp [Nat.not_le.mp wide, eq_comm]

/-- A text is shortened, framed and marked. -/
theorem encode_of_contentIds (plain : tokenizer.padding = none)
    (encoded : tokenizer.contentIds text = .ok content) :
    let ids := tokenizer.frame.apply (tokenizer.shorten content)
    tokenizer.encode text = .ok ⟨ids, List.replicate ids.length 1⟩ := by
  intro ids
  simp only [encode, encoded, ok_bind, plain]
  rfl

theorem apply_shorten (surrounds : tokenizer.frame.Surrounds front back)
    (set : tokenizer.limit = some limit) (content : List Nat) :
    let room := limit - (front.length + back.length)
    tokenizer.frame.apply (tokenizer.shorten content) =
      front ++ content.take (min content.length room) ++ back := by
  intro room
  have shortened : tokenizer.shorten content = content.take (min content.length room) := by
    rw [shorten, set, surrounds.added_eq, Nat.min_comm, ← List.take_eq_take_min]
  rw [shortened]
  apply surrounds

/-- No text has more tokens than the limit says, the special ones included. -/
theorem length_encode_le (set : tokenizer.withLimit limit = .ok limited)
    (plain : tokenizer.padding = none) (surrounds : tokenizer.frame.Surrounds front back)
    {encoding : Encoding} (encoded : limited.encode text = .ok encoding) :
    encoding.ids.length ≤ limit := by
  rcases withLimit_eq_ok_iff.mp set with ⟨room, same⟩
  rw [surrounds.added_eq] at room
  have around : limited.frame.Surrounds front back := by rwa [same]
  have tokens := encoded
  simp only [encode, bind_eq_ok_iff] at tokens
  rcases tokens with ⟨content, tokens, _⟩
  cases encoded.symm.trans (encode_of_contentIds (by rw [same, plain]) tokens)
  have framed := apply_shorten around (by rw [same]) content
  simp only [framed, List.length_append, List.length_take]
  omega

/-- A limit is refused if it leaves room for special tokens only. With any other, a text keeps its
special tokens and as many of its first tokens as fit beside them. -/
theorem encode_within_limit (surrounds : tokenizer.frame.Surrounds front back) (limit : Nat) :
    let added := front.length + back.length
    ((∃ error, tokenizer.withLimit limit = .error error) ↔ limit ≤ added) ∧
      (added < limit → ∃ limited, tokenizer.withLimit limit = .ok limited ∧
        (tokenizer.padding = none → ∀ text content, tokenizer.contentIds text = .ok content →
          ∃ encoding, limited.encode text = .ok encoding ∧
            encoding.ids =
              front ++ content.take (min content.length (limit - added)) ++ back ∧
            encoding.mask = List.replicate encoding.ids.length 1 ∧
            encoding.ids.length ≤ limit ∧
            (content ≠ [] → added < encoding.ids.length) ∧
            (content.length + added ≤ limit →
              { tokenizer with limit := none }.encode text = .ok encoding))) := by
  intro added
  have announced : tokenizer.frame.added = added := surrounds.added_eq
  constructor
  · rw [withLimit_eq_error_iff, announced]
  · intro room
    let limited := { tokenizer with limit := some limit }
    have set : tokenizer.withLimit limit = .ok limited :=
      withLimit_eq_ok_iff.mpr ⟨announced ▸ room, rfl⟩
    have around : limited.frame.Surrounds front back := surrounds
    refine ⟨limited, set, ?_⟩
    intro plain text content encoded
    have framed : limited.frame.apply (limited.shorten content) =
        front ++ content.take (min content.length (limit - added)) ++ back :=
      apply_shorten around rfl content
    have encodes : limited.encode text = .ok ⟨_, _⟩ := encode_of_contentIds plain encoded
    refine ⟨_, encodes, framed, rfl, length_encode_le set plain surrounds encodes, ?_, ?_⟩
    · intro filled
      have tokens := List.length_pos_iff.mpr filled
      simp only [framed, List.length_append, List.length_take]
      omega
    · intro fits
      have whole : limited.shorten content = content := by
        apply List.take_of_length_le
        rw [show limited.frame.added = added from announced]
        omega
      rw [whole]
      exact encode_of_contentIds plain encoded

end Tokenizer

namespace Sample

/-- Words between blanks, one of which is known, with a special token on either side. -/
def words : Tokenizer where
  added := []
  normalizer := none
  splitter := .blanks
  vocabulary := ⟨.ofList [("[CLS]", 0), ("[SEP]", 1), ("[UNK]", 2), ("hello", 3)], "[UNK]", .words⟩
  frame := [.special [0], .content, .special [1]]
  padding := none
  limit := none

theorem contentIds_hello : words.contentIds "hello hello" = .ok [3, 3] := by
  have parts : words.parts "hello hello".toList = [.text "hello hello".toList] := by
    decide +kernel
  have pieces : (words.splitter.pieces "hello hello".toList).filter (!·.isEmpty) =
      ["hello".toList, "hello".toList] := by
    decide +kernel
  have known : words.vocabulary.id? "hello" = some 3 := by
    apply Std.HashMap.getElem?_ofList_of_mem (k := "hello") <;> decide
  have encoded : words.vocabulary.encode "hello".toList = .ok [3] := by
    simp only [Tokens.Vocabulary.encode, String.ofList_toList, known]
    rfl
  simp only [Tokenizer.contentIds, parts, List.mapM_cons, List.mapM_nil, Tokenizer.partIds,
    Tokenizer.cutText, pieces, encoded]
  rfl

end Sample

/-- Of two words one fits beside the two special tokens, which leave no room below three. -/
theorem Tokenizer.encode_within_limit_sample :
    Sample.words.frame.Surrounds [0] [1] ∧
      (∃ error, Sample.words.withLimit 2 = .error error) ∧
      ∃ limited, Sample.words.withLimit 3 = .ok limited ∧
        limited.encode "hello hello" = .ok ⟨[0, 3, 1], [1, 1, 1]⟩ := by
  have surrounds : Sample.words.frame.Surrounds [0] [1] :=
    Tokens.Frame.surrounds_specials [[0]] [[1]]
  refine ⟨surrounds, (encode_within_limit surrounds 2).1.mpr (by decide), ?_⟩
  rcases (encode_within_limit surrounds 3).2 (by decide) with ⟨limited, set, kept⟩
  rcases kept rfl _ _ Sample.contentIds_hello with ⟨⟨ids, mask⟩, encoded, cut, marked, _⟩
  cases cut
  cases marked
  exact ⟨limited, set, encoded⟩

end TextVectors
