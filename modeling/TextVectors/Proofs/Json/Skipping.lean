import TextVectors.Proofs.Json.Strings

/-!
# Values that are passed over

A value that nobody needs is passed over step by step, with a stack of the
containers that are open. It is passed over iff it is a JSON value of the
grammar, of whatever depth.

One direction follows the value: a container is opened, its pieces are passed
over one by one, and it is closed with the stack as it was. Each byte is good
for two steps, so the steps never run out. The other direction follows the
steps: whatever is passed over from an open container on is what is missing of
it, and behind that the rest of the steps.
-/

namespace TextVectors

namespace Json

/-! ## Scalars and keys -/

theorem Unsigned.exists_cons {text : List UInt8} (unsigned : Unsigned text) :
    ∃ first others, text = first :: others ∧ Digit first := by
  cases unsigned with
  | mk wholePart _ _ =>
      cases wholePart with
      | zero => exact ⟨_, _, rfl, by decide, by decide⟩
      | digits digit _ _ => exact ⟨_, _, rfl, digit⟩

theorem Digit.ne {byte other : UInt8} (digit : Digit byte) (noDigit : ¬Digit other) :
    byte ≠ other := by
  rintro rfl
  exact noDigit digit

theorem skipScalar_unsigned {text rest : List UInt8} (unsigned : Unsigned text)
    (ends : EndsNumber rest) : skipScalar (text ++ rest) = .ok (none, rest) := by
  have skipped := skipUnsigned_complete unsigned ends
  rcases unsigned.exists_cons with ⟨first, others, rfl, digit⟩
  rw [List.cons_append] at skipped ⊢
  have isDigit := isDigit_iff.2 digit
  have no_n : first ≠ 0x6E := digit.ne (by decide)
  have no_t : first ≠ 0x74 := digit.ne (by decide)
  have no_f : first ≠ 0x66 := digit.ne (by decide)
  have no_minus : first ≠ 0x2D := digit.ne (by decide)
  simp [skipScalar, no_n, no_t, no_f, no_minus, isDigit, skipped, bind, Except.bind, pure,
    Except.pure]

theorem skipScalar_negative {text rest : List UInt8} (unsigned : Unsigned text)
    (ends : EndsNumber rest) : skipScalar (0x2D :: (text ++ rest)) = .ok (none, rest) := by
  simp [skipScalar, skipUnsigned_complete unsigned ends, bind, Except.bind, pure, Except.pure]

theorem skipScalar_string {body : List UInt8} (wellFormed : Body body) (rest : List UInt8) :
    skipScalar (quoted body ++ rest) = .ok (none, rest) := by
  have skipped := skipString_length wellFormed rest
  have notDigit : isDigit 0x22 = false := rfl
  simp only [List.length_append, List.length_cons] at skipped
  simp [quoted, skipScalar, notDigit, skipped, bind, Except.bind, pure, Except.pure]

/-- A scalar that is passed over is a value. -/
theorem skipScalar_sound {bytes rest : List UInt8}
    (skipped : skipScalar bytes = .ok (none, rest)) : ∃ v, Value v ∧ bytes = v ++ rest := by
  cases bytes with
  | nil => cases skipped
  | cons byte bytes =>
      simp only [skipScalar] at skipped
      split_ifs at skipped with null isTrue isFalse minus digit quote list object
      all_goals simp only [bind_eq_ok_iff, pure, Except.pure, Except.ok.injEq, Prod.mk.injEq,
        true_and, exists_eq_right, reduceCtorEq, false_and, Defect.at] at skipped
      · exact ⟨_, .nullWord, by rw [literal_eq_ok_iff.1 skipped, null]; rfl⟩
      · exact ⟨_, .trueWord, by rw [literal_eq_ok_iff.1 skipped, isTrue]; rfl⟩
      · exact ⟨_, .falseWord, by rw [literal_eq_ok_iff.1 skipped, isFalse]; rfl⟩
      · rcases skipUnsigned_sound skipped with ⟨text, unsigned, rfl⟩
        exact ⟨_, .negative unsigned, by rw [minus]; rfl⟩
      · rcases skipUnsigned_sound skipped with ⟨text, unsigned, same⟩
        exact ⟨_, .number unsigned, same⟩
      · rcases skipString_sound skipped with ⟨body, wellFormed, rfl⟩
        exact ⟨_, .string wellFormed, by rw [quote, quoted]; simp⟩

theorem skipScalar_opening {bytes rest : List UInt8} {frame : Frame}
    (opened : skipScalar bytes = .ok (some frame, rest)) :
    (frame = .list ∧ bytes = 0x5B :: rest) ∨ (frame = .object ∧ bytes = 0x7B :: rest) := by
  cases bytes with
  | nil => cases opened
  | cons byte bytes =>
      simp only [skipScalar] at opened
      split_ifs at opened with null isTrue isFalse minus digit quote list object
      all_goals simp only [bind_eq_ok_iff, pure, Except.pure, Except.ok.injEq, Prod.mk.injEq,
        Option.some.injEq, reduceCtorEq, false_and, and_false, exists_false, Defect.at] at opened
      · exact .inl ⟨opened.1.symm, by rw [list, opened.2]⟩
      · exact .inr ⟨opened.1.symm, by rw [object, opened.2]⟩

theorem skipKey_eq_ok_iff {bytes rest : List UInt8} :
    skipKey bytes = .ok rest ↔
      ∃ before key between, Blanks before ∧ Body key ∧ Blanks between ∧
        bytes = before ++ (quoted key ++ (between ++ 0x3A :: rest)) := by
  constructor
  · intro skipped
    unfold skipKey at skipped
    split at skipped
    · cases skipped
    · rename_i byte after atKey
      split_ifs at skipped with quote
      · rcases bind_eq_ok_iff.1 skipped with ⟨behind, passed, atColon⟩
        rcases skipString_sound passed with ⟨key, wellFormed, rfl⟩
        split at atColon
        · cases atColon
        · rename_i next others atNext
          split_ifs at atColon with colon
          · cases atColon
            rcases exists_blanks_of_skipBlanks atKey with ⟨before, blankBefore, rfl⟩
            rcases exists_blanks_of_skipBlanks atNext with ⟨between, blankBetween, rfl⟩
            refine ⟨before, key, between, blankBefore, wellFormed, blankBetween, ?_⟩
            rw [quote, colon, quoted]
            simp
          · cases atColon
      · cases skipped
  · rintro ⟨before, key, between, blankBefore, wellFormed, blankBetween, rfl⟩
    have skipped := skipString_length wellFormed (between ++ 0x3A :: rest)
    have atKey : skipBlanks (before ++ (quoted key ++ (between ++ 0x3A :: rest))) =
        0x22 :: (key ++ 0x22 :: (between ++ 0x3A :: rest)) := by
      rw [skipBlanks_append blankBefore, quoted, List.cons_append, skipBlanks_cons rfl]
      simp
    have atColon : skipBlanks (between ++ 0x3A :: rest) = 0x3A :: rest := by
      rw [skipBlanks_append blankBetween, skipBlanks_cons rfl]
    simp only [skipKey, atKey, skipped, atColon, if_true, bind, Except.bind, pure, Except.pure]

/-! ## Single steps -/

theorem skipFrom_scalar {bytes rest : List UInt8}
    (skipped : skipScalar (skipBlanks bytes) = .ok (none, rest)) (fuel : Nat)
    (frames : List Frame) :
    skipFrom (fuel + 1) .value frames bytes = skipFrom fuel .next frames rest := by
  simp only [skipFrom, skipped, bind, Except.bind]

theorem skipFrom_opening {bytes rest : List UInt8} {frame : Frame}
    (opened : skipScalar (skipBlanks bytes) = .ok (some frame, rest)) (fuel : Nat)
    (frames : List Frame) :
    skipFrom (fuel + 1) .value frames bytes = skipFrom fuel .first (frame :: frames) rest := by
  simp only [skipFrom, opened, bind, Except.bind]

/-- Where the value of a piece begins, which a member has behind its key. -/
def enter (frame : Frame) (bytes : List UInt8) : Except Defect (List UInt8) :=
  if frame = .object then skipKey bytes else .ok bytes

theorem skipFrom_first {frame : Frame} {byte : UInt8} {bytes others : List UInt8}
    (atByte : skipBlanks bytes = byte :: others) (other : byte ≠ frame.closing) (fuel : Nat)
    (frames : List Frame) :
    skipFrom (fuel + 1) .first (frame :: frames) bytes =
      enter frame (byte :: others) >>= skipFrom fuel .value (frame :: frames) := by
  simp only [skipFrom, atByte, other, if_false]
  cases frame <;> rfl

theorem skipFrom_comma {frame : Frame} {bytes others : List UInt8}
    (atComma : skipBlanks bytes = 0x2C :: others) (fuel : Nat) (frames : List Frame) :
    skipFrom (fuel + 1) .next (frame :: frames) bytes =
      enter frame others >>= skipFrom fuel .value (frame :: frames) := by
  have other : (0x2C : UInt8) ≠ frame.closing := by
    cases frame <;> decide
  simp only [skipFrom, atComma, other, if_true, if_false]
  cases frame <;> rfl

theorem skipFrom_closing {awaiting : Awaiting} (inside : awaiting ≠ .value) {frame : Frame}
    {bytes rest : List UInt8} (atEnd : skipBlanks bytes = frame.closing :: rest) (fuel : Nat)
    (frames : List Frame) :
    skipFrom (fuel + 1) awaiting (frame :: frames) bytes = skipFrom fuel .next frames rest := by
  cases awaiting with
  | value => exact absurd rfl inside
  | first => simp only [skipFrom, atEnd, if_true]
  | next => simp only [skipFrom, atEnd, if_true]

/-- Blanks in front of a container's next piece or of its end count for nothing. -/
theorem skipFrom_blanks {awaiting : Awaiting} {blanks bytes : List UInt8} {frame : Frame}
    {frames : List Frame} (blank : Blanks blanks) (fuel : Nat) :
    skipFrom (fuel + 1) awaiting (frame :: frames) (blanks ++ bytes) =
      skipFrom (fuel + 1) awaiting (frame :: frames) bytes := by
  cases awaiting <;> simp only [skipFrom, skipBlanks_append blank]

theorem skipFrom_value_cases {fuel : Nat} {frames : List Frame} {bytes out : List UInt8}
    (skipped : skipFrom (fuel + 1) .value frames bytes = .ok out) :
    (∃ rest, skipScalar (skipBlanks bytes) = .ok (none, rest) ∧
        skipFrom fuel .next frames rest = .ok out) ∨
      ∃ frame rest, skipScalar (skipBlanks bytes) = .ok (some frame, rest) ∧
        skipFrom fuel .first (frame :: frames) rest = .ok out := by
  rw [skipFrom, bind_eq_ok_iff] at skipped
  rcases skipped with ⟨⟨_ | frame, rest⟩, scalar, later⟩
  · exact .inl ⟨rest, scalar, later⟩
  · exact .inr ⟨frame, rest, scalar, later⟩

theorem skipFrom_first_cases {fuel : Nat} {frame : Frame} {frames : List Frame}
    {bytes out : List UInt8}
    (skipped : skipFrom (fuel + 1) .first (frame :: frames) bytes = .ok out) :
    (∃ rest, skipBlanks bytes = frame.closing :: rest ∧
        skipFrom fuel .next frames rest = .ok out) ∨
      ∃ rest, enter frame (skipBlanks bytes) = .ok rest ∧
        skipFrom fuel .value (frame :: frames) rest = .ok out := by
  cases atByte : skipBlanks bytes with
  | nil => simp [skipFrom, atByte, Defect.before] at skipped
  | cons byte others =>
      by_cases closing : byte = frame.closing
      · subst closing
        rw [skipFrom_closing (by decide) atByte] at skipped
        exact .inl ⟨others, rfl, skipped⟩
      · rw [skipFrom_first atByte closing] at skipped
        exact .inr (bind_eq_ok_iff.1 skipped)

theorem skipFrom_next_cases {fuel : Nat} {frame : Frame} {frames : List Frame}
    {bytes out : List UInt8}
    (skipped : skipFrom (fuel + 1) .next (frame :: frames) bytes = .ok out) :
    (∃ rest, skipBlanks bytes = frame.closing :: rest ∧
        skipFrom fuel .next frames rest = .ok out) ∨
      ∃ others rest, skipBlanks bytes = 0x2C :: others ∧ enter frame others = .ok rest ∧
        skipFrom fuel .value (frame :: frames) rest = .ok out := by
  cases atByte : skipBlanks bytes with
  | nil => simp [skipFrom, atByte, Defect.before] at skipped
  | cons byte others =>
      by_cases closing : byte = frame.closing
      · subst closing
        rw [skipFrom_closing (by decide) atByte] at skipped
        exact .inl ⟨others, rfl, skipped⟩
      · by_cases comma : byte = 0x2C
        · subst comma
          rw [skipFrom_comma atByte] at skipped
          rcases bind_eq_ok_iff.1 skipped with ⟨rest, entered, later⟩
          exact .inr ⟨others, rest, rfl, entered, later⟩
        · simp [skipFrom, atByte, closing, comma, Defect.at] at skipped

/-! ## Pieces of containers -/

/-- The byte that opens a container. -/
def Frame.opening : Frame → UInt8
  | .list => 0x5B
  | .object => 0x7B

/-- A piece of a container. -/
inductive Piece : Frame → List UInt8 → Prop where
  | item (item : Item) (value : Value item.value) : Piece .list item.text
  | member (member : Member) (value : Value member.item.value) : Piece .object member.text

theorem exists_map_eq_of_forall {α β : Type} {f : α → β} {P : α → Prop} {ys : List β}
    (found : ∀ y ∈ ys, ∃ x, P x ∧ f x = y) : ∃ xs : List α, xs.map f = ys ∧ ∀ x ∈ xs, P x := by
  induction ys with
  | nil => exact ⟨[], rfl, by simp⟩
  | cons y ys ih =>
      rcases found y (by simp) with ⟨x, holds, rfl⟩
      rcases ih fun later mem => found later (by simp [mem]) with ⟨xs, rfl, all⟩
      exact ⟨x :: xs, rfl, by simpa using ⟨holds, all⟩⟩

/-- Pieces between the brackets of their container are a value. -/
theorem value_enclosed {frame : Frame} {lead : List UInt8} {pieces : List (List UInt8)}
    (blank : Blanks lead) (all : ∀ piece ∈ pieces, Piece frame piece) :
    Value (enclosed frame.opening lead pieces frame.closing) := by
  cases frame with
  | list =>
      have items : ∀ piece ∈ pieces, ∃ item : Item, Value item.value ∧ item.text = piece := by
        intro piece mem
        rcases all piece mem with ⟨item, value⟩
        exact ⟨_, value, rfl⟩
      rcases exists_map_eq_of_forall items with ⟨items, rfl, values⟩
      exact .list blank values
  | object =>
      have members : ∀ piece ∈ pieces,
          ∃ member : Member, Value member.item.value ∧ member.text = piece := by
        intro piece mem
        rcases all piece mem with _ | ⟨member, value⟩
        exact ⟨_, value, rfl⟩
      rcases exists_map_eq_of_forall members with ⟨members, rfl, values⟩
      exact .object blank values

/-- A value that a container has been entered for belongs to a piece of it. -/
theorem piece_of_enter {frame : Frame} {bytes before v after rest : List UInt8}
    (entered : enter frame bytes = .ok (before ++ (v ++ (after ++ rest))))
    (blankBefore : Blanks before) (value : Value v) (blankAfter : Blanks after) :
    ∃ piece, Piece frame piece ∧ bytes = piece ++ rest := by
  cases frame with
  | list =>
      cases entered
      let item : Item := ⟨before, v, after, blankBefore, blankAfter⟩
      exact ⟨item.text, .item item value, by simp [item, Item.text]⟩
  | object =>
      rcases skipKey_eq_ok_iff.1 entered with ⟨front, key, between, blankFront, body, blankBetween,
        rfl⟩
      let member : Member :=
        ⟨front, key, between, ⟨before, v, after, blankBefore, blankAfter⟩, blankFront, body,
          blankBetween⟩
      exact ⟨member.text, .member member value, by simp [member, Member.text, Item.text]⟩

/-! ## What is passed over is a value -/

/-- The steps that are left go on behind what has been passed over. -/
def Leaves (fuel : Nat) (frames : List Frame) (rest out : List UInt8) : Prop :=
  ∃ left, left < fuel ∧ skipFrom left .next frames rest = .ok out

theorem Leaves.mono {fuel more : Nat} {frames : List Frame} {rest out : List UInt8}
    (leaves : Leaves fuel frames rest out) (le : fuel ≤ more) : Leaves more frames rest out := by
  rcases leaves with ⟨left, lt, later⟩
  exact ⟨left, by omega, later⟩

/-- Steps that succeed have passed over what was awaited: a value, or what was missing of a
container. -/
theorem skipFrom_sound (fuel : Nat) :
    (∀ {frames bytes out}, skipFrom fuel .value frames bytes = .ok out →
      ∃ before v rest, Blanks before ∧ Value v ∧ bytes = before ++ (v ++ rest) ∧
        Leaves fuel frames rest out) ∧
      (∀ {frame frames bytes out}, skipFrom fuel .first (frame :: frames) bytes = .ok out →
        ∃ lead pieces rest, Blanks lead ∧ (∀ piece ∈ pieces, Piece frame piece) ∧
          bytes = lead ++ (joined pieces ++ frame.closing :: rest) ∧ Leaves fuel frames rest out) ∧
      ∀ {frame frames bytes out}, skipFrom fuel .next (frame :: frames) bytes = .ok out →
        ∃ lead pieces rest, Blanks lead ∧ (∀ piece ∈ pieces, Piece frame piece) ∧
          bytes = lead ++ (behindCommas pieces ++ frame.closing :: rest) ∧
            Leaves fuel frames rest out := by
  -- Strongly, for what stands behind a value is passed with the fuel that the value has left.
  induction fuel using Nat.strong_induction_on with
  | _ fuel ih =>
      cases fuel with
      | zero =>
          refine ⟨?_, ?_, ?_⟩
          all_goals
            intros
            rename_i skipped
            cases skipped
      | succ fuel =>
          have here := ih fuel (Nat.lt_succ_self fuel)
          -- A piece that has been entered is its value and, behind it, what is missing.
          have pieceOn {frame frames bytes rest out} (entered : enter frame bytes = .ok rest)
              (skipped : skipFrom fuel .value (frame :: frames) rest = .ok out) :
              ∃ piece pieces later, Piece frame piece ∧ (∀ piece ∈ pieces, Piece frame piece) ∧
                bytes = piece ++ (behindCommas pieces ++ frame.closing :: later) ∧
                  Leaves (fuel + 1) frames later out := by
            rcases here.1 skipped with ⟨before, v, behind, blankBefore, value, rfl, left, lt, later⟩
            rcases (ih left (by omega)).2.2 later with
              ⟨after, pieces, rest, blankAfter, all, rfl, leaves⟩
            rcases piece_of_enter entered blankBefore value blankAfter with ⟨piece, isPiece, rfl⟩
            exact ⟨piece, pieces, rest, isPiece, all, rfl, leaves.mono (by omega)⟩
          refine ⟨?_, ?_, ?_⟩
          · intro frames bytes out skipped
            rcases skipFrom_value_cases skipped with
              ⟨rest, scalar, later⟩ | ⟨frame, rest, opened, later⟩
            · rcases skipScalar_sound scalar with ⟨v, value, atValue⟩
              rcases exists_blanks_of_skipBlanks atValue with ⟨before, blank, rfl⟩
              exact ⟨before, v, rest, blank, value, rfl, fuel, by omega, later⟩
            · rcases here.2.1 later with ⟨lead, pieces, rest, blank, all, rfl, leaves⟩
              have atOpening : skipBlanks bytes =
                  enclosed frame.opening lead pieces frame.closing ++ rest := by
                rcases skipScalar_opening opened with ⟨rfl, atOpening⟩ | ⟨rfl, atOpening⟩
                · simp [atOpening, enclosed, Frame.opening]
                · simp [atOpening, enclosed, Frame.opening]
              rcases exists_blanks_of_skipBlanks atOpening with ⟨before, blankBefore, rfl⟩
              exact ⟨before, _, rest, blankBefore, value_enclosed blank all, rfl,
                leaves.mono (by omega)⟩
          · intro frame frames bytes out skipped
            rcases skipFrom_first_cases skipped with ⟨rest, atEnd, later⟩ | ⟨rest, entered, later⟩
            · rcases exists_blanks_of_skipBlanks atEnd with ⟨lead, blank, rfl⟩
              exact ⟨lead, [], rest, blank, by simp, rfl, fuel, by omega, later⟩
            · rcases pieceOn entered later with
                ⟨piece, pieces, behind, isPiece, all, atPiece, leaves⟩
              rcases exists_blanks_of_skipBlanks atPiece with ⟨lead, blank, rfl⟩
              have allPieces := List.forall_mem_cons.mpr ⟨isPiece, all⟩
              refine ⟨lead, piece :: pieces, behind, blank, allPieces, ?_, leaves⟩
              simp [joined]
          · intro frame frames bytes out skipped
            rcases skipFrom_next_cases skipped with
              ⟨rest, atEnd, later⟩ | ⟨others, rest, atComma, entered, later⟩
            · rcases exists_blanks_of_skipBlanks atEnd with ⟨lead, blank, rfl⟩
              exact ⟨lead, [], rest, blank, by simp, rfl, fuel, by omega, later⟩
            · rcases pieceOn entered later with ⟨piece, pieces, behind, isPiece, all, rfl, leaves⟩
              rcases exists_blanks_of_skipBlanks atComma with ⟨lead, blank, rfl⟩
              have allPieces := List.forall_mem_cons.mpr ⟨isPiece, all⟩
              refine ⟨lead, piece :: pieces, behind, blank, allPieces, ?_, leaves⟩
              simp [behindCommas]

/-! ## Values are passed over -/

theorem Value.exists_cons {v : List UInt8} (value : Value v) :
    ∃ first others, v = first :: others ∧ isBlank first = false ∧ first ≠ 0x5D ∧ first ≠ 0x7D := by
  have digits {text : List UInt8} (unsigned : Unsigned text) :
      ∃ first others, text = first :: others ∧ isBlank first = false ∧ first ≠ 0x5D ∧
        first ≠ 0x7D := by
    rcases unsigned.exists_cons with ⟨first, others, rfl, digit⟩
    refine ⟨first, others, rfl, ?_, digit.ne (by decide), digit.ne (by decide)⟩
    rw [← Bool.not_eq_true, isBlank_iff]
    intro blank
    simp only [List.mem_cons, List.not_mem_nil, or_false] at blank
    rcases blank with rfl | rfl | rfl | rfl <;> exact absurd digit (by decide)
  cases value with
  | number unsigned => exact digits unsigned
  | nullWord => exact ⟨_, _, rfl, rfl, by decide, by decide⟩
  | trueWord => exact ⟨_, _, rfl, rfl, by decide, by decide⟩
  | falseWord => exact ⟨_, _, rfl, rfl, by decide, by decide⟩
  | negative _ => exact ⟨_, _, rfl, rfl, by decide, by decide⟩
  | string _ => exact ⟨_, _, rfl, rfl, by decide, by decide⟩
  | list _ _ => exact ⟨_, _, rfl, rfl, by decide, by decide⟩
  | object _ _ => exact ⟨_, _, rfl, rfl, by decide, by decide⟩

theorem Value.skipBlanks {v : List UInt8} (value : Value v) {blanks : List UInt8}
    (blank : Blanks blanks) (rest : List UInt8) :
    Json.skipBlanks (blanks ++ (v ++ rest)) = v ++ rest := by
  rcases value.exists_cons with ⟨first, others, rfl, visible, _⟩
  rw [skipBlanks_append blank, List.cons_append, skipBlanks_cons visible]

/-- Some steps, at most two for each byte, take a value off the bytes. -/
def Passed (v : List UInt8) : Prop :=
  ∀ rest, EndsNumber rest → ∃ steps, steps ≤ 2 * v.length ∧ ∀ blanks, Blanks blanks →
    ∀ fuel frames, skipFrom (fuel + steps) .value frames (blanks ++ (v ++ rest)) =
      skipFrom fuel .next frames rest

theorem passed_scalar {v : List UInt8} (value : Value v)
    (skipped : ∀ rest, EndsNumber rest → skipScalar (v ++ rest) = .ok (none, rest)) : Passed v := by
  intro rest ends
  rcases value.exists_cons with ⟨first, others, rfl, _⟩
  refine ⟨1, by simp; omega, fun blanks blank fuel frames => ?_⟩
  refine skipFrom_scalar ?_ fuel frames
  rw [value.skipBlanks blank]
  exact skipped rest ends

/-- Some steps take a piece of a container off the bytes, at its front or behind a comma. -/
def PassedPiece (frame : Frame) (piece : List UInt8) : Prop :=
  ∀ rest, EndsNumber rest → ∃ steps, steps ≤ 2 * piece.length + 1 ∧ ∀ fuel frames,
    (∀ lead, Blanks lead → skipFrom (fuel + 1 + steps) .first (frame :: frames)
        (lead ++ (piece ++ rest)) = skipFrom (fuel + 1) .next (frame :: frames) rest) ∧
      skipFrom (fuel + 1 + steps) .next (frame :: frames) (0x2C :: (piece ++ rest)) =
        skipFrom (fuel + 1) .next (frame :: frames) rest

theorem Item.passed {item : Item} (value : Value item.value) (passed : Passed item.value) :
    PassedPiece .list item.text := by
  intro rest ends
  rcases passed (item.after ++ rest) (endsNumber_append item.blanks_after ends) with
    ⟨steps, few, pass⟩
  refine ⟨steps + 1, ?_, fun fuel frames => ⟨fun lead blank => ?_, ?_⟩⟩
  · simp only [Item.text, List.length_append]
    omega
  · have text : lead ++ (item.text ++ rest) =
        lead ++ item.before ++ (item.value ++ (item.after ++ rest)) := by
      simp [Item.text]
    rcases value.exists_cons with ⟨first, others, same, _, notEnd, _⟩
    have other : first ≠ Frame.list.closing := notEnd
    have atValue : Json.skipBlanks (lead ++ (item.text ++ rest)) =
        first :: (others ++ (item.after ++ rest)) := by
      rw [text, value.skipBlanks (blank.append item.blanks_before), same, List.cons_append]
    rw [← Nat.add_assoc, skipFrom_first atValue other]
    have entered := pass [] blanks_nil (fuel + 1) (.list :: frames)
    rw [List.nil_append, same] at entered
    exact entered.trans (skipFrom_blanks item.blanks_after fuel)
  · rw [← Nat.add_assoc, skipFrom_comma (skipBlanks_cons rfl _)]
    have text : item.text ++ rest = item.before ++ (item.value ++ (item.after ++ rest)) := by
      simp [Item.text]
    have entered := pass item.before item.blanks_before (fuel + 1) (.list :: frames)
    rw [← text] at entered
    exact entered.trans (skipFrom_blanks item.blanks_after fuel)

theorem Member.passed {member : Member} (passed : Passed member.item.value) :
    PassedPiece .object member.text := by
  intro rest ends
  rcases passed (member.item.after ++ rest) (endsNumber_append member.item.blanks_after ends) with
    ⟨steps, few, pass⟩
  have text : member.text ++ rest = member.before ++ (quoted member.key ++ (member.between ++
      0x3A :: (member.item.before ++ (member.item.value ++ (member.item.after ++ rest))))) := by
    simp [Member.text, Item.text]
  have finish (fuel : Nat) (frames : List Frame) :
      skipFrom (fuel + 1 + steps) .value (.object :: frames)
        (member.item.before ++ (member.item.value ++ (member.item.after ++ rest))) =
          skipFrom (fuel + 1) .next (.object :: frames) rest :=
    (pass _ member.item.blanks_before _ _).trans (skipFrom_blanks member.item.blanks_after fuel)
  generalize member.item.before ++ (member.item.value ++ (member.item.after ++ rest)) = content
    at text finish
  refine ⟨steps + 1, ?_, fun fuel frames => ⟨fun lead blank => ?_, ?_⟩⟩
  · simp only [Member.text, Item.text, List.length_append, List.length_cons]
    omega
  · have atKey : Json.skipBlanks (lead ++ (member.text ++ rest)) =
        0x22 :: (member.key ++ [0x22] ++ (member.between ++ 0x3A :: content)) := by
      rw [text, skipBlanks_append blank, skipBlanks_append member.blanks_before, quoted,
        List.cons_append, skipBlanks_cons rfl]
    have entered : enter .object
        (0x22 :: (member.key ++ [0x22] ++ (member.between ++ 0x3A :: content))) = .ok content :=
      skipKey_eq_ok_iff.2 ⟨[], member.key, member.between, blanks_nil, member.body_key,
        member.blanks_between, rfl⟩
    rw [← Nat.add_assoc, skipFrom_first atKey (by decide), entered]
    exact finish fuel frames
  · have entered : enter .object (member.text ++ rest) = .ok content :=
      skipKey_eq_ok_iff.2 ⟨member.before, member.key, member.between, member.blanks_before,
        member.body_key, member.blanks_between, text⟩
    rw [← Nat.add_assoc, skipFrom_comma (skipBlanks_cons rfl _), entered]
    exact finish fuel frames

theorem endsNumber_behindCommas {rest : List UInt8} (ends : EndsNumber rest)
    (pieces : List (List UInt8)) : EndsNumber (behindCommas pieces ++ rest) := by
  cases pieces with
  | nil => exact ends
  | cons piece pieces => exact endsNumber_cons (by decide)

theorem endsNumber_closing (frame : Frame) (rest : List UInt8) :
    EndsNumber (frame.closing :: rest) := by
  cases frame <;> exact endsNumber_cons (by decide)

theorem passed_behindCommas {frame : Frame} {pieces : List (List UInt8)}
    (passed : ∀ piece ∈ pieces, PassedPiece frame piece) {rest : List UInt8}
    (ends : EndsNumber rest) :
    ∃ steps, steps ≤ 2 * (behindCommas pieces).length ∧ ∀ fuel frames,
      skipFrom (fuel + 1 + steps) .next (frame :: frames) (behindCommas pieces ++ rest) =
        skipFrom (fuel + 1) .next (frame :: frames) rest := by
  induction pieces with
  | nil => exact ⟨0, Nat.zero_le _, fun _ _ => rfl⟩
  | cons piece pieces ih =>
      rcases ih fun later mem => passed later (by simp [mem]) with ⟨others, fewOthers, passOthers⟩
      rcases passed piece (by simp) _ (endsNumber_behindCommas ends pieces) with
        ⟨steps, few, pass⟩
      have text : behindCommas (piece :: pieces) = 0x2C :: (piece ++ behindCommas pieces) := by
        simp [behindCommas]
      refine ⟨others + steps, ?_, fun fuel frames => ?_⟩
      · rw [text, List.length_cons, List.length_append]
        omega
      · have count : fuel + 1 + (others + steps) = fuel + others + 1 + steps := by omega
        have left : fuel + others + 1 = fuel + 1 + others := by omega
        rw [text, List.cons_append, List.append_assoc, count, (pass (fuel + others) frames).2, left,
          passOthers]

/-- A container is opened, its pieces are passed over, and it is closed. -/
theorem passed_enclosed {frame : Frame} {lead : List UInt8} {pieces : List (List UInt8)}
    (blank : Blanks lead) (passed : ∀ piece ∈ pieces, PassedPiece frame piece) :
    Passed (enclosed frame.opening lead pieces frame.closing) := by
  intro rest _
  have ends := endsNumber_closing frame rest
  have visible : isBlank frame.opening = false := by
    cases frame <;> rfl
  have opened (blanks inside : List UInt8) (blank : Blanks blanks) (fuel : Nat)
      (frames : List Frame) :
      skipFrom (fuel + 1) .value frames (blanks ++ frame.opening :: inside) =
        skipFrom fuel .first (frame :: frames) inside := by
    refine skipFrom_opening ?_ fuel frames
    rw [skipBlanks_append blank, skipBlanks_cons visible]
    cases frame <;> rfl
  have closed {awaiting : Awaiting} (inside : awaiting ≠ .value) (lead : List UInt8)
      (blank : Blanks lead) (fuel : Nat) (frames : List Frame) :
      skipFrom (fuel + 1) awaiting (frame :: frames) (lead ++ frame.closing :: rest) =
        skipFrom fuel .next frames rest := by
    refine skipFrom_closing inside ?_ fuel frames
    rw [skipBlanks_append blank, skipBlanks_cons (by cases frame <;> rfl)]
  cases pieces with
  | nil =>
      refine ⟨2, ?_, fun blanks blankBefore fuel frames => ?_⟩
      · simp only [enclosed, List.length_cons, List.length_append, List.length_nil]
        omega
      · simp only [enclosed, joined, List.nil_append, List.cons_append, List.append_assoc]
        exact (opened blanks _ blankBefore (fuel + 1) frames).trans
          (closed (by decide) lead blank fuel frames)
  | cons piece pieces =>
      have later : ∀ piece ∈ pieces, PassedPiece frame piece :=
        fun piece mem => passed piece (by simp [mem])
      -- The first piece is entered without a comma, so it is passed apart from the others.
      rcases passed_behindCommas later ends with ⟨others, fewOthers, passOthers⟩
      rcases passed piece (by simp) _ (endsNumber_behindCommas ends pieces) with
        ⟨steps, few, pass⟩
      refine ⟨others + steps + 2, ?_, fun blanks blankBefore fuel frames => ?_⟩
      · simp only [enclosed, joined, List.length_cons, List.length_append, List.length_nil]
        omega
      · simp only [enclosed, joined, List.nil_append, List.cons_append, List.append_assoc]
        calc
          _ = skipFrom (fuel + others + 1 + steps) .first (frame :: frames)
                (lead ++ (piece ++ (behindCommas pieces ++ frame.closing :: rest))) := by
              rw [show fuel + (others + steps + 2) = fuel + others + 1 + steps + 1 by omega]
              exact opened blanks _ blankBefore _ frames
          _ = skipFrom (fuel + 1 + others) .next (frame :: frames)
                (behindCommas pieces ++ frame.closing :: rest) := by
              rw [(pass (fuel + others) frames).1 lead blank]
              rw [show fuel + others + 1 = fuel + 1 + others by omega]
          _ = skipFrom (fuel + 1) .next (frame :: frames) (frame.closing :: rest) :=
              passOthers fuel frames
          _ = skipFrom fuel .next frames rest := closed (by decide) [] blanks_nil fuel frames

theorem Value.passed {v : List UInt8} (value : Value v) : Passed v := by
  induction value with
  | nullWord => exact passed_scalar .nullWord fun rest _ => rfl
  | trueWord => exact passed_scalar .trueWord fun rest _ => rfl
  | falseWord => exact passed_scalar .falseWord fun rest _ => rfl
  | number unsigned => exact passed_scalar (.number unsigned) fun _ => skipScalar_unsigned unsigned
  | negative unsigned =>
      exact passed_scalar (.negative unsigned) fun _ => skipScalar_negative unsigned
  | string wellFormed =>
      exact passed_scalar (.string wellFormed) fun rest _ => skipScalar_string wellFormed rest
  | @list lead items blank values ih =>
      have pieces : ∀ piece ∈ items.map Item.text, PassedPiece .list piece := by
        intro piece mem
        rcases List.mem_map.mp mem with ⟨item, inside, rfl⟩
        exact Item.passed (values item inside) (ih item inside)
      exact passed_enclosed blank pieces
  | @object lead members blank values ih =>
      have pieces : ∀ piece ∈ members.map Member.text, PassedPiece .object piece := by
        intro piece mem
        rcases List.mem_map.mp mem with ⟨member, inside, rfl⟩
        exact Member.passed (ih member inside)
      exact passed_enclosed blank pieces

/-! ## Main results -/

/-- A value is passed over, whatever follows it that could not continue a number. -/
theorem skipValue_complete {blanks v rest : List UInt8} (blank : Blanks blanks) (value : Value v)
    (ends : EndsNumber rest) : skipValue (blanks ++ (v ++ rest)) = .ok rest := by
  rcases value.passed rest ends with ⟨steps, few, pass⟩
  have fuel : 2 * (blanks ++ (v ++ rest)).length + 2 =
      2 * (blanks ++ (v ++ rest)).length + 1 - steps + 1 + steps := by
    simp only [List.length_append]
    omega
  rw [skipValue, fuel, pass blanks blank]
  rfl

/-- What is passed over is a value. -/
theorem skipValue_sound {bytes rest : List UInt8} (skipped : skipValue bytes = .ok rest) :
    ∃ blanks v, Blanks blanks ∧ Value v ∧ bytes = blanks ++ (v ++ rest) := by
  rcases (skipFrom_sound _).1 skipped with ⟨before, v, behind, blank, value, same, left, _, later⟩
  cases left with
  | zero => cases later
  | succ left =>
      cases later
      exact ⟨before, v, blank, value, same⟩

/-- Values can be checked. -/
theorem value_iff {v : List UInt8} : Value v ↔ Json.skipBlanks v = v ∧ skipValue v = .ok [] := by
  constructor
  · intro value
    have visible := value.skipBlanks blanks_nil []
    have skipped := skipValue_complete blanks_nil value endsNumber_nil
    rw [List.nil_append, List.append_nil] at visible skipped
    exact ⟨visible, skipped⟩
  · rintro ⟨visible, skipped⟩
    rcases skipValue_sound skipped with ⟨blanks, other, blank, value, rfl⟩
    rw [value.skipBlanks blank, List.append_nil] at visible
    rw [List.append_nil, ← visible]
    exact value

instance (v : List UInt8) : Decidable (Value v) :=
  decidable_of_iff _ value_iff.symm

/-- Whole texts can be checked. -/
theorem document_iff {bytes : List UInt8} :
    Document bytes ↔ ∃ rest ∈ (skipValue bytes).toOption, Blanks rest := by
  constructor
  · rintro ⟨before, v, after, blank, value, blankAfter, rfl⟩
    have ends := endsNumber_append blankAfter endsNumber_nil
    rw [List.append_nil] at ends
    rw [skipValue_complete blank value ends]
    exact ⟨after, rfl, blankAfter⟩
  · rintro ⟨after, skipped, blankAfter⟩
    rcases skipValue_sound (eq_ok_of_toOption skipped) with ⟨before, v, blank, value, rfl⟩
    exact ⟨before, v, after, blank, value, blankAfter, rfl⟩

instance (bytes : List UInt8) : Decidable (Document bytes) :=
  decidable_of_iff _ document_iff.symm

end Json

end TextVectors
