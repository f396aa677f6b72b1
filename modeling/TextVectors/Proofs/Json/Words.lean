import Mathlib.Data.List.TakeWhile
import TextVectors.Json.Lexeme
import TextVectors.Proofs.Json.Grammar
import TextVectors.Proofs.Result

/-!
# Words that are passed over

Blanks, literals and numbers that nobody needs are read up to their end. Where
that is, is settled by the byte that follows: a number ends in front of a byte
that cannot continue it, and the bytes after it must begin with such a one if
just the number is to be taken.
-/

namespace TextVectors

namespace Json

theorem eq_takeWhile_append {α : Type} {p : α → Bool} {items rest : List α} {item : α}
    (dropped : items.dropWhile p = item :: rest) :
    p item = false ∧ items = items.takeWhile p ++ item :: rest := by
  constructor
  · have found := List.head?_dropWhile_not p items
    rwa [dropped] at found
  · rw [← dropped, List.takeWhile_append_dropWhile]

/-! ## Blanks -/

theorem isBlank_iff {byte : UInt8} :
    isBlank byte = true ↔ byte ∈ ([0x20, 0x09, 0x0A, 0x0D] : List UInt8) := by
  simp [isBlank]
  tauto

theorem blanks_nil : Blanks [] := by
  simp [Blanks]

theorem Blanks.append {first second : List UInt8} (left : Blanks first) (right : Blanks second) :
    Blanks (first ++ second) := by
  intro byte mem
  rcases List.mem_append.mp mem with inside | inside
  · exact left byte inside
  · exact right byte inside

@[simp]
theorem skipBlanks_append {blanks : List UInt8} (blank : Blanks blanks) (bytes : List UInt8) :
    skipBlanks (blanks ++ bytes) = skipBlanks bytes :=
  List.dropWhile_append_of_pos fun byte mem => isBlank_iff.2 (blank byte mem)

theorem skipBlanks_cons {byte : UInt8} (visible : isBlank byte = false) (rest : List UInt8) :
    skipBlanks (byte :: rest) = byte :: rest := by
  simp [skipBlanks, visible]

theorem exists_blanks (bytes : List UInt8) :
    ∃ blanks, Blanks blanks ∧ bytes = blanks ++ skipBlanks bytes := by
  refine ⟨bytes.takeWhile isBlank, ?_, List.takeWhile_append_dropWhile.symm⟩
  intro byte mem
  exact isBlank_iff.1 (List.mem_takeWhile_imp mem)

theorem exists_blanks_of_skipBlanks {bytes rest : List UInt8} (skipped : skipBlanks bytes = rest) :
    ∃ blanks, Blanks blanks ∧ bytes = blanks ++ rest := by
  rw [← skipped]
  exact exists_blanks bytes

/-! ## Literals -/

theorem literal_eq_ok_iff {letters bytes rest : List UInt8} :
    literal letters bytes = .ok rest ↔ bytes = letters ++ rest := by
  induction letters generalizing bytes with
  | nil => simp [literal]
  | cons letter letters ih =>
      cases bytes with
      | nil => simp [literal, Defect.before]
      | cons byte bytes =>
          by_cases same : letter = byte
          · simp [literal, same, ih]
          · simp [literal, same, Defect.before, Ne.symm same]

/-! ## Digits -/

theorem isDigit_iff {byte : UInt8} : isDigit byte = true ↔ Digit byte := by
  simp [isDigit, Digit]

theorem exists_digits (bytes : List UInt8) :
    ∃ digits, (∀ byte ∈ digits, Digit byte) ∧ digits = bytes.takeWhile isDigit ∧
      bytes = digits ++ bytes.dropWhile isDigit := by
  refine ⟨bytes.takeWhile isDigit, ?_, rfl, List.takeWhile_append_dropWhile.symm⟩
  intro byte mem
  exact isDigit_iff.1 (List.mem_takeWhile_imp mem)

/-- The bytes begin with no digit. -/
def EndsDigits (bytes : List UInt8) : Prop :=
  ∀ byte rest, bytes = byte :: rest → ¬Digit byte

theorem dropWhile_isDigit {digits rest : List UInt8} (all : ∀ byte ∈ digits, Digit byte)
    (ends : EndsDigits rest) : (digits ++ rest).dropWhile isDigit = rest := by
  rw [List.dropWhile_append_of_pos fun byte mem => isDigit_iff.2 (all byte mem)]
  cases rest with
  | nil => rfl
  | cons byte rest =>
      have other : isDigit byte = false := by
        rw [← Bool.not_eq_true, isDigit_iff]
        exact ends byte rest rfl
      rw [List.dropWhile_cons_of_neg (by simp [other])]

theorem takeWhile_isDigit {digits rest : List UInt8} (all : ∀ byte ∈ digits, Digit byte)
    (ends : EndsDigits rest) : (digits ++ rest).takeWhile isDigit = digits := by
  have whole := List.takeWhile_append_dropWhile (p := isDigit) (l := digits ++ rest)
  rw [dropWhile_isDigit all ends] at whole
  exact List.append_cancel_right whole

/-- The bytes begin with none that could continue a number. -/
def EndsNumber (bytes : List UInt8) : Prop :=
  ∀ byte rest, bytes = byte :: rest →
    ¬Digit byte ∧ byte ≠ 0x2E ∧ byte ≠ 0x65 ∧ byte ≠ 0x45

theorem EndsNumber.endsDigits {bytes : List UInt8} (ends : EndsNumber bytes) : EndsDigits bytes :=
  fun byte rest same => (ends byte rest same).1

theorem endsNumber_nil : EndsNumber [] := by
  intro byte rest same
  cases same

theorem endsNumber_cons {byte : UInt8} {rest : List UInt8}
    (other : byte ∈ ([0x20, 0x09, 0x0A, 0x0D, 0x2C, 0x5D, 0x7D] : List UInt8)) :
    EndsNumber (byte :: rest) := by
  intro found others same
  cases same
  simp only [List.mem_cons, List.not_mem_nil, or_false] at other
  rcases other with rfl | rfl | rfl | rfl | rfl | rfl | rfl <;> decide

theorem endsNumber_append {blanks rest : List UInt8} (blank : Blanks blanks)
    (ends : EndsNumber rest) : EndsNumber (blanks ++ rest) := by
  cases blanks with
  | nil => exact ends
  | cons byte blanks =>
      have mem := blank byte (by simp)
      refine endsNumber_cons ?_
      simp only [List.mem_cons, List.not_mem_nil, or_false] at mem ⊢
      tauto

/-! ## Numbers -/

theorem isExponentMark_iff {byte : UInt8} :
    isExponentMark byte = true ↔ byte = 0x65 ∨ byte = 0x45 := by
  simp [isExponentMark]

theorem skipExponent_sound {bytes rest : List UInt8} (skipped : skipExponent bytes = .ok rest) :
    ∃ sign digits, (sign = [] ∨ sign = [0x2B] ∨ sign = [0x2D]) ∧ Digits digits ∧
      bytes = sign ++ (digits ++ rest) := by
  -- Behind the sign stands a digit, and after it come all the others.
  have unsigned {byte : UInt8} {others : List UInt8} (digit : isDigit byte = true)
      (after : others.dropWhile isDigit = rest) :
      ∃ digits, Digits digits ∧ byte :: others = digits ++ rest := by
    rcases exists_digits others with ⟨digits, all, _, same⟩
    refine ⟨byte :: digits, ⟨by simp, ?_⟩, ?_⟩
    · simpa [isDigit_iff.1 digit] using all
    · rw [List.cons_append, ← after, ← same]
  unfold skipExponent at skipped
  split at skipped
  all_goals
    dsimp only at skipped
    split at skipped
    · cases skipped
    split_ifs at skipped with digit
    case neg => cases skipped
    rcases unsigned digit (Except.ok.inj skipped) with ⟨digits, some, same⟩
    rw [same]
  · exact ⟨[0x2B], digits, by simp, some, rfl⟩
  · exact ⟨[0x2D], digits, by simp, some, rfl⟩
  · exact ⟨[], digits, by simp, some, rfl⟩

theorem skipExponent_complete {sign digits rest : List UInt8}
    (signed : sign = [] ∨ sign = [0x2B] ∨ sign = [0x2D]) (some : Digits digits)
    (ends : EndsDigits rest) : skipExponent (sign ++ (digits ++ rest)) = .ok rest := by
  rcases some with ⟨nonempty, all⟩
  cases digits with
  | nil => exact absurd rfl nonempty
  | cons digit digits =>
      have first : Digit digit := all digit (by simp)
      have others : ∀ byte ∈ digits, Digit byte := fun byte mem => all byte (by simp [mem])
      have noSign : digit ≠ 0x2B ∧ digit ≠ 0x2D := by
        constructor <;> rintro rfl <;> exact absurd first (by simp [Digit])
      have digitFirst := isDigit_iff.2 first
      rcases signed with rfl | rfl | rfl
      · simp [skipExponent, noSign, digitFirst, dropWhile_isDigit others ends]
      · simp [skipExponent, digitFirst, dropWhile_isDigit others ends]
      · simp [skipExponent, digitFirst, dropWhile_isDigit others ends]

theorem skipExponentOrEnd_sound {bytes rest : List UInt8}
    (skipped : skipExponentOrEnd bytes = .ok rest) :
    ∃ exponent, Exponent exponent ∧ bytes = exponent ++ rest := by
  cases bytes with
  | nil =>
      cases skipped
      exact ⟨[], .none, rfl⟩
  | cons byte bytes =>
      by_cases mark : isExponentMark byte
      · simp only [skipExponentOrEnd, mark, if_true] at skipped
        rcases skipExponent_sound skipped with ⟨sign, digits, signed, some, rfl⟩
        refine ⟨byte :: (sign ++ digits), .digits (isExponentMark_iff.1 mark) signed some, ?_⟩
        simp
      · simp only [skipExponentOrEnd, mark, Bool.false_eq_true, if_false,
          Except.ok.injEq] at skipped
        exact ⟨[], .none, by simp [← skipped]⟩

theorem skipExponentOrEnd_complete {exponent rest : List UInt8} (wellFormed : Exponent exponent)
    (ends : EndsNumber rest) : skipExponentOrEnd (exponent ++ rest) = .ok rest := by
  cases wellFormed with
  | none =>
      cases rest with
      | nil => rfl
      | cons byte rest =>
          have other : ¬isExponentMark byte = true := by
            rw [isExponentMark_iff]
            exact fun mark => mark.elim (ends byte rest rfl).2.2.1 (ends byte rest rfl).2.2.2
          simp [skipExponentOrEnd, other]
  | digits letter signed some =>
      have mark := isExponentMark_iff.2 letter
      simp only [List.cons_append, List.append_assoc, skipExponentOrEnd, mark, if_true]
      exact skipExponent_complete signed some ends.endsDigits

/-- The digits of a whole number begin its text, unless more of them follow. -/
theorem endsDigits_of_exponent {exponent rest : List UInt8} (wellFormed : Exponent exponent)
    (ends : EndsNumber rest) : EndsDigits (exponent ++ rest) := by
  cases wellFormed with
  | none =>
      rw [List.nil_append]
      exact ends.endsDigits
  | digits letter _ _ =>
      intro byte others same
      rw [List.cons_append, List.cons.injEq] at same
      rcases same with ⟨rfl, _⟩
      rcases letter with rfl | rfl <;> simp [Digit]

theorem endsDigits_of_fraction {fraction exponent rest : List UInt8}
    (fractionPart : Fraction fraction) (exponentPart : Exponent exponent)
    (ends : EndsNumber rest) : EndsDigits (fraction ++ (exponent ++ rest)) := by
  cases fractionPart with
  | none =>
      rw [List.nil_append]
      exact endsDigits_of_exponent exponentPart ends
  | digits _ =>
      intro byte others same
      rw [List.cons_append, List.cons.injEq] at same
      rcases same with ⟨rfl, _⟩
      simp [Digit]

/-- The bytes after the fraction and the exponent of a number, if it has them. -/
def skipFractionOrEnd (bytes : List UInt8) : Except Defect (List UInt8) :=
  match bytes with
  | 0x2E :: fraction =>
    if (fraction.takeWhile isDigit).isEmpty then Defect.at .invalidNumber fraction
    else skipExponentOrEnd (fraction.dropWhile isDigit)
  | _ => skipExponentOrEnd bytes

theorem skipFractionOrEnd_sound {bytes rest : List UInt8}
    (skipped : skipFractionOrEnd bytes = .ok rest) :
    ∃ fraction exponent, Fraction fraction ∧ Exponent exponent ∧
      bytes = fraction ++ (exponent ++ rest) := by
  unfold skipFractionOrEnd at skipped
  split at skipped
  · rename_i digitsOn
    split at skipped
    · cases skipped
    · rename_i nonempty
      rcases skipExponentOrEnd_sound skipped with ⟨exponent, isExponent, after⟩
      rcases exists_digits digitsOn with ⟨digits, all, taken, same⟩
      have some : Digits digits := ⟨by simpa [taken] using nonempty, all⟩
      refine ⟨_, exponent, .digits some, isExponent, ?_⟩
      rw [List.cons_append, ← after, ← same]
  · rcases skipExponentOrEnd_sound skipped with ⟨exponent, isExponent, rfl⟩
    exact ⟨[], exponent, .none, isExponent, rfl⟩

theorem skipFractionOrEnd_complete {fraction exponent rest : List UInt8}
    (fractionPart : Fraction fraction) (exponentPart : Exponent exponent)
    (ends : EndsNumber rest) :
    skipFractionOrEnd (fraction ++ (exponent ++ rest)) = .ok rest := by
  have behind := skipExponentOrEnd_complete exponentPart ends
  cases fractionPart with
  | none =>
      rw [List.nil_append, skipFractionOrEnd]
      · exact behind
      · intro digits point
        cases exponentPart with
        | none => exact (ends _ _ point).2.1 rfl
        | digits letter _ _ =>
            rw [List.cons_append, List.cons.injEq] at point
            rcases letter with rfl | rfl <;> simp at point
  | digits some =>
      have behindPoint := endsDigits_of_exponent exponentPart ends
      simp only [List.cons_append, skipFractionOrEnd, takeWhile_isDigit some.2 behindPoint,
        dropWhile_isDigit some.2 behindPoint, List.isEmpty_iff, some.1, if_false]
      exact behind

theorem skipUnsigned_of_zero {rest : List UInt8} (ends : EndsDigits rest) :
    skipUnsigned (0x30 :: rest) = skipFractionOrEnd rest := by
  cases rest with
  | nil => rfl
  | cons next rest =>
      have other : ¬isDigit next = true := by
        rw [isDigit_iff]
        exact ends next rest rfl
      simp only [skipUnsigned, if_true, other, Bool.false_eq_true, if_false, bind, Except.bind]
      rfl

theorem skipUnsigned_of_digit {first : UInt8} (digit : Digit first) (positive : first ≠ 0x30)
    (rest : List UInt8) :
    skipUnsigned (first :: rest) = skipFractionOrEnd (rest.dropWhile isDigit) := by
  simp only [skipUnsigned, positive, if_false, isDigit_iff.2 digit, if_true, bind, Except.bind]
  rfl

theorem skipUnsigned_cases {bytes rest : List UInt8} (skipped : skipUnsigned bytes = .ok rest) :
    ∃ first others, bytes = first :: others ∧
      ((first = 0x30 ∧ EndsDigits others) ∨ (Digit first ∧ first ≠ 0x30)) := by
  cases bytes with
  | nil => cases skipped
  | cons first others =>
      refine ⟨first, others, rfl, ?_⟩
      by_cases zero : first = 0x30
      · refine .inl ⟨zero, ?_⟩
        rintro next later rfl digit
        simp [skipUnsigned, zero, isDigit_iff.2 digit, Defect.at, bind, Except.bind] at skipped
      · refine .inr ⟨?_, zero⟩
        rw [← isDigit_iff]
        by_contra other
        simp [skipUnsigned, zero, other, Defect.before, bind, Except.bind] at skipped

theorem skipUnsigned_sound {bytes rest : List UInt8} (skipped : skipUnsigned bytes = .ok rest) :
    ∃ text, Unsigned text ∧ bytes = text ++ rest := by
  rcases skipUnsigned_cases skipped with ⟨first, others, rfl, ⟨rfl, ends⟩ | ⟨digit, positive⟩⟩
  · rw [skipUnsigned_of_zero ends] at skipped
    rcases skipFractionOrEnd_sound skipped with ⟨fraction, exponent, isFraction, isExponent, rfl⟩
    exact ⟨_, .mk .zero isFraction isExponent, by simp⟩
  · rw [skipUnsigned_of_digit digit positive] at skipped
    rcases skipFractionOrEnd_sound skipped with ⟨fraction, exponent, isFraction, isExponent, after⟩
    rcases exists_digits others with ⟨digits, all, _, same⟩
    refine ⟨_, .mk (.digits digit positive all) isFraction isExponent, ?_⟩
    rw [same, after]
    simp

theorem skipUnsigned_complete {text rest : List UInt8} (unsigned : Unsigned text)
    (ends : EndsNumber rest) : skipUnsigned (text ++ rest) = .ok rest := by
  cases unsigned with
  | @mk whole fraction exponent wholePart fractionPart exponentPart =>
      have behind := skipFractionOrEnd_complete fractionPart exponentPart ends
      have behindWhole := endsDigits_of_fraction fractionPart exponentPart ends
      rw [List.append_assoc, List.append_assoc]
      cases wholePart with
      | zero =>
          rw [List.singleton_append, skipUnsigned_of_zero behindWhole]
          exact behind
      | digits digit positive all =>
          rw [List.cons_append, skipUnsigned_of_digit digit positive,
            dropWhile_isDigit all behindWhole]
          exact behind

end Json

end TextVectors
