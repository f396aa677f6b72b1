import TextVectors.Proofs.Json.Reading

/-!
# Numbers that are read

A number is read in stages: the digits before the point, those behind it, and the
exponent. Each stage passes over the same bytes as when the number is not needed, so
what is read is a number of the grammar. And none of them looks behind the end of the
number, except to see that it is the end: a number that was read is read again when
something follows that could not continue it.
-/

namespace TextVectors

namespace Json

variable {negative up : Bool} {significand dropped exponent : Nat} {start : Int} {found : Numeral}
  {bytes rest tail : List UInt8}

theorem scaled_eq_ok_iff {power : Int} :
    scaled negative significand power bytes = .ok (found, rest) ↔
      rest = bytes ∧ ∃ value, scale? significand power = some value ∧
        found = realNumeral negative value := by
  unfold scaled
  cases scale? significand power with
  | none => simp [Defect.before]
  | some value => simp [and_comm, eq_comm]

theorem scaled_of_scaled {power : Int}
    (read : scaled negative significand power bytes = .ok (found, rest)) (tail : List UInt8) :
    scaled negative significand power tail = .ok (found, tail) :=
  scaled_eq_ok_iff.mpr ⟨rfl, (scaled_eq_ok_iff.mp read).2⟩

theorem EndsDigits.not_isDigit {byte : UInt8} {others : List UInt8}
    (ends : EndsDigits (byte :: others)) : isDigit byte = false := by
  rw [← Bool.not_eq_true, isDigit_iff]
  exact ends byte others rfl

/-- Digits are cut off the front in the same place when none follow. -/
theorem takeWhile_isDigit_append (bytes : List UInt8) (ends : EndsDigits tail) :
    (bytes ++ tail).takeWhile isDigit = bytes.takeWhile isDigit ∧
      (bytes ++ tail).dropWhile isDigit = bytes.dropWhile isDigit ++ tail := by
  induction bytes with
  | nil =>
      cases tail with
      | nil => simp
      | cons byte others => simp [ends.not_isDigit]
  | cons byte bytes ih =>
      cases digit : isDigit byte with
      | true => simpa [digit] using ih
      | false => simp [digit]

/-! ## Exponents -/

theorem exponentDigits_skips
    (read : exponentDigits negative significand start up exponent bytes = .ok (found, rest)) :
    bytes.dropWhile isDigit = rest := by
  induction bytes generalizing exponent with
  | nil => exact (scaled_eq_ok_iff.mp read).1.symm
  | cons byte bytes ih =>
      cases digit : isDigit byte with
      | false =>
          simp only [exponentDigits, digit, Bool.false_eq_true, if_false] at read
          simpa [digit] using (scaled_eq_ok_iff.mp read).1.symm
      | true =>
          simp only [exponentDigits, digit, if_true] at read
          rw [List.dropWhile_cons_of_pos digit]
          split_ifs at read with small large
          · exact ih read
          · cases read
          · cases read
            rfl

theorem exponentDigits_append
    (read : exponentDigits negative significand start up exponent bytes = .ok (found, []))
    (ends : EndsDigits tail) :
    exponentDigits negative significand start up exponent (bytes ++ tail) = .ok (found, tail) := by
  induction bytes generalizing exponent with
  | nil =>
      have again := scaled_of_scaled read tail
      cases tail with
      | nil => exact read
      | cons byte others => simpa [exponentDigits, ends.not_isDigit] using again
  | cons byte bytes ih =>
      cases digit : isDigit byte with
      | false =>
          simp only [exponentDigits, digit, Bool.false_eq_true, if_false] at read
          cases (scaled_eq_ok_iff.mp read).1
      | true =>
          simp only [exponentDigits, List.cons_append, digit, if_true] at read ⊢
          split_ifs at read ⊢ with small large
          · exact ih read
          · cases read
          · simp only [Except.ok.injEq, Prod.mk.injEq] at read
            rw [(takeWhile_isDigit_append bytes ends).2, read.1, read.2, List.nil_append]

/-- The signs of an exponent, each with whether the exponent goes up. -/
def signs : List (List UInt8 × Bool) :=
  [([], true), ([0x2B], true), ([0x2D], false)]

theorem ne_sign_of_isDigit {byte : UInt8} (digit : isDigit byte = true) :
    byte ≠ 0x2B ∧ byte ≠ 0x2D := by
  constructor <;> rintro rfl <;> cases digit

theorem exists_sign (bytes : List UInt8) :
    ∃ sign up behind, (sign, up) ∈ signs ∧ bytes = sign ++ behind ∧
      (sign = [] → ∀ byte others, behind = byte :: others → byte ≠ 0x2B ∧ byte ≠ 0x2D) := by
  cases bytes with
  | nil => exact ⟨[], true, [], by simp [signs], rfl, by simp⟩
  | cons first behind =>
      by_cases plus : first = 0x2B
      · exact ⟨[0x2B], true, behind, by simp [signs], by simp [plus], by simp⟩
      · by_cases minus : first = 0x2D
        · exact ⟨[0x2D], false, behind, by simp [signs], by simp [minus], by simp⟩
        · exact ⟨[], true, first :: behind, by simp [signs], rfl, by simp [plus, minus]⟩

theorem exponentPart_of_sign {sign : List UInt8} (signed : (sign, up) ∈ signs) :
    exponentPart negative significand start sign = Defect.before .endInValue [] := by
  simp only [signs, List.mem_cons, Prod.mk.injEq, List.not_mem_nil, or_false] at signed
  rcases signed with ⟨rfl, rfl⟩ | ⟨rfl, rfl⟩ | ⟨rfl, rfl⟩ <;> rfl

theorem exponentPart_of_sign_append {sign : List UInt8} {byte : UInt8}
    (signed : (sign, up) ∈ signs) (unsigned : sign = [] → byte ≠ 0x2B ∧ byte ≠ 0x2D)
    (others : List UInt8) :
    exponentPart negative significand start (sign ++ byte :: others) =
      if isDigit byte then exponentDigits negative significand start up (digitValue byte) others
      else Defect.before .invalidNumber others := by
  simp only [signs, List.mem_cons, Prod.mk.injEq, List.not_mem_nil, or_false] at signed
  rcases signed with ⟨rfl, rfl⟩ | ⟨rfl, rfl⟩ | ⟨rfl, rfl⟩
  · simp [exponentPart, unsigned]
  · simp [exponentPart]
  · simp [exponentPart]

theorem exponentPart_eq_ok_iff :
    exponentPart negative significand start bytes = .ok (found, rest) ↔
      ∃ sign up byte others, (sign, up) ∈ signs ∧ bytes = sign ++ byte :: others ∧
        isDigit byte = true ∧
          exponentDigits negative significand start up (digitValue byte) others =
            .ok (found, rest) := by
  constructor
  · intro read
    rcases exists_sign bytes with ⟨sign, up, behind, signed, rfl, unsigned⟩
    cases behind with
    | nil =>
        rw [List.append_nil, exponentPart_of_sign signed] at read
        cases read
    | cons byte others =>
        rw [exponentPart_of_sign_append signed fun empty => unsigned empty byte others rfl] at read
        split_ifs at read with digit
        · exact ⟨sign, up, byte, others, signed, rfl, digit, read⟩
        · cases read
  · rintro ⟨sign, up, byte, others, signed, rfl, digit, later⟩
    rw [exponentPart_of_sign_append signed fun _ => ne_sign_of_isDigit digit, if_pos digit, later]

theorem exponentPart_skips
    (read : exponentPart negative significand start bytes = .ok (found, rest)) :
    skipExponent bytes = .ok rest := by
  rcases exponentPart_eq_ok_iff.mp read with ⟨sign, up, byte, others, signed, rfl, digit, later⟩
  have skipped := exponentDigits_skips later
  have noSign := ne_sign_of_isDigit digit
  simp only [signs, List.mem_cons, Prod.mk.injEq, List.not_mem_nil, or_false] at signed
  rcases signed with ⟨rfl, rfl⟩ | ⟨rfl, rfl⟩ | ⟨rfl, rfl⟩
  · simp [skipExponent, noSign, digit, skipped]
  · simp [skipExponent, digit, skipped]
  · simp [skipExponent, digit, skipped]

theorem exponentPart_append
    (read : exponentPart negative significand start bytes = .ok (found, []))
    (ends : EndsDigits tail) :
    exponentPart negative significand start (bytes ++ tail) = .ok (found, tail) := by
  rcases exponentPart_eq_ok_iff.mp read with ⟨sign, up, byte, others, signed, rfl, digit, later⟩
  exact exponentPart_eq_ok_iff.mpr ⟨sign, up, byte, others ++ tail, signed, by simp, digit,
    exponentDigits_append later ends⟩

theorem exponentOrEnd_skips
    (read : exponentOrEnd negative significand start bytes = .ok (found, rest)) :
    skipExponentOrEnd bytes = .ok rest := by
  cases bytes with
  | nil => exact congrArg Except.ok (scaled_eq_ok_iff.mp read).1.symm
  | cons byte others =>
      cases mark : isExponentMark byte with
      | true =>
          simp only [exponentOrEnd, skipExponentOrEnd, mark, if_true] at read ⊢
          exact exponentPart_skips read
      | false =>
          simp only [exponentOrEnd, skipExponentOrEnd, mark, Bool.false_eq_true, if_false]
            at read ⊢
          exact congrArg Except.ok (scaled_eq_ok_iff.mp read).1.symm

theorem EndsNumber.not_isExponentMark {byte : UInt8} {others : List UInt8}
    (ends : EndsNumber (byte :: others)) : isExponentMark byte = false := by
  rw [← Bool.not_eq_true, isExponentMark_iff]
  have other := ends byte others rfl
  tauto

theorem exponentOrEnd_append
    (read : exponentOrEnd negative significand start bytes = .ok (found, []))
    (ends : EndsNumber tail) :
    exponentOrEnd negative significand start (bytes ++ tail) = .ok (found, tail) := by
  cases bytes with
  | nil =>
      have again := scaled_of_scaled read tail
      cases tail with
      | nil => exact read
      | cons byte others => simpa [exponentOrEnd, ends.not_isExponentMark] using again
  | cons byte others =>
      cases mark : isExponentMark byte with
      | true =>
          simp only [exponentOrEnd, List.cons_append, mark, if_true] at read ⊢
          exact exponentPart_append read ends.endsDigits
      | false =>
          simp only [exponentOrEnd, mark, Bool.false_eq_true, if_false] at read
          cases (scaled_eq_ok_iff.mp read).1

/-! ## Digits -/

theorem fractionPart_eq_ok_iff :
    fractionPart negative significand start bytes = .ok (found, rest) ↔
      bytes.takeWhile isDigit ≠ [] ∧
        exponentOrEnd negative (extend significand 0 (bytes.takeWhile isDigit)).1
          (start - (extend significand 0 (bytes.takeWhile isDigit)).2.1)
          (bytes.dropWhile isDigit) = .ok (found, rest) := by
  by_cases empty : bytes.takeWhile isDigit = []
  · simp only [fractionPart, empty, List.isEmpty_nil, if_true, ne_eq, not_true_eq_false, false_and,
      iff_false]
    split <;> simp [Defect.before, Defect.at]
  · simp only [fractionPart, List.isEmpty_iff, empty, if_false, ne_eq, not_false_eq_true, true_and]

theorem afterDigits_skips
    (read : afterDigits negative significand dropped bytes = .ok (found, rest)) :
    skipFractionOrEnd bytes = .ok rest := by
  cases bytes with
  | nil =>
      simp only [afterDigits] at read
      split_ifs at read with whole
      · cases read
        rfl
      · exact congrArg Except.ok (scaled_eq_ok_iff.mp read).1.symm
  | cons byte others =>
      by_cases point : byte = 0x2E
      · subst point
        simp only [afterDigits, if_true] at read
        rcases fractionPart_eq_ok_iff.mp read with ⟨some, later⟩
        simpa [skipFractionOrEnd, some] using exponentOrEnd_skips later
      · have skips : skipFractionOrEnd (byte :: others) = skipExponentOrEnd (byte :: others) := by
          unfold skipFractionOrEnd
          split
          · next same =>
            cases same
            exact absurd rfl point
          · rfl
        rw [skips]
        simp only [afterDigits, point, if_false] at read
        cases mark : isExponentMark byte with
        | true =>
            simp only [mark, if_true] at read
            simpa [skipExponentOrEnd, mark] using exponentPart_skips read
        | false =>
            simp only [mark, Bool.false_eq_true, if_false] at read
            simp only [skipExponentOrEnd, mark, Bool.false_eq_true, if_false]
            split_ifs at read with whole
            · cases read
              rfl
            · exact congrArg Except.ok (scaled_eq_ok_iff.mp read).1.symm

theorem afterDigits_append
    (read : afterDigits negative significand dropped bytes = .ok (found, []))
    (ends : EndsNumber tail) :
    afterDigits negative significand dropped (bytes ++ tail) = .ok (found, tail) := by
  cases bytes with
  | nil =>
      cases tail with
      | nil => exact read
      | cons byte others =>
          have point : byte ≠ 0x2E := (ends byte others rfl).2.1
          simp only [afterDigits] at read
          simp only [List.nil_append, afterDigits, point, if_false, ends.not_isExponentMark,
            Bool.false_eq_true]
          split_ifs at read ⊢ with whole
          · cases read
            rfl
          · exact scaled_of_scaled read _
  | cons byte others =>
      by_cases point : byte = 0x2E
      · subst point
        simp only [afterDigits, List.cons_append, if_true] at read ⊢
        rcases fractionPart_eq_ok_iff.mp read with ⟨some, later⟩
        have cut := takeWhile_isDigit_append others ends.endsDigits
        rw [fractionPart_eq_ok_iff, cut.1, cut.2]
        exact ⟨some, exponentOrEnd_append later ends⟩
      · simp only [afterDigits, List.cons_append, point, if_false] at read ⊢
        cases mark : isExponentMark byte with
        | true =>
            simp only [mark, if_true] at read ⊢
            exact exponentPart_append read ends.endsDigits
        | false =>
            simp only [mark, Bool.false_eq_true, if_false] at read
            split_ifs at read with whole
            · cases read
            · cases (scaled_eq_ok_iff.mp read).1

/-! ## Whole numbers -/

/-- The digits before the point of a number that does not begin with zero. -/
def wholeDigits (first : UInt8) (others : List UInt8) : List UInt8 :=
  first :: others.takeWhile isDigit

/-- How many of some digits do not fit the significand. -/
def excess (digits : List UInt8) : Nat :=
  digits.length - (extend 0 0 digits).2.1

theorem unsigned_eq_ok_iff :
    unsigned negative bytes = .ok (found, rest) ↔
      (∃ others, bytes = 0x30 :: others ∧ EndsDigits others ∧
        afterDigits negative 0 0 others = .ok (found, rest)) ∨
      ∃ first others, bytes = first :: others ∧ isDigit first = true ∧ first ≠ 0x30 ∧
        afterDigits negative (extend 0 0 (wholeDigits first others)).1
          (excess (wholeDigits first others)) (others.dropWhile isDigit) = .ok (found, rest) := by
  cases bytes with
  | nil => simp [unsigned, Defect.before]
  | cons first others =>
      by_cases zero : first = 0x30
      · subst zero
        simp only [unsigned, if_true, List.cons.injEq, true_and, ne_eq, exists_eq_left']
        cases others with
        | nil => simp [EndsDigits]
        | cons next later =>
            have ends : EndsDigits (next :: later) ↔ isDigit next = false := by
              rw [← Bool.not_eq_true, isDigit_iff]
              simp [EndsDigits]
            cases digit : isDigit next with
            | true => simp [ends, digit, Defect.at]
            | false => simp [ends, digit]
      · cases digit : isDigit first with
        | true => simp [unsigned, zero, digit, wholeDigits, excess]
        | false => simp [unsigned, zero, digit, Defect.before]

theorem unsigned_skips (read : unsigned negative bytes = .ok (found, rest)) :
    skipUnsigned bytes = .ok rest := by
  rcases unsigned_eq_ok_iff.mp read with
    ⟨others, rfl, ends, later⟩ | ⟨first, others, rfl, digit, positive, later⟩
  · rw [skipUnsigned_of_zero ends]
    exact afterDigits_skips later
  · rw [skipUnsigned_of_digit (isDigit_iff.mp digit) positive]
    exact afterDigits_skips later

theorem unsigned_append (read : unsigned negative bytes = .ok (found, []))
    (ends : EndsNumber tail) : unsigned negative (bytes ++ tail) = .ok (found, tail) := by
  rw [unsigned_eq_ok_iff]
  rcases unsigned_eq_ok_iff.mp read with
    ⟨others, rfl, noDigit, later⟩ | ⟨first, others, rfl, digit, positive, later⟩
  · refine .inl ⟨others ++ tail, rfl, ?_, afterDigits_append later ends⟩
    cases others with
    | nil => exact ends.endsDigits
    | cons next others =>
        intro byte behind same
        cases same
        exact noDigit next others rfl
  · have cut := takeWhile_isDigit_append others ends.endsDigits
    refine .inr ⟨first, others ++ tail, rfl, digit, positive, ?_⟩
    rw [wholeDigits, cut.1, cut.2]
    exact afterDigits_append later ends

theorem number_of_ne {first : UInt8} (plus : first ≠ 0x2D) (others : List UInt8) :
    number (first :: others) = unsigned false (first :: others) := by
  unfold number
  split
  · next same =>
    cases same
    exact absurd rfl plus
  · rfl

/-- What is read as a number is a number of the grammar. -/
theorem exists_value_of_number (read : number bytes = .ok (found, rest)) :
    ∃ v first others, Value v ∧ v = first :: others ∧ beginsNumber first = true ∧
      bytes = v ++ rest := by
  cases bytes with
  | nil => cases read
  | cons first others =>
      by_cases minus : first = 0x2D
      · subst minus
        rcases skipUnsigned_sound (unsigned_skips read) with ⟨text, unsigned, rfl⟩
        exact ⟨_, 0x2D, text, .negative unsigned, rfl, rfl, rfl⟩
      · rw [number_of_ne minus] at read
        rcases skipUnsigned_sound (unsigned_skips read) with ⟨text, unsigned, same⟩
        rcases unsigned.exists_cons with ⟨digit, behind, rfl, isDigit⟩
        refine ⟨_, digit, behind, .number unsigned, rfl, ?_, same⟩
        simp [beginsNumber, isDigit_iff.mpr isDigit]

/-- A number is read again when something follows that could not continue it. -/
theorem number_append (read : number bytes = .ok (found, [])) (ends : EndsNumber tail) :
    number (bytes ++ tail) = .ok (found, tail) := by
  cases bytes with
  | nil => cases read
  | cons first others =>
      by_cases minus : first = 0x2D
      · subst minus
        have unsigned : unsigned true others = .ok (found, []) := read
        exact unsigned_append unsigned ends
      · rw [number_of_ne minus] at read
        rw [List.cons_append, number_of_ne minus]
        exact unsigned_append read ends

/-! ## Readers -/

section
variable {α : Type} {read : Reader α} {v blanks : List UInt8} {x : α}

/-- A reader that takes just the value finds what it takes and nothing else. -/
theorem findsWithin_of_read
    (reads : ∀ {blanks rest : List UInt8}, Blanks blanks → EndsNumber rest →
      read (blanks ++ (v ++ rest)) = .ok (x, rest)) : FindsWithin read v (· = x) := by
  intro blanks blank rest ends rest' found
  rw [reads blank ends, Except.ok.injEq, Prod.mk.injEq]
  constructor
  · rintro ⟨rfl, rfl⟩
    exact ⟨rfl, rfl⟩
  · rintro ⟨rfl, rfl⟩
    exact ⟨rfl, rfl⟩

/-- A text that is read as a number is a number of the grammar with blanks in front of it. -/
theorem exists_number_of_numeral {expected : String}
    (read : numeral expected bytes = .ok (found, rest)) :
    ∃ blanks v, Blanks blanks ∧ Value v ∧ bytes = blanks ++ (v ++ rest) ∧
      number (v ++ rest) = .ok (found, rest) := by
  rcases exists_blanks bytes with ⟨blanks, blank, same⟩
  unfold numeral at read
  split at read
  · cases read
  · next byte others begins =>
    split at read
    · rcases exists_value_of_number read with ⟨v, _, _, value, _, _, whole⟩
      refine ⟨blanks, v, blank, value, ?_, ?_⟩
      · rw [← whole, ← begins, ← same]
      · rw [← whole, read]
    · exact absurd read (wrongKind_ne_ok _ _ _)

theorem numeral_of_number {expected : String} (taken : number v = .ok (found, []))
    (blank : Blanks blanks) (ends : EndsNumber rest) :
    numeral expected (blanks ++ (v ++ rest)) = .ok (found, rest) := by
  rcases exists_value_of_number taken with ⟨w, first, others, value, same, begins, whole⟩
  rw [List.append_nil] at whole
  subst whole
  have again := number_append taken ends
  rw [numeral, value.skipBlanks blank]
  subst same
  rw [List.cons_append] at again ⊢
  simp only [begins, if_true, again]

theorem single_eq_ok_iff {component : Number.Single} :
    single bytes = .ok (component, rest) ↔
      ∃ found, numeral "f32" bytes = .ok (found, rest) ∧
        Number.Single.nearest (found.toBinary .single) = component := by
  simp [single, bind_eq_ok_iff, pure, Except.pure]

/-- A text that is read as a component is a value in which it is found wherever it stands. -/
theorem exists_value_of_single {component : Number.Single}
    (read : single bytes = .ok (component, [])) :
    ∃ blanks v, Blanks blanks ∧ Value v ∧ bytes = blanks ++ v ∧
      FindsWithin single v (· = component) := by
  rcases single_eq_ok_iff.mp read with ⟨found, taken, rounded⟩
  rcases exists_number_of_numeral taken with ⟨blanks, v, blank, value, same, number⟩
  rw [List.append_nil] at same number
  refine ⟨blanks, v, blank, value, same, findsWithin_of_read ?_⟩
  intro blanks rest blank ends
  exact single_eq_ok_iff.mpr ⟨found, numeral_of_number number blank ends, rounded⟩

/-- No component is found where the word for nothing stands. -/
theorem single_finds_null : FindsWithin single [0x6E, 0x75, 0x6C, 0x6C] fun _ => False := by
  intro blanks blank rest _ rest' component
  rw [false_and, iff_false, single_eq_ok_iff]
  rintro ⟨found, read, _⟩
  have other : beginsNumber 0x6E = false := rfl
  rw [numeral, Value.nullWord.skipBlanks blank] at read
  simp only [List.cons_append, other, Bool.false_eq_true, if_false] at read
  exact wrongKind_ne_ok _ _ _ read

theorem size_finds {value : Nat} (taken : number v = .ok (.natural value, []))
    (small : value < Nat.pow 2 64) : FindsWithin size v (· = value) := by
  apply findsWithin_of_read
  intro blanks rest blank ends
  have below : Numeral.naturalBelow (Nat.pow 2 64) "usize" (.natural value) = .ok value := by
    simp only [Numeral.naturalBelow, small, if_true]
  change (numeral "usize" (blanks ++ (v ++ rest)) >>= _) = _
  rw [numeral_of_number taken blank ends, ok_bind]
  dsimp only
  rw [below]
  rfl

end

end Json

end TextVectors
