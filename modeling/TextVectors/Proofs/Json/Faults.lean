import TextVectors.Proofs.Json.Reading

/-!
# Two sorts of defects

A text is refused for not being JSON, or for being JSON of another shape than the
one that is read. Whatever goes on below the level of values is of the first
sort: words, the way between the pieces of a container, and values that are
passed over. So a defect of the second sort comes from a reader that has met a
value of another kind, or from a record that lacks something or has it twice.
-/

namespace TextVectors

namespace Json

variable {α β σ : Type}

/-! ## Faults in the JSON itself -/

/-- If the result is a defect, it is one of the JSON and not of its shape. -/
def Syntactic (result : Except Defect α) : Prop :=
  ∀ defect, result = .error defect → defect.fault.isMisshapen = false

@[simp]
theorem syntactic_ok (found : α) : Syntactic (.ok found) := by
  intro defect same
  cases same

@[simp]
theorem syntactic_before {fault : Fault} {rest : List UInt8} :
    Syntactic (Defect.before fault rest : Except Defect α) ↔ fault.isMisshapen = false := by
  simp [Syntactic, Defect.before]

@[simp]
theorem syntactic_at {fault : Fault} {rest : List UInt8} :
    Syntactic (Defect.at fault rest : Except Defect α) ↔ fault.isMisshapen = false := by
  simp [Syntactic, Defect.at]

theorem Syntactic.bind {result : Except Defect α} {f : α → Except Defect β}
    (first : Syntactic result) (later : ∀ found, Syntactic (f found)) :
    Syntactic (result >>= f) := by
  cases result with
  | error defect =>
      intro other same
      cases same
      exact first defect rfl
  | ok found => exact later found

theorem Syntactic.map {result : Except Defect α} (first : Syntactic result) (f : α → β) :
    Syntactic (result.map f) := by
  cases result with
  | error defect =>
      intro other same
      cases same
      exact first defect rfl
  | ok found => exact syntactic_ok _

theorem Syntactic.within {result : Except Defect α} (first : Syntactic result) (step : Step) :
    Syntactic (result.mapError (·.within step)) := by
  intro defect stopped
  rcases mapError_eq_error_iff.1 stopped with ⟨inner, inside, rfl⟩
  exact first inner inside

attribute [local simp] Fault.isMisshapen

theorem literal_syntactic (letters bytes : List UInt8) : Syntactic (literal letters bytes) := by
  induction letters generalizing bytes with
  | nil => simp [literal]
  | cons letter letters ih =>
      cases bytes with
      | nil => simp [literal]
      | cons byte bytes =>
          simp only [literal]
          split <;> simp [ih]

theorem hexUnit_syntactic (bytes : List UInt8) : Syntactic (hexUnit bytes) := by
  unfold hexUnit
  split
  · split <;> simp
  · simp

theorem trailingUnit_syntactic (bytes : List UInt8) : Syntactic (trailingUnit bytes) := by
  unfold trailingUnit
  split
  · refine (hexUnit_syntactic _).bind fun found => ?_
    dsimp only
    split_ifs <;> simp [pure, Except.pure]
  all_goals simp

theorem unicodeEscape_syntactic (bytes : List UInt8) : Syntactic (unicodeEscape bytes) := by
  refine (hexUnit_syntactic _).bind fun found => ?_
  dsimp only
  split_ifs
  · simp
  · exact (trailingUnit_syntactic _).bind fun found => syntactic_ok _
  · exact syntactic_ok _

theorem escape_syntactic (bytes : List UInt8) : Syntactic (escape bytes) := by
  unfold escape
  split
  · simp
  · split
    · exact unicodeEscape_syntactic _
    · split <;> simp

theorem plainText_syntactic (plain after : List UInt8) : Syntactic (plainText plain after) := by
  simp only [plainText]
  split <;> simp

theorem contents_syntactic (fuel : Nat) (bytes : List UInt8) : Syntactic (contents fuel bytes) := by
  induction fuel generalizing bytes with
  | zero => simp [contents]
  | succ fuel ih =>
      simp only [contents]
      split
      · simp
      · split
        · exact (plainText_syntactic _ _).bind fun found => syntactic_ok _
        · split
          · exact (plainText_syntactic _ _).bind fun text => (escape_syntactic _).bind fun found =>
              (ih _).bind fun found => syntactic_ok _
          · simp

theorem stringRest_syntactic (bytes : List UInt8) : Syntactic (stringRest bytes) :=
  contents_syntactic _ _

theorem skipExponentOrEnd_syntactic (bytes : List UInt8) :
    Syntactic (skipExponentOrEnd bytes) := by
  unfold skipExponentOrEnd
  split
  · split
    · simp only [skipExponent]
      split
      · simp
      · split <;> simp
    · simp
  · simp

theorem skipFractionOrEnd_syntactic (bytes : List UInt8) :
    Syntactic (skipFractionOrEnd bytes) := by
  unfold skipFractionOrEnd
  split
  · split
    · simp
    · exact skipExponentOrEnd_syntactic _
  · exact skipExponentOrEnd_syntactic _

theorem skipUnsigned_syntactic (bytes : List UInt8) : Syntactic (skipUnsigned bytes) := by
  cases bytes with
  | nil => simp [skipUnsigned]
  | cons first rest =>
      by_cases zero : first = 0x30
      · subst zero
        by_cases ends : EndsDigits rest
        · rw [skipUnsigned_of_zero ends]
          exact skipFractionOrEnd_syntactic rest
        · intro defect stopped
          simp only [EndsDigits, not_forall, not_not] at ends
          rcases ends with ⟨next, others, rfl, digit⟩
          simp only [skipUnsigned, isDigit_iff.2 digit, if_true, Defect.at, bind,
            Except.bind, Except.error.injEq] at stopped
          subst stopped
          rfl
      · by_cases digit : Digit first
        · rw [skipUnsigned_of_digit digit zero]
          exact skipFractionOrEnd_syntactic _
        · intro defect stopped
          simp only [skipUnsigned, zero, isDigit_iff, digit, if_false, Defect.before, bind,
            Except.bind, Except.error.injEq] at stopped
          subst stopped
          rfl

theorem skipString_syntactic (fuel : Nat) (bytes : List UInt8) :
    Syntactic (skipString fuel bytes) := by
  induction fuel generalizing bytes with
  | zero => simp [skipString]
  | succ fuel ih =>
      have escaped (rest : List UInt8) : Syntactic (skipEscape rest) := by
        unfold skipEscape
        split
        · simp
        · split
          · exact (hexUnit_syntactic _).map _
          · split <;> simp
      simp only [skipString]
      split
      · simp
      · split
        · simp
        · split
          · exact (escaped _).bind fun rest => ih rest
          · simp

theorem skipKey_syntactic (bytes : List UInt8) : Syntactic (skipKey bytes) := by
  unfold skipKey
  split
  · simp
  · split
    · refine (skipString_syntactic _ _).bind fun rest => ?_
      split
      · simp
      · split <;> simp [pure, Except.pure]
    · simp

theorem skipScalar_syntactic (bytes : List UInt8) : Syntactic (skipScalar bytes) := by
  unfold skipScalar
  split
  · simp
  · split_ifs
    · exact (literal_syntactic _ _).bind fun rest => syntactic_ok _
    · exact (literal_syntactic _ _).bind fun rest => syntactic_ok _
    · exact (literal_syntactic _ _).bind fun rest => syntactic_ok _
    · exact (skipUnsigned_syntactic _).bind fun rest => syntactic_ok _
    · exact (skipUnsigned_syntactic _).bind fun rest => syntactic_ok _
    · exact (skipString_syntactic _ _).bind fun rest => syntactic_ok _
    · exact syntactic_ok _
    · exact syntactic_ok _
    · simp

theorem enter_syntactic (frame : Frame) (bytes : List UInt8) : Syntactic (enter frame bytes) := by
  unfold enter
  split
  · exact skipKey_syntactic bytes
  · simp

theorem skipFrom_syntactic (fuel : Nat) (awaiting : Awaiting) (frames : List Frame)
    (bytes : List UInt8) : Syntactic (skipFrom fuel awaiting frames bytes) := by
  induction fuel generalizing awaiting frames bytes with
  | zero => simp [skipFrom]
  | succ fuel ih =>
      have inside (frame : Frame) (frames : List Frame) (bytes : List UInt8) :
          Syntactic (enter frame bytes >>= skipFrom fuel .value (frame :: frames)) :=
        (enter_syntactic frame bytes).bind fun rest => ih _ _ _
      by_cases value : awaiting = .value
      · subst value
        refine (skipScalar_syntactic _).bind fun found => ?_
        rcases found with ⟨_ | frame, rest⟩ <;> exact ih _ _ _
      · cases frames with
        | nil => cases awaiting <;> simp_all [skipFrom]
        | cons frame frames =>
            cases atByte : skipBlanks bytes with
            | nil => cases awaiting <;> cases frame <;> simp_all [skipFrom, Frame.ended]
            | cons byte others =>
                by_cases closing : byte = frame.closing
                · subst closing
                  rw [skipFrom_closing value atByte]
                  exact ih _ _ _
                · cases awaiting with
                  | value => exact absurd rfl value
                  | first =>
                      rw [skipFrom_first atByte closing]
                      exact inside frame frames _
                  | next =>
                      by_cases comma : byte = 0x2C
                      · subst comma
                        rw [skipFrom_comma atByte]
                        exact inside frame frames _
                      · cases frame <;> simp [skipFrom, atByte, closing, comma, Frame.unclosed]

theorem skipValue_syntactic (bytes : List UInt8) : Syntactic (skipValue bytes) :=
  skipFrom_syntactic _ _ _ _

/-! ## Between pieces -/

theorem nextItem_syntactic (first : Bool) (bytes : List UInt8) :
    Syntactic (nextItem first bytes) := by
  unfold nextItem
  split
  · simp
  · split_ifs
    · simp
    · simp
    · split
      · simp
      · split <;> simp
    · simp

theorem closeList_syntactic (bytes : List UInt8) : Syntactic (closeList bytes) := by
  unfold closeList
  split
  · simp
  · split_ifs
    · simp
    · split <;> simp
    · simp

theorem nextKey_syntactic (first : Bool) (bytes : List UInt8) :
    Syntactic (nextKey first bytes) := by
  unfold nextKey
  split
  · simp
  · split_ifs
    · simp
    · simp
    · simp
    · split
      · simp
      · split_ifs <;> simp
    · simp

theorem colon_syntactic (bytes : List UInt8) : Syntactic (colon bytes) := by
  unfold colon
  split
  · simp
  · split <;> simp

theorem wrongKind_nil_syntactic {expected : String} :
    Syntactic (wrongKind expected [] : Except Defect α) := by
  simp [wrongKind]

end Json

end TextVectors
