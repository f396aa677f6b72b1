import Mathlib.Tactic.Positivity
import TextVectors.Number.Natural

/-!
# Decimal numerals

A text spells a number if it has digits only, at least one, of which a plus sign may
stand in front. A number below a bound is read from a text iff the text spells it,
`readNatural_eq_ok_iff`: leading zeros, the plus sign and the stop at the bound change
nothing.
-/

namespace TextVectors

namespace Number

/-- A text spells a number in decimal. -/
def Spells (text : String) (value : Nat) : Prop :=
  ∃ digits : List Char, digits ≠ [] ∧ (∀ c ∈ digits, c.isDigit) ∧
    (text.toList = digits ∨ text.toList = '+' :: digits) ∧ Nat.ofDigitChars 10 digits 0 = value

variable {bound start value : Nat} {digits : List Char} {text : String}

theorem digit?_eq (c : Char) :
    digit? c = if c.isDigit then some (c.toNat - '0'.toNat) else none := by
  unfold digit? Char.isDigit
  simp only [Char.le_def, ge_iff_le, Bool.and_eq_true, decide_eq_true_eq]

theorem le_ofDigitChars (digits : List Char) (start : Nat) :
    start ≤ Nat.ofDigitChars 10 digits start := by
  have positive : 0 < 10 ^ digits.length := by positivity
  calc
    start ≤ 10 ^ digits.length * start := Nat.le_mul_of_pos_left _ positive
    _ ≤ 10 ^ digits.length * start + Nat.ofDigitChars 10 digits 0 := Nat.le_add_right _ _
    _ = Nat.ofDigitChars 10 digits start := Nat.ofDigitChars_eq_ofDigitChars_zero.symm

/-- Digits are read to the number that they make. The bound is checked after every digit, but what
has been read never shrinks. -/
theorem readDigits_eq_ok_iff (small : start < bound) :
    readDigits bound start digits = .ok value ↔
      (∀ c ∈ digits, c.isDigit) ∧ Nat.ofDigitChars 10 digits start = value ∧ value < bound := by
  induction digits generalizing start with
  | nil =>
      simp only [readDigits, Except.ok.injEq, List.not_mem_nil, false_implies, implies_true,
        true_and, Nat.ofDigitChars_nil]
      constructor
      · rintro rfl
        exact ⟨rfl, small⟩
      · exact And.left
  | cons c digits ih =>
      rw [readDigits, digit?_eq, List.forall_mem_cons, Nat.ofDigitChars_cons, Nat.mul_comm 10]
      by_cases digit : c.isDigit
      · rw [if_pos digit]
        dsimp only
        by_cases next : start * 10 + (c.toNat - '0'.toNat) < bound
        · rw [if_pos next, ih next]
          simp only [digit, true_and]
        · rw [if_neg next]
          have grown := le_ofDigitChars digits (start * 10 + (c.toNat - '0'.toNat))
          constructor
          · intro read
            cases read
          · rintro ⟨_, rfl, below⟩
            omega
      · simp only [digit, Bool.false_eq_true, if_false, reduceCtorEq, false_and]

theorem plus_not_digit : ¬ '+'.isDigit := by
  decide

/-- A number is read from a text iff the text spells it and it is below the bound. -/
theorem readNatural_eq_ok_iff (positive : 0 < bound) :
    readNatural bound text = .ok value ↔ Spells text value ∧ value < bound := by
  have spelled (digits : List Char) (some_digit : digits ≠ [])
      (split : ∀ others, text.toList = others ∨ text.toList = '+' :: others →
        (∀ c ∈ others, c.isDigit) → others = digits)
      (front : text.toList = digits ∨ text.toList = '+' :: digits) :
      readDigits bound 0 digits = .ok value ↔ Spells text value ∧ value < bound := by
    rw [readDigits_eq_ok_iff positive]
    constructor
    · rintro ⟨all, rfl, below⟩
      exact ⟨⟨digits, some_digit, all, front, rfl⟩, below⟩
    · rintro ⟨⟨others, _, all, shown, rfl⟩, below⟩
      cases split others shown all
      exact ⟨all, rfl, below⟩
  have blank (found : text.toList = [] ∨ text.toList = ['+']) : ¬Spells text value := by
    rintro ⟨digits, some_digit, all, shown, _⟩
    rcases found with empty | plus
    · rcases shown with shown | shown
      · exact some_digit (shown.symm.trans empty)
      · cases shown.symm.trans empty
    · rcases shown with shown | shown
      · cases shown.symm.trans plus
        exact plus_not_digit (all _ (List.mem_singleton_self _))
      · rw [plus, List.cons.injEq] at shown
        exact some_digit shown.2.symm
  unfold readNatural
  split
  · next empty => simp [blank (.inl empty)]
  · next plus => simp [blank (.inr plus)]
  · next digits not_blank signed =>
    refine spelled digits (fun none => not_blank (by rw [none])) ?_ (.inr signed)
    intro others shown all
    rcases shown with shown | shown
    · cases shown.symm.trans signed
      exact absurd (all _ List.mem_cons_self) plus_not_digit
    · rw [signed, List.cons.injEq] at shown
      exact shown.2.symm
  · next not_empty _ unsigned =>
    refine spelled _ not_empty ?_ (.inl rfl)
    intro others shown all
    rcases shown with shown | shown
    · exact shown.symm
    · exact absurd shown (unsigned others)

theorem Spells.unique {other : Nat} (spells : Spells text value) (also : Spells text other) :
    value = other := by
  have bounded : 0 < max value other + 1 := by omega
  have first := (readNatural_eq_ok_iff bounded).mpr ⟨spells, by omega⟩
  have second := (readNatural_eq_ok_iff bounded).mpr ⟨also, by omega⟩
  exact Except.ok.inj (first.symm.trans second)

end Number

end TextVectors
