import Mathlib.Data.List.Forall2

/-!
# Results that are values

A computation that may fail is put together from smaller ones by `map`,
`mapError` and `bind`. Each lemma says what is known of the parts when the whole
ends in a value, or in a fault.
-/

namespace TextVectors

variable {ε ε' α β : Type}

theorem map_eq_ok_iff {f : α → β} {result : Except ε α} {value : β} :
    result.map f = .ok value ↔ ∃ found, result = .ok found ∧ f found = value := by
  cases result <;> simp [Except.map]

theorem map_eq_error_iff {f : α → β} {result : Except ε α} {fault : ε} :
    result.map f = .error fault ↔ result = .error fault := by
  cases result <;> simp [Except.map]

theorem mapError_eq_ok_iff {f : ε → ε'} {result : Except ε α} {value : α} :
    result.mapError f = .ok value ↔ result = .ok value := by
  cases result with
  | error fault => constructor <;> intro succeeded <;> cases succeeded
  | ok found => constructor <;> intro succeeded <;> cases succeeded <;> rfl

theorem eq_ok_of_toOption {result : Except ε α} {value : α}
    (found : result.toOption = some value) : result = .ok value := by
  cases result with
  | error fault => cases found
  | ok other =>
      cases found
      rfl

theorem bind_eq_ok_iff {f : α → Except ε β} {result : Except ε α} {value : β} :
    result >>= f = .ok value ↔ ∃ found, result = .ok found ∧ f found = .ok value := by
  cases result <;> simp [bind, Except.bind]

theorem ok_bind (found : α) (f : α → Except ε β) : Except.ok found >>= f = f found :=
  rfl

theorem bind_ne_ok {f : α → Except ε β} {value : β} (never : ∀ found, f found ≠ .ok value)
    (result : Except ε α) : result >>= f ≠ .ok value := by
  rw [Ne, bind_eq_ok_iff]
  rintro ⟨found, _, given⟩
  exact never found given

theorem mapError_eq_error_iff {f : ε → ε'} {result : Except ε α} {fault : ε'} :
    result.mapError f = .error fault ↔ ∃ found, result = .error found ∧ f found = fault := by
  cases result <;> simp [Except.mapError]

theorem bind_eq_error_iff {f : α → Except ε β} {result : Except ε α} {fault : ε} :
    result >>= f = .error fault ↔
      result = .error fault ∨ ∃ found, result = .ok found ∧ f found = .error fault := by
  cases result <;> simp [bind, Except.bind]

theorem mapM_eq_ok_iff {f : α → Except ε β} {items : List α} {values : List β} :
    items.mapM f = .ok values ↔
      List.Forall₂ (fun item value => f item = .ok value) items values := by
  induction items generalizing values with
  | nil => simp [pure, Except.pure, eq_comm]
  | cons item items ih =>
      simp only [List.mapM_cons, bind_eq_ok_iff, ih, List.forall₂_cons_left_iff, pure, Except.pure,
        Except.ok.injEq]
      constructor
      · rintro ⟨value, given, values, later, rfl⟩
        exact ⟨value, values, given, later, rfl⟩
      · rintro ⟨value, values, given, later, rfl⟩
        exact ⟨value, given, values, later, rfl⟩

end TextVectors
