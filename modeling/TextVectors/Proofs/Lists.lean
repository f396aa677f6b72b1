import Mathlib.Data.List.Forall2

/-!
# Lists that go together

Two lists go together if they are as long as each other and related place by
place. A list that goes with a list of lists, put one after another, falls into
parts that go with each of them, and a list between two others can be left out.
-/

namespace TextVectors

variable {α β γ : Type} {R : α → β → Prop} {S : β → γ → Prop}

theorem exists_getElem?_of_forall₂ {xs : List α} {ys : List β} (related : List.Forall₂ R xs ys)
    {index : Nat} {x : α} (found : xs[index]? = some x) : ∃ y, ys[index]? = some y ∧ R x y := by
  induction related generalizing index with
  | nil => simp at found
  | cons first _ ih =>
      cases index with
      | zero =>
          rcases Option.some.inj found with rfl
          exact ⟨_, rfl, first⟩
      | succ index => exact ih found

theorem exists_forall₂_of_forall_mem {xs : List α} (partner : ∀ x ∈ xs, ∃ y, R x y) :
    ∃ ys, List.Forall₂ R xs ys := by
  induction xs with
  | nil => exact ⟨[], .nil⟩
  | cons x xs ih =>
      rcases partner x (by simp) with ⟨y, related⟩
      rcases ih fun later mem => partner later (by simp [mem]) with ⟨ys, rest⟩
      exact ⟨y :: ys, .cons related rest⟩

theorem exists_mem_of_forall₂_right {xs : List α} {ys : List β} (related : List.Forall₂ R xs ys)
    {y : β} (mem : y ∈ ys) : ∃ x ∈ xs, R x y := by
  induction related with
  | nil => cases mem
  | cons first _ ih =>
      rcases List.mem_cons.mp mem with rfl | later
      · exact ⟨_, by simp, first⟩
      · rcases ih later with ⟨x, inside, found⟩
        exact ⟨x, by simp [inside], found⟩

theorem forall₂_congr_of_forall_mem {R' : α → β → Prop} {xs : List α} {ys : List β}
    (same : ∀ x ∈ xs, ∀ y, R x y ↔ R' x y) : List.Forall₂ R xs ys ↔ List.Forall₂ R' xs ys := by
  induction xs generalizing ys with
  | nil => simp
  | cons x xs ih =>
      have rest (ys : List β) : List.Forall₂ R xs ys ↔ List.Forall₂ R' xs ys := by
        apply ih
        intro later mem
        exact same later (by simp [mem])
      simp only [List.forall₂_cons_left_iff, same x (by simp), rest]

theorem eq_of_forall₂ {R' : α → β → Prop} {xs : List α} {ys zs : List β}
    (first : List.Forall₂ R xs ys) (second : List.Forall₂ R' xs zs)
    (unique : ∀ x y z, R x y → R' x z → y = z) : ys = zs := by
  induction first generalizing zs with
  | nil => exact (List.forall₂_nil_left_iff.mp second).symm
  | cons related _ ih =>
      rcases List.forall₂_cons_left_iff.mp second with ⟨z, rest, also, later, rfl⟩
      rw [unique _ _ _ related also, ih later]

/-- Two relations between lists are one, through the list in between. -/
theorem exists_forall₂_iff {xs : List α} {zs : List γ} :
    (∃ ys, List.Forall₂ R xs ys ∧ List.Forall₂ S ys zs) ↔
      List.Forall₂ (fun x z => ∃ y, R x y ∧ S y z) xs zs := by
  constructor
  · rintro ⟨ys, first, second⟩
    induction first generalizing zs with
    | nil => simpa using second
    | cons related _ ih =>
        rcases List.forall₂_cons_left_iff.mp second with ⟨z, rest, last, later, rfl⟩
        exact .cons ⟨_, related, last⟩ (ih later)
  · intro both
    induction both with
    | nil => exact ⟨[], .nil, .nil⟩
    | cons related _ ih =>
        rcases related with ⟨y, first, second⟩
        rcases ih with ⟨ys, firsts, seconds⟩
        exact ⟨y :: ys, .cons first firsts, .cons second seconds⟩

theorem zipWith_ofFn {count : Nat} (f : α → β → γ) (left : Fin count → α) (right : Fin count → β) :
    List.zipWith f (List.ofFn left) (List.ofFn right) =
      List.ofFn fun index => f (left index) (right index) := by
  apply List.ext_getElem <;> simp

/-! ## Lists one after another -/

theorem forall₂_append_left_iff {xs ys : List α} {zs : List β} :
    List.Forall₂ R (xs ++ ys) zs ↔
      ∃ us vs, List.Forall₂ R xs us ∧ List.Forall₂ R ys vs ∧ zs = us ++ vs := by
  constructor
  · intro related
    have first := List.forall₂_take xs.length related
    have second := List.forall₂_drop xs.length related
    rw [List.take_left] at first
    rw [List.drop_left] at second
    exact ⟨_, _, first, second, (List.take_append_drop _ zs).symm⟩
  · rintro ⟨us, vs, first, second, rfl⟩
    exact List.rel_append first second

theorem forall₂_flatten_left_iff {xss : List (List α)} {ys : List β} :
    List.Forall₂ R xss.flatten ys ↔
      ∃ yss, List.Forall₂ (List.Forall₂ R) xss yss ∧ ys = yss.flatten := by
  constructor
  · intro related
    induction xss generalizing ys with
    | nil => exact ⟨[], .nil, by simpa using related⟩
    | cons xs xss ih =>
        rcases forall₂_append_left_iff.mp related with ⟨us, vs, first, second, rfl⟩
        rcases ih second with ⟨yss, later, rfl⟩
        exact ⟨us :: yss, .cons first later, rfl⟩
  · rintro ⟨yss, related, rfl⟩
    exact List.rel_flatten related

theorem length_flatten_eq_mul {length : Nat} {xss : List (List α)}
    (lengths : ∀ xs ∈ xss, xs.length = length) : xss.flatten.length = xss.length * length := by
  induction xss with
  | nil => simp
  | cons xs xss ih =>
      rw [List.flatten_cons, List.length_append, lengths xs (by simp),
        ih fun later mem => lengths later (by simp [mem]), List.length_cons, Nat.succ_mul,
        Nat.add_comm]

theorem length_flatten_eq {xss : List (List α)} {yss : List (List β)}
    (lengths : List.Forall₂ (fun left right => left.length = right.length) xss yss) :
    xss.flatten.length = yss.flatten.length := by
  induction lengths with
  | nil => rfl
  | cons same _ ih => simp only [List.flatten_cons, List.length_append, same, ih]

end TextVectors
