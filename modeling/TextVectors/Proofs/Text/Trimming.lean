import Mathlib.Data.List.TakeWhile
import TextVectors.Text.Blank
import TextVectors.Text.Split

/-!
# What trimming leaves

Trimming can leave nothing. Of a text between blanks this happens only if all of it is
blank, `trimList_eq_nil_iff`, and of a text before copies of its last character only if
it is made of them, `trimEnd_eq_empty_iff`. More blanks at the ends change nothing, and
neither does the letter case of what stands between them. Cutting loses no character but
the separator, `exists_mem_pieces_iff`, and a cut at the first separator is the only way
to put one between two sides of which the left has none, `cut_eq_some_iff`.
-/

namespace TextVectors

namespace Text

theorem trimList_eq_nil_iff {cs : List Char} : trimList cs = [] ↔ ∀ c ∈ cs, isBlank c := by
  have whole : cs.takeWhile isBlank ++ cs.dropWhile isBlank = cs := List.takeWhile_append_dropWhile
  rw [trimList, List.reverse_eq_nil_iff, List.dropWhile_eq_nil_iff]
  simp only [List.mem_reverse]
  constructor
  · intro rest c mem
    rw [← whole, List.mem_append] at mem
    exact mem.elim List.mem_takeWhile_imp (rest c)
  · intro all c mem
    apply all c
    rw [← whole]
    exact List.mem_append_right _ mem

theorem trim_ne_empty_iff {text : String} : trim text ≠ "" ↔ ∃ c ∈ text.toList, ¬isBlank c := by
  rw [trim, Ne, String.ofList_eq_empty_iff, trimList_eq_nil_iff]
  simp only [not_forall, exists_prop]

/-! ## Blanks at the ends -/

section
variable {front back cs : List Char}

theorem trimList_append_left (blank : ∀ c ∈ front, isBlank c) :
    trimList (front ++ cs) = trimList cs := by
  rw [trimList, List.dropWhile_append_of_pos blank, trimList]

theorem trimList_append_right (blank : ∀ c ∈ back, isBlank c) :
    trimList (cs ++ back) = trimList cs := by
  have backwards : ∀ c ∈ back.reverse, isBlank c := by simpa using blank
  rw [trimList, trimList, List.dropWhile_append]
  split
  · next empty =>
    have nothing : back.dropWhile isBlank = [] := List.dropWhile_eq_nil_iff.mpr blank
    rw [List.isEmpty_iff.mp empty, nothing]
  · rw [List.reverse_append, List.dropWhile_append_of_pos backwards]

theorem trimList_between (blankFront : ∀ c ∈ front, isBlank c) (blankBack : ∀ c ∈ back, isBlank c) :
    trimList (front ++ cs ++ back) = trimList cs := by
  rw [trimList_append_right blankBack, trimList_append_left blankFront]

theorem trimList_of_plain (plain : ∀ c ∈ cs, ¬isBlank c) : trimList cs = cs := by
  have kept (others : List Char) (plain : ∀ c ∈ others, ¬isBlank c) :
      others.dropWhile isBlank = others := by
    cases others with
    | nil => rfl
    | cons c others => rw [List.dropWhile_cons_of_neg (plain c List.mem_cons_self)]
  rw [trimList, kept cs plain, kept cs.reverse (by simpa using plain), List.reverse_reverse]

/-- A text is what trimming leaves, and blanks around it. -/
theorem exists_blanks_around (cs : List Char) : ∃ front back, (∀ c ∈ front, isBlank c) ∧
    (∀ c ∈ back, isBlank c) ∧ cs = front ++ (trimList cs ++ back) := by
  have whole : cs.takeWhile isBlank ++ cs.dropWhile isBlank = cs := List.takeWhile_append_dropWhile
  have backwards : (cs.dropWhile isBlank).reverse.takeWhile isBlank ++
      (cs.dropWhile isBlank).reverse.dropWhile isBlank = (cs.dropWhile isBlank).reverse :=
    List.takeWhile_append_dropWhile
  refine ⟨cs.takeWhile isBlank, ((cs.dropWhile isBlank).reverse.takeWhile isBlank).reverse, ?_, ?_,
    ?_⟩
  · intro c mem
    exact List.mem_takeWhile_imp mem
  · intro c mem
    exact List.mem_takeWhile_imp (List.mem_reverse.mp mem)
  · rw [trimList, ← List.reverse_append, backwards, List.reverse_reverse, whole]

theorem trimList_map {f : Char → Char} (same : ∀ c, isBlank (f c) = isBlank c) (cs : List Char) :
    trimList (cs.map f) = (trimList cs).map f := by
  have kept : isBlank ∘ f = isBlank := funext same
  simp only [trimList, List.dropWhile_map, kept, ← List.map_reverse]

end

/-! ## Lower case -/

/-- A character is the same in lower case, unless it is a capital. -/
theorem toLower_cases (c : Char) : c.toLower = c ∨
    65 ≤ c.toNat ∧ c.toNat ≤ 90 ∧ c.toLower.toNat = c.toNat + 32 := by
  unfold Char.toLower
  split
  · next capital =>
    right
    have first : 65 ≤ c.val.toNat := capital.1
    have last : c.val.toNat ≤ 90 := capital.2
    refine ⟨first, last, ?_⟩
    change (c.val + 32).toNat = c.val.toNat + 32
    rw [UInt32.toNat_add]
    change (c.val.toNat + 32) % 2 ^ 32 = c.val.toNat + 32
    omega
  · exact .inl rfl

theorem toLower_toLower (c : Char) : c.toLower.toLower = c.toLower := by
  rcases toLower_cases c with same | ⟨first, last, lowered⟩
  · rw [same, same]
  · rcases toLower_cases c.toLower with same | ⟨_, capital, _⟩
    · exact same
    · omega

theorem isBlank_toLower (c : Char) : isBlank c.toLower = isBlank c := by
  rcases toLower_cases c with same | ⟨first, last, lowered⟩
  · rw [same]
  · unfold isBlank
    rw [lowered]
    grind

/-! ## The end of a text -/

/-- A text is what trimming leaves, and copies of the last character after it. -/
theorem exists_replicate_trimEnd (last : Char) (text : String) :
    ∃ count, text.toList = (trimEnd last text).toList ++ List.replicate count last := by
  have whole : text.toList.reverse.takeWhile (· == last) ++
      text.toList.reverse.dropWhile (· == last) = text.toList.reverse :=
    List.takeWhile_append_dropWhile
  have copies : text.toList.reverse.takeWhile (· == last) =
      List.replicate (text.toList.reverse.takeWhile (· == last)).length last := by
    rw [List.eq_replicate_iff]
    refine ⟨rfl, fun c mem => ?_⟩
    have same := List.mem_takeWhile_imp mem
    exact beq_iff_eq.mp same
  refine ⟨(text.toList.reverse.takeWhile (· == last)).length, ?_⟩
  rw [← List.reverse_inj, List.reverse_append, List.reverse_replicate, ← copies, trimEnd,
    String.toList_ofList, List.reverse_reverse, whole]

theorem getLast?_trimEnd (last : Char) (text : String) :
    (trimEnd last text).toList.getLast? ≠ some last := by
  rw [trimEnd, String.toList_ofList, List.getLast?_reverse]
  intro kept
  have dropped := List.head?_dropWhile_not (· == last) text.toList.reverse
  rw [kept] at dropped
  simp at dropped

theorem trimEnd_eq_empty_iff {last : Char} {text : String} :
    trimEnd last text = "" ↔ ∀ c ∈ text.toList, c = last := by
  rw [trimEnd, String.ofList_eq_empty_iff, List.reverse_eq_nil_iff, List.dropWhile_eq_nil_iff]
  simp only [List.mem_reverse, beq_iff_eq]

/-! ## The first separator -/

theorem cut_append_cons {separator : Char} {before : List Char} (absent : separator ∉ before)
    (after : List Char) : cut separator (before ++ separator :: after) = some (before, after) := by
  induction before with
  | nil => simp [cut]
  | cons c before ih =>
      rw [List.mem_cons, not_or] at absent
      rw [List.cons_append, cut, if_neg (Ne.symm absent.1), ih absent.2]
      rfl

theorem cut_eq_some_iff {separator : Char} {cs before after : List Char} :
    cut separator cs = some (before, after) ↔
      cs = before ++ separator :: after ∧ separator ∉ before := by
  constructor
  · intro found
    refine ⟨eq_of_cut found, ?_⟩
    induction cs generalizing before with
    | nil => cases found
    | cons c cs ih =>
        unfold cut at found
        split at found
        · cases found
          exact List.not_mem_nil
        · next other =>
          rcases Option.map_eq_some_iff.mp found with ⟨⟨front, behind⟩, later, same⟩
          cases same
          rw [List.mem_cons, not_or]
          exact ⟨Ne.symm other, ih later⟩
  · rintro ⟨rfl, absent⟩
    exact cut_append_cons absent after

/-! ## Pieces -/

theorem exists_mem_pieces_iff {separator c : Char} {cs : List Char} :
    (∃ piece ∈ pieces separator cs, c ∈ piece) ↔ c ∈ cs ∧ c ≠ separator := by
  induction cs with
  | nil => simp [pieces]
  | cons first rest ih =>
      rw [pieces]
      split
      · next same =>
        simp only [List.mem_cons, exists_eq_or_imp, List.not_mem_nil, false_or, ih, same]
        constructor
        · rintro ⟨mem, other⟩
          exact ⟨.inr mem, other⟩
        · rintro ⟨same | mem, other⟩
          · exact absurd same other
          · exact ⟨mem, other⟩
      · next other =>
        cases cut : pieces separator rest with
        | nil => exact absurd cut (pieces_ne_nil separator rest)
        | cons piece more =>
            rw [cut] at ih
            simp only [List.mem_cons, exists_eq_or_imp] at ih ⊢
            rw [or_assoc, ih]
            constructor
            · rintro (rfl | ⟨mem, different⟩)
              · exact ⟨.inl rfl, other⟩
              · exact ⟨.inr mem, different⟩
            · rintro ⟨rfl | mem, different⟩
              · exact .inl rfl
              · exact .inr ⟨mem, different⟩

end Text

end TextVectors
