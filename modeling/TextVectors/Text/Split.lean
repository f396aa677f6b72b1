/-!
# Cutting text at a separator

A list of characters is cut at every occurrence of a separator, or at the first
one only.
-/

namespace TextVectors

namespace Text

/-- The pieces of a list of characters between the occurrences of a separator. -/
def pieces (separator : Char) : List Char → List (List Char)
  | [] => [[]]
  | c :: rest =>
    if c = separator then [] :: pieces separator rest
    else
      match pieces separator rest with
      | [] => [[c]]
      | piece :: others => (c :: piece) :: others

/-- The characters before and after the first occurrence of a separator. -/
def cut (separator : Char) : List Char → Option (List Char × List Char)
  | [] => none
  | c :: rest =>
    if c = separator then some ([], rest)
    else (cut separator rest).map fun (before, after) => (c :: before, after)

theorem pieces_ne_nil (separator : Char) (cs : List Char) : pieces separator cs ≠ [] := by
  induction cs with
  | nil => simp [pieces]
  | cons c rest ih =>
    unfold pieces
    split
    · simp
    · split <;> simp

/-- What stands before and after a separator is cut apart. -/
theorem pieces_append_cons (separator : Char) (before after : List Char) :
    pieces separator (before ++ separator :: after) =
      pieces separator before ++ pieces separator after := by
  induction before with
  | nil => simp [pieces]
  | cons c rest ih =>
    simp only [List.cons_append, pieces]
    by_cases hc : c = separator
    · rw [if_pos hc, if_pos hc, ih, List.cons_append]
    · rw [if_neg hc, if_neg hc, ih]
      cases hp : pieces separator rest with
      | nil => exact absurd hp (pieces_ne_nil _ _)
      | cons piece others => rfl

/-- A list without the separator is one piece. -/
theorem pieces_of_not_mem {separator : Char} {cs : List Char} (absent : separator ∉ cs) :
    pieces separator cs = [cs] := by
  induction cs with
  | nil => rfl
  | cons c rest ih =>
    rw [List.mem_cons, not_or] at absent
    rw [pieces, if_neg (Ne.symm absent.1), ih absent.2]

/-- No piece holds the separator. -/
theorem not_mem_of_mem_pieces {separator : Char} {cs piece : List Char}
    (mem : piece ∈ pieces separator cs) : separator ∉ piece := by
  induction cs generalizing piece with
  | nil =>
    rw [List.mem_singleton.1 mem]
    exact List.not_mem_nil
  | cons c rest ih =>
    rw [pieces] at mem
    by_cases hc : c = separator
    · rw [if_pos hc] at mem
      rcases List.mem_cons.1 mem with rfl | later
      · exact List.not_mem_nil
      · exact ih later
    · rw [if_neg hc] at mem
      cases hp : pieces separator rest with
      | nil => exact absurd hp (pieces_ne_nil _ _)
      | cons first others =>
        rw [hp] at mem ih
        rcases List.mem_cons.1 mem with rfl | later
        · rw [List.mem_cons, not_or]
          exact ⟨Ne.symm hc, ih List.mem_cons_self⟩
        · exact ih (List.mem_cons_of_mem _ later)

/-- Cutting undoes joining, if no piece holds the separator. -/
theorem pieces_intercalate {separator : Char} {ps : List (List Char)} (some_piece : ps ≠ [])
    (absent : ∀ p ∈ ps, separator ∉ p) : pieces separator ([separator].intercalate ps) = ps := by
  induction ps with
  | nil => exact absurd rfl some_piece
  | cons p others ih =>
    cases others with
    | nil =>
      have whole : [separator].intercalate [p] = p := by simp [List.intercalate]
      rw [whole]
      exact pieces_of_not_mem (absent p List.mem_cons_self)
    | cons next more =>
      have front : [separator].intercalate (p :: next :: more) =
          p ++ separator :: [separator].intercalate (next :: more) := by
        simp [List.intercalate]
      rw [front, pieces_append_cons, pieces_of_not_mem (absent p List.mem_cons_self),
        ih (List.cons_ne_nil _ _) fun q mem => absent q (List.mem_cons_of_mem _ mem)]
      rfl

/-- A cut puts the separator back between its two sides. -/
theorem eq_of_cut {separator : Char} {cs before after : List Char}
    (h : cut separator cs = some (before, after)) : cs = before ++ separator :: after := by
  induction cs generalizing before with
  | nil => simp [cut] at h
  | cons c rest ih =>
    unfold cut at h
    split at h
    · simp_all
    · obtain ⟨⟨front, back⟩, hcut, heq⟩ := Option.map_eq_some_iff.1 h
      simp only [Prod.mk.injEq] at heq
      obtain ⟨rfl, rfl⟩ := heq
      rw [ih hcut, List.cons_append]

end Text

end TextVectors
