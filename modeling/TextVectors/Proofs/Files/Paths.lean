import TextVectors.Path

/-!
# Parts of paths

A path has a `front`, which tells where it starts from, and `names` that are
followed from there. Going from a directory to a name below it puts the parts of
the name behind those of the directory, `parts_join`. Parts that are put together
make a path that has them, `parts_ofParts`.
-/

namespace TextVectors

namespace Path

/-- The texts between the slashes of a path. -/
def segments (path : String) : List String :=
  (Text.pieces '/' path.toList).map String.ofList

/-- The part that tells where a path starts from, if there is one. -/
def front (path : String) : List String :=
  if isAbsolute path then ["/"]
  else if (segments path).head? == some "." then ["."]
  else []

/-- The texts among some that mean something. -/
def meaningful (texts : List String) : List String :=
  texts.filter fun name => name ≠ "" && name ≠ "."

/-- The names that are followed from the start of a path. -/
def names (path : String) : List String :=
  meaningful (segments path)

theorem parts_eq (path : String) : parts path = front path ++ names path := rfl

/-- A text that can be followed as a name. -/
structure IsName (name : String) : Prop where
  ne_empty : name ≠ ""
  ne_dot : name ≠ "."
  no_slash : '/' ∉ name.toList

theorem isName_of_mem_names {path name : String} (mem : name ∈ names path) : IsName name := by
  rw [names, meaningful, List.mem_filter] at mem
  rcases mem with ⟨segment, means⟩
  rw [segments, List.mem_map] at segment
  rcases segment with ⟨piece, pieceMem, rfl⟩
  simp only [Bool.and_eq_true, decide_eq_true_eq] at means
  refine ⟨means.1, means.2, ?_⟩
  rw [String.toList_ofList]
  exact Text.not_mem_of_mem_pieces pieceMem

/-- Only the first part of a path can be a mark of where it starts from. -/
theorem isName_of_parts_append {path name : String} {first more : List String}
    (whole : parts path = first ++ more) (some_part : first ≠ []) (mem : name ∈ more) :
    IsName name := by
  rcases List.exists_cons_of_ne_nil some_part with ⟨start, rest, rfl⟩
  apply isName_of_mem_names
  rw [parts_eq, front] at whole
  split at whole
  · rw [List.singleton_append, List.cons_append, List.cons.injEq] at whole
    rw [whole.2]
    exact List.mem_append_right rest mem
  · split at whole
    · rw [List.singleton_append, List.cons_append, List.cons.injEq] at whole
      rw [whole.2]
      exact List.mem_append_right rest mem
    · rw [List.nil_append] at whole
      rw [whole]
      exact List.mem_append_right _ mem

theorem meaningful_of_isName {texts : List String} (proper : ∀ name ∈ texts, IsName name) :
    meaningful texts = texts := by
  rw [meaningful, List.filter_eq_self]
  intro name mem
  simp [(proper name mem).ne_empty, (proper name mem).ne_dot]

/-! ## A name below a directory -/

/-- Joining puts one slash between a directory and a name. -/
theorem exists_toList_join {directory name : String} (some_directory : directory ≠ "")
    (relative : isAbsolute name = false) :
    ∃ before, (join directory name).toList = before ++ '/' :: name.toList ∧
      (directory.toList = before ∧ before ≠ [] ∨ directory.toList = before ++ ['/']) := by
  unfold join
  rw [relative]
  by_cases slash : directory.toList.getLast? = some '/'
  · rcases List.getLast?_eq_some_iff.mp slash with ⟨before, ends⟩
    refine ⟨before, ?_, .inr ends⟩
    simp [ends]
  · refine ⟨directory.toList, ?_, .inl ⟨rfl, ?_⟩⟩
    · simp [slash, some_directory]
    · intro empty
      exact some_directory (String.toList_eq_nil_iff.mp empty)

theorem isAbsolute_of_front {name : String} (inner : front name = []) :
    isAbsolute name = false := by
  cases absolute : isAbsolute name with
  | false => rfl
  | true => simp [front, absolute] at inner

theorem join_empty {name : String} (inner : front name = []) : join "" name = name := by
  simp [join, isAbsolute_of_front inner]

theorem parts_join (directory : String) {name : String} (inner : front name = []) :
    parts (join directory name) = parts directory ++ parts name := by
  by_cases some_directory : directory = ""
  · rw [some_directory, join_empty inner]
    rfl
  have relative := isAbsolute_of_front inner
  rcases exists_toList_join some_directory relative with ⟨before, joined, ends⟩
  have segments_join : segments (join directory name) =
      (Text.pieces '/' before).map String.ofList ++ segments name := by
    rw [segments, joined, Text.pieces_append_cons, List.map_append]
    rfl
  -- A directory that ends in a slash has one segment more, which is empty and so no name.
  have segments_directory : segments directory = (Text.pieces '/' before).map String.ofList ∨
      segments directory = (Text.pieces '/' before).map String.ofList ++ [""] := by
    rcases ends with ⟨same, _⟩ | longer
    · left
      rw [segments, same]
    · right
      rw [segments, longer, Text.pieces_append_cons, List.map_append]
      rfl
  have head_before : ∃ first rest, (Text.pieces '/' before).map String.ofList = first :: rest := by
    cases pieces : Text.pieces '/' before with
    | nil => exact absurd pieces (Text.pieces_ne_nil _ _)
    | cons piece others => exact ⟨_, _, rfl⟩
  have absolute : isAbsolute (join directory name) = isAbsolute directory := by
    rw [isAbsolute, isAbsolute, joined]
    rcases ends with ⟨same, filled⟩ | longer
    · rw [same]
      cases before with
      | nil => exact absurd rfl filled
      | cons c before => rfl
    · rw [longer]
      cases before with
      | nil => rfl
      | cons c before => rfl
  have same_front : front (join directory name) = front directory := by
    rcases head_before with ⟨first, rest, pieces⟩
    rw [front, front, absolute, segments_join, pieces]
    rcases segments_directory with same | longer
    · rw [same, pieces]
      rfl
    · rw [longer, pieces]
      rfl
  have same_names : names (join directory name) = names directory ++ names name := by
    rw [names, names, names, meaningful, segments_join, List.filter_append]
    rcases segments_directory with same | longer
    · rw [meaningful, same]
      rfl
    · rw [meaningful, longer, List.filter_append]
      simp [meaningful]
  rw [parts_eq, parts_eq directory, parts_eq name, same_front, same_names, inner,
    List.nil_append, List.append_assoc]

/-- A longer name below a directory. -/
theorem join_append (directory : String) {name : String} (ending : String)
    (inner : front name = []) (inner_append : front (name ++ ending) = []) :
    join directory name ++ ending = join directory (name ++ ending) := by
  unfold join
  rw [isAbsolute_of_front inner, isAbsolute_of_front inner_append]
  by_cases bare : directory = "" ∨ directory.toList.getLast? = some '/'
  · simp [bare, String.append_assoc]
  · simp [bare, String.append_assoc]

/-! ## Parts put together -/

/-- The text of names with slashes between them. -/
def text (names : List String) : List Char :=
  ['/'].intercalate (names.map String.toList)

theorem segments_text {names : List String} (some_name : names ≠ [])
    (no_slash : ∀ name ∈ names, '/' ∉ name.toList) :
    segments (String.ofList (text names)) = names := by
  rw [segments, String.toList_ofList, text, Text.pieces_intercalate]
  · rw [List.map_map]
    exact List.map_id'' (fun name => String.ofList_toList) names
  · simpa using some_name
  · intro piece mem
    rw [List.mem_map] at mem
    rcases mem with ⟨name, nameMem, rfl⟩
    exact no_slash name nameMem

theorem head?_text {name : String} (names : List String) (some_char : name ≠ "") :
    (text (name :: names)).head? = name.toList.head? := by
  have filled : name.toList ≠ [] := fun empty => some_char (String.toList_eq_nil_iff.mp empty)
  cases chars : name.toList with
  | nil => exact absurd chars filled
  | cons c cs => cases names <;> simp [text, List.intercalate, chars]

theorem parts_ofParts_root {names : List String} (proper : ∀ name ∈ names, IsName name) :
    parts (ofParts ("/" :: names)) = "/" :: names := by
  have absolute : isAbsolute (ofParts ("/" :: names)) = true := by
    simp [isAbsolute, ofParts]
  have cut : segments (ofParts ("/" :: names)) = "" :: segments (String.ofList (text names)) := by
    simp [segments, ofParts, Text.pieces, text]
  have followed : meaningful (segments (String.ofList (text names))) = names := by
    cases names with
    | nil => rfl
    | cons name others =>
      rw [segments_text (List.cons_ne_nil _ _) fun name mem => (proper name mem).no_slash]
      exact meaningful_of_isName proper
  rw [parts_eq, front, if_pos absolute, Path.names, cut]
  exact congrArg ("/" :: ·) followed

theorem parts_ofParts_here {names : List String} (proper : ∀ name ∈ names, IsName name) :
    parts (ofParts ("." :: names)) = "." :: names := by
  have relative : isAbsolute (ofParts ("." :: names)) = false := by
    have whole : ofParts ("." :: names) = String.ofList (text ("." :: names)) := rfl
    rw [isAbsolute, whole, String.toList_ofList, head?_text names (by decide)]
    rfl
  have cut : segments (ofParts ("." :: names)) = "." :: names := by
    refine segments_text (List.cons_ne_nil _ _) ?_
    intro name mem
    rcases List.mem_cons.mp mem with rfl | followed
    · decide
    · exact (proper name followed).no_slash
  rw [parts_eq, front, relative, Path.names, cut]
  exact congrArg ("." :: ·) (meaningful_of_isName proper)

theorem parts_ofParts_names {names : List String} (proper : ∀ name ∈ names, IsName name) :
    parts (ofParts names) = names := by
  cases names with
  | nil => rfl
  | cons name others =>
    have first := proper name List.mem_cons_self
    have ne_slash : name ≠ "/" := fun same => first.no_slash (same ▸ by decide)
    have whole : ofParts (name :: others) = String.ofList (text (name :: others)) := by
      unfold ofParts
      split
      · next same => exact absurd (List.cons.inj same).1 ne_slash
      · rfl
    have relative : isAbsolute (ofParts (name :: others)) = false := by
      rw [isAbsolute, whole, String.toList_ofList, head?_text others first.ne_empty,
        beq_eq_false_iff_ne]
      intro slash
      exact first.no_slash (List.mem_of_mem_head? slash)
    have cut : segments (ofParts (name :: others)) = name :: others := by
      rw [whole]
      exact segments_text (List.cons_ne_nil _ _) fun name mem => (proper name mem).no_slash
    rw [parts_eq, front, relative, Path.names, cut, meaningful_of_isName proper]
    simp [first.ne_dot]

/-- Whether parts start at the root, at the working directory by name, or with a name, the path
that is put together from the first of them starts there again. -/
theorem parts_ofParts_of_prefix {path : String} {above : List String}
    (within : above <+: parts path) : parts (ofParts above) = above := by
  have proper : ∀ {first : List String}, first <+: names path → ∀ name ∈ first, IsName name :=
    fun among name mem => isName_of_mem_names (among.subset mem)
  cases above with
  | nil => rfl
  | cons start rest =>
      rw [parts_eq path, front] at within
      split at within
      · rcases List.cons_prefix_cons.mp within with ⟨rfl, among⟩
        exact parts_ofParts_root (proper among)
      · split at within
        · rcases List.cons_prefix_cons.mp within with ⟨rfl, among⟩
          exact parts_ofParts_here (proper among)
        · exact parts_ofParts_names (proper within)

theorem parts_ofParts (path : String) : parts (ofParts (parts path)) = parts path :=
  parts_ofParts_of_prefix (List.prefix_refl (parts path))

end Path

end TextVectors
