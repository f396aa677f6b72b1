import TextVectors.Files
import TextVectors.Proofs.Files.Paths
import TextVectors.Proofs.Result

/-!
# What stands where

Files are seen through the contents at their places. `SameBut` says of later files
that every directory is still there and that contents have changed at some places
at most; a path that led somewhere then still leads there, `SameBut.locate`. Names
that do not go up are followed to the place with just these names below where they
start, so a file below a directory is at a place that depends on the directory
only, `locate_join`.
-/

namespace TextVectors

namespace Files

variable {files later last : Files} {changed : List Place} {place here : Place}
  {content : List UInt8}

/-! ## Places -/

theorem node?_nil (files : Files) : files.node? [] = some .directory := if_pos rfl

theorem lookup_filter_of_ne {other : Place} (ne : other ≠ place) (nodes : List (Place × Node)) :
    (nodes.filter (·.1 ≠ place)).lookup other = nodes.lookup other := by
  induction nodes with
  | nil => rfl
  | cons pair nodes ih =>
      rcases pair with ⟨first, node⟩
      by_cases removed : first = place
      · have skipped : (other == first) = false := by simpa [removed] using ne
        rw [List.filter_cons_of_neg (by simpa using removed), List.lookup_cons, skipped, ih]
      · rw [List.filter_cons_of_pos (by simpa using removed), List.lookup_cons, List.lookup_cons,
          ih]

theorem node?_erase_of_ne {other : Place} (ne : other ≠ place) (files : Files) :
    (files.erase place).node? other = files.node? other := by
  unfold node? erase
  rw [lookup_filter_of_ne ne]

theorem node?_put_of_ne {other : Place} (ne : other ≠ place) (files : Files) (node : Node) :
    (files.put place node).node? other = files.node? other := by
  have skipped : (other == place) = false := by simpa using ne
  unfold node? put
  rw [List.lookup_cons, skipped, lookup_filter_of_ne ne]

theorem node?_put_self (inner : place ≠ []) (files : Files) (node : Node) :
    (files.put place node).node? place = some node := by
  unfold node? put
  rw [if_neg inner, List.lookup_cons, beq_self_eq_true]

/-- The content of the file at a place. -/
def content? (files : Files) (place : Place) : Option (List UInt8) :=
  match files.node? place with
  | some (.file content) => some content
  | _ => none

theorem content?_eq_some_iff :
    files.content? place = some content ↔ files.node? place = some (.file content) := by
  unfold content?
  split
  · next found => simp [found]
  · next other =>
    refine ⟨by simp, fun found => ?_⟩
    exact absurd found (other content)

theorem content?_congr (same : later.node? place = files.node? place) :
    later.content? place = files.content? place := by
  unfold content?
  rw [same]

/-! ## Changes -/

/-- Later files are the same but for the contents at some places, and for more directories. -/
structure SameBut (changed : List Place) (files later : Files) : Prop where
  current : later.current = files.current
  directory : ∀ place, files.node? place = some .directory → later.node? place = some .directory
  content : ∀ place ∉ changed, later.content? place = files.content? place

namespace SameBut

theorem refl (changed : List Place) (files : Files) : SameBut changed files files :=
  ⟨rfl, fun _ directory => directory, fun _ _ => rfl⟩

theorem trans (first : SameBut changed files later) (second : SameBut changed later last) :
    SameBut changed files last where
  current := second.current.trans first.current
  directory := fun place found => second.directory place (first.directory place found)
  content := fun place same => (second.content place same).trans (first.content place same)

theorem mono {more : List Place} (subset : changed ⊆ more) (same : SameBut changed files later) :
    SameBut more files later where
  current := same.current
  directory := same.directory
  content := fun place other => same.content place fun mem => other (subset mem)

theorem makeDirectory (free : files.node? place = none) :
    SameBut [] files (files.apply (.makeDirectory place)) := by
  have inner : place ≠ [] := by
    rintro rfl
    rw [node?_nil] at free
    cases free
  refine ⟨rfl, ?_, ?_⟩
  · intro other directory
    have ne : other ≠ place := by
      rintro rfl
      rw [free] at directory
      cases directory
    rw [apply, node?_put_of_ne ne, directory]
  · intro other _
    by_cases same : other = place
    · subst same
      rw [content?, content?, apply, node?_put_self inner, free]
    · exact content?_congr (node?_put_of_ne same files .directory)

theorem put_file (plain : files.node? place ≠ some .directory) (content : List UInt8) :
    SameBut [place] files (files.put place (.file content)) := by
  refine ⟨rfl, ?_, ?_⟩
  · intro other directory
    have ne : other ≠ place := by
      rintro rfl
      exact plain directory
    rw [node?_put_of_ne ne, directory]
  · intro other same
    have ne : other ≠ place := by simpa using same
    exact content?_congr (node?_put_of_ne ne files _)

theorem create (plain : files.node? place ≠ some .directory) :
    SameBut [place] files (files.apply (.create place)) :=
  put_file plain []

theorem fill (plain : files.node? place ≠ some .directory) (content : List UInt8) :
    SameBut [place] files (files.apply (.fill place content)) :=
  put_file plain content

end SameBut

theorem content?_put_file (inner : place ≠ []) (files : Files) (content : List UInt8) :
    (files.put place (.file content)).content? place = some content :=
  content?_eq_some_iff.mpr (node?_put_self inner files _)

/-- Renaming moves the content of a file and changes no other file. -/
theorem apply_rename {target : Place} (found : files.content? place = some content)
    (plain : files.node? target ≠ some .directory) :
    SameBut [place, target] files (files.apply (.rename place target)) ∧
      (files.apply (.rename place target)).content? target = some content := by
  have source : files.node? place = some (.file content) := content?_eq_some_iff.mp found
  have inner : target ≠ [] := by
    rintro rfl
    exact plain (node?_nil files)
  have renamed : files.apply (.rename place target) =
      (files.erase place).put target (.file content) := by
    rw [apply, source]
  rw [renamed]
  refine ⟨⟨rfl, ?_, ?_⟩, content?_put_file inner _ content⟩
  · intro other directory
    have ne_source : other ≠ place := by
      rintro rfl
      rw [source] at directory
      cases directory
    have ne_target : other ≠ target := by
      rintro rfl
      exact plain directory
    rw [node?_put_of_ne ne_target, node?_erase_of_ne ne_source, directory]
  · intro other same
    simp only [List.mem_cons, List.not_mem_nil, or_false, not_or] at same
    apply content?_congr
    rw [node?_put_of_ne same.2, node?_erase_of_ne same.1]

/-! ## Following names -/

theorem walk_append (files : Files) (here : Place) (names more : List String) :
    files.walk here (names ++ more) = (files.walk here names).bind (files.walk · more) := by
  induction names generalizing here with
  | nil => rfl
  | cons name names ih =>
      rw [List.cons_append, walk, walk]
      split
      · rfl
      · rfl
      · split
        · exact ih _
        · split
          · rfl
          · exact ih _

/-- A name is followed in a directory only: up, or down if it is not too long. -/
theorem walk_cons_eq_ok_iff {name : String} {names : List String} :
    files.walk here (name :: names) = .ok place ↔
      files.node? here = some .directory ∧
        (name = ".." ∧ files.walk here.dropLast names = .ok place ∨
          name ≠ ".." ∧ name.utf8ByteSize ≤ longestName ∧
            files.walk (here ++ [name]) names = .ok place) := by
  rw [walk]
  cases node : files.node? here with
  | none => simp
  | some standing =>
      cases standing with
      | file other => simp
      | directory =>
          by_cases up : name = ".."
          · simp [up]
          · by_cases short : name.utf8ByteSize ≤ longestName
            · simp [up, short, Nat.not_lt_of_le short]
            · simp [up, short, Nat.lt_of_not_le short]

/-- Names that do not go up are followed to the place that they name. -/
theorem eq_append_of_walk {names : List String} (down : ".." ∉ names)
    (reached : files.walk here names = .ok place) : place = here ++ names := by
  induction names generalizing here with
  | nil =>
      rw [walk, Except.ok.injEq] at reached
      rw [← reached, List.append_nil]
  | cons name names ih =>
      rw [List.mem_cons, not_or] at down
      rcases walk_cons_eq_ok_iff.mp reached with ⟨_, ⟨up, _⟩ | ⟨_, _, followed⟩⟩
      · exact absurd up.symm down.1
      · rw [ih down.2 followed, List.append_assoc, List.singleton_append]

/-- Names lead where they led as long as the directories stay. -/
theorem SameBut.walk (same : SameBut changed files later) {names : List String}
    (reached : files.walk here names = .ok place) : later.walk here names = .ok place := by
  induction names generalizing here with
  | nil => exact reached
  | cons name names ih =>
      rw [walk_cons_eq_ok_iff] at reached ⊢
      rcases reached with ⟨directory, followed⟩
      refine ⟨same.directory here directory, ?_⟩
      rcases followed with ⟨up, followed⟩ | ⟨down, short, followed⟩
      · exact .inl ⟨up, ih followed⟩
      · exact .inr ⟨down, short, ih followed⟩

/-! ## Following paths -/

/-- The place from which the names of some parts are followed, and these names. -/
def origin (files : Files) : List String → Place × List String
  | [] => (files.current, [])
  | first :: names =>
    if first = "/" then ([], names)
    else if first = "." then (files.current, names)
    else (files.current, first :: names)

/-- The place that some parts lead to. No parts lead to the working directory. -/
def reach (files : Files) (parts : List String) : Except FileError Place :=
  files.walk (files.origin parts).1 (files.origin parts).2

theorem locate_eq (files : Files) (path : String) :
    files.locate path =
      if Path.parts path = [] then .error .notFound else files.reach (Path.parts path) := by
  unfold locate reach origin
  split
  · next empty => rw [if_pos empty]
  · next names root =>
    rw [root]
    rfl
  · next names here =>
    rw [here]
    rfl
  · next some_part not_root not_here =>
    cases parts : Path.parts path with
    | nil => exact absurd parts some_part
    | cons first names =>
        have ne_root : first ≠ "/" := fun root => not_root names (root ▸ parts)
        have ne_here : first ≠ "." := fun here => not_here names (here ▸ parts)
        simp [ne_root, ne_here]

theorem origin_append (files : Files) (parts : List String) {names : List String}
    (proper : ∀ name ∈ names, Path.IsName name) :
    files.origin (parts ++ names) = ((files.origin parts).1, (files.origin parts).2 ++ names) := by
  cases parts with
  | nil =>
      cases names with
      | nil => rfl
      | cons name rest =>
          have first := proper name List.mem_cons_self
          have ne_root : name ≠ "/" := fun root => first.no_slash (root ▸ by decide)
          simp [origin, ne_root, first.ne_dot]
  | cons first rest =>
      rw [List.cons_append, origin, origin]
      split
      · rfl
      · split <;> rfl

theorem SameBut.origin (same : SameBut changed files later) (parts : List String) :
    later.origin parts = files.origin parts := by
  unfold Files.origin
  rw [same.current]

theorem SameBut.reach (same : SameBut changed files later) {parts : List String}
    (reached : files.reach parts = .ok place) : later.reach parts = .ok place := by
  rw [Files.reach, same.origin]
  exact same.walk reached

theorem SameBut.locate (same : SameBut changed files later) {path : String}
    (located : files.locate path = .ok place) : later.locate path = .ok place := by
  rw [locate_eq] at located ⊢
  split at located
  · cases located
  · next some_part =>
    rw [if_neg some_part]
    exact same.reach located

/-! ## Names below a directory -/

/-- A name that stays below the directory that it is followed from. -/
structure Inner (name : String) : Prop where
  front_eq : Path.front name = []
  parts_ne_nil : Path.parts name ≠ []
  down : ".." ∉ Path.parts name

theorem Inner.isName {name part : String} (inner : Inner name) (mem : part ∈ Path.parts name) :
    Path.IsName part := by
  rw [Path.parts_eq, inner.front_eq, List.nil_append] at mem
  exact Path.isName_of_mem_names mem

theorem locate_join_eq_reach (files : Files) (directory : String) {name : String}
    (inner : Inner name) : files.locate (Path.join directory name) =
      files.reach (Path.parts directory ++ Path.parts name) := by
  have some_part : Path.parts directory ++ Path.parts name ≠ [] :=
    List.append_ne_nil_of_right_ne_nil _ inner.parts_ne_nil
  rw [locate_eq, Path.parts_join directory inner.front_eq, if_neg some_part]

theorem locate_join_eq_bind (files : Files) (directory : String) {name : String}
    (inner : Inner name) : files.locate (Path.join directory name) =
      (files.reach (Path.parts directory)).bind (files.walk · (Path.parts name)) := by
  rw [locate_join_eq_reach files directory inner, reach,
    origin_append files _ fun part mem => inner.isName mem, walk_append, reach]

/-- A name below a directory leads to the place of the directory with the names in it. -/
theorem locate_join {directory name : String} (inner : Inner name)
    (reached : files.reach (Path.parts directory) = .ok here)
    (located : files.locate (Path.join directory name) = .ok place) :
    place = here ++ Path.parts name := by
  rw [locate_join_eq_bind files directory inner, reached] at located
  exact eq_append_of_walk inner.down located

theorem exists_reach_of_locate_join {directory name : String} (inner : Inner name)
    (located : files.locate (Path.join directory name) = .ok place) :
    ∃ here, files.reach (Path.parts directory) = .ok here := by
  rw [locate_join_eq_bind files directory inner] at located
  cases reached : files.reach (Path.parts directory) with
  | ok here => exact ⟨here, rfl⟩
  | error error =>
      rw [reached] at located
      cases located

/-! ## Looking at paths -/

theorem isFile_iff {path : String} : files.isFile path = true ↔
    ∃ place content, files.locate path = .ok place ∧ files.content? place = some content := by
  unfold isFile find?
  cases files.locate path with
  | error error => simp
  | ok place =>
      simp only [Except.ok.injEq, content?]
      split <;> simp_all

theorem isDir_iff {path : String} : files.isDir path = true ↔
    ∃ place, files.locate path = .ok place ∧ files.node? place = some .directory := by
  unfold isDir find?
  cases files.locate path with
  | error error => simp
  | ok place => simp

theorem read_eq_ok_iff {path : String} : files.read path = .ok content ↔
    ∃ place, files.locate path = .ok place ∧ files.content? place = some content := by
  unfold read
  rw [bind_eq_ok_iff]
  refine exists_congr fun place => and_congr_right fun located => ?_
  unfold content?
  split
  · next none_found => simp [none_found]
  · next directory => simp [directory]
  · next found => simp [found, pure, Except.pure]

theorem parts_ne_nil_of_isDir {path : String} (directory : files.isDir path = true) :
    Path.parts path ≠ [] := by
  rcases isDir_iff.mp directory with ⟨place, located, _⟩
  intro empty
  rw [locate_eq, if_pos empty] at located
  cases located

/-- What a name below a directory leads through is a directory. -/
theorem isDir_of_locate_join {directory name : String} (inner : Inner name)
    (some_part : Path.parts directory ≠ [])
    (located : files.locate (Path.join directory name) = .ok place) :
    files.isDir directory = true := by
  rcases exists_reach_of_locate_join inner located with ⟨here, reached⟩
  rw [locate_join_eq_bind files directory inner, reached] at located
  apply isDir_iff.mpr
  refine ⟨here, ?_, ?_⟩
  · rw [locate_eq, if_neg some_part, reached]
  · cases names : Path.parts name with
    | nil => exact absurd names inner.parts_ne_nil
    | cons first rest =>
        rw [names] at located
        exact (walk_cons_eq_ok_iff.mp located).1

end Files

end TextVectors
