import TextVectors.Proofs.Files.Halts
import TextVectors.Proofs.Files.Tree

/-!
# Directories that are made

Making a directory with all that is missing above it puts directories where
nothing stood, and changes nothing else however it is halted,
`makeDirectories_throughout`. If it succeeds, the directory is there.

A path may lead to a file afterwards that it did not lead to before: when a path
goes up behind a directory that was missing, making this directory opens a way to
others that have been there all along. The names behind the first missing
directory of a path are its `unmade` names. In a tree, where everything stands in
a directory, a path leads to no new files if it does not go up among these,
`SameBut.locate_file`.
-/

namespace TextVectors

namespace Files

variable {files later : Files} {changed : List Place} {place here : Place}
  {content : List UInt8} {path : String} {operation : Operation}

/-! ## Trees -/

/-- Everything stands in a directory. -/
def IsTree (files : Files) : Prop :=
  ∀ place name, (files.node? (place ++ [name])).isSome → files.node? place = some .directory

theorem isTree_of_forall (standing : ∀ pair ∈ files.nodes,
    files.node? pair.1.dropLast = some .directory) : files.IsTree := by
  intro place name found
  have listed : ((files.nodes.lookup (place ++ [name])).isSome) = true := by
    rw [node?, if_neg (List.append_ne_nil_of_right_ne_nil place (List.cons_ne_nil _ _))] at found
    exact found
  rw [Option.isSome_iff_exists] at listed
  rcases listed with ⟨node, listed⟩
  rcases List.lookup_eq_some_iff.mp listed with ⟨before, behind, nodes, _⟩
  have mem : (place ++ [name], node) ∈ files.nodes := by
    rw [nodes]
    exact List.mem_append_right before List.mem_cons_self
  have below := standing _ mem
  rw [List.dropLast_concat] at below
  exact below

theorem IsTree.directory_of_append (tree : files.IsTree) {names : List String}
    (below : names ≠ []) (found : (files.node? (here ++ names)).isSome) :
    files.node? here = some .directory := by
  induction names generalizing here with
  | nil => exact absurd rfl below
  | cons name rest ih =>
      cases rest with
      | nil => exact tree here name found
      | cons next more =>
          rw [List.append_cons] at found
          have inside := ih (List.cons_ne_nil _ _) found
          exact tree here name (by rw [inside]; rfl)

/-- Names that do not go up lead to what stands there. -/
theorem IsTree.walk (tree : files.IsTree) {names : List String} (down : ".." ∉ names)
    (short : ∀ name ∈ names, name.utf8ByteSize ≤ longestName)
    (found : (files.node? (here ++ names)).isSome) :
    files.walk here names = .ok (here ++ names) := by
  induction names generalizing here with
  | nil => rw [Files.walk, List.append_nil]
  | cons name rest ih =>
      rw [List.mem_cons, not_or] at down
      have directory := tree.directory_of_append (List.cons_ne_nil name rest) found
      rw [List.append_cons] at found ⊢
      apply walk_cons_eq_ok_iff.mpr
      refine ⟨directory, .inr ⟨Ne.symm down.1, short name List.mem_cons_self, ?_⟩⟩
      exact ih down.2 (fun part mem => short part (List.mem_cons_of_mem _ mem)) found

/-! ## Missing directories -/

/-- The names that are left when names are followed until nothing stands at a place. -/
def unmadeFrom (files : Files) : Place → List String → List String
  | _, [] => []
  | here, name :: rest =>
    match files.node? here with
    | none => name :: rest
    | some (.file _) => []
    | some .directory =>
      if name = ".." then files.unmadeFrom here.dropLast rest
      else if longestName < name.utf8ByteSize then []
      else files.unmadeFrom (here ++ [name]) rest

/-- The names of a path behind its first missing directory. -/
def unmade (files : Files) (path : String) : List String :=
  files.unmadeFrom (files.origin (Path.parts path)).1 (files.origin (Path.parts path)).2

theorem mem_of_mem_unmadeFrom {names : List String} {name : String}
    (mem : name ∈ files.unmadeFrom here names) : name ∈ names := by
  induction names generalizing here with
  | nil => exact mem
  | cons first rest ih =>
      rw [unmadeFrom] at mem
      split at mem
      · exact mem
      · cases mem
      · split at mem
        · exact List.mem_cons_of_mem _ (ih mem)
        · split at mem
          · cases mem
          · exact List.mem_cons_of_mem _ (ih mem)

theorem mem_unmadeFrom_append {names more : List String} {name : String}
    (mem : name ∈ files.unmadeFrom here (names ++ more)) :
    name ∈ files.unmadeFrom here names ∨ name ∈ more := by
  induction names generalizing here with
  | nil => exact .inr (mem_of_mem_unmadeFrom mem)
  | cons first rest ih =>
      rw [List.cons_append, unmadeFrom] at mem
      rw [unmadeFrom]
      split at mem
      · exact List.mem_append.mp mem
      · cases mem
      · split at mem
        · next up =>
          rw [if_pos up]
          exact ih mem
        · next down =>
          rw [if_neg down]
          split at mem
          · cases mem
          · next short =>
            rw [if_neg short]
            exact ih mem

/-- Nothing is missing on the way to a place. -/
theorem unmadeFrom_of_walk {names : List String} (reached : files.walk here names = .ok place) :
    files.unmadeFrom here names = [] := by
  induction names generalizing here with
  | nil => rfl
  | cons name rest ih =>
      rcases walk_cons_eq_ok_iff.mp reached with ⟨directory, followed⟩
      rw [unmadeFrom, directory]
      dsimp only
      rcases followed with ⟨up, followed⟩ | ⟨down, short, followed⟩
      · rw [if_pos up]
        exact ih followed
      · rw [if_neg down, if_neg (Nat.not_lt_of_le short)]
        exact ih followed

/-- A directory that exists has no missing ones above it. -/
theorem unmade_of_isDir (directory : files.isDir path = true) : files.unmade path = [] := by
  rcases isDir_iff.mp directory with ⟨place, located, _⟩
  rw [locate_eq] at located
  split at located
  · cases located
  · exact unmadeFrom_of_walk located

/-- In a tree, new directories lead to no new file by names that do not go up behind the first
missing directory. -/
theorem SameBut.walk_file (same : SameBut [] files later) (tree : files.IsTree)
    {names : List String} (down : ".." ∉ files.unmadeFrom here names)
    (reached : later.walk here names = .ok place) (found : later.content? place = some content) :
    files.walk here names = .ok place := by
  induction names generalizing here with
  | nil => exact reached
  | cons name rest ih =>
      rcases walk_cons_eq_ok_iff.mp reached with ⟨directory, followed⟩
      cases node : files.node? here with
      | none =>
          -- everything behind a missing directory is new, so no file can be there
          rw [unmadeFrom, node] at down
          have at_names := eq_append_of_walk down reached
          rw [same.content place List.not_mem_nil, content?_eq_some_iff, at_names] at found
          have standing := tree.directory_of_append (List.cons_ne_nil name rest)
            (by rw [found]; rfl)
          rw [node] at standing
          cases standing
      | some standing =>
          cases standing with
          | file other =>
              have kept : later.content? here = some other := by
                rw [same.content here List.not_mem_nil]
                exact content?_eq_some_iff.mpr node
              rw [content?_eq_some_iff, directory] at kept
              cases kept
          | directory =>
              rw [unmadeFrom, node] at down
              dsimp only at down
              apply walk_cons_eq_ok_iff.mpr
              refine ⟨node, ?_⟩
              rcases followed with ⟨up, followed⟩ | ⟨onward, short, followed⟩
              · rw [if_pos up] at down
                exact .inl ⟨up, ih down followed⟩
              · rw [if_neg onward, if_neg (Nat.not_lt_of_le short)] at down
                exact .inr ⟨onward, short, ih down followed⟩

/-- Below a path that does not go up behind its first missing directory, new directories lead to no
new file. -/
theorem SameBut.locate_file (same : SameBut [] files later) (tree : files.IsTree)
    {directory name : String} (down : ".." ∉ files.unmade directory) (inner : Inner name)
    (located : later.locate (Path.join directory name) = .ok place)
    (found : later.content? place = some content) :
    files.locate (Path.join directory name) = .ok place := by
  have proper : ∀ part ∈ Path.parts name, Path.IsName part := fun part mem => inner.isName mem
  rw [locate_join_eq_reach later directory inner, Files.reach, same.origin] at located
  rw [locate_join_eq_reach files directory inner, Files.reach]
  refine same.walk_file tree ?_ located found
  rw [origin_append files _ proper]
  intro up
  rcases mem_unmadeFrom_append up with among | within
  · exact down among
  · exact inner.down within

/-! ## Making directories -/

theorem exists_of_makeDirectory (made : files.makeDirectory path = .ok operation) :
    ∃ place, operation = .makeDirectory place ∧ files.locate path = .ok place ∧
      files.node? place = none := by
  unfold makeDirectory at made
  rw [bind_eq_ok_iff] at made
  rcases made with ⟨place, located, made⟩
  split at made
  · cases made
  · next free =>
    rw [Option.not_isSome_iff_eq_none] at free
    cases made
    exact ⟨place, rfl, located, free⟩

/-- A directory that is made is there, and nothing else has changed. -/
theorem isDir_of_makeDirectory (made : files.makeDirectory path = .ok operation) :
    SameBut [] files (files.apply operation) ∧ (files.apply operation).isDir path = true := by
  rcases exists_of_makeDirectory made with ⟨place, rfl, located, free⟩
  have same := SameBut.makeDirectory free
  have inner : place ≠ [] := by
    rintro rfl
    rw [node?_nil] at free
    cases free
  exact ⟨same, isDir_iff.mpr ⟨place, same.locate located, node?_put_self inner files _⟩⟩

theorem throughout_makeDirectory (made : files.makeDirectory path = .ok operation) :
    Throughout (SameBut [] files) files [operation] := by
  refine .singleton (SameBut.refl [] files) (isDir_of_makeDirectory made).1 ?_
  rintro place content part rfl _
  rcases exists_of_makeDirectory made with ⟨_, filled, _⟩
  cases filled

/-- Making directories from the last missing one on makes directories only, changes nothing else,
and if it succeeds, the last one is there. -/
theorem makeAll_spec (files : Files) (path : List String → String) (names : List String) :
    (∀ operation ∈ (files.makeAll path names).1, ∃ place, operation = .makeDirectory place) ∧
    Throughout (SameBut [] files) files (files.makeAll path names).1 ∧
    (names ≠ [] → (files.makeAll path names).2 = none →
      (files.applyAll (files.makeAll path names).1).isDir (path names) = true) := by
  have nothing : Throughout (SameBut [] files) files [] := .nil (SameBut.refl [] files)
  -- The names are those of the path from the last one on: a directory that cannot be made is tried
  -- again when those above it are there.
  induction names with
  | nil => exact ⟨by simp [makeAll], nothing, fun some_name => absurd rfl some_name⟩
  | cons name above ih =>
      rw [makeAll]
      split
      · next operation made =>
        rcases exists_of_makeDirectory made with ⟨place, is_directory, _⟩
        refine ⟨?_, throughout_makeDirectory made, fun _ _ => (isDir_of_makeDirectory made).2⟩
        intro other mem
        rw [List.mem_singleton.mp mem]
        exact ⟨place, is_directory⟩
      · split
        · next operations error made =>
          rw [made] at ih
          exact ⟨ih.1, ih.2.1, fun _ succeeded => nomatch succeeded⟩
        · next operations made =>
          rw [made] at ih
          rcases ih with ⟨directories, throughout, _⟩
          dsimp only at directories throughout ⊢
          split
          · next operation last =>
            rcases exists_of_makeDirectory last with ⟨place, is_directory, _⟩
            refine ⟨?_, ?_, ?_⟩
            · intro other mem
              rcases List.mem_append.mp mem with early | late
              · exact directories other early
              · rw [List.mem_singleton.mp late]
                exact ⟨place, is_directory⟩
            · refine throughout.append ((throughout_makeDirectory last).mono ?_)
              exact fun state same => throughout.after.trans same
            · intro _ _
              rw [applyAll_append]
              exact (isDir_of_makeDirectory last).2
          · next error refused =>
            refine ⟨directories, throughout, fun _ succeeded => ?_⟩
            dsimp only at succeeded ⊢
            split at succeeded
            · next standing => exact standing
            · cases succeeded
      · next error _ refused =>
        refine ⟨by simp, nothing, fun _ succeeded => ?_⟩
        dsimp only at succeeded ⊢
        split at succeeded
        · next standing => exact standing
        · cases succeeded

theorem makeDirectories_throughout (files : Files) (path : String) :
    Throughout (SameBut [] files) files (files.makeDirectories path).1 :=
  (makeAll_spec files _ _).2.1

theorem exists_of_mem_makeDirectories (mem : operation ∈ (files.makeDirectories path).1) :
    ∃ place, operation = .makeDirectory place :=
  (makeAll_spec files _ _).1 operation mem

theorem isDir_congr (files : Files) {left right : String}
    (same : Path.parts left = Path.parts right) : files.isDir left = files.isDir right := by
  unfold isDir find?
  rw [locate_eq, locate_eq, same]

theorem isDir_of_makeDirectories (some_part : Path.parts path ≠ [])
    (made : (files.makeDirectories path).2 = none) :
    (files.applyAll (files.makeDirectories path).1).isDir path = true := by
  have standing := (makeAll_spec files _ _).2.2 (by simpa using some_part) made
  rw [List.reverse_reverse, isDir_congr _ (Path.parts_ofParts path)] at standing
  exact standing

/-- When a directory has been made, its path leads to a place, and the directory stands there
unless the path has no parts. -/
theorem exists_reach_of_makeDirectories (files : Files) (path : String)
    (made : (files.makeDirectories path).2 = none) :
    ∃ here, (files.applyAll (files.makeDirectories path).1).reach (Path.parts path) = .ok here ∧
      (Path.parts path ≠ [] →
        (files.applyAll (files.makeDirectories path).1).node? here = some .directory) := by
  by_cases empty : Path.parts path = []
  · rw [empty]
    exact ⟨_, rfl, fun some_part => absurd rfl some_part⟩
  · rcases isDir_iff.mp (isDir_of_makeDirectories empty made) with ⟨place, located, standing⟩
    rw [locate_eq, if_neg empty] at located
    exact ⟨place, located, fun _ => standing⟩

end Files

end TextVectors
