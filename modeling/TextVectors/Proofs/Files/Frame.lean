import TextVectors.Proofs.Files.Directories

/-!
# What operations leave alone

Operations change nothing but the `places` that they name, so what a run of them
leaves alone is known from its list, `node?_applyAll_of_not_mem`.

The directories that are made for a path stand at places to which the path leads
on its way, and nothing stood there before: these are `Made`. They stand above the
place of the path unless the path goes up again behind the first directory that was
missing. If it does, a directory may be made below the place where the path ends;
otherwise none is, `Made.above`.
-/

namespace TextVectors

namespace Files

variable {files later last : Files} {place here : Place} {path : String}
  {operation : Operation} {operations : List Operation}

/-- The places that an operation may change. -/
def Operation.places : Operation → List Place
  | .makeDirectory place => [place]
  | .create place => [place]
  | .fill place _ => [place]
  | .rename source target => [source, target]

/-- The place at which an operation leaves a file. -/
def Operation.written? : Operation → Option Place
  | .makeDirectory _ => none
  | .create place => some place
  | .fill place _ => some place
  | .rename _ target => some target

theorem Operation.mem_places_of_written? (written : operation.written? = some place) :
    place ∈ operation.places := by
  cases operation with
  | makeDirectory other => cases written
  | rename source target =>
      cases written
      exact List.mem_cons_of_mem _ List.mem_cons_self
  | create other | fill other content =>
      cases written
      exact List.mem_cons_self

theorem node?_apply_of_not_mem (apart : place ∉ operation.places) :
    (files.apply operation).node? place = files.node? place := by
  cases operation with
  | rename source target =>
      simp only [Operation.places, List.mem_cons, List.not_mem_nil, or_false, not_or] at apart
      rw [apply]
      split
      · rw [node?_put_of_ne apart.2, node?_erase_of_ne apart.1]
      · rfl
  | _ =>
      simp only [Operation.places, List.mem_singleton] at apart
      exact node?_put_of_ne apart files _

/-- Operations leave a place alone that none of them names. -/
theorem node?_applyAll_of_not_mem (apart : ∀ operation ∈ operations, place ∉ operation.places) :
    (files.applyAll operations).node? place = files.node? place := by
  induction operations generalizing files with
  | nil => rfl
  | cons operation rest ih =>
      rw [applyAll, List.foldl_cons, ← applyAll, ih]
      · exact node?_apply_of_not_mem (apart operation List.mem_cons_self)
      · intro other mem
        exact apart other (List.mem_cons_of_mem _ mem)

/-! ## Directories that are made for a path -/

/-- A directory now stands where nothing stood, on the way of a path. -/
structure Made (files later : Files) (path : String) (place : Place) : Prop where
  free : files.node? place = none
  directory : later.node? place = some .directory
  leads : ∃ upper, Path.parts upper <+: Path.parts path ∧ later.locate upper = .ok place

/-- Operations make directories for a path, and do nothing else. -/
def MakesFor (files : Files) (path : String) (operations : List Operation) : Prop :=
  ∀ operation ∈ operations, ∃ place, operation = .makeDirectory place ∧
    Made files (files.applyAll operations) path place

theorem SameBut.node?_eq_none {changed : List Place} (same : SameBut changed files later)
    (apart : place ∉ changed) (free : later.node? place = none) : files.node? place = none := by
  cases node : files.node? place with
  | none => rfl
  | some standing =>
      cases standing with
      | directory =>
          rw [same.directory place node] at free
          cases free
      | file content =>
          have kept : later.content? place = some content := by
            rw [same.content place apart]
            exact content?_eq_some_iff.mpr node
          rw [content?_eq_some_iff, free] at kept
          cases kept

theorem Made.keep {changed : List Place} (made : Made files later path place)
    (same : SameBut changed later last) : Made files last path place where
  free := made.free
  directory := same.directory place made.directory
  leads := by
    rcases made.leads with ⟨upper, above, located⟩
    exact ⟨upper, above, same.locate located⟩

theorem Made.since (same : SameBut [] files later) (made : Made later last path place) :
    Made files last path place where
  free := same.node?_eq_none List.not_mem_nil made.free
  directory := made.directory
  leads := made.leads

theorem Made.join (made : Made files later path place) {name : String} (inner : Inner name) :
    Made files later (Path.join path name) place where
  free := made.free
  directory := made.directory
  leads := by
    rcases made.leads with ⟨upper, above, located⟩
    refine ⟨upper, above.trans ?_, located⟩
    rw [Path.parts_join path inner.front_eq]
    exact List.prefix_append _ _

theorem made_of_makeDirectory {upper : String} (above : Path.parts upper <+: Path.parts path)
    (making : files.makeDirectory upper = .ok operation) :
    ∃ place, operation = .makeDirectory place ∧ Made files (files.apply operation) path place := by
  rcases exists_of_makeDirectory making with ⟨place, rfl, located, free⟩
  have same := SameBut.makeDirectory free
  have inner : place ≠ [] := by
    rintro rfl
    rw [node?_nil] at free
    cases free
  exact ⟨place, rfl, free, node?_put_self inner files _, upper, above, same.locate located⟩

theorem made_of_mem_makeAll {names : List String} (within : names.reverse <+: Path.parts path)
    (mem : operation ∈ (files.makeAll (fun names => Path.ofParts names.reverse) names).1) :
    ∃ place, operation = .makeDirectory place ∧
      Made files
        (files.applyAll (files.makeAll (fun names => Path.ofParts names.reverse) names).1) path
        place := by
  -- the names of the path from the last one on, as the directories are made
  induction names with
  | nil => cases mem
  | cons name above ih =>
      have upper : Path.parts (Path.ofParts (name :: above).reverse) <+: Path.parts path := by
        rw [Path.parts_ofParts_of_prefix within]
        exact within
      have earlier : above.reverse <+: Path.parts path := by
        rw [List.reverse_cons] at within
        exact (List.prefix_append _ _).trans within
      have making := ih earlier
      have throughout := (makeAll_spec files (fun names => Path.ofParts names.reverse) above).2.1
      rw [makeAll] at mem ⊢
      split at mem
      · next operation single =>
        rw [List.mem_singleton.mp mem]
        exact made_of_makeDirectory upper single
      · split at mem
        · next operations error made =>
          rw [made] at making
          exact making mem
        · next operations made =>
          rw [made] at making throughout
          dsimp only at making throughout mem ⊢
          split at mem
          · next last_operation single =>
            rcases made_of_makeDirectory upper single with ⟨place, rfl, last_made⟩
            rw [applyAll_append]
            rcases List.mem_append.mp mem with early | late
            · rcases making early with ⟨other, rfl, early_made⟩
              exact ⟨other, rfl, early_made.keep (isDir_of_makeDirectory single).1⟩
            · rw [List.mem_singleton.mp late]
              exact ⟨place, rfl, last_made.since throughout.after⟩
          · exact making mem
      · cases mem

theorem makesFor_makeDirectories (files : Files) (path : String) :
    files.MakesFor path (files.makeDirectories path).1 := by
  intro operation mem
  have whole : (Path.parts path).reverse.reverse <+: Path.parts path := by
    simp only [List.reverse_reverse, List.prefix_refl]
  exact made_of_mem_makeAll whole mem

theorem MakesFor.node?_eq_or_made (making : files.MakesFor path operations) (place : Place) :
    (files.applyAll operations).node? place = files.node? place ∨
      Made files (files.applyAll operations) path place := by
  by_cases named : ∃ operation ∈ operations, place ∈ operation.places
  · right
    rcases named with ⟨operation, mem, among⟩
    rcases making operation mem with ⟨other, rfl, made⟩
    rw [List.mem_singleton.mp among]
    exact made
  · left
    apply node?_applyAll_of_not_mem
    intro operation mem among
    exact named ⟨operation, mem, among⟩

/-- Where a path leads to a directory, every part of it leads to one. -/
theorem reach_above {upper : String} (reached : files.reach (Path.parts path) = .ok here)
    (standing : files.node? here = some .directory) (some_part : Path.parts upper ≠ [])
    (above : Path.parts upper <+: Path.parts path) :
    ∃ place, files.reach (Path.parts upper) = .ok place ∧
      files.node? place = some .directory := by
  rcases above with ⟨more, whole⟩
  have proper : ∀ name ∈ more, Path.IsName name := by
    intro name mem
    exact Path.isName_of_parts_append whole.symm some_part mem
  rw [← whole, reach, origin_append files _ proper, walk_append, ← reach] at reached
  cases halfway : files.reach (Path.parts upper) with
  | error error =>
      rw [halfway] at reached
      cases reached
  | ok place =>
      rw [halfway] at reached
      refine ⟨place, rfl, ?_⟩
      cases more with
      | nil =>
          have arrived : place = here := by
            simpa [Except.bind, Files.walk] using reached
          rw [arrived]
          exact standing
      | cons name rest => exact (walk_cons_eq_ok_iff.mp reached).1

/-! ## Paths that do not go up again -/

theorem SameBut.walk_above (same : SameBut [] files later) {start : Place}
    {names more : List String} (down : ".." ∉ files.unmadeFrom start (names ++ more))
    (reached : later.walk start names = .ok place) (further : later.walk place more = .ok here)
    (free : files.node? place = none) : here = place ++ more := by
  -- on the names that lead to the place where a directory was missing: behind the first such place
  -- nothing goes up any more
  induction names generalizing start with
  | nil =>
      have arrived : start = place := by simpa [Files.walk] using reached
      subst arrived
      cases more with
      | nil =>
          rw [Files.walk, Except.ok.injEq] at further
          rw [← further, List.append_nil]
      | cons name rest =>
          rw [List.nil_append, unmadeFrom, free] at down
          exact eq_append_of_walk down further
  | cons name rest ih =>
      rcases walk_cons_eq_ok_iff.mp reached with ⟨directory, followed⟩
      rw [List.cons_append, unmadeFrom] at down
      cases node : files.node? start with
      | none =>
          rw [node] at down
          dsimp only at down
          rw [← List.cons_append, List.mem_append, not_or] at down
          exact eq_append_of_walk down.2 further
      | some standing =>
          cases standing with
          | file content =>
              have kept : later.content? start = some content := by
                rw [same.content start List.not_mem_nil]
                exact content?_eq_some_iff.mpr node
              rw [content?_eq_some_iff, directory] at kept
              cases kept
          | directory =>
              rw [node] at down
              dsimp only at down
              rcases followed with ⟨up, followed⟩ | ⟨onward, short, followed⟩
              · rw [if_pos up] at down
                exact ih down followed
              · rw [if_neg onward, if_neg (Nat.not_lt_of_le short)] at down
                exact ih down followed

/-- The directories that are made for a path that does not go up behind its first missing directory
stand above the place where it ends, or at it. -/
theorem Made.above (made : Made files later path place) (same : SameBut [] files later)
    (down : ".." ∉ files.unmade path) (reached : later.reach (Path.parts path) = .ok here) :
    place <+: here := by
  rcases made.leads with ⟨upper, ⟨more, whole⟩, located⟩
  rw [locate_eq] at located
  split at located
  · cases located
  · next some_part =>
    have proper : ∀ name ∈ more, Path.IsName name := by
      intro name mem
      exact Path.isName_of_parts_append whole.symm some_part mem
    rw [reach] at located reached
    rw [← whole, origin_append later _ proper, walk_append, located] at reached
    rw [unmade, ← whole, origin_append files _ proper, ← same.origin] at down
    exact ⟨more, (same.walk_above down located reached made.free).symm⟩

end Files

end TextVectors
