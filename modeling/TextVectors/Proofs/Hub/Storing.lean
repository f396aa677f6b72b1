import TextVectors.Proofs.Hub.Footprint

/-!
# Where nothing stands in the way

Writing the files of a model can fail only if something is in the way. Where the
directories of a fetch can be made and no other directory is in the place of a file or
of a draft, files are `Clear`. A file that is stored is stored without refusal then,
`Clear.store`, and files stay clear, since writing a file leaves no new directory,
`Clear.written`.
-/

namespace TextVectors

namespace Files

variable {files : Files} {here place other : Place} {content : List UInt8} {path name : String}

theorem reach_concat {parts : List String} (reached : files.reach parts = .ok here)
    (standing : files.node? here = some .directory) (proper : Path.IsName name)
    (down : name ≠ "..") (short : name.utf8ByteSize ≤ longestName) :
    files.reach (parts ++ [name]) = .ok (here ++ [name]) := by
  have followed : files.walk here [name] = .ok (here ++ [name]) :=
    walk_cons_eq_ok_iff.mpr ⟨standing, .inr ⟨down, short, rfl⟩⟩
  rw [reach] at reached
  rw [reach, origin_append files parts (by simpa using proper), walk_append, reached]
  exact followed

/-! ## Directories -/

theorem makeDirectory_congr {left right : String} (same : Path.parts left = Path.parts right) :
    files.makeDirectory left = files.makeDirectory right := by
  unfold makeDirectory
  rw [locate_eq, locate_eq, same]

theorem makeDirectory_eq (located : files.locate path = .ok place) :
    files.makeDirectory path =
      if (files.node? place).isSome then .error .exists else .ok (.makeDirectory place) := by
  rw [makeDirectory, located]
  rfl

/-- Where a path leads, its directory is made if nothing stands there. -/
theorem makeDirectories_eq (located : files.locate path = .ok place) :
    files.makeDirectories path =
      match files.node? place with
      | none => ([.makeDirectory place], none)
      | some .directory => ([], none)
      | some (.file _) => ([], some .exists) := by
  have some_part : (Path.parts path).reverse ≠ [] := by
    rw [Ne, List.reverse_eq_nil_iff]
    intro empty
    rw [locate_eq, if_pos empty] at located
    cases located
  have same := Path.parts_ofParts path
  rcases List.exists_cons_of_ne_nil some_part with ⟨last, above, reversed⟩
  have whole : (last :: above).reverse = Path.parts path := by
    rw [← reversed, List.reverse_reverse]
  rw [makeDirectories, reversed, makeAll, whole, makeDirectory_congr same,
    makeDirectory_eq located, isDir_congr files same, isDir, find?, located]
  cases node : files.node? place with
  | none => rfl
  | some standing =>
      cases standing with
      | directory => simp [node]
      | file content => simp [node]

/-- A path of one name leads to a place if its directory is made. -/
theorem exists_locate_of_makeDirectories (single : Path.parts path = [name])
    (made : (files.makeDirectories path).2 = none) : ∃ place, files.locate path = .ok place := by
  have same : Path.parts (Path.ofParts [name]) = Path.parts path := by
    rw [← single, Path.parts_ofParts, single]
  have led (standing : files.isDir (Path.ofParts [name]) = true) :
      ∃ place, files.locate path = .ok place := by
    rw [isDir_congr files same] at standing
    rcases isDir_iff.mp standing with ⟨place, located, _⟩
    exact ⟨place, located⟩
  rw [makeDirectories, single, List.reverse_singleton, makeAll, List.reverse_singleton,
    makeDirectory_congr same] at made
  cases once : files.makeDirectory path with
  | ok operation =>
      rcases exists_of_makeDirectory once with ⟨place, _, located, _⟩
      exact ⟨place, located⟩
  | error error =>
      rw [once] at made
      apply led
      by_contra lost
      cases error <;> simp [makeAll, applyAll, makeDirectory_congr same, once, lost] at made

/-- The files when the directory of a path has been made, as far as it can be. -/
def withDirectory (files : Files) (path : String) : Files :=
  files.applyAll (files.makeDirectories path).1

/-- Where only one place has changed and is no directory now, all directories were there before. -/
theorem directory_of_plain {later : Files}
    (same : ∀ other ≠ place, later.node? other = files.node? other)
    (plain : place ≠ [] → later.node? place ≠ some .directory)
    (found : later.node? other = some .directory) : files.node? other = some .directory := by
  by_cases here : other = place
  · subst here
    by_cases root : other = []
    · rw [root]
      exact node?_nil files
    · exact absurd found (plain root)
  · rwa [same other here] at found

theorem directory_of_put_file
    (found : (files.put place (.file content)).node? other = some .directory) :
    files.node? other = some .directory := by
  refine directory_of_plain (fun other elsewhere => node?_put_of_ne elsewhere files _) ?_ found
  intro inner
  simp [node?_put_self inner]

theorem node?_erase_self (inner : place ≠ []) : (files.erase place).node? place = none := by
  rw [node?, if_neg inner, List.lookup_eq_none_iff]
  intro pair mem
  rw [erase, List.mem_filter, decide_eq_true_eq] at mem
  simpa using Ne.symm mem.2

theorem directory_of_erase (found : (files.erase place).node? other = some .directory) :
    files.node? other = some .directory := by
  refine directory_of_plain (fun other elsewhere => node?_erase_of_ne elsewhere files) ?_ found
  intro inner
  simp [node?_erase_self inner]

/-- Renaming a file makes no directory. -/
theorem directory_of_rename {target : Place} (source : files.content? place = some content)
    (found : (files.apply (.rename place target)).node? other = some .directory) :
    files.node? other = some .directory := by
  rw [apply, content?_eq_some_iff.mp source] at found
  exact directory_of_erase (directory_of_put_file found)

/-! ## Operations that are not refused -/

theorem creatable_eq_ok (located : files.locate path = .ok place)
    (plain : files.node? place ≠ some .directory) : files.creatable path = .ok place := by
  rw [creatable, located, ok_bind, if_neg plain]
  rfl

theorem rename_eq_ok {source target : String} (source_at : files.locate source = .ok place)
    (target_at : files.locate target = .ok other) (found : files.content? place = some content)
    (plain : files.node? other ≠ some .directory) :
    files.rename source target = .ok (.rename place other) := by
  rw [rename, source_at, ok_bind, target_at, ok_bind, content?_eq_some_iff.mp found]
  cases node : files.node? other with
  | none => rfl
  | some standing =>
      cases standing with
      | directory => exact absurd node plain
      | file old => rfl

end Files

namespace Hub

variable {hub : Hub} {access : Access} {modelId directory file : String} {here : Place}
  {files : Files} {step : Step} {rest : List Step} {progress after : Progress}
  {content : List UInt8}

/-! ## Clear places -/

/-- Nothing is in the way of the steps that a fetch has still to take below the place of its
directory. -/
structure Clear (directory : String) (here : Place) (rest : List Step) (files : Files) : Prop where
  reached : files.reach (Path.parts directory) = .ok here
  standing : files.node? here = some .directory
  free : ∀ place ∈ touched here, files.node? place ≠ some .directory
  /-- The directory of the pooling file stands, or it can be made and is made before the file is
  asked for. -/
  pooling : files.node? (placeIn here poolingDirectory) = some .directory ∨
    files.node? (placeIn here poolingDirectory) = none ∧
      ∃ before after, rest = before ++ .makeDirectory poolingDirectory :: after ∧
        .optional Model.poolingFile ∉ before

theorem parts_cases : ∀ file ∈ downloads, ∀ name ∈ [file, draftName file],
    Path.parts name = [lastName name] ∨
      file = Model.poolingFile ∧ Path.parts name = [poolingDirectory, lastName name] := by
  decide

theorem proper_lastName : ∀ file ∈ downloads, ∀ name ∈ [file, draftName file],
    Path.IsName (lastName name) ∧ lastName name ≠ ".." ∧
      (lastName name).utf8ByteSize ≤ Files.longestName := by
  have proper : ∀ file ∈ downloads, ∀ name ∈ [file, draftName file],
      (lastName name ≠ "" ∧ lastName name ≠ "." ∧ '/' ∉ (lastName name).toList) ∧
        lastName name ≠ ".." ∧ (lastName name).utf8ByteSize ≤ Files.longestName := by
    decide
  intro file mem name among
  rcases proper file mem name among with ⟨⟨some_text, no_dot, no_slash⟩, others⟩
  exact ⟨⟨some_text, no_dot, no_slash⟩, others⟩

theorem parts_poolingDirectory : Path.parts poolingDirectory = [poolingDirectory] := by
  decide

theorem reach_poolingDirectory (reached : files.reach (Path.parts directory) = .ok here)
    (standing : files.node? here = some .directory) :
    files.reach (Path.parts directory ++ [poolingDirectory]) =
      .ok (placeIn here poolingDirectory) := by
  have proper : Path.IsName poolingDirectory := ⟨by decide, by decide, by decide⟩
  rw [placeIn, parts_poolingDirectory]
  exact Files.reach_concat reached standing proper (by decide) (by decide)

/-- Through directories that stand, the ways to a file and to its draft are open. -/
theorem locate_of_standing (reached : files.reach (Path.parts directory) = .ok here)
    (standing : files.node? here = some .directory)
    (pooling : file = Model.poolingFile →
      files.node? (placeIn here poolingDirectory) = some .directory)
    (mem : file ∈ downloads) : ∀ name ∈ [file, draftName file],
      files.locate (Path.join directory name) = .ok (placeIn here name) := by
  intro name among
  have inner : Files.Inner name := by
    simp only [List.mem_cons, List.not_mem_nil, or_false] at among
    rcases among with rfl | rfl
    · exact inner_of_mem mem
    · exact inner_draftName mem
  rcases proper_lastName file mem name among with ⟨proper, down, short⟩
  rw [Files.locate_join_eq_reach files directory inner, placeIn]
  rcases parts_cases file mem name among with single | ⟨is_pooling, double⟩
  · rw [single]
    exact Files.reach_concat reached standing proper down short
  · have halfway := reach_poolingDirectory reached standing
    have whole := Files.reach_concat halfway (pooling is_pooling) proper down short
    rw [double, ← List.singleton_append, ← List.append_assoc, ← List.append_assoc]
    rwa [placeIn, parts_poolingDirectory] at whole

theorem Clear.pooling_standing (clear : Clear directory here (step :: rest) files)
    (mem : step ∈ steps) (about : step.target? = some Model.poolingFile) :
    files.node? (placeIn here poolingDirectory) = some .directory := by
  have only : ∀ step ∈ steps, step.target? = some Model.poolingFile →
      step = .optional Model.poolingFile := by decide
  have asks := only step mem about
  rcases clear.pooling with standing | ⟨_, before, behind, split, early⟩
  · exact standing
  · cases before with
    | nil => cases split.symm.trans (congrArg (· :: rest) asks)
    | cons first before =>
        rw [List.cons_append, List.cons.injEq] at split
        exact absurd (split.1.symm.trans asks ▸ List.mem_cons_self) early

/-- The ways to the file of a step and to its draft are open. -/
theorem Clear.locate (clear : Clear directory here (step :: rest) files) (mem : step ∈ steps)
    (about : step.target? = some file) : ∀ name ∈ [file, draftName file],
      files.locate (Path.join directory name) = .ok (placeIn here name) := by
  refine locate_of_standing clear.reached clear.standing ?_ (mem_downloads_of_target? mem about)
  rintro rfl
  exact clear.pooling_standing mem about

theorem Clear.not_directory (clear : Clear directory here rest files) (mem : file ∈ downloads) :
    ∀ name ∈ [file, draftName file], files.node? (placeIn here name) ≠ some .directory := by
  intro name among
  simp only [List.mem_cons, List.not_mem_nil, or_false] at among
  rcases among with rfl | rfl
  · exact clear.free _ (placeIn_mem_touched here mem)
  · exact clear.free _ (drafts_subset_touched here (draft_mem_drafts here mem))

/-- The file of a step is stored without refusal. -/
theorem Clear.store (clear : Clear directory here (step :: rest) progress.files)
    (mem : step ∈ steps) (about : step.target? = some file) (content : List UInt8) :
    (progress.store (Path.join directory file) content).2 = .ok () := by
  have download := mem_downloads_of_target? mem about
  have draft_path : Path.join directory file ++ ".tmp" = Path.join directory (draftName file) :=
    Path.join_append directory ".tmp" (inner_of_mem download).front_eq
      (inner_draftName download).front_eq
  have draft_at := clear.locate mem about (draftName file) (by simp)
  have file_at := clear.locate mem about file (by simp)
  have plain_draft := clear.not_directory download (draftName file) (by simp)
  have plain_file := clear.not_directory download file (by simp)
  have same := (throughout_drafting content download plain_draft).after
  have filled : (progress.files.applyAll (drafting here file content)).content?
      (placeIn here (draftName file)) = some content :=
    Files.content?_put_file (placeIn_ne_nil here (inner_draftName download)) _ content
  have still_plain : (progress.files.applyAll (drafting here file content)).node?
      (placeIn here file) ≠ some .directory :=
    fun found => plain_file (Files.directory_of_put_file (Files.directory_of_put_file found))
  have renamed : (progress.perform (drafting here file content)).files.rename
      (Path.join directory (draftName file)) (Path.join directory file) =
        .ok (naming here file) :=
    Files.rename_eq_ok (same.locate draft_at) (same.locate file_at) filled still_plain
  unfold Progress.store
  rw [draft_path]
  dsimp only
  rw [Files.creatable_eq_ok draft_at plain_draft]
  dsimp only
  rw [drafting] at renamed
  rw [renamed]

theorem Clear.next {changed : List Place} {later : Files}
    (clear : Clear directory here (step :: rest) files)
    (other : step ≠ .makeDirectory poolingDirectory) (same : Files.SameBut changed files later)
    (directory_of : ∀ place, later.node? place = some .directory →
      files.node? place = some .directory)
    (apart : later.node? (placeIn here poolingDirectory) =
      files.node? (placeIn here poolingDirectory)) : Clear directory here rest later where
  reached := same.reach clear.reached
  standing := same.directory here clear.standing
  free := fun place mem found => clear.free place mem (directory_of place found)
  pooling := by
    rw [apart]
    refine clear.pooling.imp_right (And.imp_right ?_)
    rintro ⟨before, behind, split, early⟩
    cases before with
    | nil =>
        cases split
        exact absurd rfl other
    | cons first before =>
        rw [List.cons_append, List.cons.injEq] at split
        exact ⟨before, behind, split.2, fun mem => early (List.mem_cons_of_mem first mem)⟩

/-- What is left of a file after a draft has become it is no new directory. -/
theorem Clear.written (clear : Clear directory here (step :: rest) files) (mem : step ∈ steps)
    (about : step.target? = some file)
    (written : Written files directory here file content) :
    Clear directory here rest
      (files.applyAll (drafting here file content ++ [naming here file])) := by
  have download := mem_downloads_of_target? mem about
  refine clear.next ?_ written.same ?_ ?_
  · rintro rfl
    cases about
  · intro place found
    rw [Files.applyAll_append] at found
    have filled : (files.applyAll (drafting here file content)).content?
        (placeIn here (draftName file)) = some content :=
      Files.content?_put_file (placeIn_ne_nil here (inner_draftName download)) _ content
    exact Files.directory_of_put_file
      (Files.directory_of_put_file (Files.directory_of_rename filled found))
  · apply Files.node?_applyAll_of_not_mem
    intro operation among touching
    refine placeIn_poolingDirectory_not_mem here ?_
    rcases List.mem_append.mp among with draft | last
    · exact drafts_subset_touched here (places_drafting download draft touching)
    · rw [List.mem_singleton.mp last, naming] at touching
      simp only [Files.Operation.places, List.mem_cons, List.not_mem_nil, or_false] at touching
      rcases touching with same | same
      · exact same ▸ drafts_subset_touched here (draft_mem_drafts here download)
      · exact same ▸ placeIn_mem_touched here download

/-- The directory of the pooling file is made without refusal. -/
theorem Clear.makeDirectory
    (clear : Clear directory here (.makeDirectory poolingDirectory :: rest) files) :
    (files.makeDirectories (Path.join directory poolingDirectory)).2 = none ∧
      Clear directory here rest
        (files.applyAll (files.makeDirectories (Path.join directory poolingDirectory)).1) := by
  have located : files.locate (Path.join directory poolingDirectory) =
      .ok (placeIn here poolingDirectory) := by
    rw [Files.locate_join_eq_reach files directory inner_poolingDirectory, parts_poolingDirectory]
    exact reach_poolingDirectory clear.reached clear.standing
  rw [Files.makeDirectories_eq located]
  rcases clear.pooling with standing | ⟨free, _⟩
  · rw [standing]
    exact ⟨rfl, clear.reached, clear.standing, clear.free, .inl standing⟩
  · rw [free]
    have same := Files.SameBut.makeDirectory free
    have inner := placeIn_ne_nil here inner_poolingDirectory
    refine ⟨rfl, same.reach clear.reached, same.directory here clear.standing, ?_, .inl ?_⟩
    · intro place mem found
      have ne : place ≠ placeIn here poolingDirectory := by
        rintro rfl
        exact placeIn_poolingDirectory_not_mem here mem
      refine clear.free place mem ?_
      rwa [← Files.node?_put_of_ne ne files .directory]
    · exact Files.node?_put_self inner files .directory

/-! ## The start -/

/-- The directories of a fetch can be made, and then no other one is in the place of a file or of a
draft. -/
structure Ready (files : Files) (directory : String) : Prop where
  makes : (files.makeDirectories directory).2 = none
  makesPooling : ((files.withDirectory directory).makeDirectories
    (Path.join directory poolingDirectory)).2 = none
  free : ∀ file ∈ downloads, ∀ name ∈ [file, draftName file],
    ((files.withDirectory directory).withDirectory (Path.join directory poolingDirectory)).isDir
      (Path.join directory name) = false

theorem parts_join_poolingDirectory (directory : String) :
    Path.parts (Path.join directory poolingDirectory) =
      Path.parts directory ++ [poolingDirectory] := by
  rw [Path.parts_join directory inner_poolingDirectory.front_eq, parts_poolingDirectory]

theorem Ready.standing (ready : Ready files directory)
    (reached : (files.withDirectory directory).reach (Path.parts directory) = .ok here)
    (stands : Path.parts directory ≠ [] →
      (files.withDirectory directory).node? here = some .directory) :
    (files.withDirectory directory).node? here = some .directory := by
  by_cases empty : Path.parts directory = []
  · -- the files are below the working directory, which is not made but must be there
    have single := parts_join_poolingDirectory directory
    rw [empty, List.nil_append] at single
    rcases Files.exists_locate_of_makeDirectories single ready.makesPooling with ⟨place, located⟩
    rw [Files.locate_join_eq_bind _ _ inner_poolingDirectory, reached, parts_poolingDirectory]
      at located
    exact (Files.walk_cons_eq_ok_iff.mp located).1
  · exact stands empty

theorem Ready.clear (ready : Ready files directory) :
    ∃ here, Clear directory here steps.tail (files.withDirectory directory) := by
  rcases Files.exists_reach_of_makeDirectories files directory ready.makes with
    ⟨here, reached, stands⟩
  have standing := ready.standing reached stands
  have located : (files.withDirectory directory).locate (Path.join directory poolingDirectory) =
      .ok (placeIn here poolingDirectory) := by
    rw [Files.locate_join_eq_reach _ directory inner_poolingDirectory, parts_poolingDirectory]
    exact reach_poolingDirectory reached standing
  have makes := ready.makesPooling
  rw [Files.makeDirectories_eq located] at makes
  have same := (Files.makeDirectories_throughout (files.withDirectory directory)
    (Path.join directory poolingDirectory)).after
  have pooling_made : ((files.withDirectory directory).withDirectory
      (Path.join directory poolingDirectory)).node? (placeIn here poolingDirectory) =
        some .directory := by
    have some_part : Path.parts (Path.join directory poolingDirectory) ≠ [] := by
      rw [parts_join_poolingDirectory]
      exact List.append_ne_nil_of_right_ne_nil _ (List.cons_ne_nil _ _)
    rcases Files.isDir_iff.mp (Files.isDir_of_makeDirectories some_part ready.makesPooling) with
      ⟨place, led, found⟩
    rw [same.locate located, Except.ok.injEq] at led
    rwa [← led] at found
  refine ⟨here, reached, standing, ?_, ?_⟩
  · intro place mem found
    have open_way : ∀ file ∈ downloads, ∀ name ∈ [file, draftName file],
        (files.withDirectory directory).node? (placeIn here name) ≠ some .directory := by
      intro file fileMem name among directory_there
      have located := locate_of_standing (same.reach reached) (same.directory here standing)
        (fun _ => pooling_made) fileMem name among
      have is_dir := Files.isDir_iff.mpr ⟨_, located, same.directory _ directory_there⟩
      cases (ready.free file fileMem name among).symm.trans is_dir
    rcases List.mem_append.mp mem with named | drafted
    · rcases List.mem_map.mp named with ⟨file, fileMem, rfl⟩
      exact open_way file fileMem file (by simp) found
    · rcases List.mem_map.mp drafted with ⟨file, fileMem, rfl⟩
      exact open_way file fileMem (draftName file) (by simp) found
  · cases node : (files.withDirectory directory).node? (placeIn here poolingDirectory) with
    | none =>
        exact .inr ⟨rfl, [.required Model.configFile, .required Model.tokenizerFile], _, rfl,
          by decide⟩
    | some standing_there =>
        cases standing_there with
        | directory => exact .inl rfl
        | file content =>
            rw [node] at makes
            cases makes

end Hub

end TextVectors
