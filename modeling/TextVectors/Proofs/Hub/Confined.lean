import TextVectors.Proofs.Hub.Footprint
import TextVectors.Proofs.Hub.SideBySide
import TextVectors.Sample.Hub

/-!
# What a fetch may change

A fetch into a directory changes nothing but what it must, `fetch_confined`: it makes
directories on the way and writes files below the directory, whose names are known
beforehand. A file that is not given by the hub stays as it is. Weights are written
by a fetch that succeeds only, and only one form of them.

The path of the directory may go up again behind a directory that is missing. When
this one is made, it may turn out to stand where a file of the model would, so that
one changes from nothing to a directory although the hub has not given it,
`not_kept_upwards`. Otherwise every directory that is made stands above the files.
-/

namespace TextVectors

namespace Hub

variable {hub : Hub} {access : Access} {modelId directory file name : String}
  {given : String → List UInt8 → Prop} {before made state after : Files} {here place : Place}
  {named : List String} {making operations : List Files.Operation}

/-- The place of a name under a directory. -/
def Under (files : Files) (directory name : String) (place : Place) : Prop :=
  ∃ here, files.reach (Path.parts directory) = .ok here ∧ place = placeIn here name

theorem Under.of_locate {files : Files} (inner : Files.Inner name)
    (located : files.locate (Path.join directory name) = .ok place) :
    Under files directory name place := by
  rcases Files.exists_reach_of_locate_join inner located with ⟨here, reached⟩
  exact ⟨here, reached, eq_placeIn inner reached located⟩

/-- What stands at a place is as before, or it is a directory that was made for a path which goes up
behind a missing directory. -/
def Kept (before after : Files) (directory : String) (place : Place) : Prop :=
  after.node? place = before.node? place ∨
    ".." ∈ before.unmade directory ∧ Files.Made before after directory place

theorem Kept.of_making (making : before.MakesFor directory operations)
    (same : Files.SameBut [] before (before.applyAll operations)) (inner : Files.Inner name)
    (reached : (before.applyAll operations).reach (Path.parts directory) = .ok here) :
    Kept before (before.applyAll operations) directory (placeIn here name) := by
  rcases making.node?_eq_or_made (placeIn here name) with node_eq | directory_made
  · exact .inl node_eq
  · refine .inr ⟨?_, directory_made⟩
    apply Decidable.byContradiction
    intro down
    have shorter := (directory_made.above same down reached).length_le
    rw [placeIn, List.length_append] at shorter
    have some_part := List.length_pos_iff.mpr inner.parts_ne_nil
    omega

theorem Kept.keep {changed : List Place} (kept : Kept before made directory place)
    (same : Files.SameBut changed made after) (node_eq : after.node? place = made.node? place) :
    Kept before after directory place := by
  rcases kept with unchanged | ⟨upwards, directory_made⟩
  · exact .inl (node_eq.trans unchanged)
  · exact .inr ⟨upwards, directory_made.keep same⟩

/-! ## Below the directory -/

theorem Footprint.apart (footprint : Footprint given directory made here named operations state)
    (mem : file ∈ downloads) (unnamed : file ∉ named) {operation : Files.Operation}
    (among : operation ∈ operations) : placeIn here file ∉ operation.places := by
  rcases footprint.within operation among with ⟨rfl, _⟩ | drafted | ⟨other, otherMem, rfl⟩
  · intro same
    have touching := placeIn_mem_touched here mem
    rw [List.mem_singleton.mp same] at touching
    exact placeIn_poolingDirectory_not_mem here touching
  · exact fun same => placeIn_not_mem_drafts here mem (drafted same)
  · have download := footprint.named_subset otherMem
    intro same
    rcases List.mem_cons.mp same with draft | target
    · apply placeIn_not_mem_drafts here mem
      rw [draft]
      exact draft_mem_drafts here download
    · have file_eq := placeIn_inj mem download (List.mem_singleton.mp target)
      exact unnamed (file_eq ▸ otherMem)

theorem Footprint.node?_eq (footprint : Footprint given directory made here named operations state)
    (mem : file ∈ downloads) (unnamed : file ∉ named) :
    state.node? (placeIn here file) = made.node? (placeIn here file) := by
  rw [footprint.state_eq]
  exact Files.node?_applyAll_of_not_mem fun operation among => footprint.apart mem unnamed among

theorem Footprint.kept (footprint : Footprint given directory made here named operations state)
    (mem : file ∈ downloads) (unnamed : file ∉ named)
    (kept : Kept before made directory (placeIn here file)) :
    Kept before state directory (placeIn here file) := by
  exact kept.keep footprint.same (footprint.node?_eq mem unnamed)

theorem Footprint.not_written (footprint : Footprint given directory made here named operations
    state) (mem : file ∈ downloads) (unnamed : file ∉ named) :
    placeIn here file ∉ operations.filterMap Files.Operation.written? := by
  intro written
  rcases List.mem_filterMap.mp written with ⟨operation, among, writes⟩
  exact footprint.apart mem unnamed among (Files.Operation.mem_places_of_written? writes)

theorem Footprint.written (footprint : Footprint given directory made here named operations state)
    (mem : file ∈ named) :
    placeIn here file ∈ operations.filterMap Files.Operation.written? ∧
      ∃ content, given file content ∧ state.node? (placeIn here file) = some (.file content) := by
  rcases footprint.content file mem with ⟨naming_mem, _, content, gave, found⟩
  refine ⟨List.mem_filterMap.mpr ⟨_, naming_mem, rfl⟩, content, gave, ?_⟩
  exact Files.content?_eq_some_iff.mp found

/-- Names of files and drafts under the directory of a model. -/
def ownNames : List String :=
  downloads ++ downloads.map draftName

/-- Below the directory, only files and drafts change, and the directory for the pooling. -/
theorem Footprint.frame (footprint : Footprint given directory made here named operations state)
    (place : Place) :
    state.node? place = made.node? place ∨
      Files.Made made state (Path.join directory poolingDirectory) place ∨
      ∃ name ∈ ownNames, place = placeIn here name := by
  by_cases changed : ∃ operation ∈ operations, place ∈ operation.places
  · right
    have own : ∀ file ∈ downloads, place = placeIn here file ∨ place = placeIn here (draftName file)
        → ∃ name ∈ ownNames, place = placeIn here name := by
      rintro file mem (same | same)
      · exact ⟨file, List.mem_append_left _ mem, same⟩
      · exact ⟨draftName file, List.mem_append_right _ (List.mem_map_of_mem mem), same⟩
    rcases changed with ⟨operation, among, mem⟩
    rcases footprint.within operation among with ⟨rfl, making⟩ | drafted | ⟨file, fileMem, rfl⟩
    · left
      rw [List.mem_singleton.mp mem]
      exact making
    · right
      rcases List.mem_map.mp (drafted mem) with ⟨file, download, same⟩
      exact own file download (.inr same.symm)
    · right
      apply own file (footprint.named_subset fileMem)
      rcases List.mem_cons.mp mem with draft | target
      · exact .inr draft
      · exact .inl (List.mem_singleton.mp target)
  · left
    rw [footprint.state_eq]
    apply Files.node?_applyAll_of_not_mem
    intro operation among mem
    exact changed ⟨operation, among, mem⟩

/-! ## A whole fetch -/

/-- What stands at a place is kept, and no file is ever written there. -/
structure Spared (before after : Files) (directory : String) (operations : List Files.Operation)
    (place : Place) : Prop where
  kept : Kept before after directory place
  not_written : place ∉ operations.filterMap Files.Operation.written?

/-- A file that the hub has given stands at a place, where it was written. -/
structure Placed (given : List UInt8 → Prop) (after : Files) (operations : List Files.Operation)
    (place : Place) : Prop where
  written : place ∈ operations.filterMap Files.Operation.written?
  content : ∃ content, given content ∧ after.node? place = some (.file content)

/-- What a fetch into a directory changes, by its outcome. -/
structure Confined (given : String → List UInt8 → Prop) (directory : String) (before after : Files)
    (operations : List Files.Operation) (outcome : Except FetchError String) : Prop where
  leads : ∀ path place, before.locate path = .ok place → after.locate path = .ok place
  /-- Nothing changes but the directory and those above it that were missing, the one for the
  pooling, the files of the model and their drafts. -/
  frame : ∀ place, after.node? place = before.node? place ∨
    Files.Made before after (Path.join directory poolingDirectory) place ∨
    ∃ name ∈ ownNames, Under after directory name place
  others : ∀ file ∈ [Model.configFile, Model.tokenizerFile, Model.poolingFile], ∀ place,
    Under after directory file place →
      Spared before after directory operations place ∨ Placed (given file) after operations place
  failed : ∀ error, outcome = .error error → ∀ file ∈ Model.weightFiles, ∀ place,
    Under after directory file place → Spared before after directory operations place
  succeeded : ∀ path, outcome = .ok path → ∃ file ∈ Model.weightFiles,
    (∃ place, Under after directory file place ∧ Placed (given file) after operations place) ∧
    ∀ other ∈ Model.weightFiles, other ≠ file → ∀ place,
      Under after directory other place → Spared before after directory operations place

theorem others_subset :
    [Model.configFile, Model.tokenizerFile, Model.poolingFile] ⊆ downloads := by decide

section

variable {outcome : Except FetchError String} {asked : List Exchange}
  (makes : before.MakesFor directory making)
  (same : Files.SameBut [] before (before.applyAll making))

include makes in
theorem not_written_of_making (place : Place) :
    place ∉ making.filterMap Files.Operation.written? := by
  intro written
  rcases List.mem_filterMap.mp written with ⟨operation, among, writes⟩
  rcases makes operation among with ⟨other, rfl, _⟩
  cases writes

include makes same

theorem Confined.of_making {error : FetchError} :
    Confined given directory before (before.applyAll making) making (.error error) := by
  have spared : ∀ file ∈ downloads, ∀ place, Under (before.applyAll making) directory file place →
      Spared before (before.applyAll making) directory making place := by
    rintro file mem place ⟨here, reached, rfl⟩
    exact ⟨.of_making makes same (inner_of_mem mem) reached, not_written_of_making makes _⟩
  refine ⟨fun path place => same.locate, ?_, ?_, ?_, nofun⟩
  · intro place
    rcases makes.node?_eq_or_made place with unchanged | directory_made
    · exact .inl unchanged
    · exact .inr (.inl (directory_made.join inner_poolingDirectory))
  · intro file mem place under
    exact .inl (spared file (others_subset mem) place under)
  · intro _ _ file mem
    exact spared file (weightFiles_subset mem)

theorem Confined.of_footprint
    (footprint : Footprint given directory (before.applyAll making) here named operations after)
    (names : Names hub access modelId directory asked outcome named) :
    Confined given directory before after (making ++ operations) outcome := by
  have reached := footprint.same.reach footprint.reached
  have place_eq : ∀ {name place}, Under after directory name place → place = placeIn here name := by
    rintro name place ⟨other, reached_other, rfl⟩
    cases reached.symm.trans reached_other
    rfl
  have spared : ∀ file ∈ downloads, file ∉ named → ∀ place, Under after directory file place →
      Spared before after directory (making ++ operations) place := by
    intro file mem unnamed place under
    rw [place_eq under]
    constructor
    · apply footprint.kept mem unnamed
      exact .of_making makes same (inner_of_mem mem) footprint.reached
    · rw [List.filterMap_append, List.mem_append, not_or]
      exact ⟨not_written_of_making makes _, footprint.not_written mem unnamed⟩
  have placed : ∀ file ∈ named,
      Placed (given file) after (making ++ operations) (placeIn here file) := by
    intro file mem
    rcases footprint.written mem with ⟨written, content⟩
    refine ⟨?_, content⟩
    rw [List.filterMap_append]
    exact List.mem_append_right _ written
  -- a file is written if it has got a name, and spared otherwise
  refine ⟨?_, ?_, ?_, ?_, ?_⟩
  · intro path place located
    exact footprint.same.locate (same.locate located)
  · intro place
    rcases footprint.frame place with unchanged | pooling_made | ⟨name, own, place_is⟩
    · rcases makes.node?_eq_or_made place with also_unchanged | directory_made
      · exact .inl (unchanged.trans also_unchanged)
      · exact .inr (.inl ((directory_made.keep footprint.same).join inner_poolingDirectory))
    · exact .inr (.inl (pooling_made.since same))
    · exact .inr (.inr ⟨name, own, here, reached, place_is⟩)
  · intro file mem place under
    by_cases its_named : file ∈ named
    · rw [place_eq under]
      exact .inr (placed file its_named)
    · exact .inl (spared file (others_subset mem) its_named place under)
  · rintro error rfl file mem
    cases names with
    | failed plain =>
        exact spared file (weightFiles_subset mem) fun its_named => plain file its_named mem
  · rintro path rfl
    cases names with
    | @succeeded earlier weights plain last all =>
        refine ⟨weights, last, ⟨_, ⟨here, reached, rfl⟩, placed weights ?_⟩, ?_⟩
        · exact List.mem_append_right _ List.mem_cons_self
        · intro other otherMem ne
          apply spared other (weightFiles_subset otherMem)
          intro its_named
          rcases List.mem_append.mp its_named with early | late
          · exact plain other early otherMem
          · exact ne (List.mem_singleton.mp late)

end

/-- A fetch changes nothing but what it must, and what it does is up to its pins and to the answers
that it gets. -/
theorem fetch_confined (hub : Hub) (access : Access) (modelId directory : String)
    (progress : Progress) :
    let fetched := fetch hub access modelId directory progress
    let given := Gave hub access modelId (exchanges hub access modelId directory steps progress)
    ∃ operations, Did progress fetched.1 operations ∧
      Confined given directory progress.files fetched.1.files operations fetched.2 ∧
      ∀ (otherHub : Hub) (otherAccess : Access) (otherId : String) (requests : List Request),
        otherAccess.pins = access.pins →
        answers hub access modelId directory steps progress =
          answers otherHub otherAccess otherId directory steps { progress with requests } →
        Did progress (fetch otherHub otherAccess otherId directory { progress with requests }).1
          operations := by
  intro fetched given
  have alike : ∀ operations, Did progress fetched.1 operations → ∀ (otherHub : Hub)
      (otherAccess : Access) (otherId : String) (requests : List Request),
      otherAccess.pins = access.pins →
      answers hub access modelId directory steps progress =
        answers otherHub otherAccess otherId directory steps { progress with requests } →
      Did progress
        (fetch otherHub otherAccess otherId directory { progress with requests }).1 operations := by
    intro operations did otherHub otherAccess otherId requests pins same
    have start : Twin progress { progress with requests } := ⟨rfl, rfl⟩
    have twin := start.takeSteps pins same
    exact ⟨twin.operations_eq ▸ did.operations_eq, twin.files_eq ▸ did.files_eq⟩
  rcases fetch_footprint hub access modelId directory progress with
    ⟨making, makes, same, ⟨did, error, failed⟩ | ⟨here, named, more, did, footprint, names⟩⟩
  · refine ⟨making, did, ?_, alike making did⟩
    rw [show fetched.2 = .error error from failed, did.files_eq]
    exact .of_making makes same
  · exact ⟨making ++ more, did, .of_footprint makes same footprint names, alike _ did⟩

/-- When the directory that is missing in `m/model.safetensors/..` is made, a directory stands
where the weights would, and the fetch fails. -/
theorem not_kept_upwards :
    let settings := Sample.settings "m/model.safetensors/.." []
    let hub : Hub := fun _ _ => .unreachable "Connection Failed" "Network is unreachable"
    let progress : Progress := { files := ⟨[(["home"], .directory)], ["home"]⟩ }
    let fetched := fetch hub (.ofSettings settings) settings.modelId settings.modelDir progress
    fetched.2.toOption = none ∧
      progress.files.find? (Path.join settings.modelDir "model.safetensors") = none ∧
      fetched.1.files.find? (Path.join settings.modelDir "model.safetensors") = some .directory ∧
      ¬∀ file ∈ Model.weightFiles, ∀ place, Under fetched.1.files settings.modelDir file place →
        fetched.1.files.node? place = progress.files.node? place := by
  intro settings hub progress fetched
  have failed : fetched.2.toOption = none := by decide +kernel
  have after : fetched.1.files = ⟨[(["home", "m", "model.safetensors"], .directory),
      (["home", "m"], .directory), (["home"], .directory)], ["home"]⟩ := by decide +kernel
  rw [after]
  refine ⟨failed, by decide +kernel, by decide +kernel, ?_⟩
  intro kept
  have located : (Files.locate ⟨[(["home", "m", "model.safetensors"], .directory),
      (["home", "m"], .directory), (["home"], .directory)], ["home"]⟩ (Path.join settings.modelDir
      "model.safetensors")).toOption = some ["home", "m", "model.safetensors"] := by
    decide +kernel
  have under := Under.of_locate (inner_of_mem (by decide)) (eq_ok_of_toOption located)
  have same := kept "model.safetensors" (by decide) _ under
  cases same

end Hub

end TextVectors
