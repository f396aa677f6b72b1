import TextVectors.Proofs.Files.Directories
import TextVectors.Proofs.Hub.Exchanges

/-!
# Writing the files of a model

The files of a model are written below its directory, each by way of a draft.
Drafts and files all stand at different places. To write a file takes three
operations: its draft is created, filled and renamed. Until the renaming only
drafts have changed; afterwards the file has its content, `Written`. When writing
fails, only the draft may have been written, `store_cases`.

A body that the hub gives is written if it is `Accepted`: it has the digest that is
asked for, and the header that its file must have. This is all that asking for a
file can do to the files of the machine, `download_cases`.
-/

namespace TextVectors

namespace Hub

variable {hub : Hub} {access : Access} {modelId directory file path : String}
  {pin : Option String} {progress before after last : Progress} {content : List UInt8}

/-! ## Progress -/

/-- What a fetch has done to the files from one point to another. -/
structure Did (before after : Progress) (operations : List Files.Operation) : Prop where
  operations_eq : after.operations = before.operations ++ operations
  files_eq : after.files = before.files.applyAll operations

namespace Did

theorem refl (progress : Progress) : Did progress progress [] :=
  ⟨(List.append_nil _).symm, rfl⟩

theorem trans {first second : List Files.Operation} (early : Did before after first)
    (late : Did after last second) : Did before last (first ++ second) where
  operations_eq := by rw [late.operations_eq, early.operations_eq, List.append_assoc]
  files_eq := by rw [late.files_eq, early.files_eq, Files.applyAll_append]

theorem perform (progress : Progress) (operations : List Files.Operation) :
    Did progress (progress.perform operations) operations :=
  ⟨rfl, rfl⟩

theorem files_eq_of_nothing (nothing : Did before after []) : after.files = before.files :=
  nothing.files_eq

end Did

/-! ## Names and drafts -/

/-- The file that a step is about. -/
def Step.target? : Step → Option String
  | .makeModelDirectory => none
  | .makeDirectory _ => none
  | .required file => some file
  | .optional file => some file
  | .weights file => some file

/-- The files of a model that a fetch is about. -/
def downloads : List String :=
  steps.filterMap Step.target?

/-- The name of a file while it is being written. -/
def draftName (file : String) : String :=
  file ++ ".tmp"

/-- The place of a file below the place of a directory. -/
def placeIn (here : Place) (file : String) : Place :=
  here ++ Path.parts file

/-- The places of the drafts of all files. -/
def drafts (here : Place) : List Place :=
  downloads.map fun file => placeIn here (draftName file)

theorem inner_of_mem (mem : file ∈ downloads) : Files.Inner file := by
  have inner : ∀ file ∈ downloads,
      Path.front file = [] ∧ Path.parts file ≠ [] ∧ ".." ∉ Path.parts file := by decide
  exact ⟨(inner file mem).1, (inner file mem).2.1, (inner file mem).2.2⟩

theorem inner_draftName (mem : file ∈ downloads) : Files.Inner (draftName file) := by
  have inner : ∀ file ∈ downloads, Path.front (draftName file) = [] ∧
      Path.parts (draftName file) ≠ [] ∧ ".." ∉ Path.parts (draftName file) := by decide
  exact ⟨(inner file mem).1, (inner file mem).2.1, (inner file mem).2.2⟩

theorem eq_placeIn {files : Files} {here place : Place} {name : String}
    (inner : Files.Inner name) (reached : files.reach (Path.parts directory) = .ok here)
    (located : files.locate (Path.join directory name) = .ok place) :
    place = placeIn here name :=
  Files.locate_join inner reached located

theorem draft_mem_drafts (here : Place) (mem : file ∈ downloads) :
    placeIn here (draftName file) ∈ drafts here :=
  List.mem_map_of_mem mem

theorem placeIn_not_mem_drafts (here : Place) (mem : file ∈ downloads) :
    placeIn here file ∉ drafts here := by
  have apart : ∀ file ∈ downloads, ∀ other ∈ downloads,
      Path.parts (draftName other) ≠ Path.parts file := by decide
  unfold drafts
  rw [List.mem_map]
  rintro ⟨other, otherMem, same⟩
  exact apart file mem other otherMem (List.append_cancel_left same)

theorem placeIn_inj {here : Place} {other : String} (mem : file ∈ downloads)
    (otherMem : other ∈ downloads) (same : placeIn here file = placeIn here other) :
    file = other := by
  have apart : ∀ file ∈ downloads, ∀ other ∈ downloads,
      Path.parts file = Path.parts other → file = other := by decide
  exact apart file mem other otherMem (List.append_cancel_left same)

theorem placeIn_not_mem_written (here : Place) {other : String} (mem : file ∈ downloads)
    (otherMem : other ∈ downloads) (ne : other ≠ file) :
    placeIn here other ∉ placeIn here file :: drafts here := by
  rw [List.mem_cons, not_or]
  constructor
  · intro same
    exact ne (placeIn_inj otherMem mem same)
  · exact placeIn_not_mem_drafts here otherMem

/-- The places that a fetch may write below the place of a directory. -/
def touched (here : Place) : List Place :=
  downloads.map (placeIn here) ++ drafts here

theorem placeIn_mem_touched (here : Place) (mem : file ∈ downloads) :
    placeIn here file ∈ touched here :=
  List.mem_append_left _ (List.mem_map_of_mem mem)

theorem drafts_subset_touched (here : Place) : drafts here ⊆ touched here :=
  List.subset_append_right _ _

/-! ## Writing a file -/

/-- The operations that write a draft. -/
def drafting (here : Place) (file : String) (content : List UInt8) : List Files.Operation :=
  [.create (placeIn here (draftName file)), .fill (placeIn here (draftName file)) content]

/-- The operation that gives a draft its proper name. -/
def naming (here : Place) (file : String) : Files.Operation :=
  .rename (placeIn here (draftName file)) (placeIn here file)

/-- A file of a directory has been written by way of a draft. -/
structure Written (files : Files) (directory : String) (here : Place) (file : String)
    (content : List UInt8) : Prop where
  drafted : Files.Throughout (Files.SameBut (drafts here) files) files (drafting here file content)
  same : Files.SameBut (placeIn here file :: drafts here) files
    (files.applyAll (drafting here file content ++ [naming here file]))
  located : (files.applyAll (drafting here file content ++ [naming here file])).locate
    (Path.join directory file) = .ok (placeIn here file)
  content_eq : (files.applyAll (drafting here file content ++ [naming here file])).content?
    (placeIn here file) = some content

theorem exists_of_creatable {files : Files} {place : Place}
    (creatable : files.creatable path = .ok place) :
    files.locate path = .ok place ∧ files.node? place ≠ some .directory := by
  unfold Files.creatable at creatable
  rw [bind_eq_ok_iff] at creatable
  rcases creatable with ⟨found, located, creatable⟩
  split at creatable
  · cases creatable
  · next plain =>
    cases creatable
    exact ⟨located, plain⟩

theorem exists_of_rename {files : Files} {source target : String} {operation : Files.Operation}
    (renamed : files.rename source target = .ok operation) :
    ∃ here there, files.locate source = .ok here ∧ files.locate target = .ok there ∧
      operation = .rename here there ∧
      ((files.content? here).isSome → files.node? there ≠ some .directory) := by
  unfold Files.rename at renamed
  rw [bind_eq_ok_iff] at renamed
  rcases renamed with ⟨here, source_at, renamed⟩
  rw [bind_eq_ok_iff] at renamed
  rcases renamed with ⟨there, target_at, renamed⟩
  refine ⟨here, there, source_at, target_at, ?_⟩
  split at renamed
  · cases renamed
  · cases renamed
  · cases renamed
  · next standing source_node not_directory _ =>
    cases renamed
    refine ⟨rfl, fun some_content directory => ?_⟩
    rw [Option.isSome_iff_exists] at some_content
    rcases some_content with ⟨content, found⟩
    rw [Files.content?_eq_some_iff, source_node, Option.some.injEq] at found
    exact not_directory content directory found

/-- Writing a draft changes nothing but drafts. -/
theorem throughout_drafting {files : Files} {here : Place} (content : List UInt8)
    (mem : file ∈ downloads)
    (plain : files.node? (placeIn here (draftName file)) ≠ some .directory) :
    Files.Throughout (Files.SameBut (drafts here) files) files (drafting here file content) := by
  have among : [placeIn here (draftName file)] ⊆ drafts here := by
    intro place same
    rw [List.mem_singleton.mp same]
    exact draft_mem_drafts here mem
  have created := (Files.SameBut.create plain).mono among
  have filled : ∀ part, Files.SameBut (drafts here) files
      ((files.apply (.create (placeIn here (draftName file)))).apply
        (.fill (placeIn here (draftName file)) part)) := by
    intro part
    have still_plain : (files.apply (.create (placeIn here (draftName file)))).node?
        (placeIn here (draftName file)) ≠ some .directory := by
      have inner : placeIn here (draftName file) ≠ [] := by
        intro root
        rw [root, Files.node?_nil] at plain
        exact plain rfl
      rw [Files.apply, Files.node?_put_self inner]
      simp
    exact created.trans ((Files.SameBut.fill still_plain part).mono among)
  apply Files.Throughout.cons
  · apply Files.Throughout.singleton (.refl _ _) created
    intro place content part is_fill
    cases is_fill
  · apply Files.Throughout.singleton created (filled content)
    intro place whole part is_fill _
    cases is_fill
    exact filled part

theorem placeIn_ne_nil (here : Place) {name : String} (inner : Files.Inner name) :
    placeIn here name ≠ [] :=
  List.append_ne_nil_of_right_ne_nil here inner.parts_ne_nil

/-- A draft that is renamed without refusal has become the file. -/
theorem written_of_rename {files : Files} {here : Place} {operation : Files.Operation}
    (mem : file ∈ downloads) (reached : files.reach (Path.parts directory) = .ok here)
    (drafted : Files.Throughout (Files.SameBut (drafts here) files) files
      (drafting here file content))
    (renamed : (files.applyAll (drafting here file content)).rename
      (Path.join directory (draftName file)) (Path.join directory file) = .ok operation) :
    operation = naming here file ∧ Written files directory here file content := by
  have same_drafting := drafted.after
  have still_reached := same_drafting.reach reached
  rcases exists_of_rename renamed with ⟨source, target, source_at, target_at, rfl, plain⟩
  have source_eq := eq_placeIn (inner_draftName mem) still_reached source_at
  have target_eq := eq_placeIn (inner_of_mem mem) still_reached target_at
  subst source_eq target_eq
  have filled : (files.applyAll (drafting here file content)).content?
      (placeIn here (draftName file)) = some content :=
    Files.content?_put_file (placeIn_ne_nil here (inner_draftName mem)) _ content
  rcases Files.apply_rename filled (plain (by rw [filled]; rfl)) with ⟨same_naming, moved⟩
  have after_naming : files.applyAll (drafting here file content ++ [naming here file]) =
      (files.applyAll (drafting here file content)).apply (naming here file) :=
    Files.applyAll_append files _ _
  refine ⟨rfl, drafted, ?_, ?_, ?_⟩
  · rw [after_naming]
    have among : [placeIn here (draftName file), placeIn here file] ⊆
        placeIn here file :: drafts here := by
      intro place changed
      rw [List.mem_cons, List.mem_singleton] at changed
      rcases changed with rfl | rfl
      · exact List.mem_cons_of_mem _ (draft_mem_drafts here mem)
      · exact List.mem_cons_self
    exact (same_drafting.mono (List.subset_cons_self _ _)).trans (same_naming.mono among)
  · rw [after_naming]
    exact same_naming.locate target_at
  · rw [after_naming]
    exact moved

theorem Written.same_touched {files : Files} {here : Place}
    (written : Written files directory here file content) (mem : file ∈ downloads) :
    Files.SameBut (touched here) files
      (files.applyAll (drafting here file content ++ [naming here file])) := by
  apply written.same.mono
  intro place changed
  rcases List.mem_cons.mp changed with rfl | draft
  · exact placeIn_mem_touched here mem
  · exact drafts_subset_touched here draft

theorem Written.apart {files : Files} {here : Place}
    (written : Written files directory here file content)
    (mem : file ∈ downloads) {other : String} (otherMem : other ∈ downloads) (ne : other ≠ file) :
    (files.applyAll (drafting here file content ++ [naming here file])).content?
      (placeIn here other) = files.content? (placeIn here other) := by
  apply written.same.content
  exact placeIn_not_mem_written here mem otherMem ne

/-- Writing a file fails before its draft is made or before the draft is renamed, or it succeeds.
-/
theorem store_cases (progress : Progress) (directory : String) (content : List UInt8)
    (mem : file ∈ downloads) :
    ∃ operations, Did progress (progress.store (Path.join directory file) content).1 operations ∧
      (progress.store (Path.join directory file) content).1.requests = progress.requests ∧
      ((∃ error, (progress.store (Path.join directory file) content).2 = .error error) ∧
        (operations = [] ∨ ∃ here, progress.files.reach (Path.parts directory) = .ok here ∧
          operations = drafting here file content ∧
          Files.Throughout (Files.SameBut (drafts here) progress.files) progress.files
            operations) ∨
      (progress.store (Path.join directory file) content).2 = .ok () ∧
        ∃ here, progress.files.reach (Path.parts directory) = .ok here ∧
          operations = drafting here file content ++ [naming here file] ∧
          Written progress.files directory here file content) := by
  have draft_path : Path.join directory file ++ ".tmp" = Path.join directory (draftName file) :=
    Path.join_append directory ".tmp" (inner_of_mem mem).front_eq (inner_draftName mem).front_eq
  unfold Progress.store
  rw [draft_path]
  dsimp only
  cases creatable : progress.files.creatable (Path.join directory (draftName file)) with
  | error error => exact ⟨[], .refl progress, rfl, .inl ⟨⟨_, rfl⟩, .inl rfl⟩⟩
  | ok place =>
      rcases exists_of_creatable creatable with ⟨draft_at, plain⟩
      rcases Files.exists_reach_of_locate_join (inner_draftName mem) draft_at with ⟨here, reached⟩
      have place_eq := eq_placeIn (inner_draftName mem) reached draft_at
      subst place_eq
      have drafted := throughout_drafting content mem plain
      dsimp only
      cases renamed : (progress.perform (drafting here file content)).files.rename
          (Path.join directory (draftName file)) (Path.join directory file) with
      | error error =>
          rw [drafting] at renamed
          rw [renamed]
          exact ⟨_, .perform progress _, rfl, .inl ⟨⟨_, rfl⟩, .inr ⟨here, reached, rfl, drafted⟩⟩⟩
      | ok operation =>
          rcases written_of_rename mem reached drafted renamed with ⟨rfl, written⟩
          rw [drafting] at renamed
          rw [renamed]
          exact ⟨_, (Did.perform progress _).trans (.perform _ _), rfl,
            .inr ⟨rfl, here, reached, rfl, written⟩⟩

/-! ## Asking for a file -/

/-- A body that is written as a file. -/
structure Accepted (file : String) (pin : Option String) (content : List UInt8) : Prop where
  digest : ∀ expected, pin = some expected → Digest.sha256Hex content = expected
  header : Path.extension? (lastName file) = some "safetensors" →
    ∃ header, Weights.readHeader content = .ok header

theorem checkDigest_eq_ok {name text : String} (checked : checkDigest name pin content = .ok text) :
    ∀ expected, pin = some expected → Digest.sha256Hex content = expected := by
  rintro expected rfl
  unfold checkDigest at checked
  dsimp only at checked
  split at checked
  · cases checked
  · next same => exact Decidable.not_not.mp same

theorem checkHeader_eq_ok {name : String} (checked : checkHeader name content = .ok ()) :
    Path.extension? name = some "safetensors" →
      ∃ header, Weights.readHeader content = .ok header := by
  intro headed
  unfold checkHeader at checked
  rw [if_pos headed] at checked
  split at checked
  · next header read => exact ⟨header, read⟩
  · cases checked

/-- A body is refused, or it is accepted and written. -/
theorem accept_cases (file path : String) (pin : Option String) (content : List UInt8)
    (progress : Progress) :
    ((∃ error, (accept file path pin content progress).2 = .error error) ∧
      Did progress (accept file path pin content progress).1 [] ∧
      (accept file path pin content progress).1.requests = progress.requests) ∨
    Accepted file pin content ∧ ∃ ready : Progress, Did progress ready [] ∧
      ready.requests = progress.requests ∧
      accept file path pin content progress = ready.store path content := by
  unfold accept
  split
  · exact .inl ⟨⟨_, rfl⟩, .refl progress, rfl⟩
  · next text digest =>
    dsimp only
    split
    · exact .inl ⟨⟨_, rfl⟩, ⟨(List.append_nil _).symm, rfl⟩, rfl⟩
    · next header =>
      exact .inr ⟨⟨checkDigest_eq_ok digest, checkHeader_eq_ok header⟩, progress.tell text,
        ⟨(List.append_nil _).symm, rfl⟩, rfl, rfl⟩

/-- A body with another digest than its pin is refused, and nothing is done with it. -/
theorem accept_of_wrong_digest {expected : String} (file path : String)
    (wrong : Digest.sha256Hex content ≠ expected) (progress : Progress) :
    accept file path (some expected) content progress =
      (progress, .error (.wrongDigest (lastName file) expected (Digest.sha256Hex content))) := by
  unfold accept checkDigest
  dsimp only
  rw [if_pos wrong]

/-- How asking for a file of a model can end. -/
inductive Downloaded (hub : Hub) (access : Access) (modelId directory file : String)
    (pin : Option String) (progress after : Progress) : Except FetchError Bool → Prop where
  | absent (lacks : Exchange.Lacks hub access modelId ⟨file, progress⟩)
      (nothing : Did progress after []) :
      Downloaded hub access modelId directory file pin progress after (.ok false)
  | failed {error : FetchError} {operations : List Files.Operation}
      (did : Did progress after operations)
      (partly : operations = [] ∨ ∃ here content,
        progress.files.reach (Path.parts directory) = .ok here ∧
        operations = drafting here file content ∧
        Files.Throughout (Files.SameBut (drafts here) progress.files) progress.files operations) :
      Downloaded hub access modelId directory file pin progress after (.error error)
  | written {content : List UInt8} {here : Place}
      (gives : Exchange.Gives hub access modelId ⟨file, progress⟩ content)
      (accepted : Accepted file pin content)
      (reached : progress.files.reach (Path.parts directory) = .ok here)
      (did : Did progress after (drafting here file content ++ [naming here file]))
      (written : Written progress.files directory here file content) :
      Downloaded hub access modelId directory file pin progress after (.ok true)

theorem Downloaded.of_gives {asking : Progress} (pin : Option String) (mem : file ∈ downloads)
    (gives : Exchange.Gives hub access modelId ⟨file, progress⟩ content)
    (nothing : Did progress asking []) :
    (accept file (Path.join directory file) pin content asking).1.requests = asking.requests ∧
      Downloaded hub access modelId directory file pin progress
        (accept file (Path.join directory file) pin content asking).1
        ((accept file (Path.join directory file) pin content asking).2.map fun () => true) := by
  rcases accept_cases file (Path.join directory file) pin content asking with
    ⟨⟨error, refused⟩, did, requests⟩ | ⟨accepted, ready, still, requests, stored⟩
  · rw [refused]
    exact ⟨requests, .failed (nothing.trans did) (.inl rfl)⟩
  · have same_files : ready.files = progress.files :=
      (nothing.trans still).files_eq_of_nothing
    rcases store_cases ready directory content mem with ⟨operations, did, unasked, ending⟩
    rw [same_files] at ending
    rw [stored]
    refine ⟨unasked.trans requests, ?_⟩
    have whole := (nothing.trans still).trans did
    rcases ending with ⟨⟨error, failed⟩, partly⟩ | ⟨succeeded, here, reached, rfl, written⟩
    · rw [failed]
      refine .failed whole (partly.imp id ?_)
      rintro ⟨here, reached, drafted⟩
      exact ⟨here, content, reached, drafted⟩
    · rw [succeeded]
      exact .written gives accepted reached whole written

/-- Asking for a file leads to one of these ends, and to no other requests. -/
theorem download_cases (hub : Hub) (access : Access) (modelId directory : String)
    (pin : Option String) (progress : Progress) (mem : file ∈ downloads) :
    let downloaded := download hub access modelId file (Path.join directory file) pin progress
    downloaded.1.requests = (Exchange.outcome hub access modelId ⟨file, progress⟩).1 ∧
      Downloaded hub access modelId directory file pin progress downloaded.1 downloaded.2 := by
  unfold download
  dsimp only
  rw [Exchange.get_tell]
  have nothing : ∀ after : Progress, after.operations = progress.operations →
      after.files = progress.files → Did progress after [] := by
    intro after operations files
    exact ⟨operations.trans (List.append_nil _).symm, files⟩
  cases answer : (Exchange.outcome hub access modelId ⟨file, progress⟩).2 with
  | error refusal => exact ⟨rfl, .failed (nothing _ rfl rfl) (.inl rfl)⟩
  | ok answered =>
      rcases answered with ⟨status, body⟩
      dsimp only
      by_cases missing : status = 404
      · rw [if_pos missing]
        subst missing
        exact ⟨rfl, .absent ⟨body, answer⟩ (nothing _ rfl rfl)⟩
      · rw [if_neg missing]
        by_cases bad : 400 ≤ status
        · rw [if_pos bad]
          exact ⟨rfl, .failed (nothing _ rfl rfl) (.inl rfl)⟩
        · rw [if_neg bad]
          cases body with
          | broken detail => exact ⟨rfl, .failed (nothing _ rfl rfl) (.inl rfl)⟩
          | complete content =>
              dsimp only
              have gives : Exchange.Gives hub access modelId ⟨file, progress⟩ content :=
                ⟨status, Nat.lt_of_not_le bad, answer⟩
              exact Downloaded.of_gives pin mem gives (nothing _ rfl rfl)

/-- A body that the hub gives is all that is left to be checked and written. -/
theorem exists_download_eq (path : String) (pin : Option String)
    (gives : Exchange.Gives hub access modelId ⟨file, progress⟩ content) :
    ∃ asking, Did progress asking [] ∧ download hub access modelId file path pin progress =
      ((accept file path pin content asking).1,
        (accept file path pin content asking).2.map fun () => true) := by
  rcases Exchange.gives_iff.mp gives with ⟨status, good, answer⟩
  have found : status ≠ 404 := by omega
  unfold download
  dsimp only
  rw [Exchange.get_tell, answer]
  dsimp only
  rw [if_neg found, if_neg (Nat.not_le_of_lt good)]
  refine ⟨_, ?_, rfl⟩
  exact ⟨(List.append_nil _).symm, rfl⟩

/-- A body with another digest than its pin makes asking fail, and nothing is done with it. -/
theorem download_of_wrong_digest {expected : String} (path : String)
    (gives : Exchange.Gives hub access modelId ⟨file, progress⟩ content)
    (wrong : Digest.sha256Hex content ≠ expected) :
    let downloaded := download hub access modelId file path (some expected) progress
    downloaded.2 =
        .error (.wrongDigest (lastName file) expected (Digest.sha256Hex content)) ∧
      Did progress downloaded.1 [] := by
  rcases exists_download_eq path (some expected) gives with ⟨asking, nothing, download_eq⟩
  dsimp only
  rw [download_eq, accept_of_wrong_digest file path wrong]
  exact ⟨rfl, nothing⟩

end Hub

end TextVectors
