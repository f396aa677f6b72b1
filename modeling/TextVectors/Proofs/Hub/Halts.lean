import TextVectors.Proofs.Hub.Steps
import TextVectors.Proofs.Model.Resolution
import TextVectors.Sample.Hub

/-!
# Halts of a fetch

A fetch may be halted between any two operations on files and while a draft is being
filled. Weights are fetched last, so before they get their name the directory of the
model is only `Pending`: its files are as they were or as the hub has given them,
and its weights are as they were. Every step keeps this, `Underway.take`, and
the step that gives weights their name makes the directory `Completed`. By
induction on the steps that remain, `Underway.takeSteps`, this is all that a
fetch can come to once its directory has been made.

Seen through its path, the directory has no weights while it is pending, since it had
none before the fetch. Here it matters where the path leads while its directories
are still being made, `fetch_haltSafe`.
-/

namespace TextVectors

namespace Hub

variable {hub : Hub} {access : Access} {modelId directory file : String}
  {given : String → List UInt8 → Prop} {lacked : String → Prop} {start state later : Files}
  {here : Place} {content : List UInt8} {changed : List Place} {step : Step}
  {done rest : List Step} {progress : Progress}

/-! ## The files while weights are missing -/

/-- Every file of the model is as it was at the start, or it is as the hub has given it. -/
structure Sound (given : String → List UInt8 → Prop) (start : Files) (here : Place)
    (state : Files) : Prop where
  same : Files.SameBut (touched here) start state
  content : ∀ file ∈ downloads, ∀ content, state.content? (placeIn here file) = some content →
    start.content? (placeIn here file) = some content ∨ given file content

/-- The files are sound, and the weights are as they were at the start. -/
structure Pending (given : String → List UInt8 → Prop) (start : Files) (here : Place)
    (state : Files) : Prop where
  sound : Sound given start here state
  weights : ∀ file ∈ Model.weightFiles,
    state.content? (placeIn here file) = start.content? (placeIn here file)

theorem Sound.of_apart (sound : Sound given start here state)
    (same : Files.SameBut changed state later) (within : changed ⊆ touched here)
    (apart : ∀ file ∈ downloads, placeIn here file ∉ changed) : Sound given start here later where
  same := sound.same.trans (same.mono within)
  content := by
    intro file mem content found
    rw [same.content _ (apart file mem)] at found
    exact sound.content file mem content found

theorem Pending.of_apart (pending : Pending given start here state)
    (same : Files.SameBut changed state later) (within : changed ⊆ touched here)
    (apart : ∀ file ∈ downloads, placeIn here file ∉ changed) :
    Pending given start here later where
  sound := pending.sound.of_apart same within apart
  weights := by
    intro file mem
    rw [same.content _ (apart file (weightFiles_subset mem))]
    exact pending.weights file mem

theorem Pending.of_drafts (pending : Pending given start here state)
    (same : Files.SameBut (drafts here) state later) : Pending given start here later :=
  pending.of_apart same (drafts_subset_touched here)
    fun _ mem => placeIn_not_mem_drafts here mem

theorem Pending.of_directories (pending : Pending given start here state)
    (same : Files.SameBut [] state later) : Pending given start here later :=
  pending.of_apart same (List.nil_subset _) fun _ _ => List.not_mem_nil

theorem Sound.of_written (sound : Sound given start here state) (mem : file ∈ downloads)
    (gave : given file content) (written : Written state directory here file content) :
    Sound given start here
      (state.applyAll (drafting here file content ++ [naming here file])) where
  same := sound.same.trans (written.same_touched mem)
  content := by
    intro other otherMem whole found
    by_cases same : other = file
    · subst same
      rw [written.content_eq, Option.some.injEq] at found
      exact .inr (found ▸ gave)
    · rw [written.apart mem otherMem same] at found
      exact sound.content other otherMem whole found

theorem Pending.of_written (pending : Pending given start here state) (mem : file ∈ downloads)
    (plain : file ∉ Model.weightFiles) (gave : given file content)
    (written : Written state directory here file content) :
    Pending given start here
      (state.applyAll (drafting here file content ++ [naming here file])) where
  sound := pending.sound.of_written mem gave written
  weights := by
    intro other otherMem
    have ne : other ≠ file := fun same => plain (same ▸ otherMem)
    rw [written.apart mem (weightFiles_subset otherMem) ne]
    exact pending.weights other otherMem

/-- However writing a file is halted that is not weights, the weights are as they were. -/
theorem Pending.throughout_written (pending : Pending given start here state)
    (mem : file ∈ downloads) (plain : file ∉ Model.weightFiles) (gave : given file content)
    (written : Written state directory here file content) :
    Files.Throughout (Pending given start here) state
      (drafting here file content ++ [naming here file]) := by
  apply Files.Throughout.append
  · exact written.drafted.mono fun later same => pending.of_drafts same
  · apply Files.Throughout.singleton
    · exact pending.of_drafts written.drafted.after
    · have finished := pending.of_written mem plain gave written
      rw [Files.applyAll_append] at finished
      exact finished
    · intro place content part is_fill
      cases is_fill

/-! ## Files that are in place -/

/-- A file is in place as the hub has given it. -/
def Obtained (given : String → List UInt8 → Prop) (directory file : String) (state : Files) :
    Prop :=
  ∃ content, given file content ∧ state.read (Path.join directory file) = .ok content

theorem Obtained.of_apart (obtained : Obtained given directory file state)
    (mem : file ∈ downloads) (reached : state.reach (Path.parts directory) = .ok here)
    (same : Files.SameBut changed state later) (apart : placeIn here file ∉ changed) :
    Obtained given directory file later := by
  rcases obtained with ⟨content, gave, read⟩
  refine ⟨content, gave, ?_⟩
  rcases Files.read_eq_ok_iff.mp read with ⟨place, located, found⟩
  have place_eq := eq_placeIn (inner_of_mem mem) reached located
  apply Files.read_eq_ok_iff.mpr
  refine ⟨place, same.locate located, ?_⟩
  rw [place_eq] at found ⊢
  rw [← found]
  exact same.content _ apart

theorem Written.obtained (written : Written state directory here file content)
    (gave : given file content) :
    Obtained given directory file
      (state.applyAll (drafting here file content ++ [naming here file])) :=
  ⟨content, gave, Files.read_eq_ok_iff.mpr ⟨_, written.located, written.content_eq⟩⟩

/-- How the files stand when some steps of a fetch have been taken, of which none has failed or
finished the fetch. -/
structure Underway (given : String → List UInt8 → Prop) (lacked : String → Prop)
    (directory : String) (start : Files) (here : Place) (done : List Step) (state : Files) :
    Prop where
  reached : state.reach (Path.parts directory) = .ok here
  pending : Pending given start here state
  required : ∀ file, .required file ∈ done → Obtained given directory file state
  optional : ∀ file, .optional file ∈ done →
    lacked file ∨ Obtained given directory file state

/-- How the files stand when weights have been written. -/
structure Completed (access : Access) (given : String → List UInt8 → Prop) (lacked : String → Prop)
    (directory : String) (start : Files) (here : Place) (state : Files) : Prop where
  reached : state.reach (Path.parts directory) = .ok here
  sound : Sound given start here state
  required : ∀ file ∈ [Model.configFile, Model.tokenizerFile],
    Obtained given directory file state
  pooling : lacked Model.poolingFile ∨ Obtained given directory Model.poolingFile state
  weights : ∃ file ∈ Model.weightFiles, ∃ content, given file content ∧
    Accepted file (access.pins.digest? file) content ∧
    (access.pins ≠ [] → (access.pins.digest? file).isSome) ∧
    state.read (Path.join directory file) = .ok content ∧
    ∀ other ∈ Model.weightFiles, other ≠ file →
      state.content? (placeIn here other) = start.content? (placeIn here other)

/-! ## One step -/

theorem Underway.of_apart (underway : Underway given lacked directory start here done state)
    (subset : done ⊆ steps) (same : Files.SameBut changed state later)
    (within : changed ⊆ touched here) (apart : ∀ file ∈ downloads, placeIn here file ∉ changed) :
    Underway given lacked directory start here done later where
  reached := same.reach underway.reached
  pending := underway.pending.of_apart same within apart
  required := by
    intro file mem
    have download : file ∈ downloads := mem_downloads_of_target? (subset mem) rfl
    exact (underway.required file mem).of_apart download underway.reached same
      (apart file download)
  optional := by
    intro file mem
    have download : file ∈ downloads := mem_downloads_of_target? (subset mem) rfl
    rcases underway.optional file mem with lacks | obtained
    · exact .inl lacks
    · exact .inr (obtained.of_apart download underway.reached same (apart file download))

theorem Underway.append (underway : Underway given lacked directory start here done state)
    (required : ∀ file, step = .required file → Obtained given directory file state)
    (optional : ∀ file, step = .optional file →
      lacked file ∨ Obtained given directory file state) :
    Underway given lacked directory start here (done ++ [step]) state where
  reached := underway.reached
  pending := underway.pending
  required := by
    intro file mem
    rcases List.mem_append.mp mem with early | last
    · exact underway.required file early
    · exact required file (List.mem_singleton.mp last).symm
  optional := by
    intro file mem
    rcases List.mem_append.mp mem with early | last
    · exact underway.optional file early
    · exact optional file (List.mem_singleton.mp last).symm

theorem Underway.of_written (underway : Underway given lacked directory start here done state)
    (whole : done ++ step :: rest = steps) (about : step.target? = some file)
    (plain : file ∉ Model.weightFiles) (gave : given file content)
    (written : Written state directory here file content) :
    Underway given lacked directory start here (done ++ [step])
      (state.applyAll (drafting here file content ++ [naming here file])) := by
  have subset : done ++ step :: rest ⊆ steps := whole ▸ List.Subset.refl _
  have mem : file ∈ downloads :=
    mem_downloads_of_target? (subset (List.mem_append_right _ List.mem_cons_self)) about
  have keeps : ∀ {other : String} {earlier : Step}, earlier ∈ done →
      earlier.target? = some other → Obtained given directory other state →
      Obtained given directory other
        (state.applyAll (drafting here file content ++ [naming here file])) := by
    intro other earlier earlierMem its obtained
    have otherMem : other ∈ downloads :=
      mem_downloads_of_target? (subset (List.mem_append_left _ earlierMem)) its
    apply obtained.of_apart otherMem underway.reached written.same
    apply placeIn_not_mem_written here mem otherMem
    rintro rfl
    exact not_mem_of_target? whole about earlierMem its
  have before : Underway given lacked directory start here done
      (state.applyAll (drafting here file content ++ [naming here file])) := by
    refine ⟨written.same.reach underway.reached,
      underway.pending.of_written mem plain gave written, ?_, ?_⟩
    · intro other otherMem
      exact keeps otherMem rfl (underway.required other otherMem)
    · intro other otherMem
      exact (underway.optional other otherMem).imp id (keeps otherMem rfl)
  apply before.append
  · rintro other rfl
    cases about
    exact written.obtained gave
  · rintro other rfl
    cases about
    exact .inr (written.obtained gave)

/-- Weights that are written complete the model. -/
theorem Underway.completed (underway : Underway given lacked directory start here done state)
    (whole : done ++ .weights file :: rest = steps) (gave : given file content)
    (accepted : Accepted file (access.pins.digest? file) content)
    (trusted : access.pins ≠ [] → (access.pins.digest? file).isSome)
    (written : Written state directory here file content) :
    Completed access given lacked directory start here
      (state.applyAll (drafting here file content ++ [naming here file])) := by
  have listed : Step.weights file ∈ steps := by
    rw [← whole]
    exact List.mem_append_right _ List.mem_cons_self
  have mem : file ∈ downloads := mem_downloads_of_target? listed rfl
  have weights : file ∈ Model.weightFiles := by
    simpa [steps] using listed
  -- The weights are written to names of their own, so what has been obtained stays as it is.
  have keeps : ∀ other ∈ downloads, other ∉ Model.weightFiles →
      Obtained given directory other state → Obtained given directory other
        (state.applyAll (drafting here file content ++ [naming here file])) := by
    intro other otherMem plain obtained
    apply obtained.of_apart otherMem underway.reached written.same
    apply placeIn_not_mem_written here mem otherMem
    rintro rfl
    exact plain weights
  refine ⟨written.same.reach underway.reached,
    underway.pending.sound.of_written mem gave written, ?_, ?_, ?_⟩
  · intro other required
    have step_mem : Step.required other ∈ steps := by
      simp only [List.mem_cons, List.not_mem_nil, or_false] at required
      rcases required with rfl | rfl <;> decide
    have plain : other ∉ Model.weightFiles := by
      simp only [List.mem_cons, List.not_mem_nil, or_false] at required
      rcases required with rfl | rfl <;> decide
    apply keeps other (mem_downloads_of_target? step_mem rfl) plain
    exact underway.required other (mem_of_not_weights whole rfl step_mem rfl)
  · have step_mem : Step.optional Model.poolingFile ∈ steps := by decide
    have known := underway.optional _ (mem_of_not_weights whole rfl step_mem rfl)
    exact known.imp id (keeps _ (by decide) (by decide))
  · refine ⟨file, weights, content, gave, accepted, trusted, ?_, ?_⟩
    · exact Files.read_eq_ok_iff.mpr ⟨_, written.located, written.content_eq⟩
    · intro other otherMem ne
      rw [written.apart mem (weightFiles_subset otherMem) ne]
      exact underway.pending.weights other otherMem

/-- Operations that complete the model: the last one gives the weights their name. -/
def Completing (access : Access) (given : String → List UInt8 → Prop) (lacked : String → Prop)
    (directory : String) (start : Files) (here : Place) (files : Files)
    (operations : List Files.Operation) : Prop :=
  ∃ early source target, operations = early ++ [.rename source target] ∧
    Files.Throughout (Pending given start here) files early ∧
    Completed access given lacked directory start here (files.applyAll operations)

theorem Completing.append {first second : List Files.Operation}
    (calm : Files.Throughout (Pending given start here) state first)
    (completing : Completing access given lacked directory start here (state.applyAll first)
      second) :
    Completing access given lacked directory start here state (first ++ second) := by
  rcases completing with ⟨early, source, target, rfl, calm_early, completed⟩
  refine ⟨first ++ early, source, target, ?_, calm.append calm_early, ?_⟩
  · rw [List.append_assoc]
  · rw [Files.applyAll_append]
    exact completed

/-- How a step can leave a directory in which a fetch is underway. -/
inductive Leaves (access : Access) (given : String → List UInt8 → Prop) (lacked : String → Prop)
    (directory : String) (start : Files) (here : Place) (done : List Step)
    (before after : Progress) : StepEnd → Prop where
  | underway {operations : List Files.Operation} (did : Did before after operations)
      (calm : Files.Throughout (Pending given start here) before.files operations)
      (underway : Underway given lacked directory start here done after.files) :
      Leaves access given lacked directory start here done before after .goOn
  | failed {operations : List Files.Operation} {error : FetchError}
      (did : Did before after operations)
      (calm : Files.Throughout (Pending given start here) before.files operations) :
      Leaves access given lacked directory start here done before after (.failed error)
  | completed {operations : List Files.Operation} (did : Did before after operations)
      (completing : Completing access given lacked directory start here before.files
        operations) :
      Leaves access given lacked directory start here done before after .finished

theorem Underway.leaves_of_silent (hub : Hub) (access : Access) (modelId : String)
    (underway : Underway given lacked directory start here done progress.files)
    (earlier : done ⊆ steps) (silent : step.file? access.pins = none) :
    Leaves access given lacked directory start here (done ++ [step]) progress
      (step.take hub access modelId directory progress).1
      (step.take hub access modelId directory progress).2 := by
  rcases take_of_silent hub modelId directory progress silent with
    ⟨_, unfinished, operations, did, _, throughout⟩
  have calm : Files.Throughout (Pending given start here) progress.files operations :=
    throughout.mono fun state same => underway.pending.of_directories same
  cases ending : (step.take hub access modelId directory progress).2 with
  | finished => exact absurd ending unfinished
  | failed error => exact .failed did calm
  | goOn =>
      apply Leaves.underway did calm
      rw [did.files_eq]
      have still := underway.of_apart earlier throughout.after (List.nil_subset _)
        fun _ _ => List.not_mem_nil
      apply still.append
      · rintro file rfl
        cases silent
      · rintro file rfl
        cases silent

theorem Underway.leaves_of_absent (access : Access) (modelId : String) {after : Progress}
    (underway : Underway given lacked directory start here done progress.files)
    (about : step.target? = some file) (lacks : lacked file) (nothing : Did progress after []) :
    Leaves access given lacked directory start here (done ++ [step]) progress after
      (step.endOf modelId (.ok false)) := by
  have calm : Files.Throughout (Pending given start here) progress.files [] :=
    .nil underway.pending
  have still := underway
  rw [← nothing.files_eq_of_nothing] at still
  cases step with
  | makeModelDirectory => cases about
  | makeDirectory name => cases about
  | required name => exact .failed nothing calm
  | optional name =>
      apply Leaves.underway nothing calm
      apply still.append
      · nofun
      · intro other same
        cases about
        cases same
        exact .inl lacks
  | weights name =>
      apply Leaves.underway nothing calm
      apply still.append <;> nofun

theorem Underway.leaves_of_written (modelId : String) {after : Progress}
    (underway : Underway given lacked directory start here done progress.files)
    (whole : done ++ step :: rest = steps) (asks : step.file? access.pins = some file)
    (gave : given file content) (accepted : Accepted file (step.pin? access.pins) content)
    (did : Did progress after (drafting here file content ++ [naming here file]))
    (written : Written progress.files directory here file content) :
    Leaves access given lacked directory start here (done ++ [step]) progress after
      (step.endOf modelId (.ok true)) := by
  have about := Step.target?_of_file? asks
  have taken : step ∈ steps := by
    rw [← whole]
    exact List.mem_append_right _ List.mem_cons_self
  cases step with
  | makeModelDirectory => cases about
  | makeDirectory name => cases about
  | required name | optional name =>
      have mem := mem_downloads_of_target? taken about
      have plain := not_mem_weightFiles taken rfl about
      apply Leaves.underway did
      · exact underway.pending.throughout_written mem plain gave written
      · rw [did.files_eq]
        exact underway.of_written whole about plain gave written
  | weights name =>
      cases about
      have trusted : access.pins ≠ [] → (access.pins.digest? file).isSome := by
        intro pinned
        rw [Option.isSome_iff_exists]
        exact Step.exists_digest asks pinned
      apply Leaves.completed did
      refine ⟨_, _, _, rfl, ?_, underway.completed whole gave accepted trusted written⟩
      exact written.drafted.mono fun state same => underway.pending.of_drafts same

/-- What a step does to a directory in which a fetch is underway. -/
theorem Underway.take (hub : Hub) (access : Access) (modelId : String)
    (underway : Underway given lacked directory start here done progress.files)
    (whole : done ++ step :: rest = steps)
    (gave : ∀ file, step.file? access.pins = some file → ∀ content,
      Exchange.Gives hub access modelId ⟨file, progress⟩ content → given file content)
    (lacks : ∀ file, step.file? access.pins = some file →
      Exchange.Lacks hub access modelId ⟨file, progress⟩ → lacked file) :
    Leaves access given lacked directory start here (done ++ [step]) progress
      (step.take hub access modelId directory progress).1
      (step.take hub access modelId directory progress).2 := by
  have subset : done ++ step :: rest ⊆ steps := whole ▸ List.Subset.refl _
  cases asks : step.file? access.pins with
  | none =>
      have earlier : done ⊆ steps := fun other mem => subset (List.mem_append_left _ mem)
      exact underway.leaves_of_silent hub access modelId earlier asks
  | some file =>
      have mem := mem_downloads access.pins (subset (List.mem_append_right _ List.mem_cons_self))
        asks
      rcases take_of_asks hub modelId directory progress mem asks with
        ⟨_, outcome, downloaded, ending⟩
      rw [ending]
      cases downloaded with
      | absent missing nothing =>
          exact underway.leaves_of_absent access modelId (Step.target?_of_file? asks)
            (lacks file asks missing) nothing
      | failed did partly =>
          apply Leaves.failed did
          rcases partly with rfl | ⟨there, content, reached, rfl, drafted⟩
          · exact .nil underway.pending
          · cases underway.reached.symm.trans reached
            exact drafted.mono fun state same => underway.pending.of_drafts same
      | @written content there gives accepted reached did written =>
          cases underway.reached.symm.trans reached
          exact underway.leaves_of_written modelId whole asks (gave file asks content gives)
            accepted did written

/-! ## The steps in a row -/

/-- What the remaining steps of a fetch do to a directory in which it is underway. -/
theorem Underway.takeSteps (hub : Hub) (access : Access) (modelId : String)
    (underway : Underway given lacked directory start here done progress.files)
    (whole : done ++ rest = steps)
    (gave : ∀ exchange ∈ exchanges hub access modelId directory rest progress,
      ∀ content, exchange.Gives hub access modelId content → given exchange.file content)
    (lacks : ∀ exchange ∈ exchanges hub access modelId directory rest progress,
      exchange.Lacks hub access modelId → lacked exchange.file) :
    ∃ operations,
      Did progress (takeSteps hub access modelId directory rest progress).1 operations ∧
      (Files.Throughout (Pending given start here) progress.files operations ∨
        (takeSteps hub access modelId directory rest progress).2 = .ok directory ∧
        Completing access given lacked directory start here progress.files operations) := by
  induction rest generalizing done progress with
  | nil => exact ⟨[], .refl progress, .inl (.nil underway.pending)⟩
  | cons step rest ih =>
      have leaves := underway.take hub access modelId whole
        (fun file asks => gave _ (mem_exchanges rest asks))
        (fun file asks => lacks _ (mem_exchanges rest asks))
      rcases taken : step.take hub access modelId directory progress with ⟨next, ending⟩
      rw [taken] at leaves
      cases leaves with
      | failed did calm =>
          rw [takeSteps_of_failed taken]
          exact ⟨_, did, .inl calm⟩
      | completed did completing =>
          rw [takeSteps_of_finished taken]
          exact ⟨_, did, .inr ⟨rfl, completing⟩⟩
      | underway did calm later =>
          rw [exchanges_of_goOn taken] at gave lacks
          rw [takeSteps_of_goOn taken]
          have outcome := ih later (by rw [List.append_assoc]; exact whole)
            (fun exchange mem => gave exchange (List.mem_append_right _ mem))
            (fun exchange mem => lacks exchange (List.mem_append_right _ mem))
          rcases outcome with ⟨more, did_more, outcome⟩
          rw [did.files_eq] at outcome
          refine ⟨_, did.trans did_more, ?_⟩
          rcases outcome with calm_more | ⟨succeeded, completing⟩
          · exact .inl (calm.append calm_more)
          · exact .inr ⟨succeeded, .append calm completing⟩

/-! ## Directories of models -/

variable {settings : Settings} {files : Files}

/-- No weights are in the directory of a model, so a start would fetch the model. -/
structure Unweighted (settings : Settings) (files : Files) : Prop where
  weights : ∀ file ∈ Model.weightFiles, ¬(files.isDir settings.modelDir = true ∧
    files.isFile (Path.join settings.modelDir file) = true)
  remote : (files.store.select (.ofSettings settings)).1 = .remote settings.modelId

/-- The directory of a model holds all its files as the hub has given them, and one form of the
weights, which has passed all checks. -/
structure Complete (settings : Settings) (given : String → List UInt8 → Prop)
    (lacked : String → Prop) (files : Files) : Prop where
  required : ∀ file ∈ [Model.configFile, Model.tokenizerFile],
    Obtained given settings.modelDir file files
  pooling : lacked Model.poolingFile ∨ Obtained given settings.modelDir Model.poolingFile files
  weights : ∃ file ∈ Model.weightFiles, ∃ content, given file content ∧
    files.read (Path.join settings.modelDir file) = .ok content ∧
    Accepted file (settings.pins.digest? file) content ∧
    (settings.pins ≠ [] → (settings.pins.digest? file).isSome) ∧
    ∀ other ∈ Model.weightFiles, other ≠ file →
      files.isFile (Path.join settings.modelDir other) = false

/-- No file of a model is in its directory in part: it is as it was before, or as the hub has given
it. -/
def Whole (settings : Settings) (given : String → List UInt8 → Prop) (files state : Files) : Prop :=
  ∀ file ∈ downloads, ∀ content,
    state.read (Path.join settings.modelDir file) = .ok content →
      files.read (Path.join settings.modelDir file) = .ok content ∨ given file content

/-- The model would be fetched again, and no file of it is there in part. -/
structure Restartable (settings : Settings) (given : String → List UInt8 → Prop)
    (files state : Files) : Prop where
  unweighted : Unweighted settings state
  whole : Whole settings given files state

theorem Unweighted.of_weights (absent : ∀ file ∈ Model.weightFiles,
    ¬(files.isDir settings.modelDir = true ∧
      files.isFile (Path.join settings.modelDir file) = true)) : Unweighted settings files where
  weights := absent
  remote := Model.select_eq_remote_iff.mpr (Model.findWeights_eq_none_iff.mpr absent)

/-- If no weights can be read that could not be read before, there are still none. -/
theorem Unweighted.of_reads (unweighted : Unweighted settings files)
    (reads : ∀ file ∈ Model.weightFiles, ∀ content,
      state.read (Path.join settings.modelDir file) = .ok content →
      files.read (Path.join settings.modelDir file) = .ok content) :
    Unweighted settings state := by
  apply Unweighted.of_weights
  rintro file mem ⟨directory, standing⟩
  rcases Files.isFile_iff.mp standing with ⟨place, content, located, found⟩
  have read := reads file mem content (Files.read_eq_ok_iff.mpr ⟨place, located, found⟩)
  rcases Files.read_eq_ok_iff.mp read with ⟨earlier, earlier_at, earlier_found⟩
  apply unweighted.weights file mem
  refine ⟨?_, Files.isFile_iff.mpr ⟨earlier, content, earlier_at, earlier_found⟩⟩
  exact Files.isDir_of_locate_join (inner_of_mem (weightFiles_subset mem))
    (Files.parts_ne_nil_of_isDir directory) earlier_at

/-- What is in the directory of a model when it has been made was there before. -/
theorem read_before (tree : files.IsTree) (down : ".." ∉ files.unmade directory)
    (same : Files.SameBut [] files start)
    (reached : start.reach (Path.parts directory) = .ok here) (mem : file ∈ downloads)
    (found : start.content? (placeIn here file) = some content) :
    files.read (Path.join directory file) = .ok content := by
  have short : ∀ file ∈ downloads, ∀ name ∈ Path.parts file,
      name.utf8ByteSize ≤ Files.longestName := by decide
  have inner := inner_of_mem mem
  have before := found
  rw [same.content _ List.not_mem_nil] at before
  have standing : (files.node? (here ++ Path.parts file)).isSome :=
    Option.isSome_of_eq_some (Files.content?_eq_some_iff.mp before)
  have followed := same.walk (tree.walk inner.down (short file mem) standing)
  have located : start.locate (Path.join directory file) = .ok (placeIn here file) := by
    rw [Files.locate_join_eq_bind start directory inner, reached]
    exact followed
  have located_before := same.locate_file tree down inner located found
  exact Files.read_eq_ok_iff.mpr ⟨_, located_before, before⟩

theorem read_of_directories (tree : files.IsTree) (down : ".." ∉ files.unmade directory)
    (same : Files.SameBut [] files state) (mem : file ∈ downloads)
    (read : state.read (Path.join directory file) = .ok content) :
    files.read (Path.join directory file) = .ok content := by
  rcases Files.read_eq_ok_iff.mp read with ⟨place, located, found⟩
  have before := same.locate_file tree down (inner_of_mem mem) located found
  rw [same.content place List.not_mem_nil] at found
  exact Files.read_eq_ok_iff.mpr ⟨place, before, found⟩

theorem content?_of_read (reached : state.reach (Path.parts directory) = .ok here)
    (mem : file ∈ downloads) (read : state.read (Path.join directory file) = .ok content) :
    state.content? (placeIn here file) = some content := by
  rcases Files.read_eq_ok_iff.mp read with ⟨place, located, found⟩
  have place_eq := eq_placeIn (inner_of_mem mem) reached located
  exact place_eq ▸ found

/-! ## A whole fetch -/

theorem Restartable.of_directories (given : String → List UInt8 → Prop)
    (unweighted : Unweighted settings files) (tree : files.IsTree)
    (down : ".." ∉ files.unmade settings.modelDir) (same : Files.SameBut [] files state) :
    Restartable settings given files state where
  unweighted := by
    apply unweighted.of_reads
    intro file mem content read
    exact read_of_directories tree down same (weightFiles_subset mem) read
  whole := by
    intro file mem content read
    exact .inl (read_of_directories tree down same mem read)

theorem Sound.whole (sound : Sound given start here state) (tree : files.IsTree)
    (down : ".." ∉ files.unmade settings.modelDir) (same : Files.SameBut [] files start)
    (reached : start.reach (Path.parts settings.modelDir) = .ok here) :
    Whole settings given files state := by
  intro file mem content read
  have found := content?_of_read (sound.same.reach reached) mem read
  rcases sound.content file mem content found with before | gave
  · exact .inl (read_before tree down same reached mem before)
  · exact .inr gave

theorem Pending.restartable (pending : Pending given start here state)
    (unweighted : Unweighted settings files) (tree : files.IsTree)
    (down : ".." ∉ files.unmade settings.modelDir) (same : Files.SameBut [] files start)
    (reached : start.reach (Path.parts settings.modelDir) = .ok here) :
    Restartable settings given files state where
  unweighted := by
    apply unweighted.of_reads
    intro file mem content read
    have download := weightFiles_subset mem
    have found := content?_of_read (pending.sound.same.reach reached) download read
    rw [pending.weights file mem] at found
    exact read_before tree down same reached download found
  whole := pending.sound.whole tree down same reached

/-- A directory that is completed holds one form of the weights. -/
theorem Completed.complete {access : Access} (completed : Completed access given lacked
      settings.modelDir start here state)
    (pins : access.pins = settings.pins) (unweighted : Unweighted settings files)
    (tree : files.IsTree) (down : ".." ∉ files.unmade settings.modelDir)
    (same : Files.SameBut [] files start)
    (reached : start.reach (Path.parts settings.modelDir) = .ok here) :
    Unweighted settings state ∨ Complete settings given lacked state := by
  cases directory : state.isDir settings.modelDir with
  | false =>
      left
      apply Unweighted.of_weights
      rintro file mem ⟨standing, _⟩
      rw [directory] at standing
      cases standing
  | true =>
      right
      refine ⟨completed.required, completed.pooling, ?_⟩
      rcases completed.weights with ⟨file, mem, content, gave, accepted, trusted, read, others⟩
      rw [pins] at accepted trusted
      refine ⟨file, mem, content, gave, read, accepted, trusted, ?_⟩
      intro other otherMem ne
      rw [Bool.eq_false_iff]
      intro standing
      have download := weightFiles_subset otherMem
      rcases Files.isFile_iff.mp standing with ⟨place, whole, located, found⟩
      rw [eq_placeIn (inner_of_mem download) completed.reached located,
        others other otherMem ne] at found
      have before := read_before tree down same reached download found
      rcases Files.read_eq_ok_iff.mp before with ⟨earlier, earlier_at, earlier_found⟩
      apply unweighted.weights other otherMem
      refine ⟨?_, Files.isFile_iff.mpr ⟨earlier, whole, earlier_at, earlier_found⟩⟩
      exact Files.isDir_of_locate_join (inner_of_mem download)
        (Files.parts_ne_nil_of_isDir directory) earlier_at

/-- The steps of a fetch after the directory of the model has been made. -/
theorem takeSteps_tail (hub : Hub) (settings : Settings) {next : Progress}
    (unweighted : Unweighted settings files) (tree : files.IsTree)
    (down : ".." ∉ files.unmade settings.modelDir) (same : Files.SameBut [] files next.files)
    (reached : next.files.reach (Path.parts settings.modelDir) = .ok here) :
    let access := Access.ofSettings settings
    let fetched := takeSteps hub access settings.modelId settings.modelDir steps.tail next
    let asked := exchanges hub access settings.modelId settings.modelDir steps.tail next
    let given := Gave hub access settings.modelId asked
    let lacked := Lacked hub access settings.modelId asked
    ∃ operations, Did next fetched.1 operations ∧
      (Files.Throughout (Restartable settings given files) next.files operations ∨
        fetched.2 = .ok settings.modelDir ∧
        ∃ early source target, operations = early ++ [.rename source target] ∧
          Files.Throughout (Restartable settings given files) next.files early ∧
          (Unweighted settings fetched.1.files ∨ Complete settings given lacked fetched.1.files) ∧
          Whole settings given files fetched.1.files) := by
  intro access fetched asked given lacked
  have sound : Sound given next.files here next.files :=
    ⟨.refl _ _, fun file mem content found => .inl found⟩
  have underway : Underway given lacked settings.modelDir next.files here
      [.makeModelDirectory] next.files := by
    refine ⟨reached, ⟨sound, fun file mem => rfl⟩, ?_, ?_⟩
    · intro file mem
      cases List.mem_singleton.mp mem
    · intro file mem
      cases List.mem_singleton.mp mem
  have calm : ∀ {operations}, Files.Throughout (Pending given next.files here) next.files
      operations → Files.Throughout (Restartable settings given files) next.files operations :=
    fun throughout => throughout.mono fun state pending =>
      pending.restartable unweighted tree down same reached
  rcases underway.takeSteps hub access settings.modelId rfl
    (fun exchange mem content gives => ⟨exchange, mem, rfl, gives⟩)
    (fun exchange mem lacks => ⟨exchange, mem, rfl, lacks⟩) with ⟨operations, did, outcome⟩
  refine ⟨operations, did, ?_⟩
  rcases outcome with pending | ⟨succeeded, early, source, target, split, pending, completed⟩
  · exact .inl (calm pending)
  · rw [← did.files_eq] at completed
    refine .inr ⟨succeeded, early, source, target, split, calm pending, ?_, ?_⟩
    · exact completed.complete rfl unweighted tree down same reached
    · exact completed.sound.whole tree down same reached

/-- However a fetch is halted, the directory of the model has no weights, so that the next start
fetches the model again; or the fetch is over and the directory is complete. And no file of the
model is ever there in part. -/
def HaltSafe (hub : Hub) (settings : Settings) (progress : Progress) : Prop :=
  let access := Access.ofSettings settings
  let fetched := fetch hub access settings.modelId settings.modelDir progress
  let asked := exchanges hub access settings.modelId settings.modelDir steps progress
  let given := Gave hub access settings.modelId asked
  let lacked := Lacked hub access settings.modelId asked
  ∃ operations, Did progress fetched.1 operations ∧
    ∀ done rest state, done ++ rest = operations →
      Files.Halted progress.files done rest state →
      (Unweighted settings state ∨
        rest = [] ∧ fetched.2 = .ok settings.modelDir ∧
          Complete settings given lacked state) ∧
      Whole settings given progress.files state

/-- A fetch into a directory without weights may be halted at any time.

The path of the directory may go up, but not behind a directory that is missing: when this one is
made, the path can lead to a directory that has been there with its own weights all along. Nothing
is missing on the way to a directory that exists, `Files.unmade_of_isDir`. -/
theorem fetch_haltSafe (hub : Hub) (settings : Settings) (progress : Progress)
    (tree : progress.files.IsTree)
    (remote : (progress.files.store.select (.ofSettings settings)).1 = .remote settings.modelId)
    (down : ".." ∉ progress.files.unmade settings.modelDir) :
    HaltSafe hub settings progress := by
  unfold HaltSafe
  intro access fetched asked given lacked
  have unweighted := Unweighted.of_weights
    (Model.findWeights_eq_none_iff.mp (Model.select_eq_remote_iff.mp remote))
  rcases take_of_silent hub settings.modelId settings.modelDir progress
    (rfl : Step.makeModelDirectory.file? access.pins = none) with
    ⟨_, unfinished, making, did, _, throughout⟩
  have calm_making : Files.Throughout (Restartable settings given progress.files) progress.files
      making :=
    throughout.mono fun state same => .of_directories given unweighted tree down same
  -- without a renaming of weights every halt can be followed by another fetch
  have stops : ∀ {operations done rest state},
      Files.Throughout (Restartable settings given progress.files) progress.files operations →
      done ++ rest = operations → Files.Halted progress.files done rest state →
      (Unweighted settings state ∨ rest = [] ∧ fetched.2 = .ok settings.modelDir ∧
        Complete settings given lacked state) ∧ Whole settings given progress.files state := by
    intro operations done rest state calm whole halted
    have restartable := calm done rest state whole halted
    exact ⟨.inl restartable.unweighted, restartable.whole⟩
  rcases taken : Step.makeModelDirectory.take hub access settings.modelId settings.modelDir
    progress with ⟨next, ending⟩
  rw [taken] at unfinished did
  cases ending with
  | finished => exact absurd rfl unfinished
  | failed error =>
      have fetched_eq : fetched = (next, .error error) := takeSteps_of_failed taken
      refine ⟨making, ?_, fun done rest state whole halted => stops calm_making whole halted⟩
      rw [fetched_eq]
      exact did
  | goOn =>
      have fetched_eq : fetched =
          takeSteps hub access settings.modelId settings.modelDir steps.tail next :=
        takeSteps_of_goOn taken
      have asked_eq : asked =
          exchanges hub access settings.modelId settings.modelDir steps.tail next :=
        exchanges_of_goOn taken
      rcases exists_reach_of_makeModelDirectory taken with ⟨here, reached, _⟩
      have same : Files.SameBut [] progress.files next.files := by
        rw [did.files_eq]
        exact throughout.after
      have outcome := takeSteps_tail hub settings unweighted tree down same reached
      dsimp only at outcome
      rw [← fetched_eq, ← asked_eq, did.files_eq] at outcome
      rcases outcome with ⟨more, did_more, outcome⟩
      refine ⟨making ++ more, did.trans did_more, ?_⟩
      intro done rest state whole halted
      rcases outcome with calm | ⟨succeeded, early, source, target, rfl, calm, completed⟩
      · exact stops (calm_making.append calm) whole halted
      · rw [← List.append_assoc] at whole
        rcases (calm_making.append calm).append_rename halted whole with restartable | ⟨finished, rfl⟩
        · exact ⟨.inl restartable.unweighted, restartable.whole⟩
        · have last_state := (did.trans did_more).files_eq
          rw [← List.append_assoc] at last_state
          rw [← last_state]
          exact ⟨completed.1.imp id fun complete => ⟨finished, succeeded, complete⟩, completed.2⟩

/-- A fetch that makes the directory of the model and the one above it. -/
theorem fetch_haltSafe_sample :
    let settings := Sample.settings "new/model" []
    let hub := Sample.hub [("config.json", [1]), ("tokenizer.json", [2]),
      ("pytorch_model.bin", [3])]
    let progress : Progress := { files := ⟨[(["home"], .directory)], ["home"]⟩ }
    progress.files.IsTree ∧
      (progress.files.store.select (.ofSettings settings)).1 = .remote settings.modelId ∧
      ".." ∉ progress.files.unmade settings.modelDir ∧
      HaltSafe hub settings progress ∧
      (fetch hub (.ofSettings settings) settings.modelId settings.modelDir progress).2 =
        .ok "new/model" := by
  intro settings hub progress
  have tree : progress.files.IsTree := Files.isTree_of_forall (by decide)
  have remote : (progress.files.store.select (.ofSettings settings)).1 =
      .remote settings.modelId := by decide +kernel
  have down : ".." ∉ progress.files.unmade settings.modelDir := by decide +kernel
  refine ⟨tree, remote, down, fetch_haltSafe hub settings progress tree remote down, ?_⟩
  apply eq_ok_of_toOption
  decide +kernel

/-- The directory that is missing in `new/../m` is made, and `m` has weights that no fetch has
written. -/
theorem not_haltSafe_upwards :
    let settings := Sample.settings "new/../m" []
    let hub : Hub := fun _ _ => .unreachable "Connection Failed" "Network is unreachable"
    let progress : Progress := {
      files := ⟨[(["home"], .directory), (["home", "m"], .directory),
        (["home", "m", "model.safetensors"], .file "weights".toUTF8.toList)], ["home"]⟩ }
    progress.files.IsTree ∧
      (progress.files.store.select (.ofSettings settings)).1 = .remote settings.modelId ∧
      ¬HaltSafe hub settings progress := by
  intro settings hub progress
  have tree : progress.files.IsTree := Files.isTree_of_forall (by decide)
  have remote : (progress.files.store.select (.ofSettings settings)).1 =
      .remote settings.modelId := by decide +kernel
  have made : (fetch hub (.ofSettings settings) settings.modelId settings.modelDir
      progress).1.operations = [.makeDirectory ["home", "new"]] := by decide +kernel
  have failed : (fetch hub (.ofSettings settings) settings.modelId settings.modelDir
      progress).2.toOption = none := by decide +kernel
  have found : ((progress.files.applyAll [.makeDirectory ["home", "new"]]).store.select
      (.ofSettings settings)).1 = .local "new/../m" := by decide +kernel
  refine ⟨tree, remote, ?_⟩
  rintro ⟨operations, did, safe⟩
  have only : operations = [.makeDirectory ["home", "new"]] := did.operations_eq.symm.trans made
  subst only
  rcases (safe _ [] _ (List.append_nil _) (.between _ _)).1 with unweighted | ⟨_, succeeded, _⟩
  · have still := unweighted.remote
    rw [found] at still
    cases still
  · rw [succeeded] at failed
    cases failed

end Hub

end TextVectors
