import TextVectors.Proofs.Files.Frame
import TextVectors.Proofs.Hub.Steps

/-!
# What a fetch leaves behind

Below the directory of a model, a fetch makes one directory, writes drafts, and
gives some files their names. Its `Footprint` is the list of these names: each of
them has a content that the hub has given, and every operation is about a draft or
about one of them. A step adds the name of its file to the list if the hub gives
the file, `Footprint.take`. Weights end the fetch, so they can only be the last
name on the list, `Footprint.takeSteps`, and a fetch that fails has named none.
-/

namespace TextVectors

namespace Hub

variable {hub : Hub} {access : Access} {modelId directory file : String}
  {given : String → List UInt8 → Prop} {made state : Files} {here : Place}
  {named : List String} {operations : List Files.Operation} {content : List UInt8}
  {step : Step} {progress after : Progress}

/-- What has been done to files below the place of a directory, when some of them have been given
their names. -/
structure Footprint (given : String → List UInt8 → Prop) (directory : String) (made : Files)
    (here : Place) (named : List String) (operations : List Files.Operation) (state : Files) :
    Prop where
  state_eq : state = made.applyAll operations
  reached : made.reach (Path.parts directory) = .ok here
  standing : Path.parts directory ≠ [] → made.node? here = some .directory
  same : Files.SameBut (touched here) made state
  within : ∀ operation ∈ operations,
    operation = .makeDirectory (placeIn here poolingDirectory) ∧
        Files.Made made state (Path.join directory poolingDirectory)
          (placeIn here poolingDirectory) ∨
      operation.places ⊆ drafts here ∨ ∃ file ∈ named, operation = naming here file
  named_subset : named ⊆ downloads
  content : ∀ file ∈ named, naming here file ∈ operations ∧
    state.locate (Path.join directory file) = .ok (placeIn here file) ∧
    ∃ content, given file content ∧ state.content? (placeIn here file) = some content

theorem Footprint.start (reached : made.reach (Path.parts directory) = .ok here)
    (standing : Path.parts directory ≠ [] → made.node? here = some .directory) :
    Footprint given directory made here [] [] made where
  state_eq := rfl
  reached := reached
  standing := standing
  same := .refl _ made
  within := nofun
  named_subset := List.nil_subset _
  content := nofun

/-! ## One step -/

theorem inner_poolingDirectory : Files.Inner poolingDirectory where
  front_eq := by decide
  parts_ne_nil := by decide
  down := by decide

theorem placeIn_poolingDirectory_not_mem (here : Place) :
    placeIn here poolingDirectory ∉ touched here := by
  have apart : ∀ file ∈ downloads, Path.parts file ≠ Path.parts poolingDirectory ∧
      Path.parts (draftName file) ≠ Path.parts poolingDirectory := by decide
  intro mem
  rcases List.mem_append.mp mem with named | drafted
  · rcases List.mem_map.mp named with ⟨file, fileMem, same⟩
    exact (apart file fileMem).1 (List.append_cancel_left same)
  · rcases List.mem_map.mp drafted with ⟨file, fileMem, same⟩
    exact (apart file fileMem).2 (List.append_cancel_left same)

theorem eq_placeIn_of_made {files later : Files} {place : Place}
    (reached : files.reach (Path.parts directory) = .ok here)
    (standing : Path.parts directory ≠ [] → files.node? here = some .directory)
    (same : Files.SameBut [] files later)
    (making : Files.Made files later (Path.join directory poolingDirectory) place) :
    place = placeIn here poolingDirectory := by
  rcases making.leads with ⟨upper, above, located⟩
  have some_part : Path.parts upper ≠ [] := by
    intro empty
    rw [Files.locate_eq, if_pos empty] at located
    cases located
  have single : Path.parts poolingDirectory = [poolingDirectory] := by decide
  rw [Path.parts_join directory inner_poolingDirectory.front_eq, single,
    List.prefix_concat_iff] at above
  rw [Files.locate_eq, if_neg some_part] at located
  rcases above with whole | above
  · rw [whole, ← single, ← Files.locate_join_eq_reach later directory inner_poolingDirectory]
      at located
    exact eq_placeIn inner_poolingDirectory (same.reach reached) located
  · -- a directory on the way to the directory of the model stands already
    have some_whole : Path.parts directory ≠ [] := by
      intro empty
      exact some_part (List.prefix_nil.mp (empty ▸ above))
    rcases Files.reach_above reached (standing some_whole) some_part above with
      ⟨other, halfway, directory_there⟩
    rw [same.reach halfway, Except.ok.injEq] at located
    have free := making.free
    rw [← located, directory_there] at free
    cases free

theorem places_drafting {operation : Files.Operation} (mem : file ∈ downloads)
    (drafts_it : operation ∈ drafting here file content) : operation.places ⊆ drafts here := by
  simp only [drafting, List.mem_cons, List.not_mem_nil, or_false] at drafts_it
  rcases drafts_it with rfl | rfl
  all_goals
    intro place among
    rw [List.mem_singleton.mp among]
    exact draft_mem_drafts here mem

theorem Footprint.of_apart {more : List Files.Operation} {changed : List Place}
    (footprint : Footprint given directory made here named operations state)
    (same : Files.SameBut changed state (state.applyAll more)) (among : changed ⊆ touched here)
    (apart : ∀ file ∈ downloads, placeIn here file ∉ changed)
    (within : ∀ operation ∈ more,
      operation = .makeDirectory (placeIn here poolingDirectory) ∧
          Files.Made made (state.applyAll more) (Path.join directory poolingDirectory)
            (placeIn here poolingDirectory) ∨
        operation.places ⊆ drafts here) :
    Footprint given directory made here named (operations ++ more) (state.applyAll more) where
  state_eq := by rw [Files.applyAll_append, ← footprint.state_eq]
  reached := footprint.reached
  standing := footprint.standing
  same := footprint.same.trans (same.mono among)
  within := by
    intro operation mem
    rcases List.mem_append.mp mem with early | late
    · rcases footprint.within operation early with ⟨is_it, making⟩ | other
      · exact .inl ⟨is_it, making.keep same⟩
      · exact .inr other
    · exact (within operation late).imp_right .inl
  named_subset := footprint.named_subset
  content := by
    intro file mem
    rcases footprint.content file mem with ⟨naming_mem, located, content, gave, found⟩
    refine ⟨List.mem_append_left _ naming_mem, same.locate located, content, gave, ?_⟩
    rw [← found]
    exact same.content _ (apart file (footprint.named_subset mem))

theorem Footprint.of_written
    (footprint : Footprint given directory made here named operations state)
    (mem : file ∈ downloads) (gave : given file content)
    (written : Written state directory here file content) :
    Footprint given directory made here (named ++ [file])
      (operations ++ (drafting here file content ++ [naming here file]))
      (state.applyAll (drafting here file content ++ [naming here file])) where
  state_eq := by rw [Files.applyAll_append made, ← footprint.state_eq]
  reached := footprint.reached
  standing := footprint.standing
  same := footprint.same.trans (written.same_touched mem)
  within := by
    intro operation operationMem
    rcases List.mem_append.mp operationMem with early | late
    · rcases footprint.within operation early with
        ⟨is_it, making⟩ | drafted | ⟨other, otherMem, same⟩
      · exact .inl ⟨is_it, making.keep written.same⟩
      · exact .inr (.inl drafted)
      · exact .inr (.inr ⟨other, List.mem_append_left _ otherMem, same⟩)
    · rcases List.mem_append.mp late with draft | last
      · exact .inr (.inl (places_drafting mem draft))
      · exact .inr (.inr ⟨file, List.mem_append_right _ List.mem_cons_self,
          List.mem_singleton.mp last⟩)
  named_subset := by
    intro other otherMem
    rcases List.mem_append.mp otherMem with early | late
    · exact footprint.named_subset early
    · rw [List.mem_singleton.mp late]
      exact mem
  content := by
    intro other otherMem
    by_cases same : other = file
    · subst same
      refine ⟨?_, written.located, content, gave, written.content_eq⟩
      exact List.mem_append_right _ (List.mem_append_right _ List.mem_cons_self)
    · have early : other ∈ named := by simpa [same] using otherMem
      rcases footprint.content other early with ⟨naming_mem, located, whole, gave_it, found⟩
      refine ⟨List.mem_append_left _ naming_mem, written.same.locate located, whole, gave_it, ?_⟩
      rw [← found]
      exact written.apart mem (footprint.named_subset early) same

theorem Footprint.take_of_silent (hub : Hub) (modelId : String)
    (footprint : Footprint given directory made here named operations progress.files)
    (mem : step ∈ steps.tail) (silent : step.file? access.pins = none) :
    ∃ more, Did progress (step.take hub access modelId directory progress).1 more ∧
      Footprint given directory made here named (operations ++ more)
        (step.take hub access modelId directory progress).1.files := by
  have nothing : ∀ {later : Progress}, Did progress later [] → ∃ more, Did progress later more ∧
      Footprint given directory made here named (operations ++ more) later.files := by
    intro later did
    refine ⟨[], did, ?_⟩
    rw [did.files_eq, List.append_nil]
    exact footprint
  cases step with
  | makeModelDirectory => exact absurd mem (by decide)
  | makeDirectory name =>
      have only : name = poolingDirectory := by simpa [steps] using mem
      subst only
      have did := (did_makeDirectory progress (Path.join directory poolingDirectory)
        (.directory (Path.join directory poolingDirectory))).1
      have same := (Files.makeDirectories_throughout progress.files
        (Path.join directory poolingDirectory)).after
      refine ⟨_, did, ?_⟩
      rw [Step.take]
      dsimp only
      rw [did.files_eq]
      apply footprint.of_apart same (List.nil_subset _) fun _ _ => List.not_mem_nil
      intro operation operationMem
      rcases Files.makesFor_makeDirectories _ _ operation operationMem with ⟨place, rfl, making⟩
      have place_eq := eq_placeIn_of_made (footprint.same.reach footprint.reached)
        (fun some_part => footprint.same.directory here (footprint.standing some_part)) same making
      subst place_eq
      left
      refine ⟨rfl, footprint.same.node?_eq_none ?_ making.free, making.directory, making.leads⟩
      exact placeIn_poolingDirectory_not_mem here
  | required name => cases silent
  | optional name => cases silent
  | weights name =>
      apply nothing
      rw [take_of_passed hub modelId directory progress silent]
      exact ⟨(List.append_nil _).symm, rfl⟩

/-- The names that a step adds, by its end. -/
inductive Adds (hub : Hub) (access : Access) (modelId : String) (progress : Progress)
    (step : Step) : StepEnd → List String → Prop where
  | nothing {ending : StepEnd} (unfinished : ending ≠ .finished)
      (lacks : ending = .goOn → ∀ file, step.file? access.pins = some file →
        Exchange.Lacks hub access modelId ⟨file, progress⟩) :
      Adds hub access modelId progress step ending []
  | plain {file : String} (asks : step.file? access.pins = some file)
      (early : file ∉ Model.weightFiles) : Adds hub access modelId progress step .goOn [file]
  | weights {file : String} (asks : step.file? access.pins = some file)
      (last : file ∈ Model.weightFiles) : Adds hub access modelId progress step .finished [file]

theorem Adds.of_found {modelId : String} (listed : step ∈ steps)
    (asks : step.file? access.pins = some file) :
    Adds hub access modelId progress step (step.found modelId true) [file] := by
  have about := Step.target?_of_file? asks
  cases step with
  | makeModelDirectory => cases about
  | makeDirectory name => cases about
  | required name | optional name => exact .plain asks (not_mem_weightFiles listed rfl about)
  | weights name =>
      cases about
      exact .weights asks (by simpa [steps] using listed)

theorem Step.unfinished_of_absent (modelId : String) (step : Step) :
    step.found modelId false ≠ .finished := by
  cases step <;> nofun

/-- A step does nothing but draft its file, and names it if the hub gives it. -/
theorem Footprint.take (hub : Hub) (access : Access) (modelId : String)
    (footprint : Footprint given directory made here named operations progress.files)
    (mem : step ∈ steps.tail)
    (gave : ∀ file, step.file? access.pins = some file → ∀ content,
      Exchange.Gives hub access modelId ⟨file, progress⟩ content → given file content) :
    ∃ added more, Did progress (step.take hub access modelId directory progress).1 more ∧
      Footprint given directory made here (named ++ added) (operations ++ more)
        (step.take hub access modelId directory progress).1.files ∧
      Adds hub access modelId progress step (step.take hub access modelId directory progress).2
        added := by
  have listed : step ∈ steps := List.mem_of_mem_tail mem
  cases asks : step.file? access.pins with
  | none =>
      rcases footprint.take_of_silent hub modelId mem asks with ⟨more, did, later⟩
      refine ⟨[], more, did, ?_, .nothing ?_ ?_⟩
      · rw [List.append_nil]
        exact later
      · exact (Hub.take_of_silent hub modelId directory progress asks).2.1
      · intro _ file about
        rw [asks] at about
        cases about
  | some file =>
      have download := mem_downloads access.pins listed asks
      have reached := footprint.same.reach footprint.reached
      rcases take_of_asks hub modelId directory progress download asks with
        ⟨_, outcome, downloaded, ending⟩
      rw [ending]
      cases downloaded with
      | absent lacks nothing =>
          refine ⟨[], [], nothing, ?_, .nothing (step.unfinished_of_absent modelId) ?_⟩
          · rw [List.append_nil, List.append_nil, nothing.files_eq_of_nothing]
            exact footprint
          · intro _ other about
            rw [asks, Option.some.injEq] at about
            exact about ▸ lacks
      | failed did partly =>
          -- the draft may have been written, but it has not been renamed
          refine ⟨[], _, did, ?_, .nothing nofun nofun⟩
          rw [List.append_nil, did.files_eq]
          rcases partly with rfl | ⟨there, content, reached_there, rfl, drafted⟩
          · rw [List.append_nil]
            exact footprint
          · cases reached.symm.trans reached_there
            apply footprint.of_apart drafted.after (drafts_subset_touched here)
            · intro other otherMem
              exact placeIn_not_mem_drafts here otherMem
            · intro operation among
              exact .inr (places_drafting download among)
      | @written content there gives accepted reached_there did written =>
          cases reached.symm.trans reached_there
          refine ⟨[file], _, did, ?_, .of_found listed asks⟩
          rw [did.files_eq]
          exact footprint.of_written download (gave file asks content gives) written

/-! ## The steps in a row -/

/-- The names that a fetch adds, by its outcome: weights are the last of them, if it succeeds. -/
inductive Names (hub : Hub) (access : Access) (modelId directory : String)
    (asked : List Exchange) : Except FetchError String → List String → Prop where
  | failed {error : FetchError} {added : List String}
      (plain : ∀ file ∈ added, file ∉ Model.weightFiles) :
      Names hub access modelId directory asked (.error error) added
  | succeeded {earlier : List String} {weights : String}
      (plain : ∀ file ∈ earlier, file ∉ Model.weightFiles) (last : weights ∈ Model.weightFiles)
      (all : ∀ exchange ∈ asked, ∀ content, exchange.Gives hub access modelId content →
        exchange.file ∈ earlier ++ [weights]) :
      Names hub access modelId directory asked (.ok directory) (earlier ++ [weights])

theorem Names.cons {asked : List Exchange} {outcome : Except FetchError String}
    {added more : List String}
    (adds : Adds hub access modelId progress step .goOn added)
    (names : Names hub access modelId directory asked outcome more) :
    Names hub access modelId directory ((step.exchange? access.pins progress).toList ++ asked)
      outcome (added ++ more) := by
  have plain : ∀ file ∈ added, file ∉ Model.weightFiles := by
    intro file mem
    cases adds with
    | nothing => cases mem
    | plain asks early => exact List.mem_singleton.mp mem ▸ early
  have gives_added : ∀ exchange ∈ (step.exchange? access.pins progress).toList, ∀ content,
      exchange.Gives hub access modelId content → exchange.file ∈ added := by
    intro exchange mem content gives
    rcases Option.map_eq_some_iff.mp (Option.mem_toList.mp mem) with ⟨file, asks, rfl⟩
    cases adds with
    | nothing _ lacks => exact absurd gives (Turn.not_gives_of_lacks (lacks rfl file asks))
    | plain asks_it =>
        rw [asks, Option.some.injEq] at asks_it
        exact List.mem_singleton.mpr asks_it
  cases names with
  | failed later =>
      apply Names.failed
      intro file mem
      exact (List.mem_append.mp mem).elim (plain file) (later file)
  | @succeeded earlier weights later last all =>
      rw [← List.append_assoc]
      apply Names.succeeded _ last
      · intro exchange mem content gives
        rw [List.append_assoc]
        rcases List.mem_append.mp mem with first | other
        · exact List.mem_append_left _ (gives_added exchange first content gives)
        · exact List.mem_append_right _ (all exchange other content gives)
      · intro file mem
        exact (List.mem_append.mp mem).elim (plain file) (later file)

/-- What steps after the directory of the model has been made leave behind. -/
theorem Footprint.takeSteps (hub : Hub) (access : Access) (modelId : String) {rest : List Step}
    (footprint : Footprint given directory made here named operations progress.files)
    (within : rest ⊆ steps.tail)
    (gave : ∀ exchange ∈ exchanges hub access modelId directory rest progress,
      ∀ content, exchange.Gives hub access modelId content → given exchange.file content) :
    ∃ added more,
      Did progress (takeSteps hub access modelId directory rest progress).1 more ∧
      Footprint given directory made here (named ++ added) (operations ++ more)
        (takeSteps hub access modelId directory rest progress).1.files ∧
      Names hub access modelId directory (exchanges hub access modelId directory rest progress)
        (takeSteps hub access modelId directory rest progress).2 added := by
  -- on the steps that remain: a step that goes on hands its names to the next one
  induction rest generalizing named operations progress with
  | nil =>
      refine ⟨[], [], .refl progress, ?_, .failed nofun⟩
      rw [List.append_nil, List.append_nil]
      exact footprint
  | cons step rest ih =>
      have mem : step ∈ steps.tail := within List.mem_cons_self
      have taking := footprint.take hub access modelId mem
        (fun file asks => gave _ (mem_exchanges rest asks))
      rcases taken : step.take hub access modelId directory progress with ⟨next, ending⟩
      rw [taken] at taking
      rcases taking with ⟨added, more, did, later, adds⟩
      cases ending with
      | goOn =>
          rw [exchanges_of_goOn taken] at gave ⊢
          rw [takeSteps_of_goOn taken]
          rcases ih later (fun other among => within (List.mem_cons_of_mem step among))
            (fun exchange among => gave exchange (List.mem_append_right _ among)) with
            ⟨others, further, did_further, last, names⟩
          refine ⟨added ++ others, more ++ further, did.trans did_further, ?_, ?_⟩
          · rw [← List.append_assoc, ← List.append_assoc]
            exact last
          · exact names.cons adds
      | finished =>
          rw [takeSteps_of_finished taken, exchanges_of_finished taken]
          refine ⟨added, more, did, later, ?_⟩
          cases adds with
          | nothing unfinished => exact absurd rfl unfinished
          | @weights file asks last =>
              have alone : Names hub access modelId directory
                  (step.exchange? access.pins progress).toList (.ok directory) ([] ++ [file]) := by
                apply Names.succeeded _ last
                · intro exchange among content gives
                  rcases Option.map_eq_some_iff.mp (Option.mem_toList.mp among) with
                    ⟨other, asks_it, rfl⟩
                  rw [asks, Option.some.injEq] at asks_it
                  exact List.mem_singleton.mpr asks_it.symm
                · nofun
              exact alone
      | failed error =>
          rw [takeSteps_of_failed taken]
          refine ⟨added, more, did, later, .failed ?_⟩
          cases adds with
          | nothing => nofun

/-! ## A whole fetch -/

/-- What a fetch leaves behind: directories on the way to the directory of the model, and what it
has done below it. -/
theorem fetch_footprint (hub : Hub) (access : Access) (modelId directory : String)
    (progress : Progress) :
    let fetched := fetch hub access modelId directory progress
    let asked := exchanges hub access modelId directory steps progress
    ∃ making, progress.files.MakesFor directory making ∧
      Files.SameBut [] progress.files (progress.files.applyAll making) ∧
      (Did progress fetched.1 making ∧ (∃ error, fetched.2 = .error error) ∨
        ∃ here named more, Did progress fetched.1 (making ++ more) ∧
          Footprint (Gave hub access modelId asked) directory (progress.files.applyAll making) here
            named more fetched.1.files ∧
          Names hub access modelId directory asked fetched.2 named) := by
  intro fetched asked
  have same := (Files.makeDirectories_throughout progress.files directory).after
  refine ⟨(progress.files.makeDirectories directory).1,
    Files.makesFor_makeDirectories progress.files directory, same, ?_⟩
  rcases fetch_cases hub access modelId directory progress with
    failing | ⟨next, here, did, reached, standing, fetched_eq, asked_eq⟩
  · exact .inl failing
  · have gave : ∀ exchange ∈ exchanges hub access modelId directory steps.tail next,
        ∀ content, exchange.Gives hub access modelId content →
        Gave hub access modelId asked exchange.file content := by
      intro exchange mem content gives
      rw [← asked_eq] at mem
      exact ⟨exchange, mem, rfl, gives⟩
    have start : Footprint (Gave hub access modelId asked) directory next.files here [] []
      next.files := .start reached standing
    rcases start.takeSteps hub access modelId (List.Subset.refl _) gave with
      ⟨named, more, did_more, footprint, names⟩
    rw [← fetched_eq] at did_more footprint names
    rw [← asked_eq] at names
    rw [← did.files_eq]
    exact .inr ⟨here, named, more, did.trans did_more, footprint, names⟩

/-- A fetch that succeeds gives the directory that it was asked to fill, with its footprint. -/
theorem footprint_of_ok {path : String}
    (succeeded : (fetch hub access modelId directory progress).2 = .ok path) :
    let asked := exchanges hub access modelId directory steps progress
    path = directory ∧ ∃ made here named more, Files.SameBut [] progress.files made ∧
      Footprint (Gave hub access modelId asked) directory made here named more
        (fetch hub access modelId directory progress).1.files ∧
      Names hub access modelId directory asked (.ok directory) named := by
  intro asked
  rcases fetch_footprint hub access modelId directory progress with
    ⟨_, _, same, ⟨_, error, failed⟩ | ⟨here, named, more, _, footprint, names⟩⟩
  · rw [succeeded] at failed
    cases failed
  · rw [succeeded] at names
    have home : path = directory := by
      cases names
      rfl
    rw [home] at names
    exact ⟨home, _, here, named, more, same, footprint, names⟩

end Hub

end TextVectors
