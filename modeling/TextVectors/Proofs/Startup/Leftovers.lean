import TextVectors.Proofs.Hub.Confined
import TextVectors.Proofs.Hub.Halts
import TextVectors.Proofs.Hub.SideBySide
import TextVectors.Proofs.Startup.Offline

/-!
# Leftovers in the directory of a model

When a model has been fetched, its files are `FromHub`: those that must be there and
the weights are as the hub has given them, whatever was in the directory before. So
two machines on which the same hub has been asked the same load the same model,
`lookUp_alike`.

The file for the pooling is an exception. A fetch leaves it alone if the hub does not
have it, and what an earlier fetch has left there is loaded with the new model,
`leftover_pooling`. It takes no part if the hub gives the file.
-/

namespace TextVectors

/-- A path leads to the same content, if it leads to any. -/
def Files.SameAt (one other : Files) (path : String) : Prop :=
  ∀ content, one.read path = .ok content ↔ other.read path = .ok content

namespace Hub

variable {hub : Hub} {access : Access} {modelId directory file : String}
  {given : String → List UInt8 → Prop} {before made after : Files} {here : Place}
  {named : List String} {operations : List Files.Operation} {settings : Settings}
  {progress : Progress}

theorem Footprint.sameAt (footprint : Footprint given directory made here named operations after)
    (tree : before.IsTree) (down : ".." ∉ before.unmade directory)
    (same : Files.SameBut [] before made) (mem : file ∈ downloads) (unnamed : file ∉ named) :
    Files.SameAt before after (Path.join directory file) := by
  have inner := inner_of_mem mem
  have node_eq := footprint.node?_eq mem unnamed
  intro content
  constructor
  · intro read
    rcases Files.read_eq_ok_iff.mp read with ⟨place, located, found⟩
    have located_made := same.locate located
    have place_eq := eq_placeIn inner footprint.reached located_made
    rw [← same.content place List.not_mem_nil, place_eq, Files.content?_eq_some_iff, ← node_eq,
      ← Files.content?_eq_some_iff] at found
    rw [place_eq] at located_made
    exact Files.read_eq_ok_iff.mpr ⟨_, footprint.same.locate located_made, found⟩
  · intro read
    have found := content?_of_read (footprint.same.reach footprint.reached) mem read
    rw [Files.content?_eq_some_iff, node_eq, ← Files.content?_eq_some_iff] at found
    exact read_before tree down same footprint.reached mem found

theorem eq_of_gave_weights {path one other : String} {content otherContent : List UInt8}
    (succeeded : (fetch hub access modelId directory progress).2 = .ok path)
    (mem : one ∈ Model.weightFiles) (otherMem : other ∈ Model.weightFiles)
    (gave : Gave hub access modelId (exchanges hub access modelId directory steps progress) one
      content)
    (otherGave : Gave hub access modelId
      (exchanges hub access modelId directory steps progress) other otherContent) :
    one = other := by
  rcases footprint_of_ok succeeded with ⟨_, _, _, named, _, _, _, names⟩
  cases names with
  | @succeeded earlier weights plain last all =>
      have only : ∀ {file content}, file ∈ Model.weightFiles →
          Gave hub access modelId (exchanges hub access modelId directory steps progress) file
            content → file = weights := by
        rintro file content fileMem ⟨exchange, among, rfl, gives⟩
        rcases List.mem_append.mp (all exchange among content gives) with early | late
        · exact absurd fileMem (plain _ early)
        · exact List.mem_singleton.mp late
      exact (only mem gave).trans (only otherMem otherGave).symm

/-- A start on these files fetches the model, into a directory whose path does not go up behind what
is missing. -/
structure Fetchable (settings : Settings) (files : Files) : Prop where
  tree : files.IsTree
  remote : (files.store.select (.ofSettings settings)).1 = .remote settings.modelId
  down : ".." ∉ files.unmade settings.modelDir

/-- After a fetch that succeeds, the directory of the model is complete if there are any weights in
it. -/
theorem complete_of_fetch (fetchable : Fetchable settings progress.files)
    (succeeded : (fetch hub (.ofSettings settings) settings.modelId settings.modelDir
      progress).2 = .ok settings.modelDir)
    (found : ((fetch hub (.ofSettings settings) settings.modelId settings.modelDir
      progress).1.files.store.findWeights settings.modelDir Model.weightFiles).isSome) :
    let asked := exchanges hub (.ofSettings settings) settings.modelId settings.modelDir steps
      progress
    Complete settings (Gave hub (.ofSettings settings) settings.modelId asked)
      (Lacked hub (.ofSettings settings) settings.modelId asked)
      (fetch hub (.ofSettings settings) settings.modelId settings.modelDir progress).1.files := by
  intro asked
  have weighted : ¬Unweighted settings (fetch hub (.ofSettings settings) settings.modelId
      settings.modelDir progress).1.files := by
    intro unweighted
    have nothing := Model.select_eq_remote_iff.mp unweighted.remote
    have search := Option.isSome_iff_ne_none.mp found
    exact search nothing
  have unweighted := Unweighted.of_weights
    (Model.findWeights_eq_none_iff.mp (Model.select_eq_remote_iff.mp fetchable.remote))
  rcases fetch_cases hub (.ofSettings settings) settings.modelId settings.modelDir progress with
    ⟨_, error, failed⟩ | ⟨next, here, did, reached, _, fetched_eq, asked_eq⟩
  · rw [succeeded] at failed
    cases failed
  · have same : Files.SameBut [] progress.files next.files := by
      rw [did.files_eq]
      exact (Files.makeDirectories_throughout progress.files settings.modelDir).after
    have outcome := takeSteps_tail hub settings unweighted fetchable.tree fetchable.down same
      reached
    dsimp only at outcome
    rw [← fetched_eq, ← asked_eq] at outcome
    rcases outcome with ⟨more, did_more, calm | ⟨_, _, _, _, _, _, complete, _⟩⟩
    · -- without a renaming of weights there would be none
      rw [did_more.files_eq] at weighted
      exact absurd calm.after.unweighted weighted
    · exact complete.resolve_left weighted

end Hub

namespace Startup

variable {settings : Settings} {hub : Hub} {machine : Hub.Machine} {resolved : Model.Resolved}
  {given : String → List UInt8 → Prop} {lacked : String → Prop} {before after one other : Files}

/-! ## What is loaded -/

/-- Two machines have the same files of a model, as far as it is loaded from them. -/
structure SameModel (resolved : Model.Resolved) (one other : Files) : Prop where
  required : ∀ file ∈ [Model.configFile, Model.tokenizerFile], ∃ content,
    one.read (Path.join resolved.dir file) = .ok content ∧
      other.read (Path.join resolved.dir file) = .ok content
  pooling : Files.SameAt one other (Path.join resolved.dir Model.poolingFile)
  weights : ∃ content, one.read resolved.weights = .ok content ∧
    other.read resolved.weights = .ok content

theorem readText_congr {path : String} (same : one.read path = other.read path) :
    one.readText path = other.readText path := by
  unfold Files.readText
  rw [same]

theorem isFile_iff_exists_read {files : Files} {path : String} :
    files.isFile path = true ↔ ∃ content, files.read path = .ok content := by
  rw [Files.isFile_iff]
  constructor
  · rintro ⟨place, content, located, found⟩
    exact ⟨content, Files.read_eq_ok_iff.mpr ⟨place, located, found⟩⟩
  · rintro ⟨content, read⟩
    rcases Files.read_eq_ok_iff.mp read with ⟨place, located, found⟩
    exact ⟨place, content, located, found⟩

theorem ofModel_congr {directory : String}
    (same : Files.SameAt one other (Path.join directory Model.poolingFile)) :
    Pooling.ofModel one directory = Pooling.ofModel other directory := by
  have standing : one.isFile (Path.join directory Model.poolingFile) =
      other.isFile (Path.join directory Model.poolingFile) := by
    rw [Bool.eq_iff_iff, isFile_iff_exists_read, isFile_iff_exists_read]
    exact exists_congr same
  unfold Pooling.ofModel
  dsimp only
  rw [← standing]
  cases present : one.isFile (Path.join directory Model.poolingFile) with
  | false => rfl
  | true =>
      rcases isFile_iff_exists_read.mp present with ⟨content, read⟩
      rw [readText_congr (read.trans ((same content).mp read).symm)]

/-- A model is loaded from its files and from nothing else. -/
theorem SameModel.load_eq (same : SameModel resolved one other) (maxTokens : Nat)
    (expected : Option Nat) :
    Transformer.load one resolved maxTokens expected =
      Transformer.load other resolved maxTokens expected := by
  have read_eq : ∀ file ∈ [Model.configFile, Model.tokenizerFile],
      one.read (Path.join resolved.dir file) = other.read (Path.join resolved.dir file) := by
    intro file mem
    rcases same.required file mem with ⟨content, read, otherRead⟩
    exact read.trans otherRead.symm
  have config : Transformer.readConfig one resolved.dir expected =
      Transformer.readConfig other resolved.dir expected := by
    unfold Transformer.readConfig
    dsimp only
    rw [readText_congr (read_eq _ (by simp)), ofModel_congr same.pooling]
  have tokenizer : Transformer.readTokenizer one resolved.dir =
      Transformer.readTokenizer other resolved.dir := by
    unfold Transformer.readTokenizer
    dsimp only
    rw [readText_congr (read_eq _ (by simp))]
  have weights : Transformer.readWeights one resolved.weights =
      Transformer.readWeights other resolved.weights := by
    rcases same.weights with ⟨content, read, otherRead⟩
    unfold Transformer.readWeights
    rw [read, otherRead]
  unfold Transformer.load Transformer.assemble
  rw [config, tokenizer, weights]

/-! ## After a fetch -/

/-- The files of a model that has been fetched are as the hub has given them. Only the file for the
pooling is what it was before, if the hub does not have it. -/
structure FromHub (given : String → List UInt8 → Prop) (lacked : String → Prop)
    (before after : Files) (resolved : Model.Resolved) : Prop where
  required : ∀ file ∈ [Model.configFile, Model.tokenizerFile],
    Hub.Obtained given resolved.dir file after
  pooling : Hub.Obtained given resolved.dir Model.poolingFile after ∨
    lacked Model.poolingFile ∧
      Files.SameAt before after (Path.join resolved.dir Model.poolingFile)
  weights : ∃ file ∈ Model.weightFiles, resolved.weights = Path.join resolved.dir file ∧
    Hub.Obtained given resolved.dir file after ∧
    ∀ other ∈ Model.weightFiles, ∀ content, given other content → other = file

def progressOf (machine : Hub.Machine) : Hub.Progress where
  files := machine.files
  operations := machine.operations
  requests := machine.requests

theorem fetch_of_lookUp (fetchable : Hub.Fetchable settings machine.files)
    (found : (lookUp settings hub machine).outcome = .ok resolved) :
    let fetched := Hub.fetch hub (.ofSettings settings) settings.modelId settings.modelDir
      (progressOf machine)
    fetched.2 = .ok settings.modelDir ∧ resolved.source = .remote settings.modelId ∧
      resolved.dir = settings.modelDir ∧
      (lookUp settings hub machine).world.files = fetched.1.files ∧
      fetched.1.files.store.findWeights settings.modelDir Model.weightFiles =
        some resolved.weights := by
  intro fetched
  have search := Model.select_eq_remote_iff.mp fetchable.remote
  have world_eq := Model.world_resolve_of_remote (fun later : Hub.Machine => later.files.store)
    (Hub.fetcher hub (.ofSettings settings)) search
  rcases (Model.resolve_eq_ok_iff_of_remote (fun later : Hub.Machine => later.files.store)
    (Hub.fetcher hub (.ofSettings settings)) search).mp found with ⟨source, succeeded, weights⟩
  have home := home_of_fetcher succeeded
  unfold Hub.fetcher at succeeded
  rw [mapError_eq_ok_iff] at succeeded
  rw [home] at succeeded weights
  exact ⟨succeeded, source, home, congrArg (·.files) world_eq, weights⟩

def askedOn (settings : Settings) (hub : Hub) (machine : Hub.Machine) : List Hub.Exchange :=
  Hub.exchanges hub (.ofSettings settings) settings.modelId settings.modelDir Hub.steps
    (progressOf machine)

/-- The hub gives a file of the model with a content when it is fetched on a machine. -/
def GivenOn (settings : Settings) (hub : Hub) (machine : Hub.Machine) :
    String → List UInt8 → Prop :=
  Hub.Gave hub (.ofSettings settings) settings.modelId (askedOn settings hub machine)

/-- The hub does not have a file of the model when it is fetched on a machine. -/
def LackedOn (settings : Settings) (hub : Hub) (machine : Hub.Machine) : String → Prop :=
  Hub.Lacked hub (.ofSettings settings) settings.modelId (askedOn settings hub machine)

/-- A model that a start has fetched is as the hub has given it. -/
theorem fromHub_of_lookUp (fetchable : Hub.Fetchable settings machine.files)
    (found : (lookUp settings hub machine).outcome = .ok resolved) :
    FromHub (GivenOn settings hub machine) (LackedOn settings hub machine) machine.files
      (lookUp settings hub machine).world.files resolved := by
  rcases fetch_of_lookUp fetchable found with ⟨succeeded, _, home, world_eq, search⟩
  have complete := Hub.complete_of_fetch fetchable succeeded (Option.isSome_of_eq_some search)
  rw [world_eq]
  refine ⟨?_, ?_, ?_⟩
  · rw [home]
    exact complete.required
  · rw [home]
    rcases complete.pooling with lacks | obtained
    · refine .inr ⟨lacks, ?_⟩
      rcases Hub.footprint_of_ok succeeded with ⟨_, _, here, named, more, same, footprint, _⟩
      have unnamed : Model.poolingFile ∉ named := by
        intro mem
        rcases footprint.content _ mem with ⟨_, _, content, gave, _⟩
        exact lacks.not_gave gave
      exact footprint.sameAt fetchable.tree fetchable.down same (by decide) unnamed
    · exact .inl obtained
  · rcases complete.weights with ⟨file, mem, content, gave, read, _, _, others⟩
    rcases (Model.findWeights_eq_some_iff.mp search).2 with
      ⟨earlier, name, later, whole, path_eq, standing, _⟩
    have name_mem : name ∈ Model.weightFiles := by
      rw [whole]
      exact List.mem_append_right _ List.mem_cons_self
    -- the weights that are found are those that have been fetched: the others are missing
    have name_eq : name = file := by
      apply Decidable.byContradiction
      intro ne
      have absent := others name name_mem ne
      rw [show Files.isFile _ (Path.join settings.modelDir name) = true from path_eq ▸ standing]
        at absent
      cases absent
    rw [home]
    refine ⟨file, mem, name_eq ▸ path_eq, ⟨content, gave, read⟩, ?_⟩
    intro other otherMem otherContent otherGave
    exact Hub.eq_of_gave_weights succeeded otherMem mem otherGave gave

/-! ## Two machines -/

section

variable {before' after' : Files} {resolved' : Model.Resolved}

theorem FromHub.weights_eq (fromHub : FromHub given lacked before after resolved)
    (fromHub' : FromHub given lacked before' after' resolved')
    (home : resolved'.dir = resolved.dir) : resolved'.weights = resolved.weights := by
  rcases fromHub.weights with ⟨file, _, path_eq, _, only⟩
  rcases fromHub'.weights with ⟨file', mem', path_eq', ⟨content, gave, _⟩, _⟩
  rw [path_eq, path_eq', home, only file' mem' content gave]

theorem FromHub.sameModel (fromHub : FromHub given lacked before after resolved)
    (fromHub' : FromHub given lacked before' after' resolved)
    (unique : ∀ file content content', given file content → given file content' →
      content = content')
    (exclusive : ∀ file content, lacked file → ¬given file content)
    (leftover : (∃ content, given Model.poolingFile content) ∨
      Files.SameAt before before' (Path.join resolved.dir Model.poolingFile)) :
    SameModel resolved after after' := by
  have alike : ∀ {file}, Hub.Obtained given resolved.dir file after →
      Hub.Obtained given resolved.dir file after' →
      ∃ content, after.read (Path.join resolved.dir file) = .ok content ∧
        after'.read (Path.join resolved.dir file) = .ok content := by
    rintro file ⟨content, gave, read⟩ ⟨content', gave', read'⟩
    cases unique file content content' gave gave'
    exact ⟨content, read, read'⟩
  refine ⟨?_, ?_, ?_⟩
  · intro file mem
    exact alike (fromHub.required file mem) (fromHub'.required file mem)
  · rcases fromHub.pooling with obtained | ⟨lacks, kept⟩
    · rcases fromHub'.pooling with obtained' | ⟨lacks, _⟩
      · rcases alike obtained obtained' with ⟨content, read, read'⟩
        intro other
        rw [read, read']
      · rcases obtained with ⟨content, gave, _⟩
        exact absurd gave (exclusive _ content lacks)
    · rcases fromHub'.pooling with ⟨content, gave, _⟩ | ⟨_, kept'⟩
      · exact absurd gave (exclusive _ content lacks)
      · rcases leftover with ⟨content, gave⟩ | same
        · exact absurd gave (exclusive _ content lacks)
        · intro content
          exact (kept content).symm.trans ((same content).trans (kept' content))
  · rcases fromHub.weights with ⟨file, mem, path_eq, obtained, only⟩
    rcases fromHub'.weights with ⟨file', mem', path_eq', obtained', _⟩
    -- a fetch ends with the first weights that it is given, and only one form has been given
    have file_eq : file' = file := by
      rcases obtained' with ⟨content, gave, _⟩
      exact only file' mem' content gave
    rw [path_eq]
    exact alike obtained (file_eq ▸ obtained')

end

/-- One hub gives the same to all machines that fetch a model. -/
theorem givenOn_eq {other : Hub.Machine} {otherResolved : Model.Resolved}
    (fetchable : Hub.Fetchable settings machine.files)
    (otherFetchable : Hub.Fetchable settings other.files)
    (requests : machine.requests = other.requests)
    (found : (lookUp settings hub machine).outcome = .ok resolved)
    (otherFound : (lookUp settings hub other).outcome = .ok otherResolved) :
    GivenOn settings hub other = GivenOn settings hub machine ∧
      LackedOn settings hub other = LackedOn settings hub machine := by
  have succeeded := (fetch_of_lookUp fetchable found).1
  have otherSucceeded := (fetch_of_lookUp otherFetchable otherFound).1
  have turns : (askedOn settings hub machine).map Hub.Exchange.turn =
      (askedOn settings hub other).map Hub.Exchange.turn :=
    Hub.turns_takeSteps (List.Subset.refl _) requests ⟨_, succeeded⟩ ⟨_, otherSucceeded⟩
  constructor
  · funext file content
    exact propext ⟨.of_turns turns.symm, .of_turns turns⟩
  · funext file
    exact propext ⟨.of_turns turns.symm, .of_turns turns⟩

/-- Two machines that fetch a model from one hub load the same, whatever is in its directory
before. Only the file for the pooling must be given by the hub, or be the same on both. -/
theorem lookUp_alike (settings : Settings) (hub : Hub) (machine other : Hub.Machine)
    (fetchable : Hub.Fetchable settings machine.files)
    (otherFetchable : Hub.Fetchable settings other.files)
    (requests : machine.requests = other.requests) (resolved otherResolved : Model.Resolved)
    (found : (lookUp settings hub machine).outcome = .ok resolved)
    (otherFound : (lookUp settings hub other).outcome = .ok otherResolved)
    (leftover : (∃ content, GivenOn settings hub machine Model.poolingFile content) ∨
      Files.SameAt machine.files other.files
        (Path.join settings.modelDir Model.poolingFile)) :
    otherResolved = resolved ∧
      SameModel resolved (lookUp settings hub machine).world.files
        (lookUp settings hub other).world.files ∧
      ∀ maxTokens expected,
        Transformer.load (lookUp settings hub machine).world.files resolved maxTokens expected =
          Transformer.load (lookUp settings hub other).world.files otherResolved maxTokens
            expected := by
  rcases fetch_of_lookUp fetchable found with ⟨_, source, home, _⟩
  rcases fetch_of_lookUp otherFetchable otherFound with ⟨_, otherSource, otherHome, _⟩
  rcases givenOn_eq fetchable otherFetchable requests found otherFound with
    ⟨given_eq, lacked_eq⟩
  have fromHub := fromHub_of_lookUp fetchable found
  have otherFromHub := fromHub_of_lookUp otherFetchable otherFound
  rw [given_eq, lacked_eq] at otherFromHub
  have weights := fromHub.weights_eq otherFromHub (otherHome.trans home.symm)
  have resolved_eq : otherResolved = resolved := by
    rcases resolved with ⟨_, _, _⟩
    rcases otherResolved with ⟨_, _, _⟩
    dsimp only at source otherSource home otherHome weights
    rw [source, otherSource, home, otherHome, weights]
  subst resolved_eq
  rw [← home] at leftover
  have same := fromHub.sameModel otherFromHub (fun _ _ _ gave => gave.unique)
    (fun _ _ lacks => lacks.not_gave) leftover
  exact ⟨rfl, same, fun maxTokens expected => same.load_eq maxTokens expected⟩

/-- A model is fetched into an empty directory, and into one with files of an earlier fetch. -/
theorem lookUp_alike_sample :
    let settings := Sample.settings "m" []
    let hub := Sample.hub [("config.json", [1]), ("tokenizer.json", [2]),
      ("pytorch_model.bin", [3])]
    let machine : Hub.Machine := { files := ⟨[(["home"], .directory)], ["home"]⟩ }
    let other : Hub.Machine := {
      files := ⟨[(["home"], .directory), (["home", "m"], .directory),
        (["home", "m", "config.json"], .file [9]),
        (["home", "m", "model.safetensors.tmp"], .file [9])], ["home"]⟩ }
    ∃ resolved,
      (lookUp settings hub machine).outcome = .ok resolved ∧
      (lookUp settings hub other).outcome = .ok resolved ∧
      SameModel resolved (lookUp settings hub machine).world.files
        (lookUp settings hub other).world.files := by
  intro settings hub machine other
  have fetchable : Hub.Fetchable settings machine.files :=
    ⟨Files.isTree_of_forall (by decide), by decide +kernel, by decide +kernel⟩
  have otherFetchable : Hub.Fetchable settings other.files :=
    ⟨Files.isTree_of_forall (by decide), by decide +kernel, by decide +kernel⟩
  have succeeds : (lookUp settings hub machine).outcome.toOption.isSome := by decide +kernel
  have otherSucceeds : (lookUp settings hub other).outcome.toOption.isSome := by decide +kernel
  rcases Option.isSome_iff_exists.mp succeeds with ⟨resolved, same⟩
  rcases Option.isSome_iff_exists.mp otherSucceeds with ⟨otherResolved, otherSame⟩
  have found := eq_ok_of_toOption same
  have otherFound := eq_ok_of_toOption otherSame
  have unread : ∀ files ∈ [machine.files, other.files], ∀ content,
      files.read (Path.join settings.modelDir Model.poolingFile) ≠ .ok content := by
    have nothing : ∀ files ∈ [machine.files, other.files],
        (files.read (Path.join settings.modelDir Model.poolingFile)).toOption = none := by
      decide +kernel
    intro files mem content read
    have some_content := nothing files mem
    rw [read] at some_content
    cases some_content
  have leftover : Files.SameAt machine.files other.files
      (Path.join settings.modelDir Model.poolingFile) := by
    intro content
    constructor
    · exact fun read => absurd read (unread _ List.mem_cons_self content)
    · exact fun read => absurd read (unread _ (List.mem_cons_of_mem _ List.mem_cons_self) content)
  rcases lookUp_alike settings hub machine other fetchable otherFetchable rfl resolved otherResolved
    found otherFound (.inr leftover) with ⟨rfl, alike, _⟩
  exact ⟨_, found, otherFound, alike⟩

/-- The hub does not have the file for the pooling. A machine pools as it says nevertheless if a
file of an earlier fetch is left, although it has fetched the same as a machine without. -/
theorem leftover_pooling :
    let settings := Sample.settings "m" []
    let hub : Hub := fun earlier request =>
      if "1_Pooling" ∈ request.url.path then .answer 404 none (.complete [])
      else Sample.hub [("config.json", [1]), ("tokenizer.json", [2]), ("pytorch_model.bin", [3])]
        earlier request
    let machine : Hub.Machine := { files := ⟨[(["home"], .directory)], ["home"]⟩ }
    let other : Hub.Machine := {
      files := ⟨[(["home"], .directory), (["home", "m"], .directory),
        (["home", "m", "1_Pooling"], .directory), (["home", "m", "1_Pooling", "config.json"],
          .file "\x7b\"pooling_mode_cls_token\": true\x7d".toUTF8.toList)], ["home"]⟩ }
    Hub.Fetchable settings machine.files ∧ Hub.Fetchable settings other.files ∧
      (lookUp settings hub machine).outcome.toOption =
        some ⟨.remote "a/b", "m", "m/pytorch_model.bin"⟩ ∧
      (lookUp settings hub other).outcome.toOption =
        some ⟨.remote "a/b", "m", "m/pytorch_model.bin"⟩ ∧
      (Pooling.ofModel (lookUp settings hub machine).world.files "m").toOption = some .mean ∧
      (Pooling.ofModel (lookUp settings hub other).world.files "m").toOption = some .first := by
  intro settings hub machine other
  refine ⟨⟨Files.isTree_of_forall (by decide), by decide +kernel, by decide +kernel⟩,
    ⟨Files.isTree_of_forall (by decide), by decide +kernel, by decide +kernel⟩, ?_⟩
  decide +kernel

end Startup

end TextVectors
