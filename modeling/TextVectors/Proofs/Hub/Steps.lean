import TextVectors.Proofs.Hub.Writing

/-!
# Steps of a fetch

A step either asks the hub for a file, and ends by what comes of it, or it makes
directories at most. What a whole fetch has asked is the list of its `exchanges`;
its requests are theirs, one after another, `conversation_takeSteps`.
-/

namespace TextVectors

namespace Hub

variable {hub : Hub} {access : Access} {modelId directory file : String} {pins : Pins}
  {step : Step} {progress after : Progress}

namespace Step

/-- The file that a step asks the hub for. Weights without a pin are passed over when there are
pins. -/
def file? (pins : Pins) : Step → Option String
  | .weights file => if (pins.digest? file).isNone ∧ pins ≠ [] then none else some file
  | step => step.target?

/-- The digest that the file of a step must have. -/
def pin? (pins : Pins) : Step → Option String
  | .makeModelDirectory => none
  | .makeDirectory _ => none
  | .required _ => none
  | .optional _ => none
  | .weights file => pins.digest? file

/-- How a step ends when it is known whether its file is there. -/
def found (modelId : String) : Step → Bool → StepEnd
  | .required file, false => .failed (.absent modelId file)
  | .weights _, true => .finished
  | _, _ => .goOn

/-- How a step ends by what comes of asking for its file. -/
def endOf (modelId : String) (step : Step) : Except FetchError Bool → StepEnd
  | .ok found => step.found modelId found
  | .error error => .failed error

/-- Whether a step fetches weights. -/
def isWeights : Step → Bool
  | .weights _ => true
  | _ => false

theorem target?_of_file? (asks : step.file? pins = some file) : step.target? = some file := by
  cases step with
  | weights name =>
      rw [file?] at asks
      split at asks
      · cases asks
      · exact asks
  | _ => exact asks

theorem exists_digest {name : String} (asks : (Step.weights name).file? pins = some file)
    (pinned : pins ≠ []) : ∃ digest, pins.digest? name = some digest := by
  cases pin : pins.digest? name with
  | some digest => exact ⟨digest, rfl⟩
  | none =>
      rw [file?, pin, if_pos ⟨rfl, pinned⟩] at asks
      cases asks

end Step

theorem Downloaded.tell {pin : Option String} {outcome : Except FetchError Bool} (text : String)
    (downloaded : Downloaded hub access modelId directory file pin progress after outcome) :
    Downloaded hub access modelId directory file pin progress (after.tell text) outcome := by
  cases downloaded with
  | absent lacks nothing => exact .absent lacks ⟨nothing.operations_eq, nothing.files_eq⟩
  | failed did partly => exact .failed ⟨did.operations_eq, did.files_eq⟩ partly
  | written gives accepted reached did written =>
      exact .written gives accepted reached ⟨did.operations_eq, did.files_eq⟩ written

/-- A step that asks for a file ends by what comes of it. -/
theorem take_of_download (hub : Hub) (modelId directory : String) (progress : Progress)
    (asks : step.file? access.pins = some file) :
    let downloaded := download hub access modelId file (Path.join directory file)
      (step.pin? access.pins) progress
    (step.take hub access modelId directory progress).2 = step.endOf modelId downloaded.2 ∧
      ((step.take hub access modelId directory progress).1 = downloaded.1 ∨
        ∃ text, (step.take hub access modelId directory progress).1 = downloaded.1.tell text) := by
  dsimp only
  rcases ended : download hub access modelId file (Path.join directory file)
    (step.pin? access.pins) progress with ⟨later, outcome⟩
  have same := Step.target?_of_file? asks
  cases step with
  | makeModelDirectory => cases same
  | makeDirectory name => cases same
  | required name | optional name =>
      cases same
      rw [Step.pin?] at ended
      rw [Step.take, ended]
      refine ⟨?_, .inl rfl⟩
      cases outcome with
      | error error => rfl
      | ok found => cases found <;> rfl
  | weights name =>
      cases same
      have trusted : ¬((access.pins.digest? file).isNone ∧ access.pins ≠ []) := by
        intro passed
        rw [Step.file?, if_pos passed] at asks
        cases asks
      rw [Step.pin?] at ended
      rw [Step.take]
      dsimp only
      rw [if_neg trusted, ended]
      cases outcome with
      | error error => exact ⟨rfl, .inl rfl⟩
      | ok found =>
          cases found with
          | false => exact ⟨rfl, .inl rfl⟩
          | true => exact ⟨rfl, .inr ⟨_, rfl⟩⟩

/-- A step that asks for a file does nothing else. -/
theorem take_of_asks (hub : Hub) (modelId directory : String) (progress : Progress)
    (mem : file ∈ downloads) (asks : step.file? access.pins = some file) :
    (step.take hub access modelId directory progress).1.requests =
        (Exchange.outcome hub access modelId ⟨file, progress⟩).1 ∧
      ∃ outcome, Downloaded hub access modelId directory file (step.pin? access.pins) progress
          (step.take hub access modelId directory progress).1 outcome ∧
        (step.take hub access modelId directory progress).2 = step.endOf modelId outcome := by
  rcases download_cases hub access modelId directory (step.pin? access.pins) progress mem with
    ⟨requests, downloaded⟩
  rcases take_of_download hub modelId directory progress asks with
    ⟨ending, same | ⟨text, told⟩⟩
  · rw [same]
    exact ⟨requests, _, downloaded, ending⟩
  · rw [told]
    exact ⟨requests, _, downloaded.tell text, ending⟩

theorem take_of_passed {name : String} (hub : Hub) (modelId directory : String)
    (progress : Progress) (silent : (Step.weights name).file? access.pins = none) :
    (Step.weights name).take hub access modelId directory progress =
      (progress.tell ("Skipping " ++ name ++ " (no pinned SHA256)"), .goOn) := by
  have passed : (access.pins.digest? name).isNone ∧ access.pins ≠ [] := by
    apply Decidable.byContradiction
    intro trusted
    rw [Step.file?, if_neg trusted] at silent
    cases silent
  rw [Step.take]
  dsimp only
  rw [if_pos passed]

/-- A step that asks for nothing makes directories at most. -/
theorem take_of_silent (hub : Hub) (modelId directory : String) (progress : Progress)
    (silent : step.file? access.pins = none) :
    (step.take hub access modelId directory progress).1.requests = progress.requests ∧
      (step.take hub access modelId directory progress).2 ≠ .finished ∧
      ∃ operations, Did progress (step.take hub access modelId directory progress).1 operations ∧
        (∀ operation ∈ operations, ∃ place, operation = .makeDirectory place) ∧
        Files.Throughout (Files.SameBut [] progress.files) progress.files operations := by
  have makes : ∀ path wrap,
      (progress.makeDirectory path wrap).1.requests = progress.requests ∧
        ∃ operations, Did progress (progress.makeDirectory path wrap).1 operations ∧
          (∀ operation ∈ operations, ∃ place, operation = .makeDirectory place) ∧
          Files.Throughout (Files.SameBut [] progress.files) progress.files operations := by
    intro path wrap
    have throughout := Files.makeDirectories_throughout progress.files path
    have directories : ∀ operation ∈ (progress.files.makeDirectories path).1,
        ∃ place, operation = .makeDirectory place :=
      fun operation mem => Files.exists_of_mem_makeDirectories mem
    unfold Progress.makeDirectory
    split
    · next operations made =>
      rw [made] at throughout directories
      exact ⟨rfl, operations, .perform progress operations, directories, throughout⟩
    · next operations error made =>
      rw [made] at throughout directories
      exact ⟨rfl, operations, .perform progress operations, directories, throughout⟩
  cases step with
  | makeModelDirectory =>
      rcases makes directory (.modelDirectory directory) with ⟨requests, made⟩
      rw [Step.take]
      refine ⟨requests, ?_, made⟩
      dsimp only
      cases (progress.makeDirectory directory (.modelDirectory directory)).2 <;> nofun
  | makeDirectory name =>
      rcases makes (Path.join directory name) (.directory (Path.join directory name)) with
        ⟨requests, made⟩
      rw [Step.take]
      refine ⟨requests, ?_, made⟩
      dsimp only
      cases (progress.makeDirectory (Path.join directory name)
        (.directory (Path.join directory name))).2 <;> nofun
  | required name => cases silent
  | optional name => cases silent
  | weights name =>
      rw [take_of_passed hub modelId directory progress silent]
      exact ⟨rfl, nofun, [], ⟨(List.append_nil _).symm, rfl⟩, nofun, .nil (.refl [] _)⟩

theorem did_makeDirectory (progress : Progress) (path : String) (wrap : FileError → FetchError) :
    Did progress (progress.makeDirectory path wrap).1 (progress.files.makeDirectories path).1 ∧
      ((progress.makeDirectory path wrap).2 = .ok () ↔
        (progress.files.makeDirectories path).2 = none) := by
  unfold Progress.makeDirectory
  split
  · next operations made =>
    rw [made]
    exact ⟨.perform progress operations, fun _ => rfl, fun _ => rfl⟩
  · next operations error made =>
    rw [made]
    exact ⟨.perform progress operations, nofun, nofun⟩

theorem take_makeModelDirectory (hub : Hub) (access : Access) (modelId directory : String)
    (progress : Progress) :
    let taken := Step.makeModelDirectory.take hub access modelId directory progress
    Did progress taken.1 (progress.files.makeDirectories directory).1 ∧
      (taken.2 = .goOn → (progress.files.makeDirectories directory).2 = none) := by
  rcases did_makeDirectory progress directory (.modelDirectory directory) with ⟨did, succeeds⟩
  refine ⟨did, fun goesOn => succeeds.mp ?_⟩
  rw [Step.take] at goesOn
  dsimp only at goesOn
  cases outcome : (progress.makeDirectory directory (.modelDirectory directory)).2 with
  | ok _ => rfl
  | error error =>
      rw [outcome] at goesOn
      cases goesOn

theorem exists_reach_of_makeModelDirectory {later : Progress}
    (made : Step.makeModelDirectory.take hub access modelId directory progress = (later, .goOn)) :
    ∃ here, later.files.reach (Path.parts directory) = .ok here ∧
      (Path.parts directory ≠ [] → later.files.node? here = some .directory) := by
  rcases take_makeModelDirectory hub access modelId directory progress with ⟨did, succeeds⟩
  rw [made] at did succeeds
  rw [did.files_eq]
  exact Files.exists_reach_of_makeDirectories progress.files directory (succeeds rfl)

/-! ## Exchanges of a fetch -/

/-- The exchange of a step. -/
def Step.exchange? (pins : Pins) (step : Step) (progress : Progress) : Option Exchange :=
  (step.file? pins).map fun file => ⟨file, progress⟩

/-- The exchanges of some steps of a fetch. -/
def exchanges (hub : Hub) (access : Access) (modelId directory : String) :
    List Step → Progress → List Exchange
  | [], _ => []
  | step :: rest, progress =>
    (step.exchange? access.pins progress).toList ++
      match step.take hub access modelId directory progress with
      | (later, .goOn) => exchanges hub access modelId directory rest later
      | _ => []

section

variable {rest : List Step} {next : Progress}

theorem takeSteps_of_goOn
    (taken : step.take hub access modelId directory progress = (next, .goOn)) :
    takeSteps hub access modelId directory (step :: rest) progress =
      takeSteps hub access modelId directory rest next := by
  rw [takeSteps, taken]

theorem takeSteps_of_finished
    (taken : step.take hub access modelId directory progress = (next, .finished)) :
    takeSteps hub access modelId directory (step :: rest) progress = (next, .ok directory) := by
  rw [takeSteps, taken]

theorem takeSteps_of_failed {error : FetchError}
    (taken : step.take hub access modelId directory progress = (next, .failed error)) :
    takeSteps hub access modelId directory (step :: rest) progress = (next, .error error) := by
  rw [takeSteps, taken]

theorem takeSteps_of_end {ending : StepEnd}
    (taken : step.take hub access modelId directory progress = (next, ending))
    (stops : ending ≠ .goOn) :
    (takeSteps hub access modelId directory (step :: rest) progress).1 = next := by
  rw [takeSteps, taken]
  cases ending with
  | goOn => exact absurd rfl stops
  | finished => rfl
  | failed error => rfl

theorem exchanges_of_goOn
    (taken : step.take hub access modelId directory progress = (next, .goOn)) :
    exchanges hub access modelId directory (step :: rest) progress =
      (step.exchange? access.pins progress).toList ++
        exchanges hub access modelId directory rest next := by
  rw [exchanges, taken]

theorem exchanges_of_finished
    (taken : step.take hub access modelId directory progress = (next, .finished)) :
    exchanges hub access modelId directory (step :: rest) progress =
      (step.exchange? access.pins progress).toList := by
  rw [exchanges, taken]
  exact List.append_nil _

theorem exchanges_of_failed {error : FetchError}
    (taken : step.take hub access modelId directory progress = (next, .failed error)) :
    exchanges hub access modelId directory (step :: rest) progress =
      (step.exchange? access.pins progress).toList := by
  rw [exchanges, taken]
  exact List.append_nil _

theorem mem_exchanges (rest : List Step) (asks : step.file? access.pins = some file) :
    ⟨file, progress⟩ ∈ exchanges hub access modelId directory (step :: rest) progress := by
  rw [exchanges, Step.exchange?, asks]
  exact List.mem_append_left _ List.mem_cons_self

end

/-- A fetch cannot make its directory, or it takes the other steps where the path of the directory
leads. -/
theorem fetch_cases (hub : Hub) (access : Access) (modelId directory : String)
    (progress : Progress) :
    let fetched := fetch hub access modelId directory progress
    let making := (progress.files.makeDirectories directory).1
    (Did progress fetched.1 making ∧ ∃ error, fetched.2 = .error error) ∨
      ∃ next here, Did progress next making ∧
        next.files.reach (Path.parts directory) = .ok here ∧
        (Path.parts directory ≠ [] → next.files.node? here = some .directory) ∧
        fetched = takeSteps hub access modelId directory steps.tail next ∧
        exchanges hub access modelId directory steps progress =
          exchanges hub access modelId directory steps.tail next := by
  intro fetched making
  have unfinished := (take_of_silent hub modelId directory progress
    (rfl : Step.makeModelDirectory.file? access.pins = none)).2.1
  have did := (take_makeModelDirectory hub access modelId directory progress).1
  rcases taken : Step.makeModelDirectory.take hub access modelId directory progress with
    ⟨next, ending⟩
  rw [taken] at unfinished did
  cases ending with
  | finished => exact absurd rfl unfinished
  | failed error =>
      left
      have fetched_eq : fetched = (next, .error error) := takeSteps_of_failed taken
      rw [fetched_eq]
      exact ⟨did, error, rfl⟩
  | goOn =>
      right
      rcases exists_reach_of_makeModelDirectory taken with ⟨here, reached, standing⟩
      exact ⟨next, here, did, reached, standing, takeSteps_of_goOn taken,
        exchanges_of_goOn taken⟩

/-- Exchanges in a row, each of which begins with the requests up to the end of the one before. -/
inductive Conversation (hub : Hub) (access : Access) (modelId : String) :
    List Request → List Exchange → List Request → Prop where
  | nil (requests : List Request) : Conversation hub access modelId requests [] requests
  | cons {exchange : Exchange} {more : List Exchange} {requests : List Request}
      (later : Conversation hub access modelId (exchange.outcome hub access modelId).1 more
        requests) :
      Conversation hub access modelId exchange.before.requests (exchange :: more) requests

theorem mem_downloads_of_target? (mem : step ∈ steps) (about : step.target? = some file) :
    file ∈ downloads :=
  List.mem_filterMap.mpr ⟨step, mem, about⟩

theorem mem_downloads (pins : Pins) (mem : step ∈ steps) (asks : step.file? pins = some file) :
    file ∈ downloads :=
  mem_downloads_of_target? mem (Step.target?_of_file? asks)

theorem weightFiles_subset : Model.weightFiles ⊆ downloads := by decide

theorem not_mem_weightFiles (mem : step ∈ steps) (plain : step.isWeights = false)
    (about : step.target? = some file) : file ∉ Model.weightFiles := by
  have apart : ∀ step ∈ steps, step.isWeights = false →
      ∀ file ∈ step.target?, file ∉ Model.weightFiles := by decide
  exact apart step mem plain file about

/-! ## The order of the steps -/

/-- Whatever is not about weights comes before the weights. -/
theorem mem_of_not_weights {done rest : List Step} {weights other : Step}
    (whole : done ++ weights :: rest = steps) (last : weights.isWeights = true)
    (mem : other ∈ steps) (early : other.isWeights = false) : other ∈ done := by
  have order : steps.Pairwise fun first second =>
      first.isWeights = true → second.isWeights = true := by decide
  rw [← whole] at mem order
  rcases List.mem_append.mp mem with before | behind
  · exact before
  · have late := (List.pairwise_cons.mp (List.pairwise_append.mp order).2.1).1
    rcases List.mem_cons.mp behind with rfl | after
    · rw [early] at last
      cases last
    · have others := late other after last
      rw [early] at others
      cases others

/-- No file is fetched twice. -/
theorem not_mem_of_target? {done rest : List Step} (whole : done ++ step :: rest = steps)
    (about : step.target? = some file) {other : Step} (mem : other ∈ done) :
    other.target? ≠ some file := by
  have once : (steps.filterMap Step.target?).Nodup := by decide
  rw [← whole, List.filterMap_append, List.filterMap_cons_some about] at once
  have apart := (List.nodup_append.mp once).2.2
  intro same
  exact apart file (List.mem_filterMap.mpr ⟨other, mem, same⟩) file List.mem_cons_self rfl

/-! ## Requests -/

theorem Conversation.of_take {more : List Exchange} {requests : List Request}
    (mem : step ∈ steps)
    (later : Conversation hub access modelId
      (step.take hub access modelId directory progress).1.requests more requests) :
    Conversation hub access modelId progress.requests
      ((step.exchange? access.pins progress).toList ++ more) requests := by
  cases asks : step.file? access.pins with
  | none =>
      rw [(take_of_silent hub modelId directory progress asks).1] at later
      rw [Step.exchange?, asks]
      exact later
  | some file =>
      have download := mem_downloads access.pins mem asks
      rw [(take_of_asks hub modelId directory progress download asks).1] at later
      rw [Step.exchange?, asks]
      exact .cons later

/-- The requests of a fetch are those of its exchanges. -/
theorem conversation_takeSteps {some_steps : List Step} (subset : some_steps ⊆ steps)
    (progress : Progress) :
    Conversation hub access modelId progress.requests
      (exchanges hub access modelId directory some_steps progress)
      (takeSteps hub access modelId directory some_steps progress).1.requests := by
  induction some_steps generalizing progress with
  | nil => exact .nil progress.requests
  | cons step rest ih =>
      have mem : step ∈ steps := subset List.mem_cons_self
      have later := ih fun other among => subset (List.mem_cons_of_mem step among)
      rcases taken : step.take hub access modelId directory progress with ⟨next, ending⟩
      have next_eq : next = (step.take hub access modelId directory progress).1 := by rw [taken]
      cases ending with
      | goOn =>
          rw [takeSteps_of_goOn taken, exchanges_of_goOn taken]
          apply Conversation.of_take mem
          rw [← next_eq]
          exact later next
      | finished =>
          rw [takeSteps_of_finished taken, exchanges_of_finished taken, next_eq,
            ← List.append_nil (step.exchange? access.pins progress).toList]
          exact .of_take mem (.nil _)
      | failed error =>
          rw [takeSteps_of_failed taken, exchanges_of_failed taken, next_eq,
            ← List.append_nil (step.exchange? access.pins progress).toList]
          exact .of_take mem (.nil _)

end Hub

end TextVectors
