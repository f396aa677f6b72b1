import TextVectors.Proofs.Hub.Confined
import TextVectors.Proofs.Hub.SideBySide
import TextVectors.Proofs.Hub.Storing

/-!
# What decides a fetch

Where nothing is in the way of its files, what comes of a fetch is decided by the hub
alone. `GivesModel` says what the hub must give, file after file, and `Course` which
downloads are started: each is asked for after all requests of the ones before, and the
first that the fetch cannot go on from is the last. A fetch succeeds iff the hub gives
the model, and its downloads take this course, `fetch_decided`.

A step ends by the turn of its file, `Clear.take_ends`, and leaves the files clear for
the next one, so both follow by induction on the steps that are left.
-/

namespace TextVectors

namespace Hub

variable {hub : Hub} {access : Access} {modelId directory file : String} {here : Place}
  {step : Step} {rest : List Step} {progress : Progress} {content : List UInt8}
  {earlier last : List Request} {wanted : List String}

/-! ## What the hub must give -/

/-- If the address of the file can be asked for, a turn begins with the request for it, with the
token of the operator, and goes on to what the hub refers to. Otherwise nothing is asked for. -/
def Turn.Asks (hub : Hub) (access : Access) (modelId : String) (turn : Turn) : Prop :=
  let address := access.base ++ "/" ++ modelId ++ "/resolve/" ++ access.revision ++ "/" ++ turn.file
  (∀ url, Askable access.token address url → ∃ made,
      turn.after hub access modelId = turn.earlier ++ made ∧
        Referred hub turn.earlier ⟨url, access.token⟩ made) ∧
    ((∀ url, ¬Askable access.token address url) → turn.after hub access modelId = turn.earlier)

/-- A body that can be the file of a model: it has the digest that is pinned for the file, if there
is one, and a header if its name asks for one. -/
def Fit (pins : Pins) (file : String) (content : List UInt8) : Prop :=
  (∀ digest, pins.digest? file = some digest → Digest.sha256Hex content = digest) ∧
    (".safetensors".toList <:+ file.toList → ∃ header, Weights.readHeader content = .ok header)

/-- The weights that a fetch may ask for: with any pin, only the pinned ones. -/
def trusted (pins : Pins) : List String :=
  Model.weightFiles.filter fun file => pins = [] ∨ (pins.digest? file).isSome

/-- The files that a fetch may ask for, in their order. -/
def wantedFiles (pins : Pins) : List String :=
  [Model.configFile, Model.tokenizerFile, Model.poolingFile] ++ trusted pins

/-- Of some weights, the first that the hub has are given, and they are fit. -/
inductive GivesWeights (hub : Hub) (access : Access) (modelId : String) :
    List Request → List String → Prop where
  | found {turn : Turn} {content : List UInt8} {more : List String}
      (gives : turn.Gives hub access modelId content)
      (fit : Fit access.pins turn.file content) :
      GivesWeights hub access modelId turn.earlier (turn.file :: more)
  | next {turn : Turn} {more : List String} (lacks : turn.Lacks hub access modelId)
      (later : GivesWeights hub access modelId (turn.after hub access modelId) more) :
      GivesWeights hub access modelId turn.earlier (turn.file :: more)

/-- The hub gives a model after some requests. -/
def GivesModel (hub : Hub) (access : Access) (modelId : String) (earlier : List Request) : Prop :=
  let config : Turn := ⟨Model.configFile, earlier⟩
  let tokenizer : Turn := ⟨Model.tokenizerFile, config.after hub access modelId⟩
  let pooling : Turn := ⟨Model.poolingFile, tokenizer.after hub access modelId⟩
  (∃ content, config.Gives hub access modelId content) ∧
    (∃ content, tokenizer.Gives hub access modelId content) ∧
    ((∃ content, pooling.Gives hub access modelId content) ∨ pooling.Lacks hub access modelId) ∧
    GivesWeights hub access modelId (pooling.after hub access modelId) (trusted access.pins)

/-- A fetch asks for more after a turn: a file that it must have is given, one that it may have is
given or missing, and weights are missing. -/
def Turn.GoesOn (hub : Hub) (access : Access) (modelId : String) (turn : Turn) : Prop :=
  if turn.file ∈ Model.weightFiles then turn.Lacks hub access modelId
  else (∃ content, turn.Gives hub access modelId content) ∨
    turn.file = Model.poolingFile ∧ turn.Lacks hub access modelId

/-- The turns of wanted files, and the requests that have been made in the end. -/
inductive Course (hub : Hub) (access : Access) (modelId : String) :
    List Request → List String → List Turn → List Request → Prop where
  | done (requests : List Request) : Course hub access modelId requests [] [] requests
  | stop {turn : Turn} {more : List String} (stops : ¬turn.GoesOn hub access modelId) :
      Course hub access modelId turn.earlier (turn.file :: more) [turn]
        (turn.after hub access modelId)
  | next {turn : Turn} {more : List String} {turns : List Turn} {last : List Request}
      (goesOn : turn.GoesOn hub access modelId)
      (later : Course hub access modelId (turn.after hub access modelId) more turns last) :
      Course hub access modelId turn.earlier (turn.file :: more) (turn :: turns) last

/-! ## Downloads -/

theorem accepted_iff (mem : file ∈ Model.weightFiles) (pins : Pins) :
    Accepted file (pins.digest? file) content ↔ Fit pins file content := by
  have headed : ∀ file ∈ Model.weightFiles,
      (Path.extension? (lastName file) = some "safetensors" ↔
        ".safetensors".toList <:+ file.toList) := by decide
  constructor
  · rintro ⟨digest, header⟩
    exact ⟨digest, fun ends => header ((headed file mem).mpr ends)⟩
  · rintro ⟨digest, header⟩
    exact ⟨digest, fun ends => header ((headed file mem).mp ends)⟩

theorem accepted_of_plain (mem : file ∈ downloads) (plain : file ∉ Model.weightFiles)
    (content : List UInt8) : Accepted file none content := by
  have headless : ∀ file ∈ downloads, file ∉ Model.weightFiles →
      Path.extension? (lastName file) ≠ some "safetensors" := by decide
  refine ⟨?_, fun headed => absurd headed (headless file mem plain)⟩
  intro expected pinned
  cases pinned

theorem exists_accept_eq {pin : Option String} (accepted : Accepted file pin content)
    (path : String) (progress : Progress) :
    ∃ ready : Progress, ready.files = progress.files ∧
      accept file path pin content progress = ready.store path content := by
  have digest : ∃ text, checkDigest (lastName file) pin content = .ok text := by
    cases pin with
    | none => exact ⟨_, rfl⟩
    | some expected =>
        rw [checkDigest, accepted.digest expected rfl]
        exact ⟨_, if_neg (not_not_intro rfl)⟩
  have header : checkHeader (lastName file) content = .ok () := by
    unfold checkHeader
    split
    · next headed =>
      rcases accepted.header headed with ⟨header, read⟩
      rw [read]
    · rfl
  rcases digest with ⟨text, digest⟩
  refine ⟨progress.tell text, rfl, ?_⟩
  rw [accept, digest]
  dsimp only
  rw [header]

theorem download_of_lacks {pin : Option String} (path : String)
    (lacks : Turn.Lacks hub access modelId ⟨file, progress.requests⟩) :
    (download hub access modelId file path pin progress).2 = .ok false := by
  rcases lacks with ⟨body, answer⟩
  unfold download
  dsimp only
  have asked : hub.get access.token (progress.tell ("Downloading " ++ lastName file ++ " from " ++
      access.address modelId file)).requests (access.address modelId file) =
      Turn.outcome hub access modelId ⟨file, progress.requests⟩ := rfl
  rw [asked, answer]
  rfl

theorem download_of_gives {pin : Option String} {path : String}
    (gives : Turn.Gives hub access modelId ⟨file, progress.requests⟩ content)
    (accepted : Accepted file pin content)
    (stored : ∀ ready : Progress, ready.files = progress.files →
      (ready.store path content).2 = .ok ()) :
    (download hub access modelId file path pin progress).2 = .ok true := by
  have exchanged : Exchange.Gives hub access modelId ⟨file, progress⟩ content := gives
  rcases exists_download_eq path pin exchanged with ⟨asking, nothing, download_eq⟩
  rcases exists_accept_eq accepted path asking with ⟨ready, same, accept_eq⟩
  rw [download_eq, accept_eq, stored ready (same.trans nothing.files_eq_of_nothing)]
  rfl

/-- Where nothing is in the way, a download ends by what the hub has for it. -/
theorem Clear.download_iff (clear : Clear directory here (step :: rest) progress.files)
    (hub : Hub) (access : Access) (modelId : String) (mem : step ∈ steps)
    (about : step.target? = some file) (pin : Option String) :
    let downloaded := download hub access modelId file (Path.join directory file) pin progress
    let turn : Turn := ⟨file, progress.requests⟩
    (downloaded.2 = .ok true ↔
        ∃ content, turn.Gives hub access modelId content ∧ Accepted file pin content) ∧
      (downloaded.2 = .ok false ↔ turn.Lacks hub access modelId) := by
  have ends := (download_cases hub access modelId directory pin progress
    (mem_downloads_of_target? mem about)).2
  dsimp only
  refine ⟨⟨fun found => ?_, ?_⟩, ⟨fun found => ?_, download_of_lacks _⟩⟩
  · rw [found] at ends
    cases ends with
    | written gives accepted => exact ⟨_, gives, accepted⟩
  · rintro ⟨content, gives, accepted⟩
    refine download_of_gives gives accepted fun ready same => ?_
    rw [← same] at clear
    exact clear.store mem about content
  · rw [found] at ends
    cases ends with
    | absent lacks => exact lacks

/-! ## Steps -/

/-- A turn gives fit weights. -/
def Turn.Obtains (hub : Hub) (access : Access) (modelId : String) (turn : Turn) : Prop :=
  turn.file ∈ Model.weightFiles ∧
    ∃ content, turn.Gives hub access modelId content ∧ Fit access.pins turn.file content

theorem Turn.not_goesOn_of_obtains {turn : Turn} (obtains : turn.Obtains hub access modelId) :
    ¬turn.GoesOn hub access modelId := by
  rcases obtains with ⟨weights, content, gives, _⟩
  rw [Turn.GoesOn, if_pos weights]
  exact fun lacks => Turn.not_gives_of_lacks lacks gives

theorem Turn.goesOn_of_weights {turn : Turn} (weights : turn.file ∈ Model.weightFiles) :
    turn.GoesOn hub access modelId ↔ turn.Lacks hub access modelId := by
  rw [Turn.GoesOn, if_pos weights]

theorem Turn.goesOn_of_plain {turn : Turn} (plain : turn.file ∉ Model.weightFiles) :
    turn.GoesOn hub access modelId ↔ (∃ content, turn.Gives hub access modelId content) ∨
      turn.file = Model.poolingFile ∧ turn.Lacks hub access modelId := by
  rw [Turn.GoesOn, if_neg plain]

theorem step_cases (mem : step ∈ steps) (about : step.target? = some file) :
    step = .weights file ∧ file ∈ Model.weightFiles ∨ file ∉ Model.weightFiles ∧
      (step = .required file ∧ file ≠ Model.poolingFile ∨
        step = .optional file ∧ file = Model.poolingFile) := by
  have known : ∀ step ∈ steps, ∀ file ∈ step.target?,
      step = .weights file ∧ file ∈ Model.weightFiles ∨ file ∉ Model.weightFiles ∧
        (step = .required file ∧ file ≠ Model.poolingFile ∨
          step = .optional file ∧ file = Model.poolingFile) := by decide
  exact known step mem file about

theorem endOf_weights (modelId file : String) (outcome : Except FetchError Bool) :
    ((Step.weights file).endOf modelId outcome = .goOn ↔ outcome = .ok false) ∧
      ((Step.weights file).endOf modelId outcome = .finished ↔ outcome = .ok true) := by
  cases outcome with
  | error error => simp [Step.endOf]
  | ok found => cases found <;> simp [Step.endOf, Step.found]

theorem endOf_required (modelId file : String) (outcome : Except FetchError Bool) :
    ((Step.required file).endOf modelId outcome = .goOn ↔ outcome = .ok true) ∧
      (Step.required file).endOf modelId outcome ≠ .finished := by
  cases outcome with
  | error error => simp [Step.endOf]
  | ok found => cases found <;> simp [Step.endOf, Step.found]

theorem endOf_optional (modelId file : String) (outcome : Except FetchError Bool) :
    ((Step.optional file).endOf modelId outcome = .goOn ↔
        outcome = .ok true ∨ outcome = .ok false) ∧
      (Step.optional file).endOf modelId outcome ≠ .finished := by
  cases outcome with
  | error error => simp [Step.endOf]
  | ok found => cases found <;> simp [Step.endOf, Step.found]

/-- A step ends by the turn of its file. -/
theorem Clear.endOf_iff (clear : Clear directory here (step :: rest) progress.files)
    (hub : Hub) (access : Access) (modelId : String) (mem : step ∈ steps)
    (about : step.target? = some file) :
    let turn : Turn := ⟨file, progress.requests⟩
    let ending := step.endOf modelId (download hub access modelId file (Path.join directory file)
      (step.pin? access.pins) progress).2
    (ending = .goOn ↔ turn.GoesOn hub access modelId) ∧
      (ending = .finished ↔ turn.Obtains hub access modelId) := by
  intro turn ending
  rcases clear.download_iff hub access modelId mem about (step.pin? access.pins) with
    ⟨given, lacking⟩
  have plainly (plain : file ∉ Model.weightFiles) :
      (∃ content, turn.Gives hub access modelId content ∧ Accepted file none content) ↔
        ∃ content, turn.Gives hub access modelId content := by
    simp only [accepted_of_plain (mem_downloads_of_target? mem about) plain, and_true]
  rcases step_cases mem about with ⟨rfl, weights⟩ | ⟨plain, ⟨rfl, other⟩ | ⟨rfl, is_pooling⟩⟩
  · have ends := endOf_weights modelId file (download hub access modelId file
      (Path.join directory file) (access.pins.digest? file) progress).2
    refine ⟨ends.1.trans (lacking.trans (Turn.goesOn_of_weights weights).symm), ?_⟩
    refine ends.2.trans (given.trans ?_)
    simp only [Step.pin?, accepted_iff weights, Turn.Obtains, weights, true_and, turn]
  · have ends := endOf_required modelId file (download hub access modelId file
      (Path.join directory file) none progress).2
    have goesOn : turn.GoesOn hub access modelId ↔ _ := Turn.goesOn_of_plain plain
    refine ⟨?_, iff_of_false ends.2 fun obtains => plain obtains.1⟩
    rw [goesOn, or_iff_left fun both => other both.1]
    exact ends.1.trans (given.trans (plainly plain))
  · have ends := endOf_optional modelId file (download hub access modelId file
      (Path.join directory file) none progress).2
    have goesOn : turn.GoesOn hub access modelId ↔ _ := Turn.goesOn_of_plain plain
    refine ⟨?_, iff_of_false ends.2 fun obtains => plain obtains.1⟩
    rw [goesOn, and_iff_right is_pooling]
    exact ends.1.trans (or_congr (given.trans (plainly plain)) lacking)

/-- A step that asks for a file ends by the turn of its file, and leaves the rest clear. -/
theorem Clear.take_ends (clear : Clear directory here (step :: rest) progress.files)
    (hub : Hub) (modelId : String) (mem : step ∈ steps)
    (asks : step.file? access.pins = some file) :
    let turn : Turn := ⟨file, progress.requests⟩
    let taken := step.take hub access modelId directory progress
    taken.1.requests = turn.after hub access modelId ∧
      (taken.2 = .goOn ↔ turn.GoesOn hub access modelId) ∧
      (taken.2 = .finished ↔ turn.Obtains hub access modelId) ∧
      (taken.2 = .goOn → Clear directory here rest taken.1.files) := by
  intro turn taken
  have about := Step.target?_of_file? asks
  have ends := clear.endOf_iff hub access modelId mem about
  have download := mem_downloads_of_target? mem about
  rw [← (take_of_download hub modelId directory progress asks).1] at ends
  rcases take_of_asks hub modelId directory progress download asks with
    ⟨requests, outcome, downloaded, ending⟩
  refine ⟨requests, ends.1, ends.2, fun goesOn => ?_⟩
  cases downloaded with
  | absent lacks nothing =>
      rw [show taken.1.files = progress.files from nothing.files_eq_of_nothing]
      refine clear.next ?_ (.refl [] _) (fun _ found => found) rfl
      rintro rfl
      cases about
  | failed did partly => cases goesOn.symm.trans ending
  | written gives accepted reached did written =>
      cases clear.reached.symm.trans reached
      rw [show taken.1.files = _ from did.files_eq]
      exact clear.written mem about written

/-- A step that asks for nothing goes on, and leaves the rest clear. -/
theorem Clear.take_silent (clear : Clear directory here (step :: rest) progress.files)
    (hub : Hub) (modelId : String) (mem : step ∈ steps.tail)
    (silent : step.file? access.pins = none) :
    (step.take hub access modelId directory progress).2 = .goOn ∧
      Clear directory here rest (step.take hub access modelId directory progress).1.files := by
  cases step with
  | makeModelDirectory => exact absurd mem (by decide)
  | makeDirectory name =>
      have only : name = poolingDirectory := by simpa [steps] using mem
      subst only
      rcases clear.makeDirectory with ⟨makes, later⟩
      rcases did_makeDirectory progress (Path.join directory poolingDirectory)
        (.directory (Path.join directory poolingDirectory)) with ⟨did, succeeds⟩
      rw [← did.files_eq] at later
      rw [Step.take]
      dsimp only
      rw [succeeds.mpr makes]
      exact ⟨rfl, later⟩
  | required name => cases silent
  | optional name => cases silent
  | weights name =>
      rw [take_of_passed hub modelId directory progress silent]
      exact ⟨rfl, clear.next (by simp) (.refl [] _) (fun _ found => found) rfl⟩

/-! ## The steps in a row -/

/-- Of wanted files, all are given that a fetch needs to obtain weights. -/
inductive Succeeds (hub : Hub) (access : Access) (modelId : String) :
    List Request → List String → Prop where
  | weights {turn : Turn} {more : List String} (obtains : turn.Obtains hub access modelId) :
      Succeeds hub access modelId turn.earlier (turn.file :: more)
  | next {turn : Turn} {more : List String} (goesOn : turn.GoesOn hub access modelId)
      (later : Succeeds hub access modelId (turn.after hub access modelId) more) :
      Succeeds hub access modelId turn.earlier (turn.file :: more)

theorem not_succeeds_nil : ¬Succeeds hub access modelId earlier [] := by
  intro succeeds
  cases succeeds

theorem succeeds_cons_iff : Succeeds hub access modelId earlier (file :: wanted) ↔
    Turn.Obtains hub access modelId ⟨file, earlier⟩ ∨
      Turn.GoesOn hub access modelId ⟨file, earlier⟩ ∧
        Succeeds hub access modelId (Turn.after hub access modelId ⟨file, earlier⟩) wanted := by
  constructor
  · intro succeeds
    cases succeeds with
    | weights obtains => exact .inl obtains
    | next goesOn later => exact .inr ⟨goesOn, later⟩
  · rintro (obtains | ⟨goesOn, later⟩)
    · exact .weights obtains
    · exact .next goesOn later

/-- What comes of steps is decided by the turns of the files that they ask for. -/
theorem Clear.takeSteps (clear : Clear directory here rest progress.files) (hub : Hub)
    (access : Access) (modelId : String) (within : rest ⊆ steps.tail) :
    Course hub access modelId progress.requests (rest.filterMap (Step.file? access.pins))
        ((exchanges hub access modelId directory rest progress).map Exchange.turn)
        (takeSteps hub access modelId directory rest progress).1.requests ∧
      ((takeSteps hub access modelId directory rest progress).2 = .ok directory ↔
        Succeeds hub access modelId progress.requests
          (rest.filterMap (Step.file? access.pins))) := by
  induction rest generalizing progress with
  | nil =>
      refine ⟨.done _, iff_of_false ?_ not_succeeds_nil⟩
      intro found
      cases found
  | cons step rest ih =>
      have mem : step ∈ steps.tail := within List.mem_cons_self
      have later_within : rest ⊆ steps.tail :=
        fun other among => within (List.mem_cons_of_mem step among)
      cases asks : step.file? access.pins with
      | none =>
          have requests := (take_of_silent hub modelId directory progress asks).1
          rcases clear.take_silent hub modelId mem asks with ⟨goesOn, later⟩
          rcases taken : step.take hub access modelId directory progress with ⟨next, ending⟩
          rw [taken] at requests goesOn later
          dsimp only at requests goesOn later
          subst goesOn
          rw [takeSteps_of_goOn taken, exchanges_of_goOn taken, List.filterMap_cons_none asks,
            Step.exchange?, asks, ← requests]
          exact ih later later_within
      | some file =>
          have ends := clear.take_ends hub modelId (List.mem_of_mem_tail mem) asks
          rcases taken : step.take hub access modelId directory progress with ⟨next, ending⟩
          rw [taken] at ends
          rcases ends with ⟨requests, goOn_iff, finished_iff, later⟩
          dsimp only at requests goOn_iff finished_iff later
          rw [List.filterMap_cons_some asks, succeeds_cons_iff, ← goOn_iff, ← finished_iff,
            ← requests]
          cases ending with
          | goOn =>
              rw [takeSteps_of_goOn taken, exchanges_of_goOn taken, Step.exchange?, asks]
              rcases ih (later rfl) later_within with ⟨course, succeeds⟩
              refine ⟨?_, ?_⟩
              · rw [requests] at course
                exact .next (goOn_iff.mp rfl) course
              · rw [succeeds]
                simp
          | finished =>
              rw [takeSteps_of_finished taken, exchanges_of_finished taken, Step.exchange?, asks]
              refine ⟨?_, by simp⟩
              have stops := Turn.not_goesOn_of_obtains (finished_iff.mp rfl)
              dsimp only
              rw [requests]
              exact .stop stops
          | failed error =>
              rw [takeSteps_of_failed taken, exchanges_of_failed taken, Step.exchange?, asks]
              refine ⟨?_, by simp⟩
              have stops : ¬Turn.GoesOn hub access modelId ⟨file, progress.requests⟩ := by
                intro goesOn
                cases goOn_iff.mpr goesOn
              dsimp only
              rw [requests]
              exact .stop stops

theorem file?_weights (pins : Pins) (file : String) :
    Step.file? pins (.weights file) =
      Option.guard (fun file => pins = [] ∨ (pins.digest? file).isSome) file := by
  rw [Step.file?, Option.guard]
  by_cases unpinned : pins = [] <;> cases pins.digest? file <;> simp [unpinned]

theorem filterMap_steps (pins : Pins) :
    steps.tail.filterMap (Step.file? pins) = wantedFiles pins := by
  have weights : (Model.weightFiles.map Step.weights).filterMap (Step.file? pins) =
      trusted pins := by
    rw [List.filterMap_map, trusted, ← List.filterMap_eq_filter]
    exact congrArg (List.filterMap · Model.weightFiles) (funext fun file => file?_weights pins file)
  rw [wantedFiles, ← weights]
  rfl

theorem givesWeights_cons_iff : GivesWeights hub access modelId earlier (file :: wanted) ↔
    (∃ content, Turn.Gives hub access modelId ⟨file, earlier⟩ content ∧
        Fit access.pins file content) ∨
      Turn.Lacks hub access modelId ⟨file, earlier⟩ ∧
        GivesWeights hub access modelId (Turn.after hub access modelId ⟨file, earlier⟩) wanted := by
  constructor
  · intro gives
    cases gives with
    | found gives fit => exact .inl ⟨_, gives, fit⟩
    | next lacks later => exact .inr ⟨lacks, later⟩
  · rintro (⟨content, gives, fit⟩ | ⟨lacks, later⟩)
    · exact .found gives fit
    · exact .next lacks later

/-- Of weights it is enough that the first that are there are fit. -/
theorem succeeds_iff_givesWeights (weights : wanted ⊆ Model.weightFiles) :
    Succeeds hub access modelId earlier wanted ↔ GivesWeights hub access modelId earlier wanted := by
  induction wanted generalizing earlier with
  | nil =>
      refine iff_of_false not_succeeds_nil ?_
      intro gives
      cases gives
  | cons file wanted ih =>
      have mem : file ∈ Model.weightFiles := weights List.mem_cons_self
      have goesOn : Turn.GoesOn hub access modelId ⟨file, earlier⟩ ↔ _ :=
        Turn.goesOn_of_weights mem
      rw [succeeds_cons_iff, givesWeights_cons_iff, goesOn,
        ih (fun other among => weights (List.mem_cons_of_mem file among)), Turn.Obtains,
        and_iff_right mem]

theorem succeeds_plain_iff (plain : file ∉ Model.weightFiles) :
    Succeeds hub access modelId earlier (file :: wanted) ↔
      ((∃ content, Turn.Gives hub access modelId ⟨file, earlier⟩ content) ∨
        file = Model.poolingFile ∧ Turn.Lacks hub access modelId ⟨file, earlier⟩) ∧
      Succeeds hub access modelId (Turn.after hub access modelId ⟨file, earlier⟩) wanted := by
  have goesOn : Turn.GoesOn hub access modelId ⟨file, earlier⟩ ↔ _ := Turn.goesOn_of_plain plain
  rw [succeeds_cons_iff, goesOn, or_iff_right fun obtains => plain obtains.1]

theorem succeeds_iff_givesModel : Succeeds hub access modelId earlier (wantedFiles access.pins) ↔
    GivesModel hub access modelId earlier := by
  have trusted_subset : trusted access.pins ⊆ Model.weightFiles := List.filter_sublist.subset
  have config : Model.configFile ≠ Model.poolingFile := by decide
  have tokenizer : Model.tokenizerFile ≠ Model.poolingFile := by decide
  rw [wantedFiles, List.cons_append, List.cons_append, List.cons_append, List.nil_append,
    succeeds_plain_iff (by decide), succeeds_plain_iff (by decide), succeeds_plain_iff (by decide),
    succeeds_iff_givesWeights trusted_subset]
  simp only [config, tokenizer, false_and, or_false, true_and, GivesModel]

/-! ## Turns of a course -/

theorem Turn.asks (hub : Hub) (access : Access) (modelId : String) (turn : Turn) :
    turn.Asks hub access modelId :=
  ⟨fun _ askable => get_referred askable turn.earlier,
    fun not_askable => get_of_not_askable not_askable turn.earlier⟩

/-- Files are asked for in the order in which they are wanted. -/
theorem Course.isPrefix {turns : List Turn}
    (course : Course hub access modelId earlier wanted turns last) :
    turns.map Turn.file <+: wanted := by
  induction course with
  | done => exact List.nil_prefix
  | @stop turn more stops => exact (List.prefix_append [turn.file] more)
  | next goesOn later ih => exact List.cons_prefix_cons.mpr ⟨rfl, ih⟩

theorem nodup_wantedFiles (pins : Pins) : (wantedFiles pins).Nodup := by
  have once : ([Model.configFile, Model.tokenizerFile, Model.poolingFile] ++
      Model.weightFiles).Nodup := by decide
  exact once.sublist (List.filter_sublist.append_left _)

/-- One of some turns gives a file. -/
def Provided (hub : Hub) (access : Access) (modelId : String) (turns : List Turn) (file : String)
    (content : List UInt8) : Prop :=
  ∃ turn ∈ turns, turn.file = file ∧ turn.Gives hub access modelId content

theorem provided_iff_gave {asked : List Exchange} :
    Provided hub access modelId (asked.map Exchange.turn) file content ↔
      Gave hub access modelId asked file content := by
  constructor
  · rintro ⟨turn, mem, same, gives⟩
    rcases List.mem_map.mp mem with ⟨exchange, among, rfl⟩
    exact ⟨exchange, among, same, gives⟩
  · rintro ⟨exchange, among, same, gives⟩
    exact ⟨exchange.turn, List.mem_map_of_mem among, same, gives⟩

/-! ## What is delivered -/

/-- The files of a model that are given have their contents in a directory, and no others are
written. -/
structure Delivered (given : String → List UInt8 → Prop) (directory : String) (after : Files)
    (operations : List Files.Operation) : Prop where
  read : ∀ file content, given file content →
    after.read (Path.join directory file) = .ok content
  written : ∀ file ∈ downloads, ∀ place, after.locate (Path.join directory file) = .ok place →
    (place ∈ operations.filterMap Files.Operation.written? ↔ ∃ content, given file content)

theorem delivered_of_ok {path : String}
    (succeeded : (fetch hub access modelId directory progress).2 = .ok path) :
    ∃ operations, Did progress (fetch hub access modelId directory progress).1 operations ∧
      Delivered (Gave hub access modelId
          (exchanges hub access modelId directory steps progress))
        directory (fetch hub access modelId directory progress).1.files operations := by
  rcases fetch_footprint hub access modelId directory progress with
    ⟨making, makes, _, ⟨_, error, failed⟩ | ⟨here, named, more, did, footprint, names⟩⟩
  · cases succeeded.symm.trans failed
  · rw [succeeded] at names
    cases names with
    | @succeeded earlier weights plain listed all =>
        -- In a fetch that succeeds, a file has got a name iff the hub has given it.
        have named_iff (file : String) : file ∈ earlier ++ [weights] ↔ ∃ content,
            Gave hub access modelId (exchanges hub access modelId directory steps progress) file
              content := by
          constructor
          · intro mem
            rcases footprint.content file mem with ⟨_, _, content, gave, _⟩
            exact ⟨content, gave⟩
          · rintro ⟨content, exchange, among, rfl, gives⟩
            exact all exchange among content gives
        refine ⟨making ++ more, did, ?_, ?_⟩
        · intro file content gave
          rcases footprint.content file ((named_iff file).mpr ⟨content, gave⟩) with
            ⟨_, located, other, gave_it, found⟩
          cases gave.unique gave_it
          exact Files.read_eq_ok_iff.mpr ⟨_, located, found⟩
        · intro file mem place located
          have place_eq := eq_placeIn (inner_of_mem mem) (footprint.same.reach footprint.reached)
            located
          subst place_eq
          have directories : placeIn here file ∉ making.filterMap Files.Operation.written? := by
            intro among
            rcases List.mem_filterMap.mp among with ⟨operation, made, writes⟩
            rcases makes operation made with ⟨place, rfl, _⟩
            cases writes
          rw [List.filterMap_append, List.mem_append, or_iff_right directories, ← named_iff]
          constructor
          · intro among
            by_contra unnamed
            exact footprint.not_written mem unnamed among
          · intro among
            exact (footprint.written among).1

/-! ## A whole fetch -/

theorem exists_take_of_makes (hub : Hub) (access : Access) (modelId : String)
    (makes : (progress.files.makeDirectories directory).2 = none) :
    ∃ next, Step.makeModelDirectory.take hub access modelId directory progress = (next, .goOn) ∧
      next.files = progress.files.withDirectory directory ∧
      next.requests = progress.requests := by
  rcases did_makeDirectory progress directory (.modelDirectory directory) with ⟨did, succeeds⟩
  have silent := take_of_silent hub modelId directory progress
    (rfl : Step.makeModelDirectory.file? access.pins = none)
  refine ⟨(progress.makeDirectory directory (.modelDirectory directory)).1, ?_, did.files_eq,
    silent.1⟩
  rw [Step.take]
  dsimp only
  rw [succeeds.mpr makes]
  rfl

/-- Where nothing is in the way of its files, a fetch succeeds iff the hub gives the model. Its
downloads take the course of the wanted files, and if it succeeds, the files that have been given
are written and no others. -/
theorem fetch_decided (hub : Hub) (access : Access) (modelId directory : String)
    (progress : Progress) (ready : Ready progress.files directory) :
    let fetched := fetch hub access modelId directory progress
    (fetched.2 = .ok directory ↔ GivesModel hub access modelId progress.requests) ∧
      (∀ path, fetched.2 = .ok path → path = directory) ∧
      ∃ turns, Course hub access modelId progress.requests (wantedFiles access.pins) turns
          fetched.1.requests ∧
        turns.map Turn.file <+: wantedFiles access.pins ∧ (turns.map Turn.file).Nodup ∧
        (∀ turn ∈ turns, turn.Asks hub access modelId) ∧
        (fetched.2 = .ok directory → ∃ operations, Did progress fetched.1 operations ∧
          Delivered (Provided hub access modelId turns) directory fetched.1.files operations) := by
  intro fetched
  rcases exists_take_of_makes hub access modelId ready.makes with ⟨next, taken, files, requests⟩
  rcases ready.clear with ⟨here, clear⟩
  rw [← files] at clear
  have fetched_eq : fetched = takeSteps hub access modelId directory steps.tail next :=
    takeSteps_of_goOn taken
  have asked_eq : exchanges hub access modelId directory steps progress =
      exchanges hub access modelId directory steps.tail next :=
    exchanges_of_goOn taken
  rcases clear.takeSteps hub access modelId (List.Subset.refl _) with ⟨course, succeeds⟩
  rw [filterMap_steps, requests, ← fetched_eq, ← asked_eq] at course
  rw [filterMap_steps, requests, ← fetched_eq, succeeds_iff_givesModel] at succeeds
  refine ⟨succeeds, fun path found => (footprint_of_ok found).1, _, course, course.isPrefix,
    (nodup_wantedFiles access.pins).sublist course.isPrefix.sublist,
    fun turn _ => turn.asks hub access modelId, fun found => ?_⟩
  rcases delivered_of_ok found with ⟨operations, did, delivered⟩
  refine ⟨operations, did, ?_, ?_⟩
  · intro file content provided
    exact delivered.read file content (provided_iff_gave.mp provided)
  · intro file mem place located
    rw [delivered.written file mem place located]
    exact exists_congr fun content => provided_iff_gave.symm

/-- A hub without the preferred weights gives a model into a directory that is not there yet. -/
theorem fetch_decided_sample :
    let hub := Sample.hub [("config.json", [1]), ("tokenizer.json", [2]),
      ("pytorch_model.bin", [3])]
    let access : Access := ⟨"http://hub", "main", some "secret", []⟩
    let progress : Progress := { files := ⟨[(["home"], .directory)], ["home"]⟩ }
    Ready progress.files "new/model" ∧ GivesModel hub access "a/b" progress.requests ∧
      (fetch hub access "a/b" "new/model" progress).2 = .ok "new/model" := by
  intro hub access progress
  have ready : Ready progress.files "new/model" :=
    ⟨by decide +kernel, by decide +kernel, by decide +kernel⟩
  have fetched : (fetch hub access "a/b" "new/model" progress).2 = .ok "new/model" := by
    apply eq_ok_of_toOption
    decide +kernel
  exact ⟨ready, (fetch_decided hub access "a/b" "new/model" progress ready).1.mp fetched, fetched⟩

end Hub

end TextVectors
