import TextVectors.Proofs.Files.Frame
import TextVectors.Proofs.Hub.Steps
import TextVectors.Proofs.Settings.Pins
import TextVectors.Sample.Hub

/-!
# Pinned weights

When an operator pins weights, a fetch trusts no others. Its steps ask for no
weights without a pin, and what they write as weights has the digest of its pin,
whatever the hub answers. A body with another digest ends the fetch at once:
nothing is written or asked for after it.
-/

namespace TextVectors

namespace Files

/-- Something is true of each of some operations, with the files as they are when it is done. -/
def Each (holds : Files → Operation → Prop) : Files → List Operation → Prop
  | _, [] => True
  | files, operation :: rest => holds files operation ∧ Each holds (files.apply operation) rest

theorem Each.append {holds : Files → Operation → Prop} {files : Files}
    {first second : List Operation} (early : Each holds files first)
    (late : Each holds (files.applyAll first) second) : Each holds files (first ++ second) := by
  induction first generalizing files with
  | nil => exact late
  | cons operation rest ih => exact ⟨early.1, ih early.2 late⟩

theorem Each.of_forall {holds : Files → Operation → Prop} {files : Files}
    {operations : List Operation} (always : ∀ files, ∀ operation ∈ operations,
      holds files operation) : Each holds files operations := by
  induction operations generalizing files with
  | nil => trivial
  | cons operation rest ih =>
      refine ⟨always files operation List.mem_cons_self, ih ?_⟩
      intro later other mem
      exact always later other (List.mem_cons_of_mem _ mem)

theorem Each.mono {holds weaker : Files → Operation → Prop} {files : Files}
    {operations : List Operation}
    (implies : ∀ files operation, holds files operation → weaker files operation)
    (each : Each holds files operations) : Each weaker files operations := by
  induction operations generalizing files with
  | nil => trivial
  | cons operation rest ih => exact ⟨implies files operation each.1, ih each.2⟩

end Files

namespace Hub

variable {hub : Hub} {access : Access} {modelId directory file : String} {pins : Pins}
  {step : Step} {some_steps : List Step} {progress : Progress} {content : List UInt8}

/-! ## What is written -/

/-- An operation that sets the content of weights in a directory gives them a content that has the
digest of their pin. -/
def Trusted (pins : Pins) (directory : String) (files : Files) (operation : Files.Operation) :
    Prop :=
  ∀ file ∈ Model.weightFiles, ∀ place ∈ operation.written?,
    files.locate (Path.join directory file) = .ok place →
      ∃ digest content, pins.digest? file = some digest ∧
        (files.apply operation).content? place = some content ∧
        Digest.sha256Hex content = digest

/-- Drafts are not weights. -/
theorem trusted_of_draft {files : Files} {here : Place} {operation : Files.Operation}
    (reached : files.reach (Path.parts directory) = .ok here)
    (drafts_only : ∀ place ∈ operation.written?, place ∈ drafts here) :
    Trusted pins directory files operation := by
  intro file mem place written located
  have download : file ∈ downloads := weightFiles_subset mem
  have draft := drafts_only place written
  rw [eq_placeIn (inner_of_mem download) reached located] at draft
  exact absurd draft (placeIn_not_mem_drafts here download)

theorem each_drafting {files : Files} {here : Place} (mem : file ∈ downloads)
    (reached : files.reach (Path.parts directory) = .ok here)
    (drafted : Files.Throughout (Files.SameBut (drafts here) files) files
      (drafting here file content)) :
    Files.Each (Trusted pins directory) files (drafting here file content) := by
  have draft : ∀ place ∈ some (placeIn here (draftName file)), place ∈ drafts here := by
    rintro place ⟨⟩
    exact draft_mem_drafts here mem
  have created := drafted [.create (placeIn here (draftName file))] _ _ rfl (.between _ _)
  exact ⟨trusted_of_draft reached draft, trusted_of_draft (created.reach reached) draft, trivial⟩

/-- What is written in its place after its draft has the digest that is asked for. -/
theorem each_written {files : Files} {here : Place} (mem : file ∈ downloads)
    (reached : files.reach (Path.parts directory) = .ok here)
    (written : Written files directory here file content)
    (pinned : file ∈ Model.weightFiles → ∃ digest, pins.digest? file = some digest ∧
      Digest.sha256Hex content = digest) :
    Files.Each (Trusted pins directory) files
      (drafting here file content ++ [naming here file]) := by
  apply Files.Each.append (each_drafting mem reached written.drafted)
  refine ⟨?_, trivial⟩
  rintro other otherMem place ⟨⟩ located
  have download := weightFiles_subset otherMem
  have same : file = other := placeIn_inj mem download
    (eq_placeIn (inner_of_mem download) (written.drafted.after.reach reached) located)
  subst same
  rcases pinned otherMem with ⟨digest, pin, digest_eq⟩
  refine ⟨digest, content, pin, ?_, digest_eq⟩
  have content_eq := written.content_eq
  rw [Files.applyAll_append] at content_eq
  exact content_eq

/-- A step that asks for weights has their pin. -/
theorem exists_pin (pinned : pins ≠ []) (mem : step ∈ steps) (asks : step.file? pins = some file)
    (weights : file ∈ Model.weightFiles) :
    ∃ digest, step.pin? pins = some digest ∧ pins.digest? file = some digest := by
  have about := Step.target?_of_file? asks
  cases step with
  | weights name =>
      cases about
      rcases Step.exists_digest asks pinned with ⟨digest, pin⟩
      exact ⟨digest, pin, pin⟩
  | _ => exact absurd weights (not_mem_weightFiles mem rfl about)

/-- One step writes only weights that have the digest of their pin. -/
theorem take_trusted (hub : Hub) (modelId directory : String) (progress : Progress)
    (pinned : access.pins ≠ []) (mem : step ∈ steps) :
    ∃ operations, Did progress (step.take hub access modelId directory progress).1 operations ∧
      Files.Each (Trusted access.pins directory) progress.files operations := by
  cases asks : step.file? access.pins with
  | none =>
      rcases take_of_silent hub modelId directory progress asks with
        ⟨_, _, operations, did, directories, _⟩
      refine ⟨operations, did, .of_forall ?_⟩
      intro files operation operationMem file _ place written
      rcases directories operation operationMem with ⟨made, rfl⟩
      cases written
  | some file =>
      have download := mem_downloads access.pins mem asks
      rcases take_of_asks hub modelId directory progress download asks with
        ⟨_, outcome, downloaded, _⟩
      cases downloaded with
      | absent _ nothing => exact ⟨[], nothing, trivial⟩
      | failed did partly =>
          refine ⟨_, did, ?_⟩
          rcases partly with rfl | ⟨here, content, reached, rfl, drafted⟩
          · trivial
          · exact each_drafting download reached drafted
      | written gives accepted reached did written =>
          refine ⟨_, did, each_written download reached written ?_⟩
          intro weights
          rcases exists_pin pinned mem asks weights with ⟨digest, pin, its⟩
          exact ⟨digest, its, accepted.digest digest pin⟩

/-- So do steps in a row. -/
theorem takeSteps_trusted (hub : Hub) (modelId directory : String) (progress : Progress)
    (pinned : access.pins ≠ []) (subset : some_steps ⊆ steps) :
    ∃ operations,
      Did progress (takeSteps hub access modelId directory some_steps progress).1 operations ∧
      Files.Each (Trusted access.pins directory) progress.files operations := by
  induction some_steps generalizing progress with
  | nil => exact ⟨[], .refl progress, trivial⟩
  | cons step rest ih =>
      rcases take_trusted hub modelId directory progress pinned (subset List.mem_cons_self) with
        ⟨operations, did, trusted⟩
      rcases taken : step.take hub access modelId directory progress with ⟨next, ending⟩
      rw [taken] at did
      cases ending with
      | finished =>
          rw [takeSteps_of_finished taken]
          exact ⟨operations, did, trusted⟩
      | failed error =>
          rw [takeSteps_of_failed taken]
          exact ⟨operations, did, trusted⟩
      | goOn =>
          rw [takeSteps_of_goOn taken]
          rcases ih next fun other mem => subset (List.mem_cons_of_mem step mem) with
            ⟨more, did_more, trusted_more⟩
          rw [did.files_eq] at trusted_more
          exact ⟨operations ++ more, did.trans did_more, trusted.append trusted_more⟩

/-! ## What is asked for -/

theorem mem_exchanges_cons {exchange : Exchange} {rest : List Step}
    (mem : exchange ∈ exchanges hub access modelId directory (step :: rest) progress) :
    (step.file? access.pins = some exchange.file ∧ exchange.before = progress) ∨
      ∃ next, step.take hub access modelId directory progress = (next, .goOn) ∧
        exchange ∈ exchanges hub access modelId directory rest next := by
  have of_first : exchange ∈ (step.exchange? access.pins progress).toList →
      step.file? access.pins = some exchange.file ∧ exchange.before = progress := by
    intro first
    rw [Option.mem_toList, Step.exchange?, Option.map_eq_some_iff] at first
    rcases first with ⟨file, asks, rfl⟩
    exact ⟨asks, rfl⟩
  rcases taken : step.take hub access modelId directory progress with ⟨next, ending⟩
  cases ending with
  | goOn =>
      rw [exchanges_of_goOn taken, List.mem_append] at mem
      exact mem.imp of_first fun later => ⟨next, rfl, later⟩
  | finished =>
      rw [exchanges_of_finished taken] at mem
      exact .inl (of_first mem)
  | failed error =>
      rw [exchanges_of_failed taken] at mem
      exact .inl (of_first mem)

theorem exists_step_of_mem_exchanges {exchange : Exchange}
    (mem : exchange ∈ exchanges hub access modelId directory some_steps progress) :
    ∃ step ∈ some_steps, step.file? access.pins = some exchange.file := by
  induction some_steps generalizing progress with
  | nil => cases mem
  | cons step rest ih =>
      rcases mem_exchanges_cons mem with ⟨asks, _⟩ | ⟨next, _, later⟩
      · exact ⟨step, List.mem_cons_self, asks⟩
      · rcases ih later with ⟨other, otherMem, asks⟩
        exact ⟨other, List.mem_cons_of_mem step otherMem, asks⟩

/-! ## What is refused -/

/-- A body with another digest than its pin makes a step fail. -/
theorem take_of_wrong_digest {expected : String} (directory : String)
    (asks : step.file? access.pins = some file) (pin : step.pin? access.pins = some expected)
    (gives : Exchange.Gives hub access modelId ⟨file, progress⟩ content)
    (wrong : Digest.sha256Hex content ≠ expected) :
    let taken := step.take hub access modelId directory progress
    taken.2 = .failed (.wrongDigest (lastName file) expected (Digest.sha256Hex content)) ∧
      Did progress taken.1 [] := by
  have refused := download_of_wrong_digest (Path.join directory file) gives wrong
  have about := Step.target?_of_file? asks
  cases step with
  | weights name =>
      cases about
      have trusted : ¬((access.pins.digest? file).isNone ∧ access.pins ≠ []) := by
        rw [Step.pin?] at pin
        rw [pin]
        rintro ⟨absent, _⟩
        cases absent
      rw [Step.pin?] at pin
      rw [Step.take]
      dsimp only
      rw [if_neg trusted, pin]
      rcases ended : download hub access modelId file (Path.join directory file) (some expected)
        progress with ⟨later, outcome⟩
      rw [ended] at refused
      rcases refused with ⟨failed, nothing⟩
      dsimp only at failed
      rw [failed]
      exact ⟨rfl, nothing⟩
  | _ => cases pin

/-- The fetch is over when the hub has given a body with another digest. -/
theorem takeSteps_of_wrong_digest {exchange : Exchange} {expected : String}
    (pinned : access.pins ≠ []) (subset : some_steps ⊆ steps)
    (mem : exchange ∈ exchanges hub access modelId directory some_steps progress)
    (weights : exchange.file ∈ Model.weightFiles)
    (pin : access.pins.digest? exchange.file = some expected)
    (gives : exchange.Gives hub access modelId content)
    (wrong : Digest.sha256Hex content ≠ expected) :
    let fetched := takeSteps hub access modelId directory some_steps progress
    fetched.2 = .error (.wrongDigest exchange.file expected (Digest.sha256Hex content)) ∧
      Did exchange.before fetched.1 [] ∧
      fetched.1.requests = (exchange.outcome hub access modelId).1 ∧
      (exchanges hub access modelId directory some_steps progress).getLast? = some exchange := by
  induction some_steps generalizing progress with
  | nil => cases mem
  | cons step rest ih =>
      have within : step ∈ steps := subset List.mem_cons_self
      rcases mem_exchanges_cons mem with ⟨asks, rfl⟩ | ⟨next, taken, later⟩
      · have same_name : ∀ file ∈ Model.weightFiles, lastName file = file := by decide
        have its_pin : step.pin? access.pins = some expected := by
          rcases exists_pin pinned within asks weights with ⟨digest, its, same⟩
          rw [its, ← same, pin]
        have refused := take_of_wrong_digest directory asks its_pin gives wrong
        have requests := (take_of_asks hub modelId directory exchange.before
          (mem_downloads access.pins within asks) asks).1
        rcases taken : step.take hub access modelId directory exchange.before with ⟨next, ending⟩
        rw [taken] at refused requests
        rcases refused with ⟨failed, nothing⟩
        dsimp only at failed
        rw [same_name exchange.file weights] at failed
        subst failed
        rw [takeSteps_of_failed taken, exchanges_of_failed taken, Step.exchange?, asks]
        exact ⟨rfl, nothing, requests, rfl⟩
      · rw [takeSteps_of_goOn taken, exchanges_of_goOn taken]
        have ended := ih (fun other mem => subset (List.mem_cons_of_mem step mem)) later
        refine ⟨ended.1, ended.2.1, ended.2.2.1, ?_⟩
        rw [List.getLast?_append, ended.2.2.2]
        rfl

/-! ## Pins of an operator -/

/-- What the list of pins of an operator guarantees of a fetch into a directory. -/
structure Enforced (hub : Hub) (access : Access) (modelId directory raw : String)
    (progress : Progress) : Prop where
  /-- All requests are made in exchanges. -/
  requests : Conversation hub access modelId progress.requests
    (exchanges hub access modelId directory steps progress)
    (fetch hub access modelId directory progress).1.requests
  /-- An exchange asks for the address of its file, and then only for what the hub refers to. -/
  referred : ∀ exchange ∈ exchanges hub access modelId directory steps progress,
    ∃ made, (exchange.outcome hub access modelId).1 = exchange.before.requests ++ made ∧
      (made = [] ∨ ∃ url, Url.ofString (access.address modelId exchange.file) = .ok url ∧
        Referred hub exchange.before.requests ⟨url, access.token⟩ made)
  /-- Weights for which the operator has given no digest are not asked for. -/
  asked : ∀ exchange ∈ exchanges hub access modelId directory steps progress,
    exchange.file ∈ Model.weightFiles → ∃ digest, Pins.Given raw exchange.file digest
  /-- What is written as weights has the digest that the operator has given for them. -/
  written : ∃ operations,
    Did progress (fetch hub access modelId directory progress).1 operations ∧
      Files.Each (fun files operation =>
        ∀ file ∈ Model.weightFiles, ∀ place ∈ operation.written?,
          files.locate (Path.join directory file) = .ok place →
            ∃ digest content, Pins.Given raw file digest ∧
              (files.apply operation).content? place = some content ∧
              Digest.sha256Hex content = Pins.lower digest)
        progress.files operations
  /-- A body with another digest is the last that is asked for. Nothing is done to the files after
  it, and the fetch fails. -/
  refused : ∀ exchange ∈ exchanges hub access modelId directory steps progress,
    exchange.file ∈ Model.weightFiles → ∀ content digest,
      exchange.Gives hub access modelId content → Pins.Given raw exchange.file digest →
      Digest.sha256Hex content ≠ Pins.lower digest →
        (fetch hub access modelId directory progress).2 =
            .error (.wrongDigest exchange.file (Pins.lower digest) (Digest.sha256Hex content)) ∧
          Did exchange.before (fetch hub access modelId directory progress).1 [] ∧
          (fetch hub access modelId directory progress).1.requests =
            (exchange.outcome hub access modelId).1 ∧
          (exchanges hub access modelId directory steps progress).getLast? = some exchange

/-- When an operator has given pins, they are enforced by every fetch, whatever the hub answers and
whatever there is in the directory. -/
theorem pins_enforced {environment : Environment} {settings : Settings}
    (read : Settings.ofEnvironment environment = .ok settings) (pinned : settings.pins ≠ [])
    (hub : Hub) (modelId directory : String) (progress : Progress) :
    ∃ raw, Settings.get? environment "EMBED_WEIGHTS_SHA256" = some raw ∧
      Enforced hub (.ofSettings settings) modelId directory raw progress := by
  rcases Settings.exists_of_pins read pinned with ⟨raw, given, made⟩
  have pin_iff : ∀ file digest, settings.pins.digest? file = some digest ↔
      ∃ written, Pins.Given raw file written ∧ Pins.lower written = digest :=
    fun file digest => Pins.digest?_eq_some_iff made
  have pinned_access : (Access.ofSettings settings).pins ≠ [] := pinned
  refine ⟨raw, given, conversation_takeSteps (List.Subset.refl steps) progress, ?_, ?_, ?_, ?_⟩
  · intro exchange _
    exact exchange.referred hub (.ofSettings settings) modelId
  · intro exchange mem weights
    rcases exists_step_of_mem_exchanges mem with ⟨step, stepMem, asks⟩
    rcases exists_pin pinned_access stepMem asks weights with ⟨digest, _, pin⟩
    rcases (pin_iff _ _).mp pin with ⟨written, gives, _⟩
    exact ⟨written, gives⟩
  · rcases takeSteps_trusted hub modelId directory progress pinned_access
      (List.Subset.refl steps) with ⟨operations, did, trusted⟩
    refine ⟨operations, did, trusted.mono ?_⟩
    intro files operation trusts file mem place place_written located
    rcases trusts file mem place place_written located with ⟨digest, content, pin, found, same⟩
    rcases (pin_iff _ _).mp pin with ⟨written, gives, lowered⟩
    exact ⟨written, content, gives, found, same.trans lowered.symm⟩
  · intro exchange mem weights content written gives given_digest wrong
    have pin := (pin_iff exchange.file _).mpr ⟨written, given_digest, rfl⟩
    exact takeSteps_of_wrong_digest pinned_access (List.Subset.refl steps) mem weights pin gives
      wrong

/-- A digest that is given in capitals is enforced against a hub that has another file. -/
theorem pins_enforced_sample :
    let digest := "039058C6F2C0CB492C533B0A4D14EF77CC0F78ABCCCED5287D84A1A2011CFB81"
    let environment : Environment := fun key =>
      [("EMBED_MODEL_ID", "a/b"), ("EMBED_MODEL_DIR", "model"),
        ("EMBED_HUB_BASE_URL", "http://hub"), ("EMBED_WEIGHTS_SHA256", "pytorch_model.bin = " ++ digest)].lookup
        key
    let settings := Sample.settings "model" [("pytorch_model.bin", Pins.lower digest)]
    let hub := Sample.hub [("config.json", [1]), ("tokenizer.json", [2]),
      ("model.safetensors", [3]), ("pytorch_model.bin", [4])]
    let progress : Progress := { files := ⟨[(["home"], .directory)], ["home"]⟩ }
    Settings.ofEnvironment environment = .ok settings ∧ settings.pins ≠ [] ∧
      (∃ raw, Settings.get? environment "EMBED_WEIGHTS_SHA256" = some raw ∧
        Enforced hub (.ofSettings settings) settings.modelId settings.modelDir raw progress) ∧
      (fetch hub (.ofSettings settings) settings.modelId settings.modelDir
        progress).2.toOption = none := by
  intro digest environment settings hub progress
  have read : Settings.ofEnvironment environment = .ok settings := by
    apply eq_ok_of_toOption
    decide +kernel
  have pinned : settings.pins ≠ [] := List.cons_ne_nil _ _
  refine ⟨read, pinned, pins_enforced read pinned hub _ _ progress, ?_⟩
  decide +kernel

end Hub

end TextVectors
