import TextVectors.Proofs.Startup.Ways
import TextVectors.Proofs.Transformer.Loading

/-!
# Failing before serving

A run that cannot serve ends before it listens, with an exit code that tells the
reason. Each part of `startup_decided` follows from the ways a run can go.

One fault of loading is not reported as such. Layers without heads break the run off,
`headless_breaks_off`.
-/

namespace TextVectors

namespace Startup

variable {world : World} {settings : Settings}

/-! ## Stages have one outcome -/

theorem Opens.unique {other : Settings} {opened later : Course}
    (opens : Opens world settings opened) (also : Opens world other later) :
    settings = other ∧ opened = later := by
  rcases opens with ⟨read, display, journal⟩
  rcases also with ⟨read_again, display_again, journal_again⟩
  cases read.symm.trans read_again
  exact ⟨rfl, congrArg Prod.fst (journal.symm.trans journal_again)⟩

theorem Finds.unique {other : Settings} {found later : Hub.Machine}
    {resolved again : Model.Resolved} (finds : Finds world settings found resolved)
    (also : Finds world other later again) :
    settings = other ∧ found = later ∧ resolved = again := by
  rcases finds with ⟨opened, opens, outcome, rfl⟩
  rcases also with ⟨opened_again, opens_again, outcome_again, rfl⟩
  rcases opens.unique opens_again with ⟨rfl, rfl⟩
  exact ⟨rfl, rfl, Except.ok.inj (outcome.symm.trans outcome_again)⟩

theorem Finds.opens {found : Hub.Machine} {resolved : Model.Resolved}
    (finds : Finds world settings found resolved) : ∃ opened, Opens world settings opened := by
  rcases finds with ⟨opened, opens, _⟩
  exact ⟨opened, opens⟩

theorem Loads.finds {found : Hub.Machine} {sentences : SentenceEncoder Number.Single}
    (loads : Loads world settings found sentences) :
    ∃ resolved, Finds world settings found resolved := by
  rcases loads with ⟨resolved, finds, _⟩
  exact ⟨resolved, finds⟩

theorem not_loads_of_not_finds {found : Hub.Machine} {sentences : SentenceEncoder Number.Single}
    (lost : ∀ resolved, ¬Finds world settings found resolved) :
    ¬Loads world settings found sentences := by
  intro loads
  rcases loads.finds with ⟨resolved, finds⟩
  exact lost resolved finds

theorem Finds.accepted {found : Hub.Machine} {resolved : Model.Resolved}
    (finds : Finds world settings found resolved) :
    Settings.ofEnvironment world.environment = .ok settings := by
  rcases finds.opens with ⟨opened, read, _⟩
  exact mapError_eq_ok_iff.mp read

/-! ## What the ways have in common -/

namespace Way

variable {mode : Mode} {refusal : Option String} {steps : List Service.Step}
  {milestones : List Milestone} {machine : Hub.Machine} {ending : Ending}
  {reports : List (Service.Report Number.Single)}

theorem of_not_opens (way : Way mode world refusal steps milestones machine ending reports)
    (shut : ∀ settings opened, ¬Opens world settings opened) :
    ending.code = 1 ∧ machine.requests = [] := by
  have lost {settings : Settings} {found : Hub.Machine} {resolved : Model.Resolved} :
      ¬Finds world settings found resolved := by
    intro finds
    rcases finds.opens with ⟨opened, opens⟩
    exact shut settings opened opens
  cases way with
  | misconfigured refused => exact ⟨rfl, rfl⟩
  | unlogged read refused => exact ⟨rfl, (openJournal_spec refused).2⟩
  | unresolved opens refused => exact absurd opens (shut _ _)
  | fetched fetches finds => exact absurd finds lost
  | unloaded serves finds refused => exact absurd finds lost
  | overloaded serves loads made => exact absurd loads (not_loads_of_not_finds fun _ => lost)
  | unbound serves loads made refused => exact absurd loads (not_loads_of_not_finds fun _ => lost)
  | served serves loads made free => exact absurd loads (not_loads_of_not_finds fun _ => lost)

theorem of_not_finds (way : Way mode world refusal steps milestones machine ending reports)
    (lost : ∀ settings found resolved, ¬Finds world settings found resolved) :
    ending.code = 1 ∧ .loadModel ∉ milestones ∧ .bind ∉ milestones := by
  cases way with
  | misconfigured refused => exact ⟨rfl, by decide, by decide⟩
  | unlogged read refused => exact ⟨rfl, by decide, by decide⟩
  | unresolved opens refused => exact ⟨rfl, by decide, by decide⟩
  | fetched fetches finds => exact absurd finds (lost _ _ _)
  | unloaded serves finds refused => exact absurd finds (lost _ _ _)
  | overloaded serves loads made => exact absurd loads (not_loads_of_not_finds (lost _ _))
  | unbound serves loads made refused => exact absurd loads (not_loads_of_not_finds (lost _ _))
  | served serves loads made free => exact absurd loads (not_loads_of_not_finds (lost _ _))

theorem of_refused {error : Settings.Error}
    (way : Way mode world refusal steps milestones machine ending reports)
    (refused : Settings.ofEnvironment world.environment = .error error) :
    ending.code = 1 ∧ machine.requests = [] := by
  apply way.of_not_opens
  rintro settings opened ⟨read, _⟩
  simp [readSettings, refused, Except.mapError] at read

theorem of_malformed {defects : List Journal.Filter.Defect}
    (way : Way mode world refusal steps milestones machine ending reports)
    (accepted : Settings.ofEnvironment world.environment = .ok settings)
    (malformed : Journal.Filter.ofLine settings.logSpec = .error defects) :
    ending.code = 1 ∧ machine.requests = [] := by
  apply way.of_not_opens
  rintro other opened ⟨read, display, opens⟩
  simp only [readSettings, accepted, Except.mapError, Except.ok.injEq] at read
  subst read
  rcases openJournal_of_defects malformed (begun world) with ⟨_, _, shut⟩
  cases shut.symm.trans opens

theorem of_unresolved {opened : Course} {error : Model.ResolveError}
    (way : Way mode world refusal steps milestones machine ending reports)
    (opens : Opens world settings opened)
    (refused : (lookUp settings world.hub opened.machine).outcome = .error error) :
    ending.code = 1 ∧ .loadModel ∉ milestones ∧ .bind ∉ milestones := by
  apply way.of_not_finds
  rintro other found resolved ⟨later, opens_again, outcome, _⟩
  rcases opens.unique opens_again with ⟨rfl, rfl⟩
  cases refused.symm.trans outcome

/-- Once the model is found, a run that fetches is done, and another goes on to load it. -/
theorem of_finds {found : Hub.Machine} {resolved : Model.Resolved}
    (way : Way mode world refusal steps milestones machine ending reports)
    (finds : Finds world settings found resolved) :
    (mode = .download ∧ milestones = searching ∧ ending = .done) ∨
      mode ≠ .download ∧
        ((∃ fault, (loadingOf settings found resolved).outcome = .error fault ∧
            milestones = searching ++ [.loadModel] ∧
            ending = endingOfFault (fault.fault (.ofSettings settings) resolved.dir)) ∨
          ∃ sentences, (loadingOf settings found resolved).outcome = .ok sentences) := by
  have loaded {other : Settings} {later : Hub.Machine} {sentences : SentenceEncoder Number.Single}
      (loads : Loads world other later sentences) :
      ∃ sentences, (loadingOf settings found resolved).outcome = .ok sentences := by
    rcases loads with ⟨again, finds_again, outcome⟩
    rcases finds.unique finds_again with ⟨rfl, rfl, rfl⟩
    exact ⟨sentences, outcome⟩
  rcases finds.opens with ⟨opened, opens⟩
  cases way with
  | misconfigured refused => cases refused.symm.trans opens.1
  | unlogged read refused =>
      rcases opens with ⟨read_again, display, opens⟩
      cases read.symm.trans read_again
      cases refused.symm.trans opens
  | unresolved opens_again refused =>
      rcases finds with ⟨opened, opens, outcome, rfl⟩
      rcases opens.unique opens_again with ⟨rfl, rfl⟩
      cases refused.symm.trans outcome
  | fetched fetches finds => exact .inl ⟨fetches, rfl, rfl⟩
  | unloaded serves finds_again refused =>
      rcases finds.unique finds_again with ⟨rfl, rfl, rfl⟩
      exact .inr ⟨serves, .inl ⟨_, refused, rfl, rfl⟩⟩
  | overloaded serves loads made => exact .inr ⟨serves, .inr (loaded loads)⟩
  | unbound serves loads made refused => exact .inr ⟨serves, .inr (loaded loads)⟩
  | served serves loads made free => exact .inr ⟨serves, .inr (loaded loads)⟩

theorem of_download (way : Way .download world refusal steps milestones machine ending reports) :
    (ending.code = 0 ↔ ∃ settings found resolved, Finds world settings found resolved) ∧
      .loadModel ∉ milestones ∧ .bind ∉ milestones := by
  by_cases lost : ∃ settings found resolved, Finds world settings found resolved
  · rcases lost with ⟨settings, found, resolved, finds⟩
    rcases way.of_finds finds with ⟨_, rfl, rfl⟩ | ⟨serves, _⟩
    · exact ⟨⟨fun _ => ⟨_, _, _, finds⟩, fun _ => rfl⟩, by decide, by decide⟩
    · exact absurd rfl serves
  · have failed := way.of_not_finds fun settings found resolved finds =>
      lost ⟨settings, found, resolved, finds⟩
    exact ⟨by simp [failed.1, lost], failed.2⟩

theorem of_unloaded {found : Hub.Machine} {resolved : Model.Resolved}
    {fault : Transformer.LoadFault}
    (way : Way mode world refusal steps milestones machine ending reports)
    (serves : mode ≠ .download) (finds : Finds world settings found resolved)
    (failed : (loadingOf settings found resolved).outcome = .error fault) :
    ending = endingOfFault (fault.fault (.ofSettings settings) resolved.dir) ∧
      .bind ∉ milestones := by
  rcases way.of_finds finds with ⟨fetches, _⟩ | ⟨_, ⟨other, refused, rfl, rfl⟩ | ⟨_, loaded⟩⟩
  · exact absurd fetches serves
  · cases failed.symm.trans refused
    exact ⟨rfl, by decide⟩
  · cases failed.symm.trans loaded

theorem of_bind (way : Way mode world refusal steps milestones machine ending reports)
    (bound : .bind ∈ milestones) :
    (∃ settings found sentences, Loads world settings found sentences) ∧
      (∀ reason, refusal = some reason → ending.code = 1) := by
  cases way with
  | misconfigured refused => simp at bound
  | unlogged read refused => simp at bound
  | unresolved opens refused => simp [searching] at bound
  | fetched fetches finds => simp [searching] at bound
  | unloaded serves finds refused => simp [searching] at bound
  | overloaded serves loads made => simp [searching] at bound
  | unbound serves loads made refused => exact ⟨⟨_, _, _, loads⟩, fun _ _ => rfl⟩
  | served serves loads made free => exact ⟨⟨_, _, _, loads⟩, by simp [free]⟩

theorem of_reports (way : Way mode world refusal steps milestones machine ending reports)
    (answered : reports ≠ []) :
    mode ≠ .download ∧ ∃ settings found sentences service, Loads world settings found sentences ∧
      serviceOf settings sentences = .ok service ∧
      reports = service.run (.initial service.permits) steps := by
  cases way with
  | served serves loads made free => exact ⟨serves, _, _, _, _, loads, made, rfl⟩
  | _ => exact absurd rfl answered

theorem of_crashed {message : String}
    (way : Way mode world refusal steps milestones machine (.crashed message) reports) :
    (∃ settings found resolved, Finds world settings found resolved ∧
        (loadingOf settings found resolved).outcome = .error (.crashed message)) ∨
      ∃ settings found sentences, Loads world settings found sentences ∧
        serviceOf settings sentences = .error message := by
  generalize ended : Ending.crashed message = ending at way
  cases way with
  | unloaded serves finds refused =>
      next fault =>
      cases fault with
      | failed error => cases ended
      | crashed other =>
          cases ended
          exact .inl ⟨_, _, _, finds, refused⟩
  | overloaded serves loads refused =>
      cases ended
      exact .inr ⟨_, _, _, loads, refused⟩
  | _ => cases ended

end Way

/-! ## Every run -/

variable {arguments : List String} {refusal : Option String} {steps : List Service.Step}

/-- A run does nothing, and the environment and the hub are nothing to it. -/
structure Untouched (arguments : List String) (world : World) (refusal : Option String)
    (steps : List Service.Step) : Prop where
  milestones : (run arguments world refusal steps).course.milestones = []
  machine : (run arguments world refusal steps).machine = { files := world.files }
  reports : (run arguments world refusal steps).reports = []
  regardless : ∀ environment hub, run arguments ⟨environment, world.files, hub⟩ refusal steps =
    run arguments world refusal steps

theorem requests_machine (run : Run) : run.machine.requests = run.course.machine.requests := by
  unfold Run.machine
  split <;> rfl

theorem run_of_misused {argument : String}
    (misused : Mode.ofArguments arguments = .error argument) :
    run arguments world refusal steps =
      ⟨{ machine := { files := world.files } }, none, .misused argument, []⟩ := by
  simp only [run, prepare, misused, Preparation.early]

theorem run_of_help (asked : Mode.ofArguments arguments = .ok .help) :
    run arguments world refusal steps =
      ⟨{ machine := { files := world.files } }, none, .helped, []⟩ := by
  simp only [run, prepare, asked, Preparation.early]

theorem ofArguments_of_not_mem {first : String} {rest : List String}
    (other : first :: rest ∉ [["--download"], ["--help"], ["-h"]]) :
    Mode.ofArguments (first :: rest) = .error first := by
  unfold Mode.ofArguments
  split <;> simp_all

theorem untouched_of_misused {argument : String}
    (misused : Mode.ofArguments arguments = .error argument) :
    Untouched arguments world refusal steps := by
  constructor
  · exact congrArg (·.course.milestones) (run_of_misused misused)
  · exact congrArg (·.machine) (run_of_misused misused)
  · exact congrArg (·.reports) (run_of_misused misused)
  · intro environment hub
    rw [run_of_misused misused, run_of_misused misused]

theorem untouched_of_help (asked : Mode.ofArguments arguments = .ok .help) :
    Untouched arguments world refusal steps := by
  constructor
  · exact congrArg (·.course.milestones) (run_of_help asked)
  · exact congrArg (·.machine) (run_of_help asked)
  · exact congrArg (·.reports) (run_of_help asked)
  · intro environment hub
    rw [run_of_help asked, run_of_help asked]

theorem encoder_modelId_of_serviceOf {sentences : SentenceEncoder Number.Single}
    {service : Service Number.Single} (made : serviceOf settings sentences = .ok service) :
    service.encoder.modelId = settings.modelId := by
  rw [encoder_of_ofSettings made]
  rfl

/-- Requests are answered only by a service of a model that was found and loaded. -/
theorem loads_of_answered (answered : (run arguments world refusal steps).reports ≠ []) :
    arguments = [] ∧
      ∃ settings found sentences service, Loads world settings found sentences ∧
        serviceOf settings sentences = .ok service ∧
        (run arguments world refusal steps).reports =
          service.run (.initial service.permits) steps := by
  cases asked : Mode.ofArguments arguments with
  | error argument => exact absurd (congrArg (·.reports) (run_of_misused asked)) answered
  | ok mode =>
      by_cases acts : mode = .help
      · subst acts
        exact absurd (congrArg (·.reports) (run_of_help asked)) answered
      · rcases (run_way asked acts).of_reports answered with ⟨serves, loaded⟩
        refine ⟨?_, loaded⟩
        unfold Mode.ofArguments at asked
        split at asked
        · rfl
        · cases asked
          exact absurd rfl serves
        · cases asked
          exact absurd rfl acts
        · cases asked
          exact absurd rfl acts
        · cases asked

/-- How a run ends is decided by the first stage that fails, and what comes later does not begin. -/
theorem startup_decided (arguments : List String) (world : World) (refusal : Option String)
    (steps : List Service.Step) :
    let run := run arguments world refusal steps
    (∀ first rest, arguments = first :: rest →
      arguments ∉ [["--download"], ["--help"], ["-h"]] →
        run.ending.code = 2 ∧ run.complaints = ["unknown argument: " ++ first ++ "\n\n" ++ usage] ∧
          Untouched arguments world refusal steps) ∧
    (arguments ∈ [["--help"], ["-h"]] →
      run.ending.code = 0 ∧ Untouched arguments world refusal steps) ∧
    (arguments ∈ [[], ["--download"]] →
      (∀ error, Settings.ofEnvironment world.environment = .error error →
        run.ending.code = 1 ∧ run.machine.requests = []) ∧
      (∀ settings defects, Settings.ofEnvironment world.environment = .ok settings →
        Journal.Filter.ofLine settings.logSpec = .error defects →
          run.ending.code = 1 ∧ run.machine.requests = []) ∧
      (∀ settings opened error, Opens world settings opened →
        (lookUp settings world.hub opened.machine).outcome = .error error →
          run.ending.code = 1 ∧ .loadModel ∉ run.course.milestones ∧
            .bind ∉ run.course.milestones)) ∧
    (arguments = ["--download"] →
      (run.ending.code = 0 ↔ ∃ settings found resolved, Finds world settings found resolved) ∧
        .loadModel ∉ run.course.milestones ∧ .bind ∉ run.course.milestones) ∧
    (arguments = [] →
      (∀ settings found resolved error, Finds world settings found resolved →
        (loadingOf settings found resolved).outcome = .error (.failed error) →
          run.ending.code = 1 ∧ .bind ∉ run.course.milestones) ∧
      (∀ settings found resolved message, Finds world settings found resolved →
        (loadingOf settings found resolved).outcome = .error (.crashed message) →
          run.ending.code = 101 ∧ .bind ∉ run.course.milestones ∧
            ∃ config, Transformer.GivesSizes found.files resolved.dir config ∧
              config.heads = 0 ∧ 0 < config.layers) ∧
      (.bind ∈ run.course.milestones →
        (∃ settings found sentences, Loads world settings found sentences) ∧
          (∀ reason, refusal = some reason → run.ending.code = 1))) ∧
    (run.reports ≠ [] → arguments = [] ∧
      ∃ settings found sentences service, Loads world settings found sentences ∧
        serviceOf settings sentences = .ok service ∧
        service.encoder.modelId = settings.modelId ∧
        run.reports = service.run (.initial service.permits) steps) := by
  intro run
  have acting {mode : Mode} (asked : Mode.ofArguments arguments = .ok mode) (acts : mode ≠ .help) :
      Way mode world refusal steps run.course.milestones run.course.machine run.ending
        run.reports := run_way asked acts
  refine ⟨?_, ?_, ?_, ?_, ?_, ?_⟩
  · intro first rest given other
    subst given
    have misused := ofArguments_of_not_mem other
    have ends : run = ⟨{ machine := { files := world.files } }, none, .misused first, []⟩ :=
      run_of_misused misused
    exact ⟨by rw [ends]; rfl, by rw [ends]; rfl, untouched_of_misused misused⟩
  · intro helps
    have asked : Mode.ofArguments arguments = .ok .help := by
      rcases List.mem_pair.mp helps with rfl | rfl <;> rfl
    have ends : run = ⟨{ machine := { files := world.files } }, none, .helped, []⟩ :=
      run_of_help asked
    exact ⟨by rw [ends]; rfl, untouched_of_help asked⟩
  · intro acts
    have way : ∃ mode, Way mode world refusal steps run.course.milestones run.course.machine
        run.ending run.reports := by
      rcases List.mem_pair.mp acts with rfl | rfl
      · exact ⟨.serve, acting rfl (by decide)⟩
      · exact ⟨.download, acting rfl (by decide)⟩
    rcases way with ⟨mode, way⟩
    rw [requests_machine]
    refine ⟨?_, ?_, ?_⟩
    · intro error refused
      exact way.of_refused refused
    · intro settings defects accepted malformed
      exact way.of_malformed accepted malformed
    · intro settings opened error opens refused
      exact way.of_unresolved opens refused
  · intro fetches
    subst fetches
    exact (acting rfl (by decide)).of_download
  · intro serves
    subst serves
    have way := acting rfl (by decide)
    refine ⟨?_, ?_, way.of_bind⟩
    · intro settings found resolved error finds failed
      rcases way.of_unloaded (by decide) finds failed with ⟨ends, unbound⟩
      exact ⟨by rw [ends]; rfl, unbound⟩
    · intro settings found resolved message finds crashed
      rcases way.of_unloaded (by decide) finds crashed with ⟨ends, unbound⟩
      exact ⟨by rw [ends]; rfl, unbound, Transformer.load_crashed crashed⟩
  · intro answered
    rcases loads_of_answered answered with
      ⟨serves, settings, found, sentences, service, loads, made, reports⟩
    exact ⟨serves, settings, found, sentences, service, loads, made,
      encoder_modelId_of_serviceOf made, reports⟩

/-- A machine that has a model with a layer but without heads, whose sizes are given in order. -/
def headless : World where
  environment := fun key => if key = "EMBED_MODEL_DIR" then some "m" else none
  files := ⟨[(["home"], .directory), (["home", "m"], .directory),
    (["home", "m", "config.json"],
      .file "[1,1,1,0,1,\"relu\",0,1,1,0,0,0,\"absolute\",false,null,null]".toUTF8.toList),
    (["home", "m", "model.safetensors"], .file [2, 0, 0, 0, 0, 0, 0, 0, 0x7b, 0x7d])], ["home"]⟩
  hub := fun _ _ => .unreachable "Connection Failed" "Network is unreachable"

/-- Loading a model without heads fails with no error: the run is broken off with the code of a
crash, and the journal is told nothing of it. -/
theorem headless_breaks_off :
    .loadModel ∈ (run [] headless none []).course.milestones ∧
      (run [] headless none []).ending = .crashed "attempt to divide by zero" ∧
      (run [] headless none []).ending.code = 101 ∧
      (run [] headless none []).ending.entries = [] := by
  have ends : (run [] headless none []).ending = .crashed "attempt to divide by zero" := by
    decide +kernel
  exact ⟨by decide +kernel, ends, by rw [ends]; rfl, by rw [ends]; rfl⟩

end Startup

end TextVectors
