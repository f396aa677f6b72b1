import TextVectors.Proofs.Startup.Offline
import TextVectors.Proofs.Startup.Ready

/-!
# The ways a run can go

The stages of a run stand in a fixed order, and each begins only when the one before
it has succeeded. So there are eight ways for a run that is to serve a model or to
fetch it: two stops before the model is looked for, two ends with the search for
it, two failures on the way to the service, and a service that may listen at its
address or not. `Way` lists them, each with the stages that have begun,
the machine that is left, the ending and what was seen of the service.
-/

namespace TextVectors

namespace Startup

/-- The course when the settings are about to be read. -/
def begun (world : World) : Course :=
  { machine := { files := world.files }, milestones := [.readSettings] }

/-- The settings are read, and the journal is opened. -/
def Opens (world : World) (settings : Settings) (opened : Course) : Prop :=
  readSettings world.environment = .ok settings ∧
    ∃ display, openJournal settings (begun world) = (opened, .ok display)

/-- The model is found then, on a machine on which it has been fetched if need be. -/
def Finds (world : World) (settings : Settings) (found : Hub.Machine)
    (resolved : Model.Resolved) : Prop :=
  ∃ opened, Opens world settings opened ∧
    (lookUp settings world.hub opened.machine).outcome = .ok resolved ∧
    (lookUp settings world.hub opened.machine).world = found

/-- How the model of some settings is loaded where it was found. -/
def loadingOf (settings : Settings) (found : Hub.Machine) (resolved : Model.Resolved) :
    Transformer.Loading :=
  Transformer.load found.files resolved settings.maxTokens settings.expectedDimension

/-- The model is found and loaded. -/
def Loads (world : World) (settings : Settings) (found : Hub.Machine)
    (sentences : SentenceEncoder Number.Single) : Prop :=
  ∃ resolved, Finds world settings found resolved ∧
    (loadingOf settings found resolved).outcome = .ok sentences

/-- The service of settings for a model that has been loaded. -/
def serviceOf (settings : Settings) (sentences : SentenceEncoder Number.Single) :
    Except String (Service Number.Single) :=
  Service.ofSettings settings (.ofModel (.ofSettings settings) settings.batchSize sentences)

/-- The stages up to the search for the model. -/
def searching : List Milestone :=
  [.readSettings, .openJournal, .findModel]

inductive Way (mode : Mode) (world : World) (refusal : Option String) (steps : List Service.Step) :
    List Milestone → Hub.Machine → Ending → List (Service.Report Number.Single) → Prop where
  | misconfigured {failure : Failure} (refused : readSettings world.environment = .error failure) :
      Way mode world refusal steps [.readSettings] { files := world.files } (.failed failure) []
  | unlogged {settings : Settings} {opened : Course} {failure : Failure}
      (read : readSettings world.environment = .ok settings)
      (refused : openJournal settings (begun world) = (opened, .error failure)) :
      Way mode world refusal steps [.readSettings, .openJournal] opened.machine (.failed failure) []
  | unresolved {settings : Settings} {opened : Course} {error : Model.ResolveError}
      (opens : Opens world settings opened)
      (refused : (lookUp settings world.hub opened.machine).outcome = .error error) :
      Way mode world refusal steps searching (lookUp settings world.hub opened.machine).world
        (.failed error.failure) []
  | fetched {settings : Settings} {found : Hub.Machine} {resolved : Model.Resolved}
      (fetches : mode = .download) (finds : Finds world settings found resolved) :
      Way mode world refusal steps searching found .done []
  | unloaded {settings : Settings} {found : Hub.Machine} {resolved : Model.Resolved}
      {fault : Transformer.LoadFault} (serves : mode ≠ .download)
      (finds : Finds world settings found resolved)
      (refused : (loadingOf settings found resolved).outcome = .error fault) :
      Way mode world refusal steps (searching ++ [.loadModel]) found
        (endingOfFault (fault.fault (.ofSettings settings) resolved.dir)) []
  | overloaded {settings : Settings} {found : Hub.Machine}
      {sentences : SentenceEncoder Number.Single} {message : String} (serves : mode ≠ .download)
      (loads : Loads world settings found sentences)
      (refused : serviceOf settings sentences = .error message) :
      Way mode world refusal steps (searching ++ [.loadModel]) found (.crashed message) []
  | unbound {settings : Settings} {found : Hub.Machine}
      {sentences : SentenceEncoder Number.Single} {service : Service Number.Single}
      {reason : String} (serves : mode ≠ .download) (loads : Loads world settings found sentences)
      (made : serviceOf settings sentences = .ok service) (refused : refusal = some reason) :
      Way mode world refusal steps (searching ++ [.loadModel, .bind]) found
        (.failed (bindFailure settings reason)) []
  | served {settings : Settings} {found : Hub.Machine}
      {sentences : SentenceEncoder Number.Single} {service : Service Number.Single}
      (serves : mode ≠ .download) (loads : Loads world settings found sentences)
      (made : serviceOf settings sentences = .ok service) (free : refusal = none) :
      Way mode world refusal steps (searching ++ [.loadModel, .bind, .serve]) found .done
        (service.run (.initial service.permits) steps)

/-! ## Stage by stage -/

/-- A course has gone on through some stages, and a machine is left. -/
structure Course.Follows (later course : Course) (stages : List Milestone)
    (machine : Hub.Machine) : Prop where
  milestones : later.milestones = course.milestones ++ stages
  machine : later.machine = machine

variable {mode : Mode} {settings : Settings} {hub : Hub} {course opened : Course}
  {resolved : Model.Resolved} {sentences : SentenceEncoder Number.Single}

/-- Opening the journal asks the hub for nothing. -/
theorem openJournal_spec {result : Except Failure Display}
    (opens : openJournal settings course = (opened, result)) :
    opened.milestones = course.milestones ++ [.openJournal] ∧
      opened.machine.requests = course.machine.requests := by
  have made (directory : String) (before : Course) :
      (makeJournalDirectory directory before).1.milestones = before.milestones ∧
        (makeJournalDirectory directory before).1.machine.requests = before.machine.requests := by
    unfold makeJournalDirectory
    split <;> exact ⟨rfl, rfl⟩
  have same := congrArg Prod.fst opens
  subst same
  simp only [openJournal]
  split
  · exact ⟨rfl, rfl⟩
  · split
    · exact ⟨rfl, rfl⟩
    · next directory _ =>
      have unchanged := made directory (course.reach .openJournal)
      split
      · next result => rwa [result] at unchanged
      · next result => rwa [result] at unchanged

theorem openJournal_of_defects {defects : List Journal.Filter.Defect}
    (malformed : Journal.Filter.ofLine settings.logSpec = .error defects) (course : Course) :
    ∃ opened failure, openJournal settings course = (opened, .error failure) := by
  simp only [openJournal, malformed]
  exact ⟨_, _, rfl⟩

theorem findModel_of_error {error : Model.ResolveError}
    (refused : (lookUp settings hub course.machine).outcome = .error error) :
    ∃ later, findModel settings hub course = (later, .error error.failure) ∧
      later.Follows course [.findModel] (lookUp settings hub course.machine).world := by
  have unfound : (Model.resolve (.ofSettings settings) (·.files.store)
    (Hub.fetcher hub (.ofSettings settings)) course.machine).outcome = .error error := refused
  unfold findModel
  simp only [Course.reach, Course.tell, unfound]
  exact ⟨_, rfl, rfl, rfl⟩

theorem findModel_of_ok
    (found : (lookUp settings hub course.machine).outcome = .ok resolved) :
    ∃ later, findModel settings hub course = (later, .ok resolved) ∧
      later.Follows course [.findModel] (lookUp settings hub course.machine).world := by
  have resolves : (Model.resolve (.ofSettings settings) (·.files.store)
    (Hub.fetcher hub (.ofSettings settings)) course.machine).outcome = .ok resolved := found
  unfold findModel
  simp only [Course.reach, Course.tell, resolves]
  exact ⟨_, rfl, rfl, rfl⟩

theorem loadModel_of_error {fault : Transformer.LoadFault}
    (refused : (loadingOf settings course.machine resolved).outcome = .error fault) :
    ∃ later, loadModel settings resolved course =
        (later, .error (endingOfFault (fault.fault (.ofSettings settings) resolved.dir))) ∧
      later.Follows course [.loadModel] course.machine := by
  unfold loadModel
  extract_lets model reached loading told
  have ended : loading.outcome = .error fault := refused
  clear_value loading
  simp only [ended]
  exact ⟨told, rfl, rfl, rfl⟩

theorem loadModel_of_ok
    (loaded : (loadingOf settings course.machine resolved).outcome = .ok sentences) :
    ∃ later, loadModel settings resolved course =
        (later, .ok (.ofModel (.ofSettings settings) settings.batchSize sentences)) ∧
      later.Follows course [.loadModel] course.machine := by
  unfold loadModel
  extract_lets model reached loading told
  have ended : loading.outcome = .ok sentences := loaded
  clear_value loading
  simp only [ended]
  exact ⟨_, rfl, rfl, rfl⟩

theorem Course.Follows.trans {later latest : Course} {stages more : List Milestone}
    {machine last : Hub.Machine} (first : later.Follows course stages machine)
    (second : latest.Follows later more last) : latest.Follows course (stages ++ more) last :=
  ⟨by rw [second.milestones, first.milestones, List.append_assoc], second.machine⟩

theorem obtain_of_unfound {error : Model.ResolveError}
    (refused : (lookUp settings hub course.machine).outcome = .error error) :
    ∃ later, obtain mode settings hub course = (later, .error (.failed error.failure)) ∧
      later.Follows course [.findModel] (lookUp settings hub course.machine).world := by
  rcases findModel_of_error refused with ⟨later, unfound, follows⟩
  refine ⟨later, ?_, follows⟩
  unfold obtain
  simp only [unfound]

theorem obtain_of_download
    (found : (lookUp settings hub course.machine).outcome = .ok resolved) :
    ∃ later, obtain .download settings hub course = (later, .error .done) ∧
      later.Follows course [.findModel] (lookUp settings hub course.machine).world := by
  rcases findModel_of_ok found with ⟨later, found, follows⟩
  refine ⟨later.tell [note ("Model ready at " ++ resolved.dir)], ?_, follows.milestones,
    follows.machine⟩
  unfold obtain
  simp only [found, if_true]

theorem obtain_of_unloaded {fault : Transformer.LoadFault} (serves : mode ≠ .download)
    (found : (lookUp settings hub course.machine).outcome = .ok resolved)
    (refused : (loadingOf settings (lookUp settings hub course.machine).world resolved).outcome =
      .error fault) :
    ∃ later, obtain mode settings hub course =
        (later, .error (endingOfFault (fault.fault (.ofSettings settings) resolved.dir))) ∧
      later.Follows course [.findModel, .loadModel] (lookUp settings hub course.machine).world := by
  rcases findModel_of_ok found with ⟨later, found, follows⟩
  rw [← follows.machine] at refused ⊢
  rcases loadModel_of_error refused with ⟨latest, unloaded, last⟩
  refine ⟨latest, ?_, follows.trans last⟩
  unfold obtain
  simp only [found, serves, if_false, unloaded]

theorem obtain_of_loaded (serves : mode ≠ .download)
    (found : (lookUp settings hub course.machine).outcome = .ok resolved)
    (loaded : (loadingOf settings (lookUp settings hub course.machine).world resolved).outcome =
      .ok sentences) :
    ∃ later, obtain mode settings hub course =
        (later, (serviceOf settings sentences).mapError .crashed) ∧
      later.Follows course [.findModel, .loadModel] (lookUp settings hub course.machine).world := by
  rcases findModel_of_ok found with ⟨later, found, follows⟩
  rw [← follows.machine] at loaded ⊢
  rcases loadModel_of_ok loaded with ⟨latest, loaded, last⟩
  refine ⟨latest, ?_, follows.trans last⟩
  unfold obtain
  simp only [found, serves, if_false, loaded, serviceOf]

/-! ## The run as a whole -/

variable {arguments : List String} {world : World} {refusal : Option String}
  {steps : List Service.Step}

theorem prepare_of_mode (asked : Mode.ofArguments arguments = .ok mode) (acts : mode ≠ .help) :
    prepare arguments world = configure mode world := by
  unfold prepare
  cases mode with
  | help => exact absurd rfl acts
  | serve => simp only [asked]
  | download => simp only [asked]

theorem configure_of_opens {display : Display}
    (read : readSettings world.environment = .ok settings)
    (opens : openJournal settings (begun world) = (opened, .ok display)) :
    configure mode world =
      ⟨(obtain mode settings world.hub opened).1, some display,
        (obtain mode settings world.hub opened).2.map (⟨settings, ·⟩)⟩ := by
  simp only [begun] at opens
  simp only [configure, read, opens]
  split
  · next later ending ended => simp [ended, Except.map]
  · next later service made => simp [made, Except.map]

theorem Course.Follows.reached {later : Course} {stages : List Milestone} {machine : Hub.Machine}
    (follows : later.Follows opened stages machine) {result : Except Failure Display}
    (opens : openJournal settings (begun world) = (opened, result)) :
    later.milestones = [.readSettings, .openJournal] ++ stages := by
  have before : opened.milestones = [.readSettings, .openJournal] := (openJournal_spec opens).1
  rw [follows.milestones, before]

section
variable {display : Display} (asked : Mode.ofArguments arguments = .ok mode) (acts : mode ≠ .help)
  (read : readSettings world.environment = .ok settings)
  (opens : openJournal settings (begun world) = (opened, .ok display))
include asked acts read opens

/-- The way of a run that is to serve a model which has been found. -/
theorem way_of_found (serves : mode ≠ .download)
    (search : (lookUp settings world.hub opened.machine).outcome = .ok resolved) :
    Way mode world refusal steps (run arguments world refusal steps).course.milestones
      (run arguments world refusal steps).course.machine
      (run arguments world refusal steps).ending (run arguments world refusal steps).reports := by
  have prepared := (prepare_of_mode asked acts).trans (configure_of_opens read opens)
  have finds : Finds world settings (lookUp settings world.hub opened.machine).world resolved :=
    ⟨opened, ⟨read, display, opens⟩, search, rfl⟩
  cases load : (loadingOf settings (lookUp settings world.hub opened.machine).world
    resolved).outcome with
  | error fault =>
      rcases obtain_of_unloaded serves search load with ⟨later, ended, follows⟩
      simp only [run, prepared, ended, Except.map, follows.reached opens, follows.machine]
      exact .unloaded serves finds load
  | ok sentences =>
      rcases obtain_of_loaded serves search load with ⟨later, ended, follows⟩
      have loads : Loads world settings _ sentences := ⟨resolved, finds, load⟩
      cases made : serviceOf settings sentences with
      | error message =>
          simp only [run, prepared, ended, made, Except.map, Except.mapError,
            follows.reached opens, follows.machine]
          exact .overloaded serves loads made
      | ok service =>
          simp only [run, prepared, ended, made, Except.map, Except.mapError, attend]
          cases refusal with
          | some reason =>
              simp only [Course.reach, follows.reached opens, follows.machine]
              exact .unbound serves loads made rfl
          | none =>
              simp only [Course.reach, Course.tell, follows.reached opens, follows.machine]
              exact .served serves loads made rfl

/-- The way of a run whose settings are read and whose journal is open. -/
theorem way_of_opens :
    Way mode world refusal steps (run arguments world refusal steps).course.milestones
      (run arguments world refusal steps).course.machine
      (run arguments world refusal steps).ending (run arguments world refusal steps).reports := by
  have prepared := (prepare_of_mode asked acts).trans (configure_of_opens read opens)
  have ready : Opens world settings opened := ⟨read, display, opens⟩
  cases search : (lookUp settings world.hub opened.machine).outcome with
  | error error =>
      rcases @obtain_of_unfound mode _ _ _ _ search with ⟨later, ended, follows⟩
      simp only [run, prepared, ended, Except.map, follows.reached opens, follows.machine]
      exact .unresolved ready search
  | ok resolved =>
      by_cases fetches : mode = .download
      · subst fetches
        rcases obtain_of_download search with ⟨later, ended, follows⟩
        simp only [run, prepared, ended, Except.map, follows.reached opens, follows.machine]
        exact .fetched rfl ⟨opened, ready, search, rfl⟩
      · exact way_of_found asked acts read opens fetches search

end

/-- A run that is to serve a model or to fetch it goes one of the ways. -/
theorem run_way (asked : Mode.ofArguments arguments = .ok mode) (acts : mode ≠ .help) :
    Way mode world refusal steps (run arguments world refusal steps).course.milestones
      (run arguments world refusal steps).course.machine
      (run arguments world refusal steps).ending (run arguments world refusal steps).reports := by
  have prepared : prepare arguments world = configure mode world := prepare_of_mode asked acts
  cases read : readSettings world.environment with
  | error failure =>
      simp only [run, prepared, configure, read]
      exact .misconfigured read
  | ok settings =>
      rcases opens : openJournal settings (begun world) with ⟨opened, failure | display⟩
      · have before : opened.milestones = [.readSettings, .openJournal] :=
          (openJournal_spec opens).1
        have stopped : configure mode world = .early opened (.failed failure) := by
          simp only [begun] at opens
          simp only [configure, read, opens]
        simp only [run, prepared, stopped, Preparation.early, before]
        exact .unlogged read opens
      · exact way_of_opens asked acts read opens

end Startup

end TextVectors
