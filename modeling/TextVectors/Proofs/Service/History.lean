import TextVectors.Proofs.Service.Delay
import TextVectors.Proofs.Service.Sightings
import TextVectors.Proofs.Startup.Ready

/-!
# No trace of the past

A service remembers nothing but the encodes that are under way. When the last of
them has ended, all permits are free and the provider is owed no batch, so the
state is that of a new service, only later: `eq_delay_initial`. What happens
then happens as it would have in the beginning, whatever has failed, broken off
or been given up before. The state of health can be asked for at any time.
-/

namespace TextVectors

namespace Service

variable {σ : Type} {service : Service σ} {state : State}

/-- Whatever the provider is still to receive comes from an encode that is under way. -/
def State.Attended (state : State) : Prop :=
  ∀ sighting ∈ state.upcoming, state.now < sighting.time →
    ∃ finish ∈ state.running, sighting.time ≤ finish

namespace State.Attended

theorem advance (attended : state.Attended) {time : Nat} (later : state.now ≤ time) :
    (state.advance time).Attended := by
  intro sighting mem owed
  rcases attended sighting mem (later.trans_lt owed) with ⟨finish, underway, early⟩
  refine ⟨finish, ?_, early⟩
  rw [State.advance_running, List.mem_filter, decide_eq_true_eq]
  exact ⟨underway, Nat.lt_of_lt_of_le owed early⟩

theorem start (attended : state.Attended) (encoder : Encoder σ) (texts : List String) :
    (state.start (encoder.encode texts).elapsed (encoder.encode texts).calls).Attended := by
  intro sighting mem owed
  rcases List.mem_append.mp mem with earlier | mine
  · rcases attended sighting earlier owed with ⟨finish, underway, early⟩
    exact ⟨finish, List.mem_cons_of_mem _ underway, early⟩
  · exact ⟨_, List.mem_cons_self, encoder.time_le_of_mem_sightings mine⟩

theorem forget (attended : state.Attended) : state.forget.Attended := by
  intro sighting mem owed
  exact attended sighting (List.mem_filter.mp mem).1 owed

theorem handle (attended : state.Attended) (upToDate : state.UpToDate) (request : Request) :
    (service.handle state request).state.Attended := by
  cases wants : service.wanted request with
  | none =>
      rcases handle_of_unwanted wants with ⟨answer, events, same⟩
      rw [same]
      exact attended
  | some texts =>
      rw [handle_of_wanted wants]
      cases begins : service.entry state with
      | none =>
          rw [dispatch_of_no_entry begins]
          exact attended.advance (Nat.le_add_right _ _)
      | some start =>
          have late := ((entry_eq_some_iff upToDate).mp begins).1
          rcases dispatch_state_of_entry begins texts with ⟨time, later, same⟩
          rw [same]
          exact ((attended.advance late).start service.encoder texts).advance later

theorem step (attended : state.Attended) (upToDate : state.UpToDate) (step : Step) :
    (service.step state step).1.Attended := by
  cases step with
  | request request => exact (attended.handle upToDate request).forget
  | pause milliseconds => exact (attended.advance (Nat.le_add_right _ _)).forget

theorem after {tenures : List Tenure} (attended : state.Attended)
    (ledger : Ledger service.permits tenures state) (turns : List (Turn σ)) :
    (service.after state turns).Attended := by
  induction turns generalizing tenures state with
  | nil => exact attended
  | cons turn turns ih =>
      have met : Ledger (service.meeting turn.encoder).permits tenures state := ledger
      exact ih (attended.step met.upToDate turn.step) (met.step turn.step)

end State.Attended

/-- Once no encode is under way, a service is in the state that it began with, only later. -/
theorem eq_delay_initial {turns : List (Turn σ)}
    (quiet : (service.after (.initial service.permits) turns).running = []) :
    service.after (.initial service.permits) turns =
      (State.initial service.permits).delay
        (service.after (.initial service.permits) turns).now := by
  have ledger := (Ledger.initial service.permits).after turns
  have attended : (service.after (.initial service.permits) turns).Attended :=
    State.Attended.after (by simp [State.Attended, State.initial]) (Ledger.initial _) turns
  have told : (service.after (.initial service.permits) turns).seen = [] := seen_after rfl
  generalize service.after (.initial service.permits) turns = state at *
  have all_free : state.free = service.permits := by
    have conserved := ledger.conserved
    rwa [quiet] at conserved
  have none_owed : state.upcoming = [] := by
    rw [List.eq_nil_iff_forall_not_mem]
    intro sighting mem
    rw [State.seen, List.filter_eq_nil_iff] at told
    have owed := told sighting mem
    rw [decide_eq_true_eq, not_le] at owed
    rcases attended sighting mem owed with ⟨finish, underway, _⟩
    rw [quiet] at underway
    cases underway
  rcases state with ⟨now, free, running, upcoming⟩
  simp only at quiet all_free none_owed
  simp only [State.delay, State.initial, quiet, all_free, none_owed, List.map_nil, Nat.zero_add]

/-- The state of health does not depend on the state of the permits. -/
theorem handle_health {request : Request} (path : request.path = "/health")
    (method : request.method = "GET") (state : State) :
    (service.handle state request).answer =
      { status := 200, content := .health ⟨"ok", service.encoder.modelId⟩ } := by
  unfold handle
  rw [path, method]
  rfl

/-! ## Main result -/

/-- Two courses leave no trace once no encode is under way any more: the next request is answered
in the same way after both, and so are all steps that follow, with the same entries in the journal.
The state of health is good after any course, also with all permits held, and names the model of
the settings. -/
theorem history_leaves_no_trace (service : Service σ) :
    (∀ turns turns' : List (Turn σ),
      (service.after (.initial service.permits) turns).running = [] →
      (service.after (.initial service.permits) turns').running = [] →
        let state := service.after (.initial service.permits) turns
        let state' := service.after (.initial service.permits) turns'
        (∀ request, (service.handle state request).answer =
          (service.handle state' request).answer) ∧
        ∀ steps, (service.run state steps).map (fun report => (report.answer, report.events)) =
          (service.run state' steps).map (fun report => (report.answer, report.events))) ∧
      (∀ (turns : List (Turn σ)) (request : Request),
        request.path = "/health" → request.method = "GET" →
          (service.handle (service.after (.initial service.permits) turns) request).answer =
            { status := 200, content := .health ⟨"ok", service.encoder.modelId⟩ }) ∧
      ∀ arguments world ready, (Startup.prepare arguments world).outcome = .ok ready →
        ready.service.encoder.modelId = ready.settings.modelId := by
  refine ⟨?_, ?_, ?_⟩
  · intro turns turns' quiet quiet' state state'
    have fresh : state = (State.initial service.permits).delay state.now := eq_delay_initial quiet
    have fresh' : state' = (State.initial service.permits).delay state'.now :=
      eq_delay_initial quiet'
    constructor
    · intro request
      rw [fresh, fresh', handle_delay, handle_delay]
      rfl
    · intro steps
      rw [fresh, fresh', run_delay, run_delay, List.map_map, List.map_map]
      rfl
  · intro turns request path method
    exact handle_health path method _
  · intro arguments world ready prepared
    rcases Startup.prepare_eq_ok prepared with ⟨_, _, _, _, _, _, encoder⟩
    rw [encoder]
    rfl

/-- A request is answered in the same way after a breakdown and a request that was given up as at
the very beginning, and the state of health is good while the only permit is held. -/
theorem history_leaves_no_trace_sample :
    let provider : Provider Nat := ⟨1, fun texts => ⟨.ok (texts.map fun _ => [1]), 5⟩⟩
    let slow : Encoder Nat :=
      ⟨"sample", ⟨1, fun _ => ⟨.error (.crashed "broken off"), 150⟩⟩, 1, .ok⟩
    let crashing : Encoder Nat :=
      ⟨"sample", ⟨1, fun _ => ⟨.error (.crashed "broken off"), 5⟩⟩, 1, .ok⟩
    let service : Service Nat := ⟨⟨"sample", provider, 1, .ok⟩, 1, ⟨100⟩, 64⟩
    let request : Request :=
      ⟨"POST", "/embeddings", [("content-type", "application/json".toUTF8.toList)],
        "\x7b\"input\":[\"a\"]\x7d".toUTF8.toList⟩
    let question : Request := ⟨"GET", "/health", [], []⟩
    let turns : List (Turn Nat) :=
      [⟨crashing, .request request⟩, ⟨slow, .request request⟩, ⟨slow, .pause 50⟩]
    let busy : List (Turn Nat) := [⟨slow, .request request⟩]
    (service.after (.initial 1) turns).running = [] ∧
      (service.handle (service.after (.initial 1) turns) request).answer =
        (service.handle (.initial 1) request).answer ∧
      (service.after (.initial 1) busy).free = 0 ∧
      (service.handle (service.after (.initial 1) busy) question).answer.status = 200 := by
  intro provider slow crashing service request question turns busy
  have result := service.history_leaves_no_trace
  have quiet : (service.after (.initial 1) turns).running = [] := by decide +kernel
  have path : question.path = "/health" := by decide +kernel
  have held : (service.after (.initial 1) busy).free = 0 := by decide +kernel
  refine ⟨quiet, (result.1 turns [] quiet rfl).1 request, held, ?_⟩
  rw [result.2.1 busy question path rfl]

end Service

end TextVectors
