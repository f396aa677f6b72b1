import Mathlib.Data.List.MinMax
import TextVectors.Proofs.Service.Course

/-!
# States that are put off

Nothing in a service looks at the clock on the wall: a request is only measured
against the time at which it comes. So a state may be put off by some time,
together with all encodes that are under way in it, and whatever happens
afterwards happens in the same way and so much later: `run_delay`.
-/

namespace TextVectors

namespace Service

/-- A batch that is received later. -/
def Sighting.delay (sighting : Sighting) (wait : Nat) : Sighting :=
  { sighting with time := sighting.time + wait }

namespace State

/-- A state that comes about later, with all that is under way in it. -/
def delay (state : State) (wait : Nat) : State where
  now := state.now + wait
  free := state.free
  running := state.running.map (· + wait)
  upcoming := state.upcoming.map (·.delay wait)

variable (state : State) (wait : Nat)

theorem advance_delay (time : Nat) :
    (state.delay wait).advance (time + wait) = (state.advance time).delay wait := by
  simp only [advance, delay, List.filter_map, List.length_map, Function.comp_def,
    Nat.add_le_add_iff_right, Nat.add_lt_add_iff_right]

theorem pickup_delay : (state.delay wait).pickup = state.pickup + wait := by
  have sorted : (state.delay wait).running.mergeSort (· ≥ ·) =
      (state.running.mergeSort (· ≥ ·)).map (· + wait) := by
    refine (List.map_mergeSort ?_).symm
    intro first _ second _
    simp only [ge_iff_le, Nat.add_le_add_iff_right]
  have as_many : (state.delay wait).running.length = state.running.length := List.length_map _
  rw [pickup, pickup, as_many, sorted]
  by_cases few : state.running.length < threads
  · rw [if_pos few, if_pos few]
    rfl
  · rw [if_neg few, if_neg few]
    rw [List.getD_eq_getElem?_getD, List.getD_eq_getElem?_getD, List.getElem?_map]
    exact Option.getD_map (· + wait) state.now _

theorem start_delay (elapsed : Nat) (calls : List Call) :
    (state.delay wait).start elapsed calls = (state.start elapsed calls).delay wait := by
  rw [start, start, pickup_delay]
  simp only [delay, List.map_cons, List.map_append, List.map_map, Function.comp_def,
    Sighting.delay, Nat.add_right_comm]

theorem admission_delay : (state.delay wait).admission = state.admission.map (· + wait) := by
  have least : (state.running.map (· + wait)).min? = state.running.min?.map (· + wait) := by
    induction state.running with
    | nil => rfl
    | cons finish running ih =>
        cases rest : running.min? with
        | none =>
            rw [List.min?_eq_none_iff] at rest
            simp [rest]
        | some first =>
            rw [rest] at ih
            rw [List.map_cons, List.min?_cons, List.min?_cons, ih, rest]
            simp only [Option.map_some, Option.elim_some, Nat.add_min_add_right]
  unfold admission
  by_cases available : 0 < state.free
  · rw [if_pos available, if_pos (show 0 < (state.delay wait).free from available)]
    rfl
  · rw [if_neg available, if_neg (show ¬0 < (state.delay wait).free from available)]
    exact least

theorem seen_delay : (state.delay wait).seen = state.seen.map (·.delay wait) := by
  simp only [seen, delay, List.filter_map, Function.comp_def, Sighting.delay,
    Nat.add_le_add_iff_right]

theorem forget_delay : (state.delay wait).forget = state.forget.delay wait := by
  simp only [forget, delay, List.filter_map, Function.comp_def, Sighting.delay,
    Nat.add_lt_add_iff_right]

end State

variable {σ : Type}

/-- An outcome that comes about later. -/
def Outcome.delay (outcome : Outcome σ) (wait : Nat) : Outcome σ :=
  { outcome with state := outcome.state.delay wait }

/-- A report of the same happenings at a later time. -/
def Report.delay (report : Report σ) (wait : Nat) : Report σ :=
  { report with seen := report.seen.map (·.delay wait) }

variable (service : Service σ) (state : State) (wait : Nat)

theorem deadline_delay : service.deadline (state.delay wait) = service.deadline state + wait :=
  Nat.add_right_comm _ _ _

theorem entry_delay : service.entry (state.delay wait) = (service.entry state).map (· + wait) := by
  rw [entry, entry, State.admission_delay, deadline_delay]
  cases state.admission with
  | none => rfl
  | some start =>
      by_cases early : start ≤ service.deadline state
      · simp [Option.filter, early]
      · simp [Option.filter, early]

theorem dispatch_delay (texts : List String) :
    service.dispatch (state.delay wait) texts = (service.dispatch state texts).delay wait := by
  have begins := service.entry_delay state wait
  cases entered : service.entry state with
  | none =>
      rw [entered, Option.map_none] at begins
      rw [dispatch_of_no_entry entered, dispatch_of_no_entry begins, expired, expired,
        deadline_delay, State.advance_delay]
      rfl
  | some start =>
      rw [entered, Option.map_some] at begins
      rw [dispatch_of_entry entered, dispatch_of_entry begins, deadline_delay,
        State.advance_delay, State.pickup_delay, State.start_delay, Nat.add_right_comm _ wait]
      generalize (state.advance start).pickup + (service.encoder.encode texts).elapsed = finish
      by_cases in_time : finish < service.deadline state
      · have elapsed : finish + wait - (state.delay wait).now = finish - state.now :=
          Nat.add_sub_add_right _ _ _
        rw [if_pos in_time, if_pos (Nat.add_lt_add_right in_time wait), State.advance_delay,
          elapsed]
        rfl
      · have late : ¬finish + wait < service.deadline state + wait := by
          omega
        rw [if_neg in_time, if_neg late, expired, expired, State.advance_delay]
        rfl

theorem handle_delay (request : Request) :
    service.handle (state.delay wait) request = (service.handle state request).delay wait := by
  cases wants : service.wanted request with
  | none =>
      rcases handle_of_unwanted wants with ⟨answer, events, same⟩
      rw [same, same]
      rfl
  | some texts =>
      rw [handle_of_wanted wants, handle_of_wanted wants]
      exact service.dispatch_delay state wait texts

theorem step_delay (step : Step) :
    service.step (state.delay wait) step =
      ((service.step state step).1.delay wait, (service.step state step).2.delay wait) := by
  cases step with
  | request request =>
      simp only [Service.step, handle_delay, Outcome.delay, Report.delay, State.forget_delay,
        State.seen_delay]
  | pause milliseconds =>
      have later : (state.delay wait).now + milliseconds = state.now + milliseconds + wait :=
        Nat.add_right_comm _ _ _
      simp only [Service.step, later, State.advance_delay, Report.delay, State.forget_delay,
        State.seen_delay]

/-- Steps that come later are answered in the same way and let the provider receive the same, so
much later. -/
theorem run_delay (steps : List Step) :
    service.run (state.delay wait) steps = (service.run state steps).map (·.delay wait) := by
  induction steps generalizing state with
  | nil => rfl
  | cons step steps ih => simp only [run, step_delay, ih, List.map_cons]

end Service

end TextVectors
