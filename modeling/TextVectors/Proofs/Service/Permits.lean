import Mathlib.Data.List.Perm.Basic
import TextVectors.Proofs.Service.Time

/-!
# Conservation of permits

Every encode holds one permit from the moment at which it is handed over to the
threads up to its end. The `Tenure`s of the encodes that have been handed over
in the course of a service say at each time how many permits are held, and the
state of the service agrees with them: its permits that are not free are those
of the encodes that have been handed over and not ended.

The tenures also say how many of these encodes a thread works on. No thread is
idle while an encode waits for one, so that these are all of them, or as many as
there are threads.

The invariant is the `Ledger`. Letting time pass keeps it, and so does handing
over an encode while a permit is free. A turn does nothing else to a state, so
the ledger is right after any course.
-/

namespace TextVectors

namespace Service

/-- The time for which an encode holds a permit: from the moment at which it is handed over up to
its end, which is no part of it. A thread takes it up in between. -/
structure Tenure where
  start : Nat
  pickup : Nat
  finish : Nat
  deriving DecidableEq, Repr

/-- Whether a permit is held at a time. -/
def Tenure.holdsAt (tenure : Tenure) (time : Nat) : Bool :=
  tenure.start ≤ time && time < tenure.finish

/-- Whether a thread works at a time. -/
def Tenure.worksAt (tenure : Tenure) (time : Nat) : Bool :=
  tenure.pickup ≤ time && time < tenure.finish

/-- The number of permits that are held at a time. -/
def held (tenures : List Tenure) (time : Nat) : Nat :=
  tenures.countP (·.holdsAt time)

/-- The number of threads that work at a time. -/
def working (tenures : List Tenure) (time : Nat) : Nat :=
  tenures.countP (·.worksAt time)

/-- The first moment, from a time on, at which fewer than so many permits are held. -/
structure FirstVacancy (count : Nat) (tenures : List Tenure) (now first : Nat) : Prop where
  late : now ≤ first
  vacant : held tenures first < count
  full_before : ∀ time, now ≤ time → time < first → ¬held tenures time < count

/-- The tenure of an encode that is handed over now. -/
def State.tenure (state : State) (elapsed : Nat) : Tenure :=
  ⟨state.now, state.pickup, state.pickup + elapsed⟩

variable {σ : Type}

/-- The tenure of the encode that is handed over in a step, if one is. -/
def tenure? (service : Service σ) (state : State) : Step → Option Tenure
  | .pause _ => none
  | .request request =>
    (service.wanted request).bind fun texts =>
      (service.entry state).map fun start =>
        (state.advance start).tenure (service.encoder.encode texts).elapsed

/-- The tenures of all encodes that are handed over in some turns. -/
def tenures (service : Service σ) : State → List (Turn σ) → List Tenure
  | _, [] => []
  | state, turn :: turns =>
    let met := service.meeting turn.encoder
    (met.tenure? state turn.step).toList ++
      service.tenures (met.step state turn.step).1 turns

theorem tenures_append (service : Service σ) (state : State) (turns later : List (Turn σ)) :
    service.tenures state (turns ++ later) =
      service.tenures state turns ++ service.tenures (service.after state turns) later := by
  induction turns generalizing state with
  | nil => rfl
  | cons turn turns ih => simp only [List.cons_append, tenures, after, ih, List.append_assoc]

theorem tenures_singleton (service : Service σ) (state : State) (turn : Turn σ) :
    service.tenures state [turn] =
      ((service.meeting turn.encoder).tenure? state turn.step).toList := by
  simp only [tenures, List.append_nil]

theorem held_append (first second : List Tenure) (time : Nat) :
    held (first ++ second) time = held first time + held second time :=
  List.countP_append

theorem held_singleton (tenure : Tenure) (time : Nat) :
    held [tenure] time = if tenure.start ≤ time ∧ time < tenure.finish then 1 else 0 := by
  simp [held, Tenure.holdsAt]

theorem working_append (first second : List Tenure) (time : Nat) :
    working (first ++ second) time = working first time + working second time :=
  List.countP_append

theorem working_singleton (tenure : Tenure) (time : Nat) :
    working [tenure] time = if tenure.pickup ≤ time ∧ time < tenure.finish then 1 else 0 := by
  simp [working, Tenure.worksAt]

namespace FirstVacancy

variable {count now first : Nat} {tenures : List Tenure}

theorem of_vacant (vacant : held tenures now < count) : FirstVacancy count tenures now now :=
  ⟨le_rfl, vacant, fun _ late early => absurd early late.not_gt⟩

theorem unique {second : Nat} (vacancy : FirstVacancy count tenures now first)
    (other : FirstVacancy count tenures now second) : first = second := by
  rcases lt_trichotomy first second with before | same | behind
  · exact absurd vacancy.vacant (other.full_before first vacancy.late before)
  · exact same
  · exact absurd other.vacant (vacancy.full_before second other.late behind)

end FirstVacancy

/-! ## The ledger -/

/-- What the tenures so far have to do with the state. -/
structure Ledger (permits : Nat) (tenures : List Tenure) (state : State) : Prop where
  running : state.running.Perm ((tenures.filter (·.holdsAt state.now)).map (·.finish))
  begun : ∀ tenure ∈ tenures, tenure.start ≤ state.now
  conserved : state.free + state.running.length = permits
  bounded : ∀ time, held tenures time ≤ permits
  served : ∀ time, working tenures time = min threads (held tenures time)

namespace Ledger

variable {permits : Nat} {tenures : List Tenure} {state : State}

theorem initial (permits : Nat) : Ledger permits [] (.initial permits) where
  running := .nil
  begun := by simp
  conserved := rfl
  bounded _ := Nat.zero_le _
  served _ := (Nat.min_zero _).symm

theorem upToDate (ledger : Ledger permits tenures state) : state.UpToDate := by
  intro finish mem
  rcases List.mem_map.mp (ledger.running.subset mem) with ⟨tenure, holding, rfl⟩
  have holds := (List.mem_filter.mp holding).2
  simp only [Tenure.holdsAt, Bool.and_eq_true, decide_eq_true_eq] at holds
  exact holds.2

theorem length_running (ledger : Ledger permits tenures state) :
    state.running.length = held tenures state.now := by
  rw [ledger.running.length_eq, List.length_map, held, List.countP_eq_length_filter]

/-- Of the tenures that have begun, those that hold later are those that hold now and last. -/
theorem filter_holdsAt (ledger : Ledger permits tenures state) {time : Nat}
    (later : state.now ≤ time) :
    tenures.filter (·.holdsAt time) =
      (tenures.filter (·.holdsAt state.now)).filter (time < ·.finish) := by
  rw [List.filter_filter]
  apply List.filter_congr
  intro tenure mem
  have begun := ledger.begun tenure mem
  simp only [Tenure.holdsAt, begun, begun.trans later, decide_true, Bool.true_and]
  by_cases lasts : time < tenure.finish
  · simp [lasts, later.trans_lt lasts]
  · simp [lasts]

theorem running_advance (ledger : Ledger permits tenures state) {time : Nat}
    (later : state.now ≤ time) :
    (state.running.filter (time < ·)).Perm
      ((tenures.filter (·.holdsAt time)).map (·.finish)) := by
  rw [ledger.filter_holdsAt later]
  refine (ledger.running.filter _).trans ?_
  rw [List.filter_map]
  rfl

/-- Permits come back as time passes. -/
theorem advance (ledger : Ledger permits tenures state) {time : Nat} (later : state.now ≤ time) :
    Ledger permits tenures (state.advance time) where
  running := ledger.running_advance later
  begun tenure mem := (ledger.begun tenure mem).trans later
  conserved := by
    rw [State.free_add_length_running_advance]
    exact ledger.conserved
  bounded := ledger.bounded
  served := ledger.served

/-- The permits that are held later are those of the encodes under way that last until then. -/
theorem held_eq_countP (ledger : Ledger permits tenures state) {time : Nat}
    (later : state.now ≤ time) : held tenures time = state.running.countP (time < ·) := by
  rw [List.countP_eq_length_filter, (ledger.running_advance later).length_eq, List.length_map, held,
    List.countP_eq_length_filter]

theorem held_anti (ledger : Ledger permits tenures state) {first second : Nat}
    (late : state.now ≤ first) (later : first ≤ second) :
    held tenures second ≤ held tenures first := by
  rw [ledger.held_eq_countP late, ledger.held_eq_countP (late.trans later)]
  refine List.countP_mono_left ?_
  intro finish _ lasts
  rw [decide_eq_true_eq] at lasts ⊢
  exact later.trans_lt lasts

/-- The permits that are not held at a time are free by then. -/
theorem free_add_held (ledger : Ledger permits tenures state) {time : Nat}
    (later : state.now ≤ time) : (state.advance time).free + held tenures time = permits := by
  have advanced := ledger.advance later
  rw [← advanced.conserved, advanced.length_running]
  rfl

/-- A thread takes up an encode that is handed over now at the first moment at which there is one
for it. -/
theorem firstVacancy_pickup (ledger : Ledger permits tenures state) :
    FirstVacancy threads tenures state.now state.pickup where
  late := ledger.upToDate.now_le_pickup
  vacant := by
    rw [ledger.held_eq_countP ledger.upToDate.now_le_pickup]
    exact state.countP_pickup_lt
  full_before := by
    intro time late early
    rw [ledger.held_eq_countP late, not_lt]
    exact State.threads_le_countP late early

/-- An encode that is handed over takes a permit, and gives it back when it ends. The state in
between is skipped: an encode may end as it begins. -/
theorem begin (ledger : Ledger permits tenures state) (available : 0 < state.free)
    {elapsed time : Nat} {calls : List Call} (later : state.now ≤ time) :
    Ledger permits (tenures ++ [state.tenure elapsed])
      ((state.start elapsed calls).advance time) where
  running := by
    have others := ledger.running_advance later
    have holds : (state.tenure elapsed).holdsAt time =
        decide (time < state.pickup + elapsed) := by
      have started : (state.tenure elapsed).start ≤ time := later
      rw [Tenure.holdsAt, decide_eq_true started, Bool.true_and]
      rfl
    simp only [State.advance_running, State.advance_now, State.start, List.filter_append,
      List.map_append, List.filter_cons, List.filter_nil, holds]
    by_cases lasts : time < state.pickup + elapsed
    · simp only [lasts, decide_true, if_true, List.map_cons, List.map_nil]
      exact (others.cons _).trans (List.perm_append_singleton _ _).symm
    · simpa [lasts] using others
  begun := by
    intro tenure mem
    rcases List.mem_append.mp mem with earlier | new
    · exact (ledger.begun tenure earlier).trans later
    · rw [List.mem_singleton.mp new]
      exact later
  conserved := by
    rw [State.free_add_length_running_advance, State.free_add_length_running_start available]
    exact ledger.conserved
  bounded := by
    intro moment
    rw [held_append, held_singleton]
    by_cases holds : state.now ≤ moment ∧ moment < state.pickup + elapsed
    · -- Who holds a permit at this moment and was handed over before holds one already now.
      have others := ledger.held_anti le_rfl holds.1
      have conserved := ledger.conserved
      rw [ledger.length_running] at conserved
      rw [State.tenure, if_pos holds]
      omega
    · rw [State.tenure, if_neg holds]
      exact ledger.bounded moment
  served := by
    intro moment
    have before := ledger.served moment
    have vacancy := ledger.firstVacancy_pickup
    have late := vacancy.late
    rw [working_append, held_append, working_singleton, held_singleton, State.tenure]
    dsimp only
    by_cases waits : state.now ≤ moment ∧ moment < state.pickup
    · -- The encode waits, and all threads are at work.
      have busy := vacancy.full_before moment waits.1 waits.2
      rw [if_neg (by omega), if_pos (by omega)]
      omega
    · by_cases works : state.pickup ≤ moment ∧ moment < state.pickup + elapsed
      · -- A thread was left when the encode was taken up, and the others have only ended since.
        have others := ledger.held_anti late works.1
        have vacant := vacancy.vacant
        rw [if_pos works, if_pos (by omega)]
        omega
      · rw [if_neg works, if_neg (by omega)]
        exact before

end Ledger

/-! ## Requests -/

variable {service : Service σ} {state : State}

theorem tenure?_request {request : Request} {texts : List String}
    (wants : service.wanted request = some texts) :
    service.tenure? state (.request request) =
      (service.entry state).map fun start =>
        (state.advance start).tenure (service.encoder.encode texts).elapsed := by
  simp [tenure?, wants]

/-- What a dispatch does to the state if an encode is handed over. -/
theorem dispatch_state_of_entry {start : Nat} (begins : service.entry state = some start)
    (texts : List String) :
    let run := service.encoder.encode texts
    ∃ time, start ≤ time ∧
      (service.dispatch state texts).state =
        ((state.advance start).start run.elapsed run.calls).advance time := by
  intro run
  have picked : start ≤ (state.advance start).pickup :=
    (state.upToDate_advance start).now_le_pickup
  rw [dispatch_of_entry begins]
  by_cases intime : (state.advance start).pickup + run.elapsed < service.deadline state
  · rw [if_pos intime]
    exact ⟨(state.advance start).pickup + run.elapsed, picked.trans (Nat.le_add_right _ _), rfl⟩
  · rw [if_neg intime]
    have early : start ≤ service.deadline state := by
      have kept := (Option.filter_eq_some_iff.mp begins).2
      simpa using kept
    exact ⟨service.deadline state, early, rfl⟩

/-- The three things that a request may do to the state: nothing, let the time up to the deadline
pass, or hand over an encode at the first moment at which a permit is free. -/
theorem handle_state_cases (service : Service σ) (upToDate : state.UpToDate) (request : Request) :
    (service.tenure? state (.request request) = none ∧
        ((service.handle state request).state = state ∨
          (service.handle state request).state = state.advance (service.deadline state))) ∨
      ∃ start elapsed calls time,
        service.tenure? state (.request request) = some ((state.advance start).tenure elapsed) ∧
          state.now ≤ start ∧ 0 < (state.advance start).free ∧ start ≤ time ∧
          (service.handle state request).state =
            ((state.advance start).start elapsed calls).advance time := by
  cases wants : service.wanted request with
  | none =>
      rcases handle_of_unwanted wants with ⟨answer, events, same⟩
      exact .inl ⟨by simp [tenure?, wants], .inl (by rw [same])⟩
  | some texts =>
      rw [handle_of_wanted wants, tenure?_request wants]
      cases begins : service.entry state with
      | none =>
          exact .inl ⟨rfl, .inr (by rw [dispatch_of_no_entry begins]; rfl)⟩
      | some start =>
          rcases (entry_eq_some_iff upToDate).mp begins with ⟨late, _, available, _⟩
          rcases dispatch_state_of_entry begins texts with ⟨time, later, same⟩
          exact .inr ⟨start, _, _, time, rfl, late, available, later, same⟩

theorem Ledger.handle {tenures : List Tenure} (ledger : Ledger service.permits tenures state)
    (request : Request) :
    Ledger service.permits (tenures ++ (service.tenure? state (.request request)).toList)
      (service.handle state request).state := by
  rcases service.handle_state_cases ledger.upToDate request with
    ⟨nothing, unchanged | waited⟩ |
      ⟨start, elapsed, calls, answered, begins, late, available, early, same⟩
  · rw [nothing, unchanged, Option.toList_none, List.append_nil]
    exact ledger
  · rw [nothing, waited, Option.toList_none, List.append_nil]
    exact ledger.advance (Nat.le_add_right _ _)
  · rw [begins, same]
    exact (ledger.advance late).begin available early

/-- A request takes one permit from the moment at which its encode is handed over to the end of the
encode, and none if none is. Nothing else about the request counts. -/
theorem free_after_handle (service : Service σ) (upToDate : state.UpToDate) (request : Request)
    {time : Nat} (later : (service.handle state request).state.now ≤ time) :
    ((service.handle state request).state.advance time).free +
        held (service.tenure? state (.request request)).toList time =
      (state.advance time).free := by
  rcases service.handle_state_cases upToDate request with
    ⟨nothing, unchanged | waited⟩ |
      ⟨start, elapsed, calls, answered, begins, _, available, early, same⟩
  · rw [nothing, unchanged]
    rfl
  · rw [waited, State.advance_now] at later
    rw [nothing, waited, State.advance_advance later]
    rfl
  · rw [same, State.advance_now] at later
    have started : start ≤ time := early.trans later
    have fewer := State.free_advance_start available elapsed time calls
    rw [State.advance_advance started] at fewer
    rw [same, begins, State.advance_advance later, Option.toList_some, held_singleton, ← fewer]
    simp [State.tenure, started]

/-! ## Turns -/

theorem Ledger.forget {permits : Nat} {tenures : List Tenure}
    (ledger : Ledger permits tenures state) : Ledger permits tenures state.forget :=
  ⟨ledger.running, ledger.begun, ledger.conserved, ledger.bounded, ledger.served⟩

theorem Ledger.step {tenures : List Tenure} (ledger : Ledger service.permits tenures state)
    (step : Step) :
    Ledger service.permits (tenures ++ (service.tenure? state step).toList)
      (service.step state step).1 := by
  cases step with
  | request request => exact (ledger.handle request).forget
  | pause milliseconds =>
      rw [tenure?, Option.toList_none, List.append_nil]
      exact (ledger.advance (Nat.le_add_right _ _)).forget

/-- The ledger is right after any course. -/
theorem Ledger.after {tenures : List Tenure} (ledger : Ledger service.permits tenures state)
    (turns : List (Turn σ)) :
    Ledger service.permits (tenures ++ service.tenures state turns)
      (service.after state turns) := by
  induction turns generalizing tenures state with
  | nil => simpa [Service.tenures, Service.after] using ledger
  | cons turn turns ih =>
      have met : Ledger (service.meeting turn.encoder).permits tenures state := ledger
      have later := ih (met.step turn.step)
      rw [List.append_assoc] at later
      exact later

/-! ## Main results -/

/-- After any course, no thread is idle while an encode waits for one: threads work on all encodes
that hold a permit, or on as many as there are threads. -/
theorem working_eq_min (service : Service σ) (turns : List (Turn σ)) (time : Nat) :
    let tenures := service.tenures (.initial service.permits) turns
    working tenures time = min threads (held tenures time) :=
  ((Ledger.initial service.permits).after turns).served time

/-- Permits are conserved. After any course, the free permits and those of the encodes under way
make up all permits, and the encodes under way are those that have been handed over and not ended;
at no time are there more of them than permits. A request that comes then makes one permit fewer
available from the moment at which its encode is handed over until the encode ends, whatever becomes
of the encode and of the request; and none if no encode is handed over: because the request is not
for the encoder, or because no permit is free before it is given up. -/
theorem permits_conserved (service : Service σ) (turns : List (Turn σ)) :
    let state := service.after (.initial service.permits) turns
    let tenures := service.tenures (.initial service.permits) turns
    state.free + state.running.length = service.permits ∧
      state.running.length ≤ service.permits ∧
      state.running.Perm ((tenures.filter (·.holdsAt state.now)).map (·.finish)) ∧
      (∀ time, held tenures time ≤ service.permits) ∧
      ∀ encoder request,
        let met := service.meeting encoder
        let outcome := met.handle state request
        let tenure? := met.tenure? state (.request request)
        (∀ time, outcome.state.now ≤ time →
          (outcome.state.advance time).free + held tenure?.toList time =
            (state.advance time).free) ∧
          (met.wanted request = none → tenure? = none ∧ outcome.state = state) ∧
          ∀ texts, met.wanted request = some texts →
            (tenure? = none →
              outcome.answer.status = 504 ∧
                ∀ time, state.now ≤ time → time ≤ met.deadline state →
                  (state.advance time).free = 0) ∧
            ∀ tenure, tenure? = some tenure →
              state.now ≤ tenure.start ∧ tenure.start ≤ met.deadline state ∧
                0 < (state.advance tenure.start).free ∧
                FirstVacancy threads tenures tenure.start tenure.pickup ∧
                tenure.finish = tenure.pickup + (encoder.encode texts).elapsed := by
  intro state tenures
  have ledger : Ledger service.permits tenures state :=
    (Ledger.initial service.permits).after turns
  have conserved := ledger.conserved
  refine ⟨conserved, by omega, ledger.running, ledger.bounded, ?_⟩
  intro encoder request met outcome tenure?
  refine ⟨fun time later => met.free_after_handle ledger.upToDate request later, ?_, ?_⟩
  · intro unwanted
    rcases handle_of_unwanted unwanted with ⟨answer, events, same⟩
    exact ⟨by simp [tenure?, Service.tenure?, unwanted], by simp only [outcome, same]⟩
  · intro texts wants
    have tenure?_eq : tenure? = (met.entry state).map fun start =>
        (state.advance start).tenure (encoder.encode texts).elapsed := tenure?_request wants
    constructor
    · intro none_begins
      have never : met.entry state = none := by
        rwa [tenure?_eq, Option.map_eq_none_iff] at none_begins
      refine ⟨?_, (entry_eq_none_iff ledger.upToDate).mp never⟩
      simp only [outcome, handle_of_wanted wants, dispatch_of_no_entry never]
      rfl
    · intro tenure begins
      rw [tenure?_eq, Option.map_eq_some_iff] at begins
      rcases begins with ⟨start, entered, rfl⟩
      rcases (entry_eq_some_iff ledger.upToDate).mp entered with ⟨late, early, available, _⟩
      exact ⟨late, early, available, (ledger.advance late).firstVacancy_pickup, rfl⟩

end Service

end TextVectors
