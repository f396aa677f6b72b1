import Mathlib.Algebra.Order.BigOperators.Group.List
import Mathlib.Algebra.Order.Group.Nat
import TextVectors.Proofs.Service.Answers
import TextVectors.Proofs.Service.Sightings

/-!
# The limit of a request

A request has one limit for waiting and encoding together. It waits for the
first moment at which fewer permits are held than there are, and then hands over
its encode, which waits in turn for the first moment at which fewer encodes are
left than there are threads. The course so far decides which moments these are,
and with no more permits than threads they are the same. If the encode is over
before the limit, the request is answered with it; if not, it is given up exactly
at the limit.

Giving up a request does not touch an encode that has been handed over: it holds
its permit and gives out its batches up to its own end. If none has been handed
over by then, the request leaves nothing behind: all that follows is as if the
service had paused for as long as the limit.

With more permits than threads, encodes that outlast their requests may occupy
all threads while permits are left. A quick encode is then given up although it
has its permit at once: `given_up_for_want_of_thread`.
-/

namespace TextVectors

namespace Service

variable {σ : Type} {service : Service σ} {state : State}

/-- Whether an answer reports a problem under a status and a code. -/
def Answer.Reports (answer : Answer σ) (status : Nat) (code : String) : Prop :=
  answer.status = status ∧ ∃ text, answer.content = .problem ⟨text, code⟩

theorem reports_problemOfFault (fault : EncodeFault) :
    (Answer.ofProblem (problemOfFault fault) : Answer σ).Reports 500 "ENCODE_FAILED" := by
  cases fault <;> exact ⟨rfl, _, rfl⟩

theorem reports_timedOut (limit : Span) :
    (Answer.ofProblem (.timedOut limit) : Answer σ).Reports 504 "ENCODE_TIMEOUT" :=
  ⟨rfl, _, rfl⟩

/-! ## When an encode is handed over and taken up -/

/-- Encodes end, so that there is a vacancy at some time if there is anything to be had at all. -/
theorem exists_firstVacancy {count : Nat} (some_place : 0 < count) (tenures : List Tenure)
    (now : Nat) : ∃ first, FirstVacancy count tenures now first := by
  have empty : held tenures (now + (tenures.map (·.finish)).sum) = 0 := by
    rw [held, List.countP_eq_zero]
    intro tenure mem
    have ended : tenure.finish ≤ (tenures.map (·.finish)).sum :=
      List.le_sum_of_mem (List.mem_map_of_mem mem)
    simp only [Tenure.holdsAt, Bool.and_eq_true, decide_eq_true_eq, not_and, not_lt]
    omega
  have some_vacancy : ∃ time, now ≤ time ∧ held tenures time < count :=
    ⟨_, Nat.le_add_right _ _, by rwa [empty]⟩
  classical
  have first := Nat.find_spec some_vacancy
  refine ⟨Nat.find some_vacancy, first.1, first.2, ?_⟩
  intro time late early vacant
  exact Nat.find_min some_vacancy early ⟨late, vacant⟩

section Ledger

variable {tenures : List Tenure} (ledger : Ledger service.permits tenures state) {start : Nat}
  (vacancy : FirstVacancy service.permits tenures state.now start)

include ledger vacancy

theorem entry_of_firstVacancy (early : start ≤ service.deadline state) :
    service.entry state = some start := by
  refine (entry_eq_some_iff ledger.upToDate).mpr ⟨vacancy.late, early, ?_, ?_⟩
  · have conserved := ledger.free_add_held vacancy.late
    have vacant := vacancy.vacant
    omega
  · intro time late before
    have conserved := ledger.free_add_held late
    have full := vacancy.full_before time late before
    omega

theorem entry_of_late_firstVacancy (late : service.deadline state < start) :
    service.entry state = none := by
  refine (entry_eq_none_iff ledger.upToDate).mpr ?_
  intro time after_now before
  have conserved := ledger.free_add_held after_now
  have full := vacancy.full_before time after_now (before.trans_lt late)
  omega

theorem pickup_of_firstVacancy {pickup : Nat}
    (thread : FirstVacancy threads tenures start pickup) :
    (state.advance start).pickup = pickup :=
  (ledger.advance vacancy.late).firstVacancy_pickup.unique thread

end Ledger

/-! ## How a request is answered -/

variable {start : Nat} {texts : List String}

/-- A request whose encode ends before the limit is answered with the vectors or the fault. -/
theorem dispatch_in_time (begins : service.entry state = some start)
    (in_time : (state.advance start).pickup + (service.encoder.encode texts).elapsed <
      service.deadline state) :
    (service.dispatch state texts).state.now =
        (state.advance start).pickup + (service.encoder.encode texts).elapsed ∧
      ((∃ vectors, (service.encoder.encode texts).outcome = .ok vectors ∧
          (service.dispatch state texts).answer = service.vectorsAnswer vectors) ∨
        ∃ fault, (service.encoder.encode texts).outcome = .error fault ∧
          (service.dispatch state texts).answer = .ofProblem (problemOfFault fault)) := by
  rw [dispatch_of_entry begins, if_pos in_time]
  refine ⟨rfl, ?_⟩
  cases (service.encoder.encode texts).outcome with
  | ok vectors => exact .inl ⟨vectors, rfl, rfl⟩
  | error fault => exact .inr ⟨fault, rfl, ended_answer_of_error _ _ fault⟩

/-- A request whose encode is not handed over in time or does not end in time is given up. -/
theorem dispatch_too_late (late : ∀ start, service.entry state = some start →
      service.deadline state <
        (state.advance start).pickup + (service.encoder.encode texts).elapsed) :
    (service.dispatch state texts).state.now = service.deadline state ∧
      (service.dispatch state texts).answer = .ofProblem (.timedOut service.limit) := by
  cases begins : service.entry state with
  | none =>
      rw [dispatch_of_no_entry begins]
      exact ⟨rfl, rfl⟩
  | some start =>
      rw [dispatch_of_entry begins, if_neg (late start begins).le.not_gt]
      exact ⟨rfl, rfl⟩

/-- The first moments with a permit and a thread tell whether a request is given up. -/
theorem dispatch_of_late_firstVacancy {tenures : List Tenure} {pickup : Nat}
    (ledger : Ledger service.permits tenures state)
    (vacancy : FirstVacancy service.permits tenures state.now start)
    (thread : FirstVacancy threads tenures start pickup)
    (late : service.deadline state < pickup + (service.encoder.encode texts).elapsed) :
    (service.dispatch state texts).state.now = service.deadline state ∧
      (service.dispatch state texts).answer = .ofProblem (.timedOut service.limit) := by
  refine dispatch_too_late ?_
  intro begin begins
  by_cases early : start ≤ service.deadline state
  · rw [entry_of_firstVacancy ledger vacancy early, Option.some.injEq] at begins
    rwa [← begins, pickup_of_firstVacancy ledger vacancy thread]
  · rw [entry_of_late_firstVacancy ledger vacancy (not_le.mp early)] at begins
    cases begins

/-! ## What a request leaves behind -/

section HandedOver

variable {turns later : List (Turn σ)} {encoder : Encoder σ} {request : Request}

theorem begun_of_entry (wants : service.wanted request = some texts)
    (begins : service.entry state = some start) :
    service.begun state (.request request) =
      (service.encoder.encode texts).sightings (state.advance start).pickup := by
  simp [begun, wants, begins]

/-- Once the encode of a request is over, the provider has received all its batches, besides those
of the other encodes of the course. -/
theorem perm_seen_of_entry
    (wants : (service.meeting encoder).wanted request = some texts)
    (begins : (service.meeting encoder).entry
      (service.after (.initial service.permits) turns) = some start) :
    let course := turns ++ ⟨encoder, .request request⟩ :: later
    let final := service.after (.initial service.permits) course
    let next := service.after (.initial service.permits) (turns ++ [⟨encoder, .request request⟩])
    let pickup := ((service.after (.initial service.permits) turns).advance start).pickup
    pickup + (encoder.encode texts).elapsed ≤ final.now →
      (service.seen (.initial service.permits) course).Perm
        ((encoder.encode texts).sightings pickup ++
          (service.batches (.initial service.permits) turns ++
            service.batches next later).filter (·.time ≤ final.now)) := by
  intro course final next pickup ended
  have told : (service.seen (.initial service.permits) course).Perm
      ((service.batches (.initial service.permits) course).filter (·.time ≤ final.now)) :=
    perm_seen (Ledger.initial service.permits) rfl course
  have mine : (service.meeting encoder).begun (service.after (.initial service.permits) turns)
      (.request request) = (encoder.encode texts).sightings pickup := begun_of_entry wants begins
  have after_mine : next = ((service.meeting encoder).step
      (service.after (.initial service.permits) turns) (.request request)).1 := by
    simp only [next, after_append]
    rfl
  have all : service.batches (.initial service.permits) course =
      service.batches (.initial service.permits) turns ++
        ((encoder.encode texts).sightings pickup ++ service.batches next later) := by
    simp only [course, batches_append, batches, mine, after_mine]
  have whole : ((encoder.encode texts).sightings pickup).filter (·.time ≤ final.now) =
      (encoder.encode texts).sightings pickup := by
    rw [List.filter_eq_self]
    intro sighting mem
    rw [decide_eq_true_eq]
    exact (encoder.time_le_of_mem_sightings mem).trans ended
  rw [all, List.filter_append, List.filter_append, whole] at told
  rw [List.filter_append]
  exact told.trans (List.perm_append_comm_assoc _ _ _)

/-- A request whose encode is not handed over in time leaves behind what a pause leaves behind. -/
theorem step_of_no_entry (wants : service.wanted request = some texts)
    (never : service.entry state = none) :
    (service.step state (.request request)).1 =
        (service.step state (.pause service.limit.milliseconds)).1 ∧
      (service.step state (.request request)).2.seen =
        (service.step state (.pause service.limit.milliseconds)).2.seen := by
  have waited : (service.handle state request).state = state.advance (service.deadline state) := by
    rw [handle_of_wanted wants, dispatch_of_no_entry never]
    rfl
  constructor
  · simp only [step, waited, deadline]
  · simp only [step, waited, deadline]

/-- So all that follows is what would follow a pause. -/
theorem after_no_entry (wants : (service.meeting encoder).wanted request = some texts)
    (never : (service.meeting encoder).entry state = none) :
    let turn : Turn σ := ⟨encoder, .request request⟩
    let pause : Turn σ := ⟨encoder, .pause service.limit.milliseconds⟩
    service.after state (turn :: later) = service.after state (pause :: later) ∧
      service.tenures state (turn :: later) = service.tenures state (pause :: later) ∧
      service.seen state (turn :: later) = service.seen state (pause :: later) := by
  intro turn pause
  rcases step_of_no_entry wants never with ⟨same, same_seen⟩
  have none_begins : (service.meeting encoder).tenure? state (.request request) = none := by
    rw [tenure?_request wants, never]
    rfl
  refine ⟨?_, ?_, ?_⟩
  · exact congrArg (service.after · later) same
  · rw [Service.tenures, Service.tenures, none_begins, same]
    rfl
  · rw [seen, seen, same, same_seen]
    rfl

end HandedOver

/-! ## Threads that nobody waits for -/

section Abandoned

variable {encoder : Encoder σ} {request : Request} {tenures : List Tenure}

/-- A request that finds a permit and a thread as it comes is given up if its encode outlasts the
limit. -/
theorem tenures_of_slow (ledger : Ledger service.permits tenures state)
    (wants : (service.meeting encoder).wanted request = some texts)
    (permit : held tenures state.now < service.permits) (thread : held tenures state.now < threads)
    (slow : service.limit.milliseconds < (encoder.encode texts).elapsed) :
    let turn : Turn σ := ⟨encoder, .request request⟩
    (service.after state [turn]).now = state.now + service.limit.milliseconds ∧
      service.tenures state [turn] =
        [⟨state.now, state.now, state.now + (encoder.encode texts).elapsed⟩] := by
  intro turn
  have met : Ledger (service.meeting encoder).permits tenures state := ledger
  have vacancy : FirstVacancy service.permits tenures state.now state.now := .of_vacant permit
  constructor
  · have late := Nat.add_lt_add_left slow state.now
    have given_up := (dispatch_of_late_firstVacancy met vacancy (.of_vacant thread) late).1
    rw [← handle_of_wanted wants] at given_up
    exact given_up
  · rw [tenures_singleton, tenure?_request wants,
      entry_of_firstVacancy met vacancy (Nat.le_add_right _ _), Option.map_some, State.tenure,
      pickup_of_firstVacancy met vacancy (.of_vacant thread)]
    rfl

/-- Requests whose encodes outlast the limit come one after another, each when the one before is
given up. As long as there are permits and threads for them, their encodes begin as they come. -/
theorem tenures_replicate (wants : (service.meeting encoder).wanted request = some texts)
    (slow : service.limit.milliseconds < (encoder.encode texts).elapsed) {count : Nat}
    (permitted : count ≤ service.permits) (threaded : count ≤ threads) :
    let turns : List (Turn σ) := List.replicate count ⟨encoder, .request request⟩
    (service.after (.initial service.permits) turns).now = count * service.limit.milliseconds ∧
      service.tenures (.initial service.permits) turns =
        (List.range count).map fun place =>
          let came := place * service.limit.milliseconds
          ⟨came, came, came + (encoder.encode texts).elapsed⟩ := by
  induction count with
  | zero => simp [after, Service.tenures, State.initial]
  | succ count ih =>
      intro turns
      let before : List (Turn σ) := List.replicate count ⟨encoder, .request request⟩
      rcases ih (Nat.le_of_succ_le permitted) (Nat.le_of_succ_le threaded) with ⟨now, earlier⟩
      have ledger := (Ledger.initial service.permits).after before
      have few : held (service.tenures (.initial service.permits) before)
          (service.after (.initial service.permits) before).now ≤ count := by
        refine List.countP_le_length.trans_eq ?_
        rw [earlier, List.length_map, List.length_range]
      rcases tenures_of_slow ledger wants (few.trans_lt permitted) (few.trans_lt threaded) slow with
        ⟨next, new⟩
      have last : turns = before ++ [⟨encoder, .request request⟩] := List.replicate_succ'
      rw [last, after_append, tenures_append, next, new, now, earlier, List.range_succ,
        List.map_append, Nat.succ_mul]
      exact ⟨rfl, rfl⟩

/-- All of them hold their permits until the first of their encodes ends. -/
theorem held_replicate (wants : (service.meeting encoder).wanted request = some texts)
    (slow : service.limit.milliseconds < (encoder.encode texts).elapsed) {count time : Nat}
    (permitted : count ≤ service.permits) (threaded : count ≤ threads)
    (late : count * service.limit.milliseconds ≤ time)
    (early : time < (encoder.encode texts).elapsed) :
    held (service.tenures (.initial service.permits)
      (List.replicate count ⟨encoder, .request request⟩ : List (Turn σ))) time = count := by
  rw [(tenures_replicate wants slow permitted threaded).2, held, List.countP_eq_length.mpr,
    List.length_map, List.length_range]
  intro tenure mem
  rcases List.mem_map.mp mem with ⟨place, within, rfl⟩
  have before := Nat.mul_le_mul_right service.limit.milliseconds (List.mem_range.mp within).le
  simp only [Tenure.holdsAt, Bool.and_eq_true, decide_eq_true_eq]
  omega

/-- If there are more permits than threads, as many slow encodes as there are threads can outlast
their requests. Whatever comes next finds a permit at once, and is given up for want of a thread. -/
theorem given_up_for_want_of_thread (wants : (service.meeting encoder).wanted request = some texts)
    {count : Nat} (as_many : count = threads) (more : count < service.permits)
    (slow : count * service.limit.milliseconds + service.limit.milliseconds <
      (encoder.encode texts).elapsed) :
    let turns : List (Turn σ) := List.replicate count ⟨encoder, .request request⟩
    let state := service.after (.initial service.permits) turns
    FirstVacancy service.permits (service.tenures (.initial service.permits) turns) state.now
        state.now ∧
      ∀ next texts, service.wanted next = some texts →
        (service.handle state next).state.now = service.deadline state ∧
          (service.handle state next).answer = .ofProblem (.timedOut service.limit) := by
  intro turns state
  have outlasts : service.limit.milliseconds < (encoder.encode texts).elapsed :=
    (Nat.le_add_left _ _).trans_lt slow
  have now : state.now = count * service.limit.milliseconds :=
    (tenures_replicate wants outlasts more.le as_many.le).1
  have crowded {time : Nat} (late : state.now ≤ time)
      (early : time < (encoder.encode texts).elapsed) :
      held (service.tenures (.initial service.permits) turns) time = count :=
    held_replicate wants outlasts more.le as_many.le (now.ge.trans late) early
  have early : state.now < (encoder.encode texts).elapsed := by omega
  have vacancy : FirstVacancy service.permits (service.tenures (.initial service.permits) turns)
      state.now state.now := .of_vacant (by rwa [crowded le_rfl early])
  refine ⟨vacancy, ?_⟩
  intro next wanted_texts wanted_next
  have ledger : Ledger service.permits (service.tenures (.initial service.permits) turns) state :=
    (Ledger.initial service.permits).after turns
  rcases exists_firstVacancy threads_pos (service.tenures (.initial service.permits) turns)
    state.now with ⟨pickup, thread⟩
  have waits : (encoder.encode texts).elapsed ≤ pickup := by
    by_contra taken
    have full := crowded thread.late (not_le.mp taken)
    exact absurd thread.vacant (full.trans as_many).not_lt
  rw [handle_of_wanted wanted_next]
  refine dispatch_of_late_firstVacancy ledger vacancy thread ?_
  rw [deadline]
  omega

end Abandoned

/-! ## Main result -/

/-- The limit covers waiting and encoding together, after any course. Let `start` be the first
moment at which fewer permits are held than there are; there is one if there is a permit at all.
Let `pickup` be the first moment from then on at which fewer encodes than threads are left of those
handed over before; with no more permits than threads, this is `start` itself. A request whose
encode can end before the limit if it begins at `pickup` is answered when it ends, with its vectors
or with its fault; if it cannot, the request is given up at the limit. If there is a permit before
the limit, the encode holds it from `start` up to its own end, begins at `pickup`, and the provider
receives all its batches. If there is none, the request leaves behind what a pause would. -/
theorem limit_covers_waiting_and_encoding (service : Service σ) (turns : List (Turn σ))
    (encoder : Encoder σ) {request : Request} {texts : List String}
    (path : request.path = "/embeddings") (method : request.method = "POST")
    (accepted : service.readTexts request = .ok texts) (filled : texts ≠ []) :
    let initial := State.initial service.permits
    let state := service.after initial turns
    let tenures := service.tenures initial turns
    let turn : Turn σ := ⟨encoder, .request request⟩
    let outcome := (service.meeting encoder).handle state request
    let run := encoder.encode texts
    let deadline := state.now + service.limit.milliseconds
    (0 < service.permits → ∃ start, FirstVacancy service.permits tenures state.now start) ∧
      (∀ start, ∃ pickup, FirstVacancy threads tenures start pickup) ∧
      ∀ start pickup, FirstVacancy service.permits tenures state.now start →
        FirstVacancy threads tenures start pickup →
          (service.permits ≤ threads → pickup = start) ∧
          (pickup + run.elapsed < deadline →
            outcome.state.now = pickup + run.elapsed ∧
              ((∃ vectors, run.outcome = .ok vectors ∧ outcome.answer.status = 200 ∧
                  outcome.answer.content =
                    .embeddings (.ofVectors vectors encoder.modelId)) ∨
                ∃ fault, run.outcome = .error fault ∧
                  outcome.answer = .ofProblem (problemOfFault fault) ∧
                  outcome.answer.Reports 500 "ENCODE_FAILED")) ∧
          (deadline < pickup + run.elapsed →
            outcome.state.now = deadline ∧
              outcome.answer = .ofProblem (.timedOut service.limit) ∧
              outcome.answer.Reports 504 "ENCODE_TIMEOUT") ∧
          (start < deadline →
            let tenure : Tenure := ⟨start, pickup, pickup + run.elapsed⟩
            service.tenures initial (turns ++ [turn]) = tenures ++ [tenure] ∧
              (∀ time, outcome.state.now ≤ time →
                (outcome.state.advance time).free + held (tenures ++ [tenure]) time =
                  service.permits) ∧
              ∀ later,
                let final := service.after initial (turns ++ turn :: later)
                let next := service.after initial (turns ++ [turn])
                pickup + run.elapsed ≤ final.now →
                  (service.seen initial (turns ++ turn :: later)).Perm
                    (run.sightings pickup ++
                      (service.batches initial turns ++ service.batches next later).filter
                        (·.time ≤ final.now))) ∧
          (deadline < start → ∀ later,
            let pause : Turn σ := ⟨encoder, .pause service.limit.milliseconds⟩
            service.after initial (turns ++ turn :: later) =
                service.after initial (turns ++ pause :: later) ∧
              service.tenures initial (turns ++ turn :: later) =
                service.tenures initial (turns ++ pause :: later) ∧
              service.seen initial (turns ++ turn :: later) =
                service.seen initial (turns ++ pause :: later)) := by
  intro initial state tenures turn outcome run deadline
  have ledger : Ledger service.permits tenures state := (Ledger.initial service.permits).after turns
  have met : Ledger (service.meeting encoder).permits tenures state := ledger
  have wants : (service.meeting encoder).wanted request = some texts :=
    wanted_eq_some_iff.mpr ⟨path, method, accepted, filled⟩
  have dispatched : outcome = (service.meeting encoder).dispatch state texts :=
    handle_of_wanted wants state
  refine ⟨fun some_permit => exists_firstVacancy some_permit tenures state.now,
    fun start => exists_firstVacancy threads_pos tenures start, ?_⟩
  intro start pickup vacancy thread
  have picked := pickup_of_firstVacancy met vacancy thread
  refine ⟨?_, ?_, ?_, ?_, ?_⟩
  · intro enough
    exact thread.unique (.of_vacant (vacancy.vacant.trans_le enough))
  · intro in_time
    have early : start ≤ deadline :=
      thread.late.trans ((Nat.le_add_right _ _).trans in_time.le)
    have begins := entry_of_firstVacancy met vacancy early
    rw [← picked] at in_time ⊢
    rcases dispatch_in_time begins in_time with
      ⟨ends, ⟨vectors, succeeded, answered⟩ | ⟨fault, failed, answered⟩⟩
    · rw [dispatched, answered]
      exact ⟨ends, .inl ⟨vectors, succeeded, rfl, rfl⟩⟩
    · rw [dispatched, answered]
      exact ⟨ends, .inr ⟨fault, failed, rfl, reports_problemOfFault fault⟩⟩
  · intro late
    rcases dispatch_of_late_firstVacancy met vacancy thread late with ⟨given_up, answered⟩
    rw [dispatched, answered]
    exact ⟨given_up, rfl, reports_timedOut _⟩
  · intro early tenure
    have begins := entry_of_firstVacancy met vacancy early.le
    have mine : (service.meeting encoder).tenure? state (.request request) = some tenure := by
      rw [tenure?_request wants, begins, Option.map_some, State.tenure, picked]
      rfl
    have handled := met.handle request
    rw [mine, Option.toList_some] at handled
    refine ⟨?_, ?_, ?_⟩
    · rw [tenures_append, tenures_singleton]
      exact congrArg (tenures ++ ·) (congrArg Option.toList mine)
    · intro time later
      exact handled.free_add_held later
    · intro later
      rw [← picked]
      exact perm_seen_of_entry wants begins
  · intro late later pause
    have never := entry_of_late_firstVacancy met vacancy late
    rcases after_no_entry wants never with ⟨same, same_tenures, same_seen⟩
    refine ⟨?_, ?_, ?_⟩
    · rw [after_append, after_append]
      exact same
    · rw [tenures_append, tenures_append]
      exact congrArg (tenures ++ ·) same_tenures
    · rw [seen_append, seen_append]
      exact congrArg (service.seen initial turns ++ ·) same_seen

/-- A request waits for the end of another one, which has been given up by then, and is answered
in time. -/
theorem limit_covers_waiting_and_encoding_sample :
    let encoder (elapsed : Nat) : Encoder Nat :=
      ⟨"sample", ⟨1, fun texts => ⟨.ok (texts.map fun _ => [1]), elapsed⟩⟩, 1, .ok⟩
    let service : Service Nat := ⟨encoder 20, 1, ⟨100⟩, 64⟩
    let request : Request :=
      ⟨"POST", "/embeddings", [("content-type", "application/json".toUTF8.toList)],
        "\x7b\"input\":[\"a\"]\x7d".toUTF8.toList⟩
    let turns : List (Turn Nat) := [⟨encoder 150, .request request⟩]
    let tenures := service.tenures (.initial 1) turns
    let state := service.after (.initial 1) turns
    let outcome := service.handle state request
    request.path = "/embeddings" ∧ service.readTexts request = .ok ["a"] ∧ state.now = 100 ∧
      FirstVacancy 1 tenures 100 150 ∧ FirstVacancy threads tenures 150 150 ∧
      outcome.state.now = 170 ∧ outcome.answer.status = 200 := by
  intro encoder service request turns tenures state outcome
  have path : request.path = "/embeddings" := by decide +kernel
  have accepted : service.readTexts request = .ok ["a"] := by decide +kernel
  have now : state.now = 100 := by decide +kernel
  have earlier : tenures = [⟨0, 0, 150⟩] := by decide +kernel
  have vacancy : FirstVacancy 1 tenures 100 150 := by
    rw [earlier]
    refine ⟨by decide, by decide, ?_⟩
    intro time _ early
    rw [held_singleton, if_pos ⟨Nat.zero_le _, early⟩]
    exact lt_irrefl 1
  have thread : FirstVacancy threads tenures 150 150 := .of_vacant (by rw [earlier]; decide)
  have elapsed : ((encoder 20).encode ["a"]).elapsed = 20 := by decide +kernel
  have encoded : ((encoder 20).encode ["a"]).outcome = .ok [[1]] := by decide +kernel
  have result := limit_covers_waiting_and_encoding service turns (encoder 20) path rfl accepted
    (by simp)
  rcases (result.2.2 150 150 (by rw [now]; exact vacancy) thread).2.1
      (by rw [elapsed, now]; decide) with
    ⟨answered, ⟨_, _, good, _⟩ | ⟨fault, failed, _⟩⟩
  · refine ⟨path, accepted, now, vacancy, thread, ?_, good⟩
    rw [elapsed] at answered
    exact answered
  · rw [encoded] at failed
    cases failed

/-- With one permit more than there are threads, as many slow encodes as there are threads outlast
their requests. The next request finds a permit as it comes, its encode takes no time, and yet it is
given up at the limit. -/
theorem quick_encode_given_up :
    let encoder (elapsed : Nat) : Encoder Nat :=
      ⟨"sample", ⟨1, fun texts => ⟨.ok (texts.map fun _ => [1]), elapsed⟩⟩, 1, .ok⟩
    let service : Service Nat := ⟨encoder 0, 513, ⟨3⟩, 64⟩
    let request : Request :=
      ⟨"POST", "/embeddings", [("content-type", "application/json".toUTF8.toList)],
        "\x7b\"input\":[\"a\"]\x7d".toUTF8.toList⟩
    let turns : List (Turn Nat) := List.replicate 512 ⟨encoder 5000, .request request⟩
    let state := service.after (.initial 513) turns
    let run := (encoder 0).encode ["a"]
    service.readTexts request = .ok ["a"] ∧ run.outcome = .ok [[1]] ∧
      FirstVacancy 513 (service.tenures (.initial 513) turns) state.now state.now ∧
      state.now + run.elapsed < state.now + service.limit.milliseconds ∧
      (service.handle state request).state.now = state.now + service.limit.milliseconds ∧
      (service.handle state request).answer.Reports 504 "ENCODE_TIMEOUT" := by
  intro encoder service request turns state run
  have path : request.path = "/embeddings" := by decide +kernel
  have accepted : service.readTexts request = .ok ["a"] := by decide +kernel
  have encoded : run.outcome = .ok [[1]] := by decide +kernel
  have at_once : run.elapsed = 0 := by decide +kernel
  have slow : ((encoder 5000).encode ["a"]).elapsed = 5000 := by decide +kernel
  have wants (elapsed : Nat) : (service.meeting (encoder elapsed)).wanted request = some ["a"] :=
    wanted_eq_some_iff.mpr ⟨path, rfl, accepted, by simp⟩
  have outlasts : 512 * service.limit.milliseconds + service.limit.milliseconds <
      ((encoder 5000).encode ["a"]).elapsed := by
    rw [slow]
    decide
  have as_many : 512 = threads := rfl
  rcases given_up_for_want_of_thread (wants 5000) as_many (by decide) outlasts with
    ⟨vacancy, given_up⟩
  rcases given_up request ["a"] (wants 0) with ⟨ends, answered⟩
  refine ⟨accepted, encoded, vacancy, ?_, ends, ?_⟩
  · rw [at_once]
    exact Nat.add_lt_add_left (by decide) _
  · rw [answered]
    exact reports_timedOut _

end Service

end TextVectors
