import TextVectors.Proofs.Encoder.Outcome
import TextVectors.Proofs.Service.Permits

/-!
# What the provider receives

An encode that has been handed over gives its batches to the provider at fixed
distances from the moment at which a thread takes it up, also when nobody waits
for it any more. A service tells of them bit by bit: each step tells of those
whose time has come. Put together, the steps of a course tell of the batches of
all encodes that have been handed over, each of them once, as far as their time
has come: `perm_seen`.
-/

namespace TextVectors

variable {σ : Type}

/-- The batches of a run that begins at a time. -/
def Run.sightings (run : Run σ) (start : Nat) : List Service.Sighting :=
  run.calls.map fun call => ⟨start + call.after, call.texts⟩

namespace Encoder

variable (encoder : Encoder σ)

theorem after_le_elapsed_encodeFrom {number : Nat} {batches : List (List String)} {call : Call}
    (mem : call ∈ (encoder.encodeFrom number batches).calls) :
    call.after ≤ (encoder.encodeFrom number batches).elapsed := by
  induction batches generalizing number call with
  | nil => simp [encodeFrom] at mem
  | cons batch rest ih =>
      cases first : encoder.encodeChunk (number * encoder.chunkSize) batch with
      | error fault =>
          rw [encoder.encodeFrom_cons_of_error rest first] at mem ⊢
          rw [List.mem_singleton.mp mem]
          exact Nat.zero_le _
      | ok piece =>
          rw [encoder.encodeFrom_cons_of_ok rest first] at mem ⊢
          rcases List.mem_cons.mp mem with rfl | shifted
          · exact Nat.zero_le _
          · rcases List.mem_map.mp shifted with ⟨later, laterMem, rfl⟩
            exact Nat.add_le_add_left (ih laterMem) _

/-- A run hands out its batches before it ends. -/
theorem time_le_of_mem_sightings {texts : List String} {start : Nat} {sighting : Service.Sighting}
    (mem : sighting ∈ (encoder.encode texts).sightings start) :
    sighting.time ≤ start + (encoder.encode texts).elapsed := by
  rcases List.mem_map.mp mem with ⟨call, callMem, rfl⟩
  exact Nat.add_le_add_left (encoder.after_le_elapsed_encodeFrom callMem) _

end Encoder

namespace Service

/-- The batches of the encode that is handed over in a step, if one is. -/
def begun (service : Service σ) (state : State) : Step → List Sighting
  | .pause _ => []
  | .request request =>
    match service.wanted request with
    | none => []
    | some texts =>
      ((service.entry state).map fun start =>
        (service.encoder.encode texts).sightings (state.advance start).pickup).getD []

/-- The batches of all encodes that are handed over in some turns. -/
def batches (service : Service σ) : State → List (Turn σ) → List Sighting
  | _, [] => []
  | state, turn :: turns =>
    let met := service.meeting turn.encoder
    met.begun state turn.step ++ service.batches (met.step state turn.step).1 turns

/-- The batches that the provider is told to have received in some turns. -/
def seen (service : Service σ) : State → List (Turn σ) → List Sighting
  | _, [] => []
  | state, turn :: turns =>
    let met := service.meeting turn.encoder
    (met.step state turn.step).2.seen ++ service.seen (met.step state turn.step).1 turns

theorem batches_append (service : Service σ) (state : State) (turns later : List (Turn σ)) :
    service.batches state (turns ++ later) =
      service.batches state turns ++ service.batches (service.after state turns) later := by
  induction turns generalizing state with
  | nil => rfl
  | cons turn turns ih => simp only [List.cons_append, batches, after, ih, List.append_assoc]

theorem seen_append (service : Service σ) (state : State) (turns later : List (Turn σ)) :
    service.seen state (turns ++ later) =
      service.seen state turns ++ service.seen (service.after state turns) later := by
  induction turns generalizing state with
  | nil => rfl
  | cons turn turns ih => simp only [List.cons_append, seen, after, ih, List.append_assoc]

variable {service : Service σ} {state : State}

/-! ## Requests -/

theorem upcoming_handle (service : Service σ) (state : State) (request : Request) :
    (service.handle state request).state.upcoming =
      state.upcoming ++ service.begun state (.request request) := by
  cases wants : service.wanted request with
  | none =>
      rcases handle_of_unwanted wants with ⟨answer, events, same⟩
      simp [same, begun, wants]
  | some texts =>
      rw [handle_of_wanted wants]
      cases begins : service.entry state with
      | none =>
          rw [dispatch_of_no_entry begins]
          simp [expired, State.advance, begun, wants, begins]
      | some start =>
          rcases dispatch_state_of_entry begins texts with ⟨time, _, same⟩
          simp [same, State.advance, State.start, begun, wants, begins, Run.sightings]

theorem now_le_now_handle (upToDate : state.UpToDate) (request : Request) :
    state.now ≤ (service.handle state request).state.now := by
  rcases service.handle_state_cases upToDate request with
    ⟨_, unchanged | waited⟩ | ⟨start, elapsed, calls, answered, _, late, _, early, same⟩
  · rw [unchanged]
  · rw [waited]
    exact Nat.le_add_right _ _
  · rw [same]
    exact late.trans early

/-! ## Steps -/

/-- The state of a step before the provider's batches up to then have been told. -/
theorem exists_state_step (service : Service σ) (upToDate : state.UpToDate) (step : Step) :
    ∃ reached : State, state.now ≤ reached.now ∧
      reached.upcoming = state.upcoming ++ service.begun state step ∧
      (service.step state step).1 = reached.forget ∧
      (service.step state step).2.seen = reached.seen := by
  cases step with
  | request request =>
      exact ⟨_, now_le_now_handle upToDate request, service.upcoming_handle state request, rfl, rfl⟩
  | pause milliseconds =>
      exact ⟨state.advance (state.now + milliseconds), Nat.le_add_right _ _,
        (List.append_nil _).symm, rfl, rfl⟩

/-- What is told at one time and what is told of the rest later are all that is told by then. -/
theorem perm_seen_append_filter {reached : State} {time : Nat} (later : reached.now ≤ time) :
    (reached.seen ++ reached.forget.upcoming.filter (·.time ≤ time)).Perm
      (reached.upcoming.filter (·.time ≤ time)) := by
  have early : reached.seen =
      (reached.upcoming.filter (·.time ≤ time)).filter (·.time ≤ reached.now) := by
    rw [State.seen, List.filter_filter]
    apply List.filter_congr
    intro sighting _
    by_cases come : sighting.time ≤ reached.now
    · simp [come, come.trans later]
    · simp [come]
  have late : reached.forget.upcoming.filter (·.time ≤ time) =
      (reached.upcoming.filter (·.time ≤ time)).filter fun sighting =>
        !decide (sighting.time ≤ reached.now) := by
    simp only [State.forget, List.filter_filter]
    apply List.filter_congr
    intro sighting _
    by_cases come : sighting.time ≤ reached.now
    · simp [come, not_lt.mpr come]
    · simp [come, not_le.mp come]
  rw [early, late]
  exact List.filter_append_perm _ _

/-! ## Turns -/

theorem now_le_now_after {tenures : List Tenure} (ledger : Ledger service.permits tenures state)
    (turns : List (Turn σ)) : state.now ≤ (service.after state turns).now := by
  induction turns generalizing tenures state with
  | nil => exact le_rfl
  | cons turn turns ih =>
      have met : Ledger (service.meeting turn.encoder).permits tenures state := ledger
      rcases (service.meeting turn.encoder).exists_state_step ledger.upToDate turn.step with
        ⟨reached, later, _, next, _⟩
      have rest := ih (met.step turn.step)
      refine le_trans ?_ rest
      rw [next]
      exact later

theorem seen_forget (state : State) : state.forget.seen = [] := by
  rw [State.seen, List.filter_eq_nil_iff]
  intro sighting mem
  have later : state.forget.now < sighting.time := of_decide_eq_true (List.mem_filter.mp mem).2
  rw [decide_eq_true_eq]
  exact not_le.mpr later

theorem seen_after {turns : List (Turn σ)} (told : state.seen = []) :
    (service.after state turns).seen = [] := by
  induction turns generalizing state with
  | nil => exact told
  | cons turn turns ih =>
      apply ih
      cases turn.step with
      | request request => exact seen_forget _
      | pause milliseconds => exact seen_forget _

/-- The provider receives the batches of all encodes that have been handed over, as far as their
time has come, and no others. -/
theorem perm_seen {tenures : List Tenure} (ledger : Ledger service.permits tenures state)
    (told : state.seen = []) (turns : List (Turn σ)) :
    (service.seen state turns).Perm
      ((state.upcoming ++ service.batches state turns).filter
        (·.time ≤ (service.after state turns).now)) := by
  induction turns generalizing tenures state with
  | nil =>
      rw [seen, batches, after, List.append_nil]
      rw [State.seen] at told
      rw [told]
  | cons turn turns ih =>
      have met : Ledger (service.meeting turn.encoder).permits tenures state := ledger
      rcases (service.meeting turn.encoder).exists_state_step ledger.upToDate turn.step with
        ⟨reached, _, upcoming, next, tells⟩
      have settled : Ledger service.permits _ _ := met.step turn.step
      rw [seen, batches, after]
      rw [next] at settled
      simp only [next, tells]
      have later : reached.now ≤ (service.after reached.forget turns).now :=
        now_le_now_after settled turns
      have rest := ih settled (seen_forget reached)
      rw [← List.append_assoc, ← upcoming, List.filter_append]
      rw [List.filter_append] at rest
      refine (rest.append_left reached.seen).trans ?_
      rw [← List.append_assoc]
      exact (perm_seen_append_filter later).append_right _

end Service

end TextVectors
