import Mathlib.Data.List.Basic
import TextVectors.Service.Basic

/-!
# The course of a service

The state of a service comes about step by step. A provider may have a memory
and treat the same texts in another way each time, so a course is made of turns,
each of which brings the encoder that its step meets; `Service.run` is the case
in which it is always the same one.

A request does one of two things. Either it is for the encoder: then it is
dispatched. Or it is not, because it is for something else, is refused or holds
no texts: then it leaves the state alone and its answer does not depend on it.
-/

namespace TextVectors

namespace Service

variable {σ : Type}

/-- A step of a service and the encoder that it meets. -/
structure Turn (σ : Type) where
  encoder : Encoder σ
  step : Step

/-- The service with the encoder that a turn brings. -/
def meeting (service : Service σ) (encoder : Encoder σ) : Service σ :=
  { service with encoder }

/-- The state after some turns. -/
def after (service : Service σ) : State → List (Turn σ) → State
  | state, [] => state
  | state, turn :: turns =>
    service.after ((service.meeting turn.encoder).step state turn.step).1 turns

variable (service : Service σ)

theorem after_append (state : State) (turns later : List (Turn σ)) :
    service.after state (turns ++ later) = service.after (service.after state turns) later := by
  induction turns generalizing state with
  | nil => rfl
  | cons turn turns ih => exact ih _

/-! ## Requests for the encoder -/

/-- The texts that a request makes the service encode, if it is for the encoder. -/
def wanted (request : Request) : Option (List String) :=
  if request.path = "/embeddings" ∧ request.method = "POST" then
    match service.readTexts request with
    | .ok (text :: texts) => some (text :: texts)
    | _ => none
  else none

variable {service}

theorem wanted_eq_some_iff {request : Request} {texts : List String} :
    service.wanted request = some texts ↔
      request.path = "/embeddings" ∧ request.method = "POST" ∧
        service.readTexts request = .ok texts ∧ texts ≠ [] := by
  unfold wanted
  by_cases asked : request.path = "/embeddings" ∧ request.method = "POST"
  · rw [if_pos asked]
    simp only [asked.1, asked.2, true_and]
    split
    · rename_i text others read
      rw [read]
      constructor
      · intro same
        cases same
        exact ⟨rfl, by simp⟩
      · rintro ⟨same, _⟩
        cases same
        rfl
    · rename_i others
      constructor
      · intro same
        cases same
      · rintro ⟨read, filled⟩
        cases texts with
        | nil => exact absurd rfl filled
        | cons text rest => exact absurd read (others text rest)
  · rw [if_neg asked]
    constructor
    · intro same
      cases same
    · rintro ⟨path, method, _⟩
      exact absurd ⟨path, method⟩ asked

theorem handle_of_wanted {request : Request} {texts : List String}
    (wants : service.wanted request = some texts) (state : State) :
    service.handle state request = service.dispatch state texts := by
  rcases wanted_eq_some_iff.mp wants with ⟨path, method, read, filled⟩
  cases texts with
  | nil => exact absurd rfl filled
  | cons text texts => simp [handle, embed, path, method, read]

/-- A request that is not for the encoder leaves the state alone, and its answer does not depend
on it. -/
theorem handle_of_unwanted {request : Request} (unwanted : service.wanted request = none) :
    ∃ answer events, ∀ state, service.handle state request = ⟨answer, events, state⟩ := by
  unfold handle
  split
  · split
    · exact ⟨_, _, fun _ => rfl⟩
    · split
      · exact ⟨_, _, fun _ => rfl⟩
      · exact ⟨_, _, fun _ => rfl⟩
  · rename_i path
    split
    · rename_i method
      unfold embed
      cases read : service.readTexts request with
      | error problem => exact ⟨_, _, fun _ => rfl⟩
      | ok texts =>
          cases texts with
          | nil => exact ⟨_, _, fun _ => rfl⟩
          | cons text texts =>
              have wants : service.wanted request = some (text :: texts) :=
                wanted_eq_some_iff.mpr ⟨path, method, read, by simp⟩
              rw [unwanted] at wants
              cases wants
    · exact ⟨_, _, fun _ => rfl⟩
  · exact ⟨_, _, fun _ => rfl⟩

/-! ## Dispatch -/

theorem dispatch_of_no_entry {state : State} (never : service.entry state = none)
    (texts : List String) :
    service.dispatch state texts =
      service.expired texts.length (service.deadline state) state := by
  simp [dispatch, never]

theorem dispatch_of_entry {state : State} {start : Nat} (begins : service.entry state = some start)
    (texts : List String) :
    let run := service.encoder.encode texts
    let finish := (state.advance start).pickup + run.elapsed
    let underway := (state.advance start).start run.elapsed run.calls
    let ended := service.ended texts.length (finish - state.now) run.outcome
    service.dispatch state texts =
      if finish < service.deadline state then
        ⟨ended.1, [ended.2], underway.advance finish⟩
      else service.expired texts.length (service.deadline state) underway := by
  simp [dispatch, begins]

end Service

end TextVectors
