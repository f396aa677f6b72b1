import Mathlib.Data.List.Nodup
import TextVectors.Proofs.Hub.Steps

/-!
# Two fetches side by side

What a fetch does to files follows from the pins, from the files that it finds and
from the answers that it gets, `Twin.takeSteps`: the address of the hub, the model
and the revision are seen by the hub only.

Of one hub, two fetches that succeed have taken the same turns, whatever files they
have found, `turns_takeSteps`. So each has been given what the other has,
`Gave.of_turns`, and a fetch is given a file with one content only, `Gave.unique`.
-/

namespace TextVectors

namespace Hub

variable {hub otherHub : Hub} {access otherAccess : Access}
  {modelId otherId directory file : String} {one other : Progress} {step : Step} {content : List UInt8}

/-! ## The same answers -/

/-- Two fetches that have done the same to the same files. -/
structure Twin (one other : Progress) : Prop where
  files_eq : one.files = other.files
  operations_eq : one.operations = other.operations

namespace Twin

theorem perform (twin : Twin one other) (operations : List Files.Operation) :
    Twin (one.perform operations) (other.perform operations) where
  files_eq := congrArg (·.applyAll operations) twin.files_eq
  operations_eq := congrArg (· ++ operations) twin.operations_eq

theorem tell (twin : Twin one other) (text otherText : String) :
    Twin (one.tell text) (other.tell otherText) :=
  ⟨twin.files_eq, twin.operations_eq⟩

theorem makeDirectory (twin : Twin one other) (path : String) (wrap : FileError → FetchError) :
    Twin (one.makeDirectory path wrap).1 (other.makeDirectory path wrap).1 ∧
      (one.makeDirectory path wrap).2 = (other.makeDirectory path wrap).2 := by
  unfold Progress.makeDirectory
  rw [twin.files_eq]
  split
  · exact ⟨twin.perform _, rfl⟩
  · exact ⟨twin.perform _, rfl⟩

theorem store (twin : Twin one other) (path : String) (content : List UInt8) :
    Twin (one.store path content).1 (other.store path content).1 ∧
      (one.store path content).2 = (other.store path content).2 := by
  unfold Progress.store
  rw [twin.files_eq]
  dsimp only
  split
  · exact ⟨twin, rfl⟩
  · next place _ =>
    have drafted := twin.perform [.create place, .fill place content]
    rw [drafted.files_eq]
    split
    · exact ⟨drafted, rfl⟩
    · exact ⟨drafted.perform _, rfl⟩

theorem accept (twin : Twin one other) (file path : String) (pin : Option String)
    (content : List UInt8) :
    Twin (Hub.accept file path pin content one).1 (Hub.accept file path pin content other).1 ∧
      (Hub.accept file path pin content one).2 = (Hub.accept file path pin content other).2 := by
  unfold Hub.accept
  split
  · exact ⟨twin, rfl⟩
  · next text _ =>
    have told := twin.tell text text
    dsimp only
    split
    · exact ⟨told, rfl⟩
    · exact told.store path content

end Twin

def Exchange.answer? (hub : Hub) (access : Access) (modelId : String) (exchange : Exchange) :
    Option (Nat × Body) :=
  (exchange.outcome hub access modelId).2.toOption

theorem Twin.download (twin : Twin one other) (path : String) (pin : Option String)
    (same : Exchange.answer? hub access modelId ⟨file, one⟩ =
      Exchange.answer? otherHub otherAccess otherId ⟨file, other⟩) :
    Twin (Hub.download hub access modelId file path pin one).1
        (Hub.download otherHub otherAccess otherId file path pin other).1 ∧
      (Hub.download hub access modelId file path pin one).2.toOption =
        (Hub.download otherHub otherAccess otherId file path pin other).2.toOption := by
  have told : ∀ text otherText requests otherRequests,
      Twin { one.tell text with requests := requests }
        { other.tell otherText with requests := otherRequests } :=
    fun _ _ _ _ => ⟨twin.files_eq, twin.operations_eq⟩
  unfold Exchange.answer? at same
  unfold Hub.download
  dsimp only
  rw [Exchange.get_tell, Exchange.get_tell]
  cases answer : (Exchange.outcome hub access modelId ⟨file, one⟩).2 with
  | error refusal =>
      rw [answer] at same
      cases otherAnswer : (Exchange.outcome otherHub otherAccess otherId ⟨file, other⟩).2 with
      | error otherRefusal => exact ⟨told _ _ _ _, rfl⟩
      | ok answered =>
          rw [otherAnswer] at same
          cases same
  | ok answered =>
      rw [answer] at same
      rw [eq_ok_of_toOption same.symm]
      dsimp only
      split
      · exact ⟨(told _ _ _ _).tell _ _, rfl⟩
      · split
        · exact ⟨told _ _ _ _, rfl⟩
        · split
          · exact ⟨told _ _ _ _, rfl⟩
          · next content _ =>
            rcases Twin.accept (told _ _ _ _) file path pin content with ⟨accepted, same_end⟩
            refine ⟨accepted, ?_⟩
            rw [same_end]

theorem Step.endOf_eq_goOn_iff {outcome otherOutcome : Except FetchError Bool}
    (same : outcome.toOption = otherOutcome.toOption) :
    step.endOf modelId outcome = .goOn ↔ step.endOf otherId otherOutcome = .goOn := by
  cases outcome with
  | error error =>
      cases otherOutcome with
      | error otherError => exact ⟨nofun, nofun⟩
      | ok found => cases same
  | ok found =>
      rw [eq_ok_of_toOption same.symm, endOf, endOf]
      cases step <;> cases found <;> simp [found]

/-- Two steps that get the same answers do the same, and both go on or both end. -/
theorem Twin.take (directory : String) (twin : Twin one other)
    (pins : otherAccess.pins = access.pins)
    (same : ∀ file, step.file? access.pins = some file →
      Exchange.answer? hub access modelId ⟨file, one⟩ =
        Exchange.answer? otherHub otherAccess otherId ⟨file, other⟩) :
    Twin (step.take hub access modelId directory one).1
        (step.take otherHub otherAccess otherId directory other).1 ∧
      ((step.take hub access modelId directory one).2 = .goOn ↔
        (step.take otherHub otherAccess otherId directory other).2 = .goOn) := by
  cases asks : step.file? access.pins with
  | some file =>
      have otherAsks : step.file? otherAccess.pins = some file := by
        rw [pins]
        exact asks
      rcases twin.download (Path.join directory file) (step.pin? access.pins) (same file asks) with
        ⟨downloaded, same_end⟩
      rcases take_of_download hub modelId directory one asks with ⟨ending, after⟩
      rcases take_of_download otherHub otherId directory other otherAsks with
        ⟨otherEnding, otherAfter⟩
      rw [pins] at otherEnding otherAfter
      rw [ending, otherEnding]
      refine ⟨?_, Step.endOf_eq_goOn_iff same_end⟩
      rcases after with after | ⟨text, after⟩ <;>
        rcases otherAfter with otherAfter | ⟨otherText, otherAfter⟩ <;>
        rw [after, otherAfter]
      all_goals exact ⟨downloaded.files_eq, downloaded.operations_eq⟩
  | none =>
      cases step with
      | makeModelDirectory =>
          rcases twin.makeDirectory directory (.modelDirectory directory) with ⟨made, same_end⟩
          rw [Step.take, Step.take]
          dsimp only
          rw [same_end]
          refine ⟨made, ?_⟩
          cases (other.makeDirectory directory (.modelDirectory directory)).2 <;> exact Iff.rfl
      | makeDirectory name =>
          rcases twin.makeDirectory (Path.join directory name)
            (.directory (Path.join directory name)) with ⟨made, same_end⟩
          rw [Step.take, Step.take]
          dsimp only
          rw [same_end]
          exact ⟨made, Iff.rfl⟩
      | required name => cases asks
      | optional name => cases asks
      | weights name =>
          have otherAsks : (Step.weights name).file? otherAccess.pins = none := by
            rw [pins]
            exact asks
          rw [take_of_passed hub modelId directory one asks,
            take_of_passed otherHub otherId directory other otherAsks]
          exact ⟨twin.tell _ _, Iff.rfl⟩

/-- The answers that a fetch gets in its remaining steps. -/
def answers (hub : Hub) (access : Access) (modelId directory : String) (some_steps : List Step)
    (progress : Progress) : List (Option (Nat × Body)) :=
  (exchanges hub access modelId directory some_steps progress).map
    (Exchange.answer? hub access modelId)

theorem Twin.takeSteps {some_steps : List Step} (twin : Twin one other)
    (pins : otherAccess.pins = access.pins)
    (same : answers hub access modelId directory some_steps one =
      answers otherHub otherAccess otherId directory some_steps other) :
    Twin (Hub.takeSteps hub access modelId directory some_steps one).1
      (Hub.takeSteps otherHub otherAccess otherId directory some_steps other).1 := by
  -- the answers of the first step are the first of all answers, and both runs go on together
  induction some_steps generalizing one other with
  | nil => exact twin
  | cons step rest ih =>
      rw [answers, answers, exchanges, exchanges, List.map_append, List.map_append, pins] at same
      have lengths : ((step.exchange? access.pins one).toList.map
            (Exchange.answer? hub access modelId)).length =
          ((step.exchange? access.pins other).toList.map
            (Exchange.answer? otherHub otherAccess otherId)).length := by
        rw [Step.exchange?, Step.exchange?]
        cases step.file? access.pins <;> rfl
      rcases List.append_inj same lengths with ⟨first, later⟩
      have same_answer : ∀ file, step.file? access.pins = some file →
          Exchange.answer? hub access modelId ⟨file, one⟩ =
            Exchange.answer? otherHub otherAccess otherId ⟨file, other⟩ := by
        intro file asks
        rw [Step.exchange?, Step.exchange?, asks] at first
        exact List.head_eq_of_cons_eq first
      rcases twin.take directory pins same_answer with ⟨next, both⟩
      rcases taken : step.take hub access modelId directory one with ⟨nextOne, ending⟩
      rcases otherTaken : step.take otherHub otherAccess otherId directory other with
        ⟨nextOther, otherEnding⟩
      rw [taken, otherTaken] at next both later
      by_cases goes : ending = .goOn
      · cases goes
        cases both.mp rfl
        rw [takeSteps_of_goOn taken, takeSteps_of_goOn otherTaken]
        exact ih next later
      · have stops : otherEnding ≠ .goOn := fun goesOn => goes (both.mpr goesOn)
        rw [takeSteps_of_end taken goes, takeSteps_of_end otherTaken stops]
        exact next

/-! ## The same hub -/

theorem Downloaded.found_iff {after : Progress} {pin : Option String} {found : Bool}
    (downloaded : Downloaded hub access modelId directory file pin one after (.ok found)) :
    found = true ↔ ∃ content, Exchange.Gives hub access modelId ⟨file, one⟩ content := by
  cases downloaded with
  | absent lacks =>
      refine ⟨nofun, ?_⟩
      rintro ⟨content, gives⟩
      exact absurd gives (Turn.not_gives_of_lacks lacks)
  | written gives => exact ⟨fun _ => ⟨_, gives⟩, fun _ => rfl⟩

/-- Steps that do not fail end alike when the hub has been asked the same before. -/
theorem alike_take (mem : step ∈ steps) (same : one.requests = other.requests)
    (fine : ∀ error, (step.take hub access modelId directory one).2 ≠ .failed error)
    (otherFine : ∀ error, (step.take hub access modelId directory other).2 ≠ .failed error) :
    (step.take hub access modelId directory one).1.requests =
        (step.take hub access modelId directory other).1.requests ∧
      (step.take hub access modelId directory one).2 =
        (step.take hub access modelId directory other).2 := by
  cases asks : step.file? access.pins with
  | none =>
      have goes : ∀ progress,
          (∀ error, (step.take hub access modelId directory progress).2 ≠ .failed error) →
          (step.take hub access modelId directory progress).1.requests = progress.requests ∧
            (step.take hub access modelId directory progress).2 = .goOn := by
        intro progress succeeds
        rcases take_of_silent hub modelId directory progress asks with ⟨requests, unfinished, _⟩
        refine ⟨requests, ?_⟩
        cases ending : (step.take hub access modelId directory progress).2 with
        | goOn => rfl
        | finished => exact absurd ending unfinished
        | failed error => exact absurd ending (succeeds error)
      rcases goes one fine with ⟨requests, goesOn⟩
      rcases goes other otherFine with ⟨otherRequests, otherGoesOn⟩
      rw [requests, otherRequests, goesOn, otherGoesOn]
      exact ⟨same, rfl⟩
  | some file =>
      have download := mem_downloads access.pins mem asks
      have asked_alike : Exchange.turn ⟨file, one⟩ = Exchange.turn ⟨file, other⟩ := by
        rw [Exchange.turn, Exchange.turn, same]
      rcases take_of_asks hub modelId directory one download asks with
        ⟨requests, outcome, downloaded, ending⟩
      rcases take_of_asks hub modelId directory other download asks with
        ⟨otherRequests, otherOutcome, otherDownloaded, otherEnding⟩
      rw [requests, otherRequests, Exchange.outcome, Exchange.outcome, asked_alike]
      refine ⟨rfl, ?_⟩
      rw [ending] at fine ⊢
      rw [otherEnding] at otherFine ⊢
      cases outcome with
      | error error => exact absurd rfl (fine error)
      | ok found =>
          cases otherOutcome with
          | error error => exact absurd rfl (otherFine error)
          | ok otherFound =>
              have both : found = true ↔ otherFound = true := by
                rw [downloaded.found_iff, otherDownloaded.found_iff]
                unfold Exchange.Gives
                rw [asked_alike]
              rw [Bool.eq_iff_iff.mpr both]

/-- Two fetches from one hub that succeed have taken the same turns. -/
theorem turns_takeSteps {some_steps : List Step} (subset : some_steps ⊆ steps)
    (same : one.requests = other.requests)
    (succeeds : ∃ path, (takeSteps hub access modelId directory some_steps one).2 = .ok path)
    (otherSucceeds :
      ∃ path, (takeSteps hub access modelId directory some_steps other).2 = .ok path) :
    (exchanges hub access modelId directory some_steps one).map Exchange.turn =
      (exchanges hub access modelId directory some_steps other).map Exchange.turn := by
  induction some_steps generalizing one other with
  | nil => rfl
  | cons step rest ih =>
      have mem : step ∈ steps := subset List.mem_cons_self
      have fine : ∀ progress,
          (∃ path, (takeSteps hub access modelId directory (step :: rest) progress).2 = .ok path) →
          ∀ error, (step.take hub access modelId directory progress).2 ≠ .failed error := by
        rintro progress ⟨path, succeeded⟩ error failed
        have taken : step.take hub access modelId directory progress =
          ((step.take hub access modelId directory progress).1, .failed error) := by rw [← failed]
        rw [takeSteps_of_failed taken] at succeeded
        cases succeeded
      have heads : (step.exchange? access.pins one).toList.map Exchange.turn =
          (step.exchange? access.pins other).toList.map Exchange.turn := by
        rw [Step.exchange?, Step.exchange?]
        cases step.file? access.pins with
        | none => rfl
        | some file => simp [Exchange.turn, same]
      -- neither step fails, so the answer alone tells whether they go on
      have both := alike_take mem same (fine one succeeds) (fine other otherSucceeds)
      rcases taken : step.take hub access modelId directory one with ⟨next, ending⟩
      rcases otherTaken : step.take hub access modelId directory other with ⟨otherNext, otherEnding⟩
      rw [taken, otherTaken] at both
      rcases both with ⟨requests, rfl⟩
      cases ending with
      | goOn =>
          rw [takeSteps_of_goOn taken] at succeeds
          rw [takeSteps_of_goOn otherTaken] at otherSucceeds
          rw [exchanges_of_goOn taken, exchanges_of_goOn otherTaken, List.map_append,
            List.map_append, heads]
          congr 1
          exact ih (fun later among => subset (List.mem_cons_of_mem _ among)) requests succeeds
            otherSucceeds
      | finished =>
          rw [exchanges_of_finished taken, exchanges_of_finished otherTaken]
          exact heads
      | failed error =>
          rw [exchanges_of_failed taken, exchanges_of_failed otherTaken]
          exact heads

section

variable {asked otherAsked : List Exchange}

theorem exists_of_turns {exchange : Exchange}
    (same : asked.map Exchange.turn = otherAsked.map Exchange.turn) (mem : exchange ∈ asked) :
    ∃ other ∈ otherAsked, other.turn = exchange.turn := by
  have among : exchange.turn ∈ otherAsked.map Exchange.turn := by
    rw [← same]
    exact List.mem_map_of_mem mem
  exact List.mem_map.mp among

theorem Gave.of_turns (same : asked.map Exchange.turn = otherAsked.map Exchange.turn)
    (gave : Gave hub access modelId asked file content) :
    Gave hub access modelId otherAsked file content := by
  rcases gave with ⟨exchange, mem, about, gives⟩
  rcases exists_of_turns same mem with ⟨other, otherMem, turn_eq⟩
  refine ⟨other, otherMem, (congrArg Turn.file turn_eq).trans about, ?_⟩
  rw [Exchange.Gives, turn_eq]
  exact gives

theorem Lacked.of_turns (same : asked.map Exchange.turn = otherAsked.map Exchange.turn)
    (lacked : Lacked hub access modelId asked file) :
    Lacked hub access modelId otherAsked file := by
  rcases lacked with ⟨exchange, mem, about, lacks⟩
  rcases exists_of_turns same mem with ⟨other, otherMem, turn_eq⟩
  refine ⟨other, otherMem, (congrArg Turn.file turn_eq).trans about, ?_⟩
  rw [Exchange.Lacks, turn_eq]
  exact lacks

end

/-! ## Answers of one fetch -/

theorem files_sublist (hub : Hub) (access : Access) (modelId directory : String)
    (some_steps : List Step) (progress : Progress) :
    ((exchanges hub access modelId directory some_steps progress).map (·.file)).Sublist
      (some_steps.filterMap Step.target?) := by
  induction some_steps generalizing progress with
  | nil => exact .slnil
  | cons step rest ih =>
      have head : ((step.exchange? access.pins progress).toList.map (·.file)).Sublist
          step.target?.toList := by
        rw [Step.exchange?]
        cases asks : step.file? access.pins with
        | none => exact List.nil_sublist _
        | some file =>
            rw [Step.target?_of_file? asks]
            exact .refl _
      have split : (step :: rest).filterMap Step.target? =
          step.target?.toList ++ rest.filterMap Step.target? := by
        rw [List.filterMap_cons]
        cases step.target? <;> rfl
      rw [exchanges, List.map_append, split]
      apply head.append
      split
      · exact ih _
      · exact List.nil_sublist _

theorem eq_of_file_eq {one other : Exchange} {progress : Progress}
    (mem : one ∈ exchanges hub access modelId directory steps progress)
    (otherMem : other ∈ exchanges hub access modelId directory steps progress)
    (same : one.file = other.file) : one = other := by
  have once : ((exchanges hub access modelId directory steps progress).map (·.file)).Nodup :=
    (files_sublist hub access modelId directory steps progress).nodup (by decide)
  exact List.inj_on_of_nodup_map once mem otherMem same

theorem Gave.unique {progress : Progress} {otherContent : List UInt8}
    (gave : Gave hub access modelId (exchanges hub access modelId directory steps progress) file
      content)
    (otherGave : Gave hub access modelId
      (exchanges hub access modelId directory steps progress) file otherContent) :
    content = otherContent := by
  rcases gave with ⟨exchange, mem, rfl, status, _, answer⟩
  rcases otherGave with ⟨other, otherMem, same, otherStatus, _, otherAnswer⟩
  cases eq_of_file_eq otherMem mem same
  rw [answer] at otherAnswer
  cases otherAnswer
  rfl

theorem Lacked.not_gave {progress : Progress}
    (lacked : Lacked hub access modelId (exchanges hub access modelId directory steps progress)
      file) :
    ¬Gave hub access modelId (exchanges hub access modelId directory steps progress) file
      content := by
  rcases lacked with ⟨exchange, mem, rfl, lacks⟩
  rintro ⟨other, otherMem, same, gives⟩
  cases eq_of_file_eq otherMem mem same
  exact Turn.not_gives_of_lacks lacks gives

end Hub

end TextVectors
