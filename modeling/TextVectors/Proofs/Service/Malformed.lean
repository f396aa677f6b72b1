import TextVectors.Proofs.Payload.Requests
import TextVectors.Proofs.Service.Limit
import TextVectors.Proofs.Service.Refusals

/-!
# Bodies that are not JSON

The front of a body decides: if a request stands there, its texts are embedded,
and what comes behind it is not looked at. So a body that is no JSON text as a
whole may be answered with vectors: `trailing_bytes_accepted`.

A body without a request in front never reaches the encoder, whatever is wrong
with it. It is answered as one that is not JSON, unless what has been read of it
is of another shape than a request, and then nothing behind it could make it one.
In particular a request that breaks off is answered as one that is not JSON,
wherever it does.
-/

namespace TextVectors

namespace Service

variable {σ : Type} {service : Service σ}

open Payload (AsksInFront)

section
variable {request : Request} (json : request.DeclaresJson)
  (fits : request.body.length ≤ service.maxBodyBytes)
include json fits

theorem readTexts_eq_ok_iff_asksInFront {texts : List String} :
    service.readTexts request = .ok texts ↔ AsksInFront texts request.body := by
  rw [← Payload.readFront_readTexts_eq_ok_iff]
  constructor
  · intro accepted
    cases found : Json.readFront Payload.readTexts request.body with
    | error defect =>
        rw [readTexts_of_defect json fits found] at accepted
        cases accepted
    | ok others =>
        rw [readTexts_of_request json fits found] at accepted
        rw [Except.ok.inj accepted]
  · exact readTexts_of_request json fits

/-- What is refused for its shape cannot be continued to a request. -/
theorem readTexts_of_not_asksInFront (none : ∀ texts, ¬AsksInFront texts request.body) :
    (∃ detail, service.readTexts request = .error (.malformed detail)) ∨
      ∃ detail, service.readTexts request = .error (.misshapen detail) ∧
        ∀ tail texts, ¬AsksInFront texts (request.body ++ tail) := by
  cases found : Json.readFront Payload.readTexts request.body with
  | error defect =>
      rw [readTexts_of_defect json fits found]
      by_cases misshapen : defect.fault.isMisshapen = true
      · rw [if_pos misshapen]
        exact .inr ⟨_, rfl, Payload.not_asksInFront_of_misshapen found misshapen⟩
      · rw [if_neg misshapen]
        exact .inl ⟨_, rfl⟩
  | ok texts => exact absurd (Payload.readFront_readTexts_eq_ok_iff.1 found) (none texts)

end

/-! ## Main result -/

/-- After any course, a body gives just the texts of the request that stands in front of it, if one
does. Otherwise it goes past the encoder and is answered as malformed JSON, or as JSON of a wrong
shape if no bytes behind it could make it a request. -/
theorem decided_by_front (service : Service σ) (turns : List (Turn σ)) (encoder : Encoder σ)
    {request : Request} (path : request.path = "/embeddings") (method : request.method = "POST")
    (json : request.DeclaresJson) (fits : request.body.length ≤ service.maxBodyBytes) :
    let met := service.meeting encoder
    let state := service.after (.initial service.permits) turns
    let answer := (met.handle state request).answer
    (∀ texts, met.readTexts request = .ok texts ↔ AsksInFront texts request.body) ∧
      ((∀ texts, ¬AsksInFront texts request.body) → met.Bypasses state request ∧
        (answer.Reports 400 "INVALID_JSON" ∨
          answer.Reports 422 "INVALID_REQUEST" ∧
            ∀ tail texts, ¬AsksInFront texts (request.body ++ tail))) := by
  intro met state answer
  have told : state.seen = [] := seen_after rfl
  refine ⟨fun texts => readTexts_eq_ok_iff_asksInFront json fits, fun none => ?_⟩
  have read : (∃ detail, met.readTexts request = .error (.malformed detail)) ∨
      ∃ detail, met.readTexts request = .error (.misshapen detail) ∧
        ∀ tail texts, ¬AsksInFront texts (request.body ++ tail) :=
    readTexts_of_not_asksInFront json fits none
  rcases read with ⟨detail, refused⟩ | ⟨detail, refused, never⟩
  · refine ⟨bypasses_of_unwanted (wanted_eq_none_of_refused refused) told, .inl ?_⟩
    simp only [answer, handle_answer_of_refused path method refused]
    exact ⟨rfl, _, rfl⟩
  · refine ⟨bypasses_of_unwanted (wanted_eq_none_of_refused refused) told, .inr ⟨?_, never⟩⟩
    simp only [answer, handle_answer_of_refused path method refused]
    exact ⟨rfl, _, rfl⟩

/-- A request that breaks off is answered as malformed JSON. -/
theorem decided_by_front_sample :
    let encoder : Encoder Nat :=
      ⟨"sample", ⟨1, fun texts => ⟨.ok (texts.map fun _ => [1]), 0⟩⟩, 1, .ok⟩
    let service : Service Nat := ⟨encoder, 1, ⟨100⟩, 64⟩
    let request : Request :=
      ⟨"POST", "/embeddings", [("content-type", "application/json".toUTF8.toList)],
        "\x7b\"input\": [\"a\"".toUTF8.toList⟩
    request.DeclaresJson ∧ request.body.length ≤ service.maxBodyBytes ∧
      (service.handle (.initial 1) request).answer.Reports 400 "INVALID_JSON" ∧
      service.Bypasses (.initial 1) request := by
  intro encoder service request
  have json : request.DeclaresJson := (Request.hasJsonBody_iff _).mp (by decide +kernel)
  have fits : request.body.length ≤ service.maxBodyBytes := by decide +kernel
  have refused : (Json.readFront Payload.readTexts request.body).toOption = none := by
    decide +kernel
  have none : ∀ texts, ¬AsksInFront texts request.body := by
    intro texts asks
    rw [Payload.readFront_readTexts_eq_ok_iff.2 asks] at refused
    cases refused
  have goesOn : AsksInFront ["a"] (request.body ++ "]\x7d".toUTF8.toList) := by decide +kernel
  have path : request.path = "/embeddings" := by decide +kernel
  rcases (decided_by_front service [] encoder path rfl json fits).2 none with
    ⟨past, malformed | ⟨_, never⟩⟩
  · exact ⟨json, fits, malformed, past⟩
  · exact absurd goesOn (never _ _)

/-- Two bodies that are no JSON texts. One has a word behind a request and is answered with vectors;
the other has a number where a list is due, and no closing brace, and is answered as misshapen. -/
theorem trailing_bytes_accepted :
    let encoder : Encoder Nat :=
      ⟨"sample", ⟨1, fun texts => ⟨.ok (texts.map fun _ => [1]), 0⟩⟩, 1, .ok⟩
    let service : Service Nat := ⟨encoder, 1, ⟨100⟩, 64⟩
    let request (body : String) : Request :=
      ⟨"POST", "/embeddings", [("content-type", "application/json".toUTF8.toList)],
        body.toUTF8.toList⟩
    let continued := request "\x7b\"input\":[\"a\"]\x7d x"
    let unclosed := request "\x7b\"input\":5]"
    continued.DeclaresJson ∧ continued.body.length ≤ service.maxBodyBytes ∧
      ¬Json.Document continued.body ∧
      (service.handle (.initial 1) continued).answer.status = 200 ∧
      service.begun (.initial 1) (.request continued) ≠ [] ∧
      unclosed.DeclaresJson ∧ unclosed.body.length ≤ service.maxBodyBytes ∧
      ¬Json.Document unclosed.body ∧
      (service.handle (.initial 1) unclosed).answer.status = 422 := by
  intro encoder service request continued unclosed
  refine ⟨(Request.hasJsonBody_iff _).mp (by decide +kernel), by decide +kernel, by decide +kernel,
    by decide +kernel, ?_, (Request.hasJsonBody_iff _).mp (by decide +kernel), by decide +kernel,
    by decide +kernel, by decide +kernel⟩
  intro nothing
  have length : (service.begun (.initial 1) (.request continued)).length = 1 := by decide +kernel
  rw [nothing] at length
  cases length

end Service

end TextVectors
