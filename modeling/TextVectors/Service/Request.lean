import TextVectors.Payload
import TextVectors.Service.MediaType
import TextVectors.Span
import TextVectors.Failure

/-!
# Requests and answers

A request names a method and a target, carries headers and a body, and is
answered with a status and, unless nothing is known of the target, a body in
JSON. A request for vectors may end in a problem instead; each kind of problem
has a status, a code for programs and a text.
-/

namespace TextVectors

namespace Service

/-- A request as it arrives. -/
structure Request where
  method : String
  target : String
  headers : List (String × List UInt8)
  body : List UInt8
  deriving DecidableEq, Repr

namespace Request

/-- The first header of a name. Names are compared without regard to case. -/
def header? (request : Request) (name : String) : Option (List UInt8) :=
  (request.headers.find? fun header => header.1.map Char.toLower == name).map (·.2)

/-- The target without the scheme and the authority of an absolute address. -/
private def afterAuthority : List Char → List Char
  | ':' :: '/' :: '/' :: rest => rest.dropWhile fun c => c ≠ '/' && c ≠ '?' && c ≠ '#'
  | _ :: rest => afterAuthority rest
  | [] => []

/-- The path that a request asks for, without the query and the fragment. -/
def path (request : Request) : String :=
  let target := request.target.toList
  let target :=
    match target with
    | '/' :: _ => target
    | ['*'] => target
    | _ => '/' :: (afterAuthority target).drop 1
  String.ofList (target.takeWhile fun c => c ≠ '?' && c ≠ '#')

/-- Whether the header that says what the body holds is there and says JSON. Bytes outside visible
ASCII make it unreadable. -/
def hasJsonBody (request : Request) : Bool :=
  match request.header? "content-type" with
  | none => false
  | some value =>
    if value.all fun byte => byte == 9 || (0x20 ≤ byte && byte < 0x7F) then
      match MediaType.ofText? (value.map fun byte => Char.ofNat byte.toNat) with
      | some media => media.isJson
      | none => false
    else false

end Request

/-- Why a request for vectors was not answered with vectors. -/
inductive Problem where
  | notJson
  | tooLong
  | malformed (detail : String)
  | misshapen (detail : String)
  | failed (failure : Failure)
  | aborted
  | timedOut (limit : Span)
  deriving DecidableEq, Repr

namespace Problem

def status : Problem → Nat
  | .notJson => 415
  | .tooLong => 413
  | .malformed _ => 400
  | .misshapen _ => 422
  | .failed _ => 500
  | .aborted => 500
  | .timedOut _ => 504

/-- The code of a problem for programs. -/
def code : Problem → String
  | .notJson => "UNSUPPORTED_MEDIA_TYPE"
  | .tooLong => "INVALID_REQUEST"
  | .malformed _ => "INVALID_JSON"
  | .misshapen _ => "INVALID_REQUEST"
  | .failed _ => "ENCODE_FAILED"
  | .aborted => "ENCODE_FAILED"
  | .timedOut _ => "ENCODE_TIMEOUT"

def text : Problem → String
  | .notJson => "Expected request with `Content-Type: application/json`"
  | .tooLong => "Failed to buffer the request body: length limit exceeded"
  | .malformed detail => "Failed to parse the request body as JSON: " ++ detail
  | .misshapen detail =>
    "Failed to deserialize the JSON body into the target type: " ++ detail
  | .failed failure => failure.oneLine
  | .aborted => "encode task aborted"
  | .timedOut limit => "encode did not finish within " ++ limit.secondsText ++ "s"

def payload (problem : Problem) : Payload.Problem :=
  ⟨problem.text, problem.code⟩

end Problem

/-- What an answer holds. -/
inductive Content (σ : Type) where
  | nothing
  | health (state : Payload.Health)
  | embeddings (answer : Payload.Embeddings σ)
  | problem (problem : Payload.Problem)
  deriving DecidableEq, Repr

/-- An answer. -/
structure Answer (σ : Type) where
  status : Nat
  content : Content σ
  /-- The methods that are allowed, if the method of the request is not. -/
  allow : Option String := none
  /-- Whether the body is held back, because only the headers were asked for. -/
  headersOnly : Bool := false
  deriving DecidableEq, Repr

namespace Answer

def ofProblem {σ : Type} (problem : Problem) : Answer σ :=
  { status := problem.status, content := .problem problem.payload }

/-- The media type of the body, if there is one. -/
def contentType {σ : Type} (answer : Answer σ) : Option String :=
  match answer.content with
  | .nothing => none
  | _ => some "application/json"

def contentText (content : Content Number.Single) : String :=
  match content with
  | .nothing => ""
  | .health state => state.text
  | .embeddings answer => answer.text
  | .problem problem => problem.text

def body (answer : Answer Number.Single) : String :=
  if answer.headersOnly then "" else contentText answer.content

end Answer

end Service

end TextVectors
