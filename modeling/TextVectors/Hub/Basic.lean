import TextVectors.Failure
import TextVectors.Url.Basic

/-!
# The hub

The hub is where models are fetched from. It may answer as it likes, also
depending on what it has been asked before. An answer has a status and a body,
and may refer to another address; such references are followed, a few times, and
the token of the operator is shown to the first address only.
-/

namespace TextVectors

namespace Hub

/-- A request for a file. -/
structure Request where
  url : Url
  /-- The token that is shown. -/
  token : Option String
  deriving DecidableEq, Repr

/-- The body of an answer, which may break off. -/
inductive Body where
  | complete (content : List UInt8)
  | broken (detail : String)
  deriving DecidableEq, Repr

/-- What comes of a request. -/
inductive Response where
  | answer (status : Nat) (reference : Option String) (body : Body)
  /-- There is no answer: what was tried, and why it failed. -/
  | unreachable (attempt reason : String)
  deriving DecidableEq, Repr

end Hub

/-- A hub: what comes of a request after earlier ones. -/
abbrev Hub := List Hub.Request → Hub.Request → Hub.Response

namespace Hub

/-- Why a request has no answer. -/
inductive Refusal where
  | badToken (token : String)
  | badUrl (error : Url.Error)
  | badScheme (url : Url) (scheme : String)
  | unreachable (url : Url) (attempt reason : String)
  | tooManyReferences (url : Url)
  | badReference (url : Url) (reference : String) (error : Url.Error)
  deriving DecidableEq, Repr

/-- How many answers in a row may refer to other addresses, and one more. -/
def referenceLimit : Nat := 5

def Refusal.failure : Refusal → Failure
  | .badToken token => ⟨"Bad Header: invalid header 'Authorization: Bearer " ++ token ++ "'", []⟩
  | .badUrl error =>
    ⟨"Bad URL: failed to parse URL: " ++ error.name ++ ": " ++ error.message, [error.message]⟩
  | .badScheme url scheme =>
    ⟨url.text ++ ": Unknown Scheme: unknown scheme '" ++ scheme ++ "'", []⟩
  | .unreachable url attempt reason =>
    ⟨url.text ++ ": " ++ attempt ++ ": " ++ reason, [reason]⟩
  | .tooManyReferences url =>
    ⟨url.text ++ ": Too Many Redirects: reached max redirects (" ++ toString referenceLimit ++ ")",
      []⟩
  | .badReference url reference error =>
    ⟨url.text ++ ": Bad URL: Bad redirection: " ++ reference ++ ": " ++ error.message,
      [error.message]⟩

/-- Whether an answer of a status may refer to another address. -/
def mayRefer (status : Nat) : Bool :=
  300 ≤ status && status < 399

/-- Whether a reference in an answer of a status is followed. -/
def isFollowed (status : Nat) : Bool :=
  [301, 302, 303, 307, 308].contains status

/-- Makes a request and follows references, at most `count` of them. Gives all requests that have
been made, after earlier ones, and the status and the body of the last answer. -/
def follow (hub : Hub) (first : Url) :
    Nat → List Request → Request → List Request × Except Refusal (Nat × Body)
  | count, earlier, request =>
    if request.url.scheme ≠ "http" ∧ request.url.scheme ≠ "https" then
      (earlier, .error (.badScheme first request.url.scheme))
    else
      let requests := earlier ++ [request]
      match hub earlier request with
      | .unreachable attempt reason => (requests, .error (.unreachable first attempt reason))
      | .answer status reference body =>
        if mayRefer status then
          -- At the limit an answer that may refer is refused, even if it refers to nothing.
          match count, reference with
          | 0, _ => (requests, .error (.tooManyReferences first))
          | _, none => (requests, .ok (status, body))
          | count + 1, some reference =>
            match request.url.refer reference with
            | .error error => (requests, .error (.badReference first reference error))
            | .ok url =>
              -- The token is for the first address only.
              if isFollowed status then follow hub first count requests ⟨url, none⟩
              else (requests, .ok (status, body))
        else (requests, .ok (status, body))

/-- Whether a token can be shown. -/
def isShowable (token : String) : Bool :=
  token.toUTF8.toList.all fun byte => byte == 0x20 || byte == 0x09 || (0x21 ≤ byte && byte < 0x7F)

/-- Asks for the file at an address, with a token if there is one. -/
def get (hub : Hub) (token : Option String) (earlier : List Request) (address : String) :
    List Request × Except Refusal (Nat × Body) :=
  match token.filter (!isShowable ·) with
  | some token => (earlier, .error (.badToken token))
  | none =>
    match Url.ofString address with
    | .error error => (earlier, .error (.badUrl error))
    | .ok url => follow hub url (referenceLimit - 1) earlier ⟨url, token⟩

end Hub

end TextVectors
