import TextVectors.Hub.Fetch

/-!
# Exchanges with the hub

A fetch asks the hub for one file after another. What the hub has for a file may
depend on the requests before, so it is told for each `Turn`: a file and these
requests. An `Exchange` is a turn in the course of a fetch, and tells by how far
the fetch has come which requests these are. The requests of an exchange are for
the address of its file first and then only for what the hub refers to,
`Exchange.referred`.
-/

namespace TextVectors

namespace Hub

/-- Asking for a file of a model after some requests. -/
structure Turn where
  file : String
  earlier : List Request

namespace Turn

/-- All requests up to the end of a turn, and what comes of the last one. -/
def outcome (hub : Hub) (access : Access) (modelId : String) (turn : Turn) :
    List Request × Except Refusal (Nat × Body) :=
  hub.get access.token turn.earlier (access.address modelId turn.file)

/-- All requests up to the end of a turn. -/
def after (hub : Hub) (access : Access) (modelId : String) (turn : Turn) : List Request :=
  (turn.outcome hub access modelId).1

/-- The hub gives the file, and its body is complete. -/
def Gives (hub : Hub) (access : Access) (modelId : String) (turn : Turn)
    (content : List UInt8) : Prop :=
  ∃ status, status < 400 ∧ (turn.outcome hub access modelId).2 = .ok (status, .complete content)

/-- The hub does not have the file. -/
def Lacks (hub : Hub) (access : Access) (modelId : String) (turn : Turn) : Prop :=
  ∃ body, (turn.outcome hub access modelId).2 = .ok (404, body)

theorem not_gives_of_lacks {hub : Hub} {access : Access} {modelId : String} {turn : Turn}
    {content : List UInt8} (lacks : turn.Lacks hub access modelId) :
    ¬turn.Gives hub access modelId content := by
  rcases lacks with ⟨body, lacked⟩
  rintro ⟨status, good, gave⟩
  rw [lacked] at gave
  cases gave
  omega

end Turn

/-- Asking the hub for a file of a model in the course of a fetch. -/
structure Exchange where
  file : String
  /-- How far the fetch has come when it asks. -/
  before : Progress

namespace Exchange

/-- An exchange as a turn after the requests of the fetch so far. -/
def turn (exchange : Exchange) : Turn :=
  ⟨exchange.file, exchange.before.requests⟩

/-- All requests up to the end of an exchange, and what comes of the last one. -/
def outcome (hub : Hub) (access : Access) (modelId : String) (exchange : Exchange) :
    List Request × Except Refusal (Nat × Body) :=
  exchange.turn.outcome hub access modelId

/-- The hub gives the file, and its body is complete. -/
def Gives (hub : Hub) (access : Access) (modelId : String) (exchange : Exchange)
    (content : List UInt8) : Prop :=
  exchange.turn.Gives hub access modelId content

/-- The hub does not have the file. -/
def Lacks (hub : Hub) (access : Access) (modelId : String) (exchange : Exchange) : Prop :=
  exchange.turn.Lacks hub access modelId

theorem gives_iff {hub : Hub} {access : Access} {modelId : String} {exchange : Exchange}
    {content : List UInt8} :
    exchange.Gives hub access modelId content ↔
      ∃ status, status < 400 ∧
        (exchange.outcome hub access modelId).2 = .ok (status, .complete content) :=
  Iff.rfl

/-- It does not matter for an exchange what the journal has been told. -/
theorem get_tell (hub : Hub) (access : Access) (modelId file text : String) (progress : Progress) :
    hub.get access.token (progress.tell text).requests (access.address modelId file) =
      outcome hub access modelId ⟨file, progress⟩ := rfl

end Exchange

/-- One of some exchanges gives a file. -/
def Gave (hub : Hub) (access : Access) (modelId : String) (exchanges : List Exchange)
    (file : String) (content : List UInt8) : Prop :=
  ∃ exchange ∈ exchanges, exchange.file = file ∧ exchange.Gives hub access modelId content

/-- One of some exchanges tells that the hub does not have a file. -/
def Lacked (hub : Hub) (access : Access) (modelId : String) (exchanges : List Exchange)
    (file : String) : Prop :=
  ∃ exchange ∈ exchanges, exchange.file = file ∧ exchange.Lacks hub access modelId

/-- Requests that begin with a given one, and of which every later one is for the address that the
hub has referred to when it answered the one before. -/
inductive Referred (hub : Hub) : List Request → Request → List Request → Prop where
  | last (earlier : List Request) (request : Request) : Referred hub earlier request [request]
  | next {earlier : List Request} {request : Request} {status : Nat} {reference : String}
      {body : Body} {url : Url} {more : List Request}
      (answer : hub earlier request = .answer status (some reference) body)
      (refers : request.url.refer reference = .ok url)
      (later : Referred hub (earlier ++ [request]) ⟨url, none⟩ more) :
      Referred hub earlier request (request :: more)

variable {hub : Hub}

/-- An address can be asked for: it is one of the web, and the token can be shown. -/
structure Askable (token : Option String) (address : String) (url : Url) : Prop where
  parsed : Url.ofString address = .ok url
  web : url.scheme = "http" ∨ url.scheme = "https"
  shown : ∀ text, token = some text → isShowable text

theorem follow_eq_of_not_web {request : Request} (first : Url) (count : Nat)
    (earlier : List Request)
    (other : ¬(request.url.scheme = "http" ∨ request.url.scheme = "https")) :
    (follow hub first count earlier request).1 = earlier := by
  rw [not_or] at other
  cases count <;> rw [follow, if_pos other]

theorem follow_referred {request : Request} (first : Url) (count : Nat) (earlier : List Request)
    (web : request.url.scheme = "http" ∨ request.url.scheme = "https") :
    ∃ made, (follow hub first count earlier request).1 = earlier ++ made ∧
      Referred hub earlier request made := by
  induction count generalizing earlier request with
  | zero =>
      refine ⟨[request], ?_, .last earlier request⟩
      rw [follow, if_neg (Decidable.or_iff_not_not_and_not.mp web)]
      dsimp only
      split
      · rfl
      · split <;> rfl
  | succ count ih =>
      -- unless a reference is followed, this request is the last
      have alone : ∃ made, earlier ++ [request] = earlier ++ made ∧
          Referred hub earlier request made :=
        ⟨[request], rfl, .last earlier request⟩
      rw [follow, if_neg (Decidable.or_iff_not_not_and_not.mp web)]
      dsimp only
      split
      · exact alone
      · next status reference body answer =>
        split
        · cases reference with
          | none => exact alone
          | some reference =>
              dsimp only
              split
              · exact alone
              · next url refers =>
                split
                · by_cases web : url.scheme = "http" ∨ url.scheme = "https"
                  · rcases @ih ⟨url, none⟩ (earlier ++ [request]) web with ⟨made, requests, later⟩
                    rw [requests]
                    exact ⟨request :: made, by simp, .next answer refers later⟩
                  · rw [follow_eq_of_not_web first count (earlier ++ [request]) web]
                    exact alone
                · exact alone
        · exact alone

/-- Asking for an address that can be asked for begins with the request for it. -/
theorem get_referred {token : Option String} {address : String} {url : Url}
    (askable : Askable token address url) (earlier : List Request) :
    ∃ made, (hub.get token earlier address).1 = earlier ++ made ∧
      Referred hub earlier ⟨url, token⟩ made := by
  have shown : token.filter (!isShowable ·) = none := by
    rw [Option.filter_eq_none_iff]
    intro text given
    simp [askable.shown text given]
  rw [get, shown, askable.parsed]
  exact follow_referred url (referenceLimit - 1) earlier askable.web

/-- An address that cannot be asked for is not asked for. -/
theorem get_of_not_askable {token : Option String} {address : String}
    (not_askable : ∀ url, ¬Askable token address url) (earlier : List Request) :
    (hub.get token earlier address).1 = earlier := by
  unfold get
  split
  · rfl
  · next shown =>
    split
    · rfl
    · next url parsed =>
      apply follow_eq_of_not_web
      intro web
      refine not_askable url ⟨parsed, web, fun text given => ?_⟩
      simpa using Option.filter_eq_none_iff.mp shown text given

/-- The requests of an exchange: none, or one for the address of the file, with the token of the
operator, and then those that the hub has asked for. -/
theorem Exchange.referred (hub : Hub) (access : Access) (modelId : String) (exchange : Exchange) :
    ∃ made, (exchange.outcome hub access modelId).1 = exchange.before.requests ++ made ∧
      (made = [] ∨ ∃ url, Url.ofString (access.address modelId exchange.file) = .ok url ∧
        Referred hub exchange.before.requests ⟨url, access.token⟩ made) := by
  by_cases can : ∃ url, Askable access.token (access.address modelId exchange.file) url
  · rcases can with ⟨url, askable⟩
    rcases get_referred askable exchange.before.requests with ⟨made, requests, chain⟩
    exact ⟨made, requests, .inr ⟨url, askable.parsed, chain⟩⟩
  · refine ⟨[], ?_, .inl rfl⟩
    rw [List.append_nil]
    exact get_of_not_askable (not_exists.mp can) exchange.before.requests

end Hub

end TextVectors
