import TextVectors.Hub.Basic
import TextVectors.Number.Hexadecimal
import TextVectors.Text.Blank

/-!
# Requests and answers as bytes

How a request is sent and how an answer is read, one of each on a connection.
An answer begins with a line that holds its status, then come its headers up to
an empty line, and then its body: in pieces that each tell their length, or of
the length that a header tells, or up to the end of the connection. A body that
ends too early is broken.
-/

namespace TextVectors

namespace Hub

/-- What stands between the path and the end of an address, as it is asked for. -/
def Request.target (request : Request) : String :=
  let path := "".intercalate (request.url.path.map ("/" ++ ·))
  let query :=
    match request.url.query with
    | some query => "?" ++ query
    | none => ""
  (if path = "" then "/" else path) ++ query

/-- The host of an address with its port, if that is not the usual one. -/
def Request.host (request : Request) : String :=
  match request.url.port with
  | some port => request.url.host ++ ":" ++ toString port
  | none => request.url.host

def Request.bytes (request : Request) : List UInt8 :=
  let token :=
    match request.token with
    | some token => ["Authorization: Bearer " ++ token]
    | none => []
  let lines := ["GET " ++ request.target ++ " HTTP/1.1", "Host: " ++ request.host, "Accept: */*",
    "Connection: close"] ++ token
  ("".intercalate (lines.map (· ++ "\r\n")) ++ "\r\n").toUTF8.toList

/-! ## Reading an answer -/

/-- The first line and what follows it. A line may end in a carriage return, which is not part of
it. -/
def cutLine : List UInt8 → Option (List UInt8 × List UInt8)
  | [] => none
  | 10 :: rest => some ([], rest)
  | 13 :: 10 :: rest => some ([], rest)
  | byte :: rest => (cutLine rest).map fun (line, rest) => (byte :: line, rest)

theorem length_of_cutLine {bytes line rest : List UInt8}
    (h : cutLine bytes = some (line, rest)) : rest.length < bytes.length := by
  fun_induction cutLine bytes generalizing line rest with
  | case1 => simp at h
  | case2 tail =>
    obtain ⟨_, rfl⟩ := Prod.mk.inj (Option.some.inj h)
    exact Nat.lt_succ_self _
  | case3 tail =>
    obtain ⟨_, rfl⟩ := Prod.mk.inj (Option.some.inj h)
    exact Nat.lt_succ_of_lt (Nat.lt_succ_self _)
  | case4 byte more _ _ ih =>
    obtain ⟨⟨front, back⟩, hcut, heq⟩ := Option.map_eq_some_iff.1 h
    simp only [Prod.mk.injEq] at heq
    obtain ⟨_, rfl⟩ := heq
    have := ih hcut
    simp only [List.length_cons]
    omega

/-- Bytes as text, each byte a character. -/
def textOf (bytes : List UInt8) : List Char :=
  bytes.map fun byte => Char.ofNat byte.toNat

/-- The lines up to the first empty one, and what follows it. -/
def cutHead (bytes : List UInt8) : Option (List (List Char) × List UInt8) :=
  match h : cutLine bytes with
  | none => none
  | some ([], rest) => some ([], rest)
  | some (line, rest) =>
    have := length_of_cutLine h
    (cutHead rest).map fun (lines, rest) => (textOf line :: lines, rest)
termination_by bytes.length

/-- The name of a header in lower case, and its value. -/
def readHeader (line : List Char) : Option (String × String) :=
  (Text.cut ':' line).map fun (name, value) =>
    (String.ofList (name.map Char.toLower), String.ofList (Text.trimList value))

/-- The status in the first line of an answer. -/
def readStatus (line : List Char) : Option Nat :=
  match Text.pieces ' ' line with
  | protocol :: digits :: _ =>
    if "HTTP/1.".toList.isPrefixOf protocol ∧ digits.length = 3 ∧ digits.all Char.isDigit then
      some (digits.foldl (fun value c => value * 10 + (c.toNat - '0'.toNat)) 0)
    else none
  | _ => none

/-- What is said of a body that ends too early. -/
def shortBody : String := "response body closed before all bytes were read"

/-- Joins the pieces of a body, each of which stands behind its length in hexadecimal digits. An
empty piece is the last one. -/
def joinPieces (bytes : List UInt8) : Body :=
  match h : cutLine bytes with
  | none => .broken shortBody
  | some (line, rest) =>
    match Number.readHex? ((textOf line).takeWhile (· ≠ ';')) with
    | none => .broken "invalid chunk length"
    -- What stands behind the last piece is not looked at.
    | some 0 => .complete []
    | some length =>
      if rest.length < length then .broken shortBody
      else
        match h' : cutLine (rest.drop length) with
        | none => .broken shortBody
        | some (_, later) =>
          have : later.length < bytes.length := by
            have := length_of_cutLine h
            have := length_of_cutLine h'
            simp only [List.length_drop] at this
            omega
          match joinPieces later with
          | .complete content => .complete (rest.take length ++ content)
          | .broken detail => .broken detail
termination_by bytes.length

/-- The body of an answer with some headers, of which the rest of the connection is given. -/
def readBody (headers : List (String × String)) (rest : List UInt8) : Body :=
  if (headers.lookup "transfer-encoding").map (·.map Char.toLower) = some "chunked" then
    joinPieces rest
  else
    match (headers.lookup "content-length").bind String.toNat? with
    -- Without a length, the body ends with the connection.
    | none => .complete rest
    | some length =>
      if rest.length < length then .broken shortBody else .complete (rest.take length)

/-- The answer in the bytes of a connection that has been closed. -/
def Response.ofBytes (bytes : List UInt8) : Response :=
  match cutHead bytes with
  | some (first :: lines, rest) =>
    match readStatus first with
    | some status =>
      let headers := lines.filterMap readHeader
      .answer status (headers.lookup "location") (readBody headers rest)
    | none => .unreachable "Bad Status" "Bad status line"
  | _ => .unreachable "Network Error" "Unexpected EOF"

end Hub

end TextVectors
