import TextVectors.Url.Host

/-!
# Addresses on the web

The text of an address is read into its parts and written in one normal form:
the scheme and the host are in lower case, the usual port is left out, steps
like `.` and `..` are taken, and characters that may not stand in a part are
encoded. Blanks around the text and line ends inside it mean nothing. Only an
address with a host is accepted.
-/

namespace TextVectors

/-- An address. -/
structure Url where
  scheme : String
  /-- A name and a password with the sign that ends them, or nothing. -/
  credentials : String
  host : String
  /-- The port, if it is not the usual one. -/
  port : Option Nat
  /-- The names between the slashes of the path. -/
  path : List String
  query : Option String
  fragment : Option String
  deriving DecidableEq, Repr

namespace Url

/-- The usual ports of the common schemes. -/
def usualPorts : List (String × Option Nat) := [
  ("http", some 80), ("https", some 443), ("ws", some 80), ("wss", some 443), ("ftp", some 21),
  ("file", none)]

/-- Whether a scheme is a common one, in which backslashes are slashes. -/
def isCommon (scheme : String) : Bool :=
  (usualPorts.lookup scheme).isSome

/-- An address in its normal form. -/
def text (url : Url) : String :=
  let port :=
    match url.port with
    | some port => ":" ++ toString port
    | none => ""
  let query :=
    match url.query with
    | some query => "?" ++ query
    | none => ""
  let fragment :=
    match url.fragment with
    | some fragment => "#" ++ fragment
    | none => ""
  url.scheme ++ "://" ++ url.credentials ++ url.host ++ port ++
    "".intercalate (url.path.map ("/" ++ ·)) ++ query ++ fragment

/-! ## Parts -/

/-- Text without what means nothing. -/
def tidy (text : List Char) : List Char :=
  let isEdge (c : Char) : Bool := c.toNat ≤ 0x20
  let trimmed := ((text.dropWhile isEdge).reverse.dropWhile isEdge).reverse
  trimmed.filter fun c => c ≠ '\t' && c ≠ '\n' && c ≠ '\r'

/-- The scheme in lower case and what follows its colon. -/
def scheme? (text : List Char) : Option (String × List Char) :=
  let name := text.takeWhile fun c => c.isAlphanum || c == '+' || c == '-' || c == '.'
  match name, text.drop name.length with
  | first :: _, ':' :: rest =>
    if first.isAlpha then some (String.ofList (name.map Char.toLower), rest) else none
  | _, _ => none

/-- The part of a text before a character, and the part after it if it is there. -/
def before (mark : Char) (text : List Char) : List Char × Option (List Char) :=
  match Text.cut mark text with
  | some (front, back) => (front, some back)
  | none => (text, none)

def readPort (text : List Char) : Except Error (Option Nat) :=
  if !text.all Char.isDigit then .error .badPort
  else if text.isEmpty then .ok none
  else
    let port := text.foldl (fun value c => value * 10 + (c.toNat - '0'.toNat)) 0
    if port < Nat.pow 2 16 then .ok (some port) else .error .badPort

/-- The text before the last occurrence of a character, and the text after it. -/
def lastCut (mark : Char) (text : List Char) : Option (List Char × List Char) :=
  (Text.cut mark text.reverse).map fun (back, front) => (front.reverse, back.reverse)

/-- A name and a password with the sign that ends them. -/
def credentialsOf (text : List Char) : List Char :=
  let (name, password) := before ':' text
  let password :=
    match password with
    | some (c :: rest) => ':' :: encode encodedInCredentials (c :: rest)
    | _ => []
  let both := encode encodedInCredentials name ++ password
  if both.isEmpty then [] else both ++ ['@']

/-- The host and the text of its port, if a colon stands behind it. A colon between brackets belongs
to the host. -/
def splitPort (inBrackets : Bool) : List Char → List Char × Option (List Char)
  | [] => ([], none)
  | c :: rest =>
    if c = ':' ∧ !inBrackets then ([], some rest)
    else
      let (host, port) :=
        splitPort (if c = '[' then true else if c = ']' then false else inBrackets) rest
      (c :: host, port)

/-- The steps that go nowhere. -/
def isHere (name : List Char) : Bool :=
  ["." , "%2e"].contains (String.ofList (name.map Char.toLower))

/-- The steps that go up. -/
def isUp (name : List Char) : Bool :=
  ["..", "%2e.", ".%2e", "%2e%2e"].contains (String.ofList (name.map Char.toLower))

/-- Takes the steps of a path; the names so far are given from the last one on. -/
def takeSteps (names : List String) : List (List Char) → List String
  | [] => names.reverse
  | name :: rest =>
    -- A step at the end of a path leaves a slash there.
    if isUp name then
      takeSteps (if rest.isEmpty then "" :: names.drop 1 else names.drop 1) rest
    else if isHere name then takeSteps (if rest.isEmpty then "" :: names else names) rest
    else takeSteps (String.ofList (encode encodedInPath name) :: names) rest

/-- The names of a path that begins with a slash, or of an empty one. -/
def pathOf (text : List Char) : List String :=
  match text with
  | '/' :: rest => takeSteps [] (Text.pieces '/' rest)
  | rest => takeSteps [] (Text.pieces '/' rest)

/-- Where the path behind a host begins. -/
def isSlash (common : Bool) (c : Char) : Bool :=
  c == '/' || (common && c == '\\')

/-- Reads what follows the slashes behind a scheme. -/
def readAuthority (scheme : String) (rest : List Char) (query fragment : Option (List Char)) :
    Except Error Url := do
  let common := isCommon scheme
  let authority := rest.takeWhile (!isSlash common ·)
  let path := (rest.drop authority.length).map fun c => if isSlash common c then '/' else c
  -- A password may have the sign in it that ends it.
  let (credentials, place) := (lastCut '@' authority).getD ([], authority)
  if place.isEmpty ∧ authority.contains '@' then throw .emptyHost
  let (hostText, portText) := splitPort false place
  if hostText.isEmpty then throw .emptyHost
  let host ← if common then Host.read hostText else Host.readOpaque hostText
  let port ← readPort (portText.getD [])
  let encodedQuery (text : List Char) : String :=
    String.ofList (encode (fun c => encodedInQuery c && (common || c != '\'')) text)
  return {
    scheme
    credentials := String.ofList (credentialsOf credentials)
    host
    port := if usualPorts.lookup scheme = some port then none else port
    path := if !common && path.isEmpty then [] else pathOf path
    query := query.map encodedQuery
    fragment := fragment.map fun text => String.ofList (encode encodedInFragment text) }

/-- Reads the text of an address. -/
def ofString (raw : String) : Except Error Url := do
  let some (scheme, rest) := scheme? (tidy raw.toList) | throw .relative
  let (rest, fragment) := before '#' rest
  let (rest, query) := before '?' rest
  let common := isCommon scheme
  let slashes := (rest.takeWhile (isSlash common)).length
  if scheme = "file" then
    let host := ((rest.drop 2).takeWhile (!isSlash common ·)).map Char.toLower
    if slashes ≠ 2 ∨ host = "localhost".toList then throw .emptyHost
    readAuthority scheme (rest.drop 2) query fragment
  else if common then readAuthority scheme (rest.drop slashes) query fragment
  else if rest.take 2 = ['/', '/'] then readAuthority scheme (rest.drop 2) query fragment
  else throw .emptyHost

/-- The address that a reference in the answer from another address leads to. -/
def refer (base : Url) (reference : String) : Except Error Url :=
  let origin : Url := { base with path := [], query := none, fragment := none }
  match tidy reference.toList with
  | [] => .ok { base with fragment := none }
  | '/' :: '/' :: rest => ofString (base.scheme ++ "://" ++ String.ofList rest)
  | '/' :: rest => ofString (origin.text ++ "/" ++ String.ofList rest)
  | '?' :: rest =>
    ofString ({ base with query := none, fragment := none }.text ++ "?" ++ String.ofList rest)
  | '#' :: rest => ofString ({ base with fragment := none }.text ++ "#" ++ String.ofList rest)
  | rest =>
    if (scheme? rest).isSome then ofString (String.ofList rest)
    else
      ofString ({ origin with path := base.path.dropLast }.text ++ "/" ++ String.ofList rest)

end Url

end TextVectors
