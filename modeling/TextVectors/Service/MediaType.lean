/-!
# Media types

The form of the header that says what a body holds: a type, a slash, a subtype
that may end in a plus sign and a suffix, and parameters after semicolons. A
body is JSON if its type is `application` and its subtype or suffix is `json`,
in any case of the letters.
-/

namespace TextVectors

/-- A media type; the subtype comes without its suffix. -/
structure MediaType where
  type : List Char
  subtype : List Char
  suffix : Option (List Char)
  deriving DecidableEq, Repr

namespace MediaType

/-- Whether a character may stand in a name. -/
def isToken (c : Char) : Bool :=
  c.isAlphanum || "!#$%&'*+-.^_`|~".toList.contains c

/-- Whether a character may stand between quotes. -/
def isQuotable (c : Char) : Bool :=
  c == '\t' || (0x20 ≤ c.toNat && c.toNat ≠ 0x7F)

/-- The characters after a quoted value, past its closing quote. -/
def skipQuoted : List Char → Option (List Char)
  | [] => none
  | '"' :: rest => some rest
  | '\\' :: c :: rest => if isQuotable c then skipQuoted rest else none
  | c :: rest => if isQuotable c then skipQuoted rest else none

/-- Whether a text is a list of parameters, from after a semicolon on; at most `fuel` of them. -/
def isParameters : Nat → List Char → Bool
  | 0, _ => false
  | fuel + 1, text =>
    let text := text.dropWhile (· == ' ')
    if text.isEmpty then true
    else
      let name := text.takeWhile fun c => isToken c
      match text.dropWhile fun c => isToken c with
      | '=' :: '"' :: rest =>
        if name.isEmpty then false
        else
          match skipQuoted rest with
          | none => false
          | some [] => true
          | some (';' :: rest) => isParameters fuel rest
          | some _ => false
      | '=' :: rest =>
        if name.isEmpty then false
        else
          match rest.dropWhile fun c => isToken c with
          | [] => true
          | ';' :: more =>
            if (rest.takeWhile fun c => isToken c).isEmpty then false else isParameters fuel more
          | _ => false
      | _ => false

/-- The characters before and after the last plus sign that is not the first character. -/
def splitSuffix (name : List Char) : List Char × Option (List Char) :=
  let suffix := (name.reverse.takeWhile (· ≠ '+')).reverse
  let before := name.take (name.length - suffix.length - 1)
  if name.contains '+' && !before.isEmpty then (before, some suffix) else (name, none)

def ofText? (text : List Char) : Option MediaType :=
  let text := text.map Char.toLower
  let type := text.takeWhile fun c => isToken c
  match text.dropWhile fun c => isToken c with
  | '/' :: rest =>
    let name := rest.takeWhile fun c => isToken c
    let (subtype, suffix) := splitSuffix name
    if type.isEmpty then none
    else
      match rest.dropWhile fun c => isToken c with
      | [] => some ⟨type, subtype, suffix⟩
      | ';' :: parameters =>
        if !name.isEmpty && isParameters (parameters.length + 1) parameters then
          some ⟨type, subtype, suffix⟩
        else none
      | _ => none
  | _ => none

def isJson (media : MediaType) : Bool :=
  media.type == "application".toList &&
    (media.subtype == "json".toList || media.suffix == some "json".toList)

end MediaType

end TextVectors
