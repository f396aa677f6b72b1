import TextVectors.Journal
import TextVectors.Failure
import TextVectors.Text.Blank
import TextVectors.Text.Split

/-!
# What the journal shows

An operator says in a line which entries are shown. The line has parts between
commas. A part is a level, for all entries; or the front of the name of a part
of the program, whose entries are all shown; or both with an equals sign between
them. Of several rules that fit an entry the one with the longest name decides,
and an entry that no rule fits is not shown. A line with a bad part is refused
as a whole, with all that is wrong with it.
-/

namespace TextVectors

namespace Journal

/-- How urgent an entry must be: as urgent as a level, or more than any entry is. -/
abbrev Limit := Option Level

/-- Whether an entry of a level is within a limit. -/
def Limit.admits (limit : Limit) (level : Level) : Bool :=
  match limit with
  | some least => level.rank ≤ least.rank
  | none => false

/-- The limit of a word, in any case. -/
def Limit.ofWord? (word : String) : Option Limit :=
  match word.map Char.toLower with
  | "off" => some none
  | "error" => some (some .error)
  | "warn" => some (some .warn)
  | "info" => some (some .info)
  | "debug" => some (some .debug)
  | "trace" => some (some .trace)
  | _ => none

/-- The limit of the entries from those parts of the program whose names begin with a name. -/
structure Rule where
  /-- Without a name the rule is for all entries. -/
  name : Option String
  limit : Limit
  deriving DecidableEq, Repr

namespace Rule

/-- The name of a rule, which is empty for all entries. -/
def front (rule : Rule) : String :=
  rule.name.getD ""

/-- Whether a rule is for the entries of a part of the program. -/
def fits (rule : Rule) (origin : Origin) : Bool :=
  rule.front.toList.isPrefixOf origin.path.toList

end Rule

/-- Rules, of which the first that fits an entry decides. -/
abbrev Filter := List Rule

namespace Filter

/-- What is wrong with a line of rules. -/
inductive Defect where
  | slash (line : String)
  | blankInName (name : String)
  | unknownLevel
  | badPart (part : String)
  deriving DecidableEq, Repr

def Defect.message : Defect → String
  | .slash line => "invalid log spec '" ++ line ++ "' (too many '/'s), ignoring it"
  | .blankInName name =>
    "ignoring invalid part in log spec '" ++ name ++ "' (contains a whitespace)"
  | .unknownLevel => "Invalid level filter"
  | .badPart part => "invalid part in log spec '" ++ part ++ "', ignoring it"

/-- The limit that shows everything. -/
def everything : Limit := some .trace

/-- The rule for a name, which must not have blanks in it. -/
def named (name : List Char) (limit : Limit) : Except Defect Rule :=
  if name.any Text.isBlank then .error (.blankInName (String.ofList name))
  else .ok ⟨some (String.ofList name), limit⟩

/-- Reads a part without blanks around it. -/
def readPart (part : List Char) : Except Defect Rule :=
  match (Text.pieces '=' part).map Text.trimList with
  | [word] =>
    match Limit.ofWord? (String.ofList word) with
    | some limit => .ok ⟨none, limit⟩
    | none => named word everything
  | [name, []] => named name everything
  | [name, word] => do
    let rule ← named name everything
    match Limit.ofWord? (String.ofList word) with
    | some limit => return { rule with limit }
    | none => throw .unknownLevel
  | _ => .error (.badPart (String.ofList part))

/-- What is right and what is wrong with some parts. -/
def readParts : List (List Char) → List Rule × List Defect
  | [] => ([], [])
  | part :: parts =>
    let (rules, defects) := readParts parts
    match readPart part with
    | .ok rule => (rule :: rules, defects)
    | .error defect => (rules, defect :: defects)

/-- Rules with the longest names first, and as they were where names are equally long. -/
def arrange (rules : List Rule) : Filter :=
  rules.mergeSort fun left right => right.front.utf8ByteSize ≤ left.front.utf8ByteSize

/-- Reads a line of rules. -/
def ofLine (line : String) : Except (List Defect) Filter :=
  if line.toList.contains '/' then .error [.slash line]
  else
    let parts := (Text.pieces ',' line.toList).map Text.trimList
    match readParts (parts.filter (· ≠ [])) with
    | (rules, []) => .ok (arrange rules)
    | (_, defects) => .error defects

def failure (line : String) (defects : List Defect) : Failure :=
  ⟨"invalid log level spec: " ++ line,
    ["Failed to parse log specification: " ++ "; ".intercalate (defects.map Defect.message)]⟩

/-- Whether an entry is shown. -/
def admits (filter : Filter) (entry : Entry) : Bool :=
  match filter.find? fun rule => rule.fits entry.origin with
  | some rule => rule.limit.admits entry.level
  | none => false

end Filter

end Journal

end TextVectors
