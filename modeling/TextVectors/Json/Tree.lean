import TextVectors.Json.Decode

/-!
# Values of any shape

A JSON value as a tree, for texts whose shape depends on what they hold. Values
are nested at most so deep; members of an object keep their order, and the first
of several members of one name is the one that is found.
-/

namespace TextVectors

namespace Json

/-- A JSON value. -/
inductive Tree where
  | null
  | bool (value : Bool)
  | number (value : Numeral)
  | text (value : String)
  | list (items : List Tree)
  | object (members : List (String × Tree))

/-- Reads the members of an object, at most `fuel` of them. -/
def entries {α : Type} (read : Reader α) : Nat → Bool → Reader (List (String × α))
  | 0, _, bytes => Defect.before .endInObject bytes
  | fuel + 1, first, bytes => do
    let (more, rest) ← nextKey first bytes
    if more then
      let (key, rest) ← stringRest rest
      let rest ← colon rest
      let (value, rest) ← (read rest).mapError (·.within (.field key))
      let (values, rest) ← entries read fuel false rest
      return ((key, value) :: values, rest)
    else return ([], rest.drop 1)

/-- Reads a value in which at most `depth` containers stand inside each other. -/
def tree : Nat → Reader Tree
  | depth, bytes =>
    match skipBlanks bytes with
    | [] => Defect.before .endInValue []
    | byte :: rest =>
      if byte = 0x6E then (literal nullRest rest).map (Tree.null, ·)
      else if byte = 0x74 then (literal trueRest rest).map (Tree.bool true, ·)
      else if byte = 0x66 then (literal falseRest rest).map (Tree.bool false, ·)
      else if beginsNumber byte then
        (number (byte :: rest)).map fun (value, rest) => (Tree.number value, rest)
      else if byte = 0x22 then
        (stringRest rest).map fun (value, rest) => (Tree.text value, rest)
      else if byte = 0x5B ∨ byte = 0x7B then
        match depth with
        | 0 => Defect.at .tooDeep (byte :: rest)
        | depth + 1 =>
          if byte = 0x5B then
            (items (tree depth) (rest.length + 1) 0 true rest).map fun (values, rest) =>
              (Tree.list values, rest)
          else
            (entries (tree depth) (rest.length + 1) true rest).map fun (values, rest) =>
              (Tree.object values, rest)
      else Defect.at .expectedValue (byte :: rest)

/-- The greatest number of containers inside each other. -/
def greatestDepth : Nat := 127

namespace Tree

/-- The first member of a name. -/
def get? (tree : Tree) (name : String) : Option Tree :=
  match tree with
  | .object members => members.lookup name
  | _ => none

/-- How a value is named when another was expected. -/
def found : Tree → String
  | .null => "null"
  | .bool true => "boolean `true`"
  | .bool false => "boolean `false`"
  | .number value => value.found
  | .text value => "string " ++ Text.quoted value
  | .list _ => "sequence"
  | .object _ => "map"

def asText : Tree → Except Fault String
  | .text value => .ok value
  | other => .error (.wrongKind other.found "a string")

def asBoolean : Tree → Except Fault Bool
  | .bool value => .ok value
  | other => .error (.wrongKind other.found "a boolean")

def asNatural (bound : Nat) (expected : String) : Tree → Except Fault Nat
  | .number value => value.naturalBelow bound expected
  | other => .error (.wrongKind other.found expected)

/-- A natural number that fits sixty-four bits. -/
def asSize : Tree → Except Fault Nat :=
  asNatural (Nat.pow 2 64) "usize"

/-- A natural number that fits thirty-two bits. -/
def asWord : Tree → Except Fault Nat :=
  asNatural (Nat.pow 2 32) "u32"

def asItems : Tree → Except Fault (List Tree)
  | .list items => .ok items
  | other => .error (.wrongKind other.found "a sequence")

def asMembers : Tree → Except Fault (List (String × Tree))
  | .object members => .ok members
  | other => .error (.wrongKind other.found "a map")

/-- What a member holds, which must be there. -/
def member {α : Type} (tree : Tree) (name : String) (meaning : Tree → Except Fault α) :
    Except Fault α :=
  match tree.get? name with
  | some value => meaning value
  | none => .error (.missingField name)

end Tree

/-- Reads `null`. -/
def unit : Reader Unit := fun bytes =>
  match skipBlanks bytes with
  | 0x6E :: rest => (literal nullRest rest).map ((), ·)
  | bytes => wrongKind "unit" bytes

/-- What a name stands for: a meaning of its own, or that of a value that comes with it. -/
inductive Variant (α : Type) where
  | plain (meaning : α)
  | holding (read : Reader α)

/-- Reads one of some names after the quote that opens it. -/
private def variantName {α : Type} (known : List (String × Variant α)) : Reader (Variant α) :=
  fun bytes => do
    let (name, rest) ← stringRest bytes
    match known.lookup name with
    | some variant => return (variant, rest)
    | none => Defect.before (.unknownVariant name (known.map (·.1))) rest

/-- Reads one of some names. A name stands alone, or it is the only key of an object, with the value
that comes with it or else with `null`. -/
def variant {α : Type} (known : List (String × Variant α)) : Reader α := fun bytes =>
  match skipBlanks bytes with
  | 0x22 :: rest => do
    match ← variantName known rest with
    | (.plain meaning, rest) => return (meaning, rest)
    | (.holding _, rest) =>
      Defect.before (.wrongKind "unit variant" "newtype variant") (objectPlace rest)
  | 0x7B :: rest =>
    match skipBlanks rest with
    | 0x22 :: rest => do
      let (variant, rest) ← variantName known rest
      let rest ← colon rest
      let (meaning, rest) ←
        match variant with
        | .plain meaning => (unit rest).map fun ((), rest) => (meaning, rest)
        | .holding read => read rest
      match skipBlanks rest with
      | [] => Defect.before .endInObject []
      | byte :: rest =>
        if byte = 0x7D then return (meaning, rest)
        else Defect.before .expectedValue (byte :: rest)
    | rest => wrongKind "variant identifier" rest
  | [] => Defect.before .endInValue []
  | bytes => Defect.at .expectedValue bytes

/-- Reads one of some names, each with its meaning. -/
def named {α : Type} (known : List (String × α)) : Reader α :=
  variant (known.map fun (name, meaning) => (name, .plain meaning))

end Json

end TextVectors
