import TextVectors.Files
import TextVectors.Json.Decode
import TextVectors.Model.Artifacts

/-!
# Pooling

How the vectors of the tokens of a text become one vector: the one of the first
token is taken, or the mean of all that are not padding. A model says which in a
file of its own; without the file it is the mean.

The mean is taken in a given arithmetic: each vector is multiplied by its mark,
the products are added from the left, and the sum is divided by the sum of the
marks, which counts as a tiny number if it is less.
-/

namespace TextVectors

/-- How token vectors become one. -/
inductive Pooling where
  | first
  | mean
  deriving DecidableEq, Repr

namespace Pooling

/-- The name of a pooling in the journal. -/
def name : Pooling → String
  | .first => "Cls"
  | .mean => "Mean"

/-! ## Choice -/

/-- Which poolings a model switches on. -/
structure Switches where
  first : Bool
  mean : Bool
  deriving DecidableEq, Repr

/-- The shape of the file that says which pooling to use. A switch that is not given is off. -/
def switchesShape : Json.Shape (Option Bool × Option Bool) where
  name := "PoolingConfig"
  fields := [
    .of "pooling_mode_cls_token" (·.1) (fun draft value => (some value, draft.2)) Json.boolean
      (.standard fun draft => (some false, draft.2)),
    .of "pooling_mode_mean_tokens" (·.2) (fun draft value => (draft.1, some value)) Json.boolean
      (.standard fun draft => (draft.1, some false))]
  empty := (none, none)

/-- Reads which poolings are switched on. -/
def readSwitches : Json.Reader Switches := fun bytes => do
  let (draft, rest) ← switchesShape.read bytes
  return (⟨draft.1.getD false, draft.2.getD false⟩, rest)

/-- Why a model has no pooling. -/
inductive Error where
  | unreadable (path detail : String)
  | notParsed (path detail : String)
  | unsupported (path : String) (switches : Switches)
  deriving DecidableEq, Repr

def Error.failure : Error → Failure
  | .unreadable path detail => ⟨"read " ++ path, [detail]⟩
  | .notParsed path detail => ⟨"parse " ++ path, [detail]⟩
  | .unsupported path switches =>
    ⟨"unsupported pooling in " ++ path ++ " (cls=" ++ toString switches.first ++ ", mean=" ++
      toString switches.mean ++ "); exactly one of CLS or mean is supported", []⟩

/-- The pooling that is switched on, if it is the only one. -/
def ofSwitches (path : String) (switches : Switches) : Except Error Pooling :=
  match switches with
  | ⟨true, false⟩ => .ok .first
  | ⟨false, true⟩ => .ok .mean
  | _ => .error (.unsupported path switches)

/-- The pooling that the text of its file asks for. -/
def ofText (path : String) (text : List UInt8) : Except Error Pooling :=
  match Json.readWhole readSwitches text with
  | .ok switches => ofSwitches path switches
  | .error defect => .error (.notParsed path (defect.message text))

def ofModel (files : Files) (directory : String) : Except Error Pooling :=
  let path := Path.join directory Model.poolingFile
  if !files.isFile path then .ok .mean
  else
    match files.readText path with
    | .error detail => .error (.unreadable path detail)
    | .ok text => ofText path text.toUTF8.toList

/-! ## Means -/

/-- The operations that a mean is taken with. -/
structure Arithmetic (σ : Type) where
  zero : σ
  add : σ → σ → σ
  mul : σ → σ → σ
  div : σ → σ → σ
  max : σ → σ → σ
  ofInt : Int → σ
  /-- What the sum of the marks counts as if it is less. -/
  tiny : σ

namespace Arithmetic

variable {σ : Type} (arithmetic : Arithmetic σ)

/-- The sums of the components of marked vectors, each of which has `width` components. -/
def weighted (width : Nat) (vectors : List (List σ)) (marks : List Int) : List σ :=
  (vectors.zip marks).foldl
    (fun sums (vector, mark) =>
      List.zipWith arithmetic.add sums
        (vector.map fun component => arithmetic.mul component (arithmetic.ofInt mark)))
    (List.replicate width arithmetic.zero)

/-- The sum of marks, or the tiny number if it is less. -/
def divisor (marks : List Int) : σ :=
  arithmetic.max
    (marks.foldl (fun sum mark => arithmetic.add sum (arithmetic.ofInt mark)) arithmetic.zero)
    arithmetic.tiny

/-- The mean of the vectors of one text, weighted by their marks. -/
def mean (width : Nat) (vectors : List (List σ)) (marks : List Int) : List σ :=
  (arithmetic.weighted width vectors marks).map fun sum =>
    arithmetic.div sum (arithmetic.divisor marks)

end Arithmetic

end Pooling

end TextVectors
