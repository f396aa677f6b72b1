/-!
# Failures and their causes

A failure is a message together with the messages of what caused it, the nearest
cause first. Every part of the service reports its own kind of error; a
`Failure` is what remains of one when only its wording matters any more. It is
written in two ways: on one line, for answers and for the log, and as a report
with a list of causes, for the end of the process.
-/

namespace TextVectors

/-- A message and the chain of messages that explains it. -/
structure Failure where
  message : String
  causes : List String := []
  deriving DecidableEq, Repr

namespace Failure

/-- A failure whose cause is the given one. -/
def context (message : String) (cause : Failure) : Failure :=
  ⟨message, cause.message :: cause.causes⟩

/-- The whole chain on one line. -/
def oneLine (failure : Failure) : String :=
  ": ".intercalate (failure.message :: failure.causes)

/-- Spaces in front of a number so that it takes `width` columns. -/
private def padLeft (width : Nat) (text : String) : String :=
  "".pushn ' ' (width - text.length) ++ text

/-- The lines of one cause: the first after `first`, the others after `later`. -/
private def causeLines (first later cause : String) : List String :=
  match cause.splitOn "\n" with
  | [] => [first]
  | line :: rest => (first ++ line) :: rest.map (later ++ ·)

/-- The causes as lines. A single cause stands alone; several are numbered from zero. -/
private def causesLines : List String → List String
  | [cause] => causeLines "    " "    " cause
  | causes =>
    (causes.zipIdx.map fun (cause, number) =>
      causeLines (padLeft 5 (toString number) ++ ": ") "       " cause).flatten

/-- The failure with its causes below it, as it is shown when the process ends. -/
def report (failure : Failure) : String :=
  match failure.causes with
  | [] => failure.message
  | causes => "\n".intercalate (failure.message :: "" :: "Caused by:" :: causesLines causes)

end Failure

end TextVectors
