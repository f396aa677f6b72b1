import TextVectors.Number.Decimal

/-!
# Spans of time

A span is a number of milliseconds. It is written in two ways: in its natural
unit, as in `20ms` and `1.5s`, and as a number of seconds of the single format.
-/

namespace TextVectors

/-- A span of time. -/
structure Span where
  milliseconds : Nat
  deriving DecidableEq, Repr

namespace Span

def ofSeconds (seconds : Nat) : Span := ⟨seconds * 1000⟩

/-- The thousandths of a second as digits after the point, without zeros at the end. -/
private def fraction (thousandths : Nat) : String :=
  let digits := (Nat.toDigits 10 (1000 + thousandths)).drop 1
  let kept := (digits.reverse.dropWhile (· == '0')).reverse
  if kept.isEmpty then "" else "." ++ String.ofList kept

/-- The span in its natural unit. -/
def text (span : Span) : String :=
  let seconds := span.milliseconds / 1000
  let rest := span.milliseconds % 1000
  if 0 < seconds then toString seconds ++ fraction rest ++ "s"
  else if 0 < rest then toString rest ++ "ms"
  else "0ns"

/-- Numbers without an exponent, and without a point if they are whole. -/
private def plainLayout : Number.Layout := ⟨none, "", ""⟩

/-- The span as a rounded number of seconds. -/
def secondsText (span : Span) : String :=
  let format := Number.Format.single
  let whole := format.nearest false (span.milliseconds / 1000) 1
  let billionths := format.nearest false (span.milliseconds % 1000 * 1000000) 1
  let value := format.add whole (format.div billionths (format.nearest false (Nat.pow 10 9) 1))
  (value.text? format plainLayout).getD ""

end Span

end TextVectors
