/-!
# Spans of time in print

A span is printed in the largest of the units second, millisecond, microsecond and nanosecond of
which it holds at least one, as a decimal without zeros at its end.
-/

namespace EmbeddedVm

/-- A number of units with a fraction of `width` digits, without the zeros at its end. -/
def decimalFraction (whole fraction width : Nat) : String :=
  let written := Nat.toDigits 10 fraction
  let padded := List.replicate (width - written.length) '0' ++ written
  let kept := (padded.reverse.dropWhile (· == '0')).reverse
  if kept.isEmpty then toString whole
  else toString whole ++ "." ++ String.ofList kept

/-- A span of nanoseconds in print. -/
def displayNanoseconds (ns : Nat) : String :=
  if 1000000000 ≤ ns then decimalFraction (ns / 1000000000) (ns % 1000000000) 9 ++ "s"
  else if 1000000 ≤ ns then decimalFraction (ns / 1000000) (ns % 1000000) 6 ++ "ms"
  else if 1000 ≤ ns then decimalFraction (ns / 1000) (ns % 1000) 3 ++ "µs"
  else toString ns ++ "ns"

/-- A span of milliseconds in print. -/
def displayMilliseconds (ms : Nat) : String := displayNanoseconds (ms * 1000000)

end EmbeddedVm
