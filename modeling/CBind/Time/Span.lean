import CBind.Number.Numeral
import CBind.Number.Power

/-!
# Spans of time

A span is a whole number of nanoseconds. It is written in the largest of seconds, milliseconds,
microseconds and nanoseconds of which it has at least one, as a whole number and the decimals that
are left, without zeros at the end.
-/

namespace CBind

/-- A span of time in nanoseconds. -/
structure Span where
  nanos : Nat
deriving DecidableEq, Repr

namespace Span

/-- Drop the zeros at the end of decimals. -/
def dropTrailingZeros (cs : List Char) : List Char :=
  (cs.reverse.dropWhile (· == '0')).reverse

/-- Write `n` units of `10 ^ places` parts each: the whole units, then the parts as decimals. -/
def writeUnits (places n : Nat) (unit : String) : String :=
  let decimals := dropTrailingZeros (padZeros places (digits 10 (n % tenTo places)))
  decimal (n / tenTo places) ++
    (if decimals.isEmpty then "" else "." ++ String.ofList decimals) ++ unit

/-- Write a span in its largest fitting unit. -/
def spelling (d : Span) : String :=
  if 1000000000 ≤ d.nanos then writeUnits 9 d.nanos "s"
  else if 1000000 ≤ d.nanos then writeUnits 6 d.nanos "ms"
  else if 1000 ≤ d.nanos then writeUnits 3 d.nanos "µs"
  else writeUnits 0 d.nanos "ns"

end Span

end CBind
