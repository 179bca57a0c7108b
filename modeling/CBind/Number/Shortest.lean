import CBind.Number.Binary
import CBind.Number.Numeral

/-!
# The shortest decimal that reads back

A finite float is written with the fewest decimal digits that still round to it, and among those
with the digits nearest to it; of two equally near ones the larger magnitude is taken. The digits
are placed positionally whatever the size of the number: no exponent, no point behind a whole
number, and a sign on negative zero too.
-/

namespace CBind

/-- A positive value `num / den` with the ends of the interval that rounds to it. The ends belong to
the interval when `closed` holds. All three share the denominator. -/
structure RoundingInterval where
  low : Nat
  value : Nat
  high : Nat
  den : Nat
  closed : Bool
deriving Repr

/-- The interval of `m * 2 ^ q`. Below a power of two the neighbour is half as far away, unless the
value has the smallest exponent. -/
def FloatFormat.interval (f : FloatFormat) (m : Nat) (q : Int) : RoundingInterval :=
  let scale := twoTo q.toNat
  let belowIsCloser := m = twoTo f.fractionBits && f.minExponent < q
  { low := (4 * m - if belowIsCloser then 1 else 2) * scale
    value := 4 * m * scale
    high := (4 * m + 2) * scale
    den := 4 * twoTo (-q).toNat
    closed := m % 2 = 0 }

/-- Whether `n * 10 ^ e` lies in the interval. -/
def RoundingInterval.holds (i : RoundingInterval) (n : Nat) (e : Int) : Bool :=
  let x := n * tenTo e.toNat * i.den
  let unit := tenTo (-e).toNat
  if i.closed then i.low * unit ≤ x && x ≤ i.high * unit
  else i.low * unit < x && x < i.high * unit

/-- The last point of the grid with step `10 ^ e` that does not exceed the value. -/
def RoundingInterval.below (i : RoundingInterval) (e : Int) : Nat :=
  i.value * tenTo (-e).toNat / (i.den * tenTo e.toNat)

/-- The point of the grid with step `10 ^ e` that lies in the interval and is nearest to the value,
if the two points next to the value offer one. -/
def RoundingInterval.onGrid? (i : RoundingInterval) (e : Int) : Option Nat :=
  let n := i.below e
  let num := i.value * tenTo (-e).toNat
  let den := i.den * tenTo e.toNat
  let downHolds := n != 0 && i.holds n e
  let upHolds := i.holds (n + 1) e
  let upIsNearer := den ≤ 2 * (num - n * den)
  if upHolds && (upIsNearer || !downHolds) then some (n + 1)
  else if downHolds then some n
  else none

/-- The number of decimal digits before the point of `num / den`, zero or negative for a value
below one tenth. -/
def decimalMagnitude (num den : Nat) : Int :=
  if den ≤ num then ((digits 10 (num / den)).length : Int)
  else 1 - ((digits 10 ((den + num - 1) / num - 1)).length : Int)

/-- Search the grids from coarse to fine for a point of the interval. -/
def RoundingInterval.search (i : RoundingInterval) (e : Int) : Nat → Nat × Int
  | 0 => (i.below e, e)
  | fuel + 1 =>
    match i.onGrid? e with
    | some n => (n, e)
    | none => i.search (e - 1) fuel

/-- The shortest decimal `n * 10 ^ e` of a finite positive float. Twenty grids suffice for both
formats, since seventeen digits always read back. -/
def FloatFormat.shortest (f : FloatFormat) (m : Nat) (q : Int) : Nat × Int :=
  let i := f.interval m q
  i.search (decimalMagnitude i.value i.den - 1) 20

/-- Place the digits of `n * 10 ^ e` around the point. -/
def placeDigits (n : Nat) (e : Int) : String :=
  if 0 ≤ e then String.ofList (digits 10 n ++ List.replicate e.toNat '0')
  else
    let places := (-e).toNat
    let ds := padZeros (places + 1) (digits 10 n)
    let whole := ds.take (ds.length - places)
    let fraction := (ds.drop (ds.length - places)).reverse.dropWhile (· == '0')
    if fraction.isEmpty then String.ofList whole
    else String.ofList (whole ++ '.' :: fraction.reverse)

/-- Write a float of a format, given by its bit pattern. -/
def FloatFormat.write (f : FloatFormat) (bits : Nat) : String :=
  match f.classify bits with
  | .nan => "NaN"
  | .infinity negative => if negative then "-inf" else "inf"
  | .finite negative m q =>
    let text :=
      if m = 0 then "0"
      else
        let d := f.shortest m q
        placeDigits d.1 d.2
    if negative then "-" ++ text else text

end CBind
