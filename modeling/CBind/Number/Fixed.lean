import CBind.Number.Binary
import CBind.Number.Numeral

/-!
# Floats at a fixed number of decimal places

The exact value of a float is rounded to a number of decimal places, a tie to the even last digit,
and written positionally with all its places.
-/

namespace CBind

/-- Write `n` parts of `10 ^ places` with all their places. -/
def writePlaces (places n : Nat) : String :=
  if places = 0 then decimal n
  else
    decimal (n / tenTo places) ++ "." ++
      String.ofList (padZeros places (digits 10 (n % tenTo places)))

/-- Write a float of a format at a number of decimal places. -/
def FloatFormat.writeFixed (f : FloatFormat) (places bits : Nat) : String :=
  match f.classify bits with
  | .nan => "NaN"
  | .infinity negative => if negative then "-inf" else "inf"
  | .finite negative m q =>
    let n := divideNearestEven (m * twoTo q.toNat * tenTo places) (twoTo (-q).toNat)
    (if negative then "-" else "") ++ writePlaces places n

end CBind
