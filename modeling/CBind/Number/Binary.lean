import CBind.Number.Power

/-!
# Binary floating-point formats

A format has a number of fraction bits and a number of exponent bits. A bit pattern stands for a
signed infinity, for no number, or for a sign and an exact value `m * 2 ^ q`. Rounding takes a
quotient of naturals to the nearest pattern, a tie to the even one.
-/

namespace CBind

/-- A binary interchange format. -/
structure FloatFormat where
  fractionBits : Nat
  exponentBits : Nat
deriving DecidableEq, Repr

namespace FloatFormat

/-- The 32-bit format. -/
def single : FloatFormat := ⟨23, 8⟩

/-- The 64-bit format. -/
def double : FloatFormat := ⟨52, 11⟩

/-- The pattern of the sign bit. -/
def signBit (f : FloatFormat) : Nat :=
  twoTo (f.fractionBits + f.exponentBits)

/-- The pattern of positive infinity: all exponent bits. -/
def infinity (f : FloatFormat) : Nat :=
  (twoTo f.exponentBits - 1) * twoTo f.fractionBits

/-- The pattern of the quiet NaN without payload and sign. -/
def quietNaN (f : FloatFormat) : Nat :=
  f.infinity + twoTo (f.fractionBits - 1)

/-- The exponent of the last place of the smallest numbers. -/
def minExponent (f : FloatFormat) : Int :=
  2 - (twoTo (f.exponentBits - 1) : Int) - (f.fractionBits : Int)

end FloatFormat

/-- What a bit pattern stands for; a finite value is `m * 2 ^ q`. -/
inductive FloatClass where
  | nan
  | infinity (negative : Bool)
  | finite (negative : Bool) (m : Nat) (q : Int)
deriving DecidableEq, Repr

/-- Read a bit pattern. -/
@[inline]
def FloatFormat.classify (f : FloatFormat) (bits : Nat) : FloatClass :=
  let top := bits >>> f.fractionBits
  let fraction := bits % twoTo f.fractionBits
  let exponent := top % twoTo f.exponentBits
  let negative := top >>> f.exponentBits % 2 == 1
  if exponent = twoTo f.exponentBits - 1 then if fraction = 0 then .infinity negative else .nan
  else if exponent = 0 then .finite negative fraction f.minExponent
  else .finite negative (fraction + twoTo f.fractionBits) (f.minExponent + exponent - 1)

/-- Divide two naturals, rounding to the nearest and a tie to the even quotient. -/
def divideNearestEven (num den : Nat) : Nat :=
  let q := num / den
  let r := num % den
  if den < 2 * r || (2 * r = den && q % 2 = 1) then q + 1 else q

/-- Whether `2 ^ e` does not exceed the quotient of two naturals. -/
def powerFits (e : Int) (num den : Nat) : Bool :=
  den * twoTo e.toNat ≤ num * twoTo (-e).toNat

/-- The pattern nearest to a quotient of naturals, a tie going to the even pattern and anything
beyond the largest number to infinity. -/
def FloatFormat.nearest (f : FloatFormat) (num den : Nat) : Nat :=
  if num = 0 then 0
  else
    let estimate : Int := (Nat.log2 num : Int) - (Nat.log2 den : Int)
    let e := if powerFits estimate num den then estimate else estimate - 1
    let q := max (e - f.fractionBits) f.minExponent
    let m := divideNearestEven (num * twoTo (-q).toNat) (den * twoTo q.toNat)
    min f.infinity ((q - f.minExponent).toNat * twoTo f.fractionBits + m)

/-- Divide by `2 ^ places`, rounding to the nearest and a tie to the even quotient. -/
@[inline]
def shiftNearestEven (m places : Nat) : Nat :=
  let q := m >>> places
  let r := m - q <<< places
  let one := twoTo places
  if one < 2 * r || (2 * r = one && q % 2 = 1) then q + 1 else q

/-- The pattern nearest to `m * 2 ^ q`, found without a division. -/
@[inline]
def FloatFormat.nearestDyadic (f : FloatFormat) (m : Nat) (q : Int) : Nat :=
  if m = 0 then 0
  else
    let last := max (Nat.log2 m + q - f.fractionBits) f.minExponent
    let rounded := if q < last then shiftNearestEven m (last - q).toNat else m <<< (q - last).toNat
    min f.infinity ((last - f.minExponent).toNat <<< f.fractionBits + rounded)

end CBind
