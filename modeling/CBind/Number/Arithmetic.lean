import CBind.Number.Binary

/-!
# Float arithmetic on bit patterns

An operation takes the exact result of two values to the nearest pattern, once and for all: the exact
result of finite values is a quotient of integers, and `nearest` rounds it, a tie to the even pattern.

What the format leaves open is decided here. With a NaN operand the result is the first of them with its
quiet bit set. An operation that has no value on numbers gives the quiet NaN with the sign bit set.
There is one rounding mode, and no flags are kept.
-/

namespace CBind

namespace FloatFormat

/-- The pattern with a sign put in front of a magnitude. -/
@[inline]
def withSign (f : FloatFormat) (negative : Bool) (magnitude : Nat) : Nat :=
  if negative then magnitude + f.signBit else magnitude

/-- Recognize the patterns that stand for no number. -/
@[inline]
def isNaN (f : FloatFormat) (bits : Nat) : Bool :=
  f.infinity < bits % f.signBit

/-- A pattern with its quiet bit set. -/
def quieten (f : FloatFormat) (bits : Nat) : Nat :=
  bits ||| twoTo (f.fractionBits - 1)

/-- The result of an operation that has no value. -/
def invalid (f : FloatFormat) : Nat :=
  f.withSign true f.quietNaN

/-- A pattern with its sign turned. -/
def negate (f : FloatFormat) (bits : Nat) : Nat :=
  f.withSign (bits / f.signBit % 2 == 0) (bits % f.signBit)

/-- The pattern nearest to `x * 2 ^ q` for an integer that is not zero. -/
@[inline]
def ofDyadic (f : FloatFormat) (x : Int) (q : Int) : Nat :=
  f.withSign (x < 0) (f.nearestDyadic x.natAbs q)

/-- The integer of a sign and a magnitude. -/
@[inline]
def signed (negative : Bool) (m : Nat) : Int :=
  if negative then -(m : Int) else m

/-- Add two patterns. A sum of zero is negative only if both operands are. -/
@[inline]
def add (f : FloatFormat) (a b : Nat) : Nat :=
  match f.classify a, f.classify b with
  | .nan, _ => f.quieten a
  | _, .nan => f.quieten b
  | .infinity s, .infinity t => if s = t then a else f.invalid
  | .infinity _, .finite .. => a
  | .finite .., .infinity _ => b
  | .finite s m p, .finite t n q =>
    let low := min p q
    let sum := signed s (m <<< (p - low).toNat) + signed t (n <<< (q - low).toNat)
    if sum = 0 then f.withSign (s && t) 0 else f.ofDyadic sum low

/-- Subtract two patterns. -/
@[inline]
def sub (f : FloatFormat) (a b : Nat) : Nat :=
  if f.isNaN b then f.add a b else f.add a (f.negate b)

/-- Multiply two patterns. -/
@[inline]
def mul (f : FloatFormat) (a b : Nat) : Nat :=
  match f.classify a, f.classify b with
  | .nan, _ => f.quieten a
  | _, .nan => f.quieten b
  | .infinity s, .infinity t => f.withSign (s != t) f.infinity
  | .infinity s, .finite t n _ => if n = 0 then f.invalid else f.withSign (s != t) f.infinity
  | .finite s m _, .infinity t => if m = 0 then f.invalid else f.withSign (s != t) f.infinity
  | .finite s m p, .finite t n q =>
    f.withSign (s != t) (f.nearestDyadic (m * n) (p + q))

/-- Divide two patterns. -/
def div (f : FloatFormat) (a b : Nat) : Nat :=
  match f.classify a, f.classify b with
  | .nan, _ => f.quieten a
  | _, .nan => f.quieten b
  | .infinity _, .infinity _ => f.invalid
  | .infinity s, .finite t _ _ => f.withSign (s != t) f.infinity
  | .finite s _ _, .infinity t => f.withSign (s != t) 0
  | .finite s m p, .finite t n q =>
    if n = 0 then if m = 0 then f.invalid else f.withSign (s != t) f.infinity
    else
      f.withSign (s != t) (f.nearest (m <<< (p - q).toNat) (n <<< (q - p).toNat))

/-- Whether two patterns stand for the same number: no NaN does, and the two zeros do. -/
def equal (f : FloatFormat) (a b : Nat) : Bool :=
  !f.isNaN a && !f.isNaN b && (a == b || (a % f.signBit == 0 && b % f.signBit == 0))

/-- Add to `r` the lower bits, from the top down, with which its square still does not exceed `n`. -/
def rootBits (n : Nat) : Nat → Nat → Nat
  | 0, r => r
  | bits + 1, r =>
    let next := r + twoTo bits
    rootBits n bits (if next * next ≤ n then next else r)

/-- The pattern nearest to the square root of a natural number. Enough bits of the root are found that one
more bit, set if there is a remainder, decides the rounding. -/
def rootOfNat (f : FloatFormat) (n : Nat) : Nat :=
  let places := f.fractionBits + 2
  let scaled := n <<< (2 * places)
  let r := rootBits scaled (Nat.log2 scaled / 2 + 1) 0
  f.nearest (if r * r = scaled then 2 * r else 2 * r + 1) (twoTo (places + 1))

/-- The square root of the whole part of a pattern. The negative zero is its own root. -/
def rootOfFloor (f : FloatFormat) (bits : Nat) : Nat :=
  match f.classify bits with
  | .nan => f.quieten bits
  | .infinity negative => if negative then f.invalid else bits
  | .finite negative m q =>
    if negative then if m = 0 then bits else f.invalid
    else f.rootOfNat (m <<< q.toNat >>> (-q).toNat)

/-- Take a pattern of one format to the nearest of another. A NaN keeps its sign and the top of its
payload and becomes quiet. -/
@[inline]
def convert (source target : FloatFormat) (bits : Nat) : Nat :=
  match source.classify bits with
  | .nan =>
    let payload := bits % twoTo source.fractionBits <<< target.fractionBits >>> source.fractionBits
    target.withSign (bits / source.signBit % 2 == 1) (target.quieten (target.infinity + payload))
  | .infinity s => target.withSign s target.infinity
  | .finite s m q => target.withSign s (target.nearestDyadic m q)

end FloatFormat

/-- Add in the 64-bit format. -/
def add64 (a b : UInt64) : UInt64 := UInt64.ofNat (FloatFormat.double.add a.toNat b.toNat)

/-- Subtract in the 64-bit format. -/
def sub64 (a b : UInt64) : UInt64 := UInt64.ofNat (FloatFormat.double.sub a.toNat b.toNat)

/-- Multiply in the 64-bit format. -/
def mul64 (a b : UInt64) : UInt64 := UInt64.ofNat (FloatFormat.double.mul a.toNat b.toNat)

/-- Divide in the 64-bit format. -/
def div64 (a b : UInt64) : UInt64 := UInt64.ofNat (FloatFormat.double.div a.toNat b.toNat)

/-- The square root of the whole part, in the 64-bit format. -/
def rootOfFloor64 (a : UInt64) : UInt64 := UInt64.ofNat (FloatFormat.double.rootOfFloor a.toNat)

/-- Add in the 32-bit format. -/
def add32 (a b : UInt32) : UInt32 := UInt32.ofNat (FloatFormat.single.add a.toNat b.toNat)

/-- Multiply in the 32-bit format. -/
def mul32 (a b : UInt32) : UInt32 := UInt32.ofNat (FloatFormat.single.mul a.toNat b.toNat)

/-- Widen a 32-bit pattern to 64 bits. -/
def widenFloat (a : UInt32) : UInt64 :=
  UInt64.ofNat (FloatFormat.single.convert .double a.toNat)

/-- Narrow a 64-bit pattern to 32 bits. -/
def narrowFloat (a : UInt64) : UInt32 :=
  UInt32.ofNat (FloatFormat.double.convert .single a.toNat)

/-- The 64-bit pattern nearest to an integer. -/
def floatOfInt (n : Int) : UInt64 :=
  UInt64.ofNat (FloatFormat.double.withSign (n < 0) (FloatFormat.double.nearest n.natAbs 1))

/-- The whole part of a 64-bit pattern as a count: zero for NaN and negative values, and at most
`bound`. -/
def floorToCount (bound : Nat) (bits : UInt64) : Nat :=
  match FloatFormat.double.classify bits.toNat with
  | .nan => 0
  | .infinity negative => if negative then 0 else bound
  | .finite negative m q =>
    if negative then 0 else min bound (m <<< q.toNat >>> (-q).toNat)

end CBind
