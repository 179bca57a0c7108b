import CBind.Number.Binary
import CBind.Number.Numeral

/-!
# Reading floats from decimal text

A float literal is an optional sign and then digits with at most one point among them, at least one
digit in all, and an optional exponent. `inf`, `infinity` and `nan` in any case stand for themselves.
The value is rounded to the nearest float, a tie to the even pattern.
-/

namespace CBind

/-- What keeps a text from being a float literal. -/
inductive FloatFault where
  | empty
  | invalid
deriving DecidableEq, Repr

/-- Word a fault for a report. -/
def FloatFault.message : FloatFault → String
  | empty => "cannot parse float from empty string"
  | invalid => "invalid float literal"

/-- An unsigned decimal literal `coefficient * 10 ^ exponent`. -/
structure DecimalLiteral where
  coefficient : Nat
  exponent : Int
deriving DecidableEq, Repr

/-- Recognize a decimal digit. -/
def isDecimalDigit (c : Char) : Bool :=
  (digitValue? 10 c).isSome

/-- The value of a run of decimal digits. -/
def digitsValue (cs : List Char) : Nat :=
  cs.foldl (fun n c => n * 10 + (digitValue? 10 c).getD 0) 0

/-- Read the exponent behind its mark: an optional sign and at least one digit. -/
def readExponent? (cs : List Char) : Option Int :=
  let value (ds : List Char) : Option Nat :=
    if ds.isEmpty || !ds.all isDecimalDigit then none else some (digitsValue ds)
  match cs with
  | '-' :: ds => (value ds).map fun n => -(n : Int)
  | '+' :: ds => (value ds).map Int.ofNat
  | ds => (value ds).map Int.ofNat

/-- Read an unsigned decimal literal that fills the whole text. -/
def readDecimal? (cs : List Char) : Option DecimalLiteral :=
  let whole := cs.takeWhile isDecimalDigit
  let behindWhole := cs.dropWhile isDecimalDigit
  let split : List Char × List Char :=
    match behindWhole with
    | '.' :: rest => (rest.takeWhile isDecimalDigit, rest.dropWhile isDecimalDigit)
    | rest => ([], rest)
  let shift := -(split.1.length : Int)
  if whole.isEmpty && split.1.isEmpty then none
  else
    let coefficient := digitsValue (whole ++ split.1)
    match split.2 with
    | [] => some ⟨coefficient, shift⟩
    | 'e' :: rest => (readExponent? rest).map fun e => ⟨coefficient, e + shift⟩
    | 'E' :: rest => (readExponent? rest).map fun e => ⟨coefficient, e + shift⟩
    | _ => none

/-- Decide whether a text is a word, ASCII letters of either case counting alike. -/
def isWordIgnoringCase (word : String) (cs : List Char) : Bool :=
  cs.map Char.toLower == word.toList

/-- The pattern nearest to a decimal literal. Literals beyond the range of every format are decided
by their magnitude alone. -/
def FloatFormat.ofDecimal (f : FloatFormat) (d : DecimalLiteral) : Nat :=
  if d.coefficient = 0 then 0
  else
    let magnitude := ((digits 10 d.coefficient).length : Int) + d.exponent
    if 400 < magnitude then f.infinity
    else if magnitude < -400 then 0
    else f.nearest (d.coefficient * tenTo d.exponent.toNat) (tenTo (-d.exponent).toNat)

/-- Read the pattern of an unsigned float literal. -/
def FloatFormat.readUnsigned? (f : FloatFormat) (cs : List Char) : Option Nat :=
  match readDecimal? cs with
  | some d => some (f.ofDecimal d)
  | none =>
    if isWordIgnoringCase "inf" cs || isWordIgnoringCase "infinity" cs then some f.infinity
    else if isWordIgnoringCase "nan" cs then some f.quietNaN
    else none

/-- Read the bit pattern of a float literal. -/
def FloatFormat.read (f : FloatFormat) (s : String) : Except FloatFault Nat :=
  let finish (sign : Nat) (cs : List Char) : Except FloatFault Nat :=
    match f.readUnsigned? cs with
    | some bits => .ok (sign + bits)
    | none => .error .invalid
  match s.toList with
  | [] => .error .empty
  | '-' :: rest => finish f.signBit rest
  | '+' :: rest => finish 0 rest
  | cs => finish 0 cs

end CBind
