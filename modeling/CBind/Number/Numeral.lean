/-!
# Numerals: writing and reading whole numbers

Writing gives the digits of a number in a base without leading zeros. Reading takes an optional
sign and then digits of the base, keeps the magnitude below a bound, and names the first fault it
meets from the left. Underscores, blanks and digits of other scripts are faults.
-/

namespace CBind

/-- The character of a digit below 36. -/
def digitChar (d : Nat) : Char :=
  if d < 10 then Char.ofNat (48 + d) else Char.ofNat (87 + d)

/-- The digits of a number in a base, most significant first. -/
def digits (base n : Nat) : List Char :=
  if n < base ∨ base < 2 then [digitChar n]
  else digits base (n / base) ++ [digitChar (n % base)]
termination_by n
decreasing_by exact Nat.div_lt_self (by omega) (by omega)

/-- Write a number in decimal. -/
def decimal (n : Nat) : String :=
  String.ofList (digits 10 n)

/-- Write a number in lower-case hexadecimal. -/
def hexadecimal (n : Nat) : String :=
  String.ofList (digits 16 n)

/-- Write an integer in decimal, with a sign only when it is negative. -/
def decimalInt : Int → String
  | .ofNat n => decimal n
  | .negSucc n => "-" ++ decimal (n + 1)

/-- Pad digits with zeros on the left to a width. -/
def padZeros (width : Nat) (cs : List Char) : List Char :=
  List.replicate (width - cs.length) '0' ++ cs

/-- The value of a digit of a base, letters of either case standing for ten and above. -/
def digitValue? (base : Nat) (c : Char) : Option Nat :=
  let n := c.toNat
  let value :=
    if 48 ≤ n && n ≤ 57 then n - 48
    else if 97 ≤ n && n ≤ 122 then n - 87
    else if 65 ≤ n && n ≤ 90 then n - 55
    else base
  if value < base then some value else none

/-- What keeps a text from being a numeral. -/
inductive NumeralFault where
  | empty
  | invalidDigit
  | tooLarge
  | tooSmall
deriving DecidableEq, Repr

/-- Word a fault for a report. -/
def NumeralFault.message : NumeralFault → String
  | empty => "cannot parse integer from empty string"
  | invalidDigit => "invalid digit found in string"
  | tooLarge => "number too large to fit in target type"
  | tooSmall => "number too small to fit in target type"

/-- Read the digits of a magnitude that may not exceed a bound, stopping at the first fault. -/
def readMagnitude (base bound : Nat) (overflow : NumeralFault) (n : Nat) :
    List Char → Except NumeralFault Nat
  | [] => .ok n
  | c :: rest =>
    match digitValue? base c with
    | none => .error .invalidDigit
    | some d =>
      let next := n * base + d
      if next ≤ bound then readMagnitude base bound overflow next rest else .error overflow

/-- Read a number without a minus sign that may not exceed a bound. -/
def readNat (base bound : Nat) : List Char → Except NumeralFault Nat
  | [] => .error .empty
  | ['+'] => .error .invalidDigit
  | '+' :: rest => readMagnitude base bound .tooLarge 0 rest
  | cs => readMagnitude base bound .tooLarge 0 cs

/-- Read a decimal integer between `-bound - 1` and `bound`. -/
def readInt (bound : Nat) : List Char → Except NumeralFault Int
  | [] => .error .empty
  | ['+'] => .error .invalidDigit
  | ['-'] => .error .invalidDigit
  | '+' :: rest => (readMagnitude 10 bound .tooLarge 0 rest).map Int.ofNat
  | '-' :: rest => (readMagnitude 10 (bound + 1) .tooSmall 0 rest).map fun n => -Int.ofNat n
  | cs => (readMagnitude 10 bound .tooLarge 0 cs).map Int.ofNat

/-- The largest count a 64-bit word holds. -/
def maxCount : Nat := 0xffffffffffffffff

/-- Read a count that fits a 64-bit word. -/
def readCount (s : String) : Except NumeralFault Nat :=
  readNat 10 maxCount s.toList

end CBind
