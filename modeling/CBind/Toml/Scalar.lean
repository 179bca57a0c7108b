import CBind.Number.Decimal
import CBind.Number.Numeral
import CBind.Toml.Item

/-!
# Scalars of a TOML document

Texts, numbers, truth values, dates and times. Each function reads from the front of what is left of
the text and returns the value with the rest, or nothing if the front does not have the form.

Integers fit 64 bits with a sign. A decimal integer has no leading zero, and underscores stand only
between digits. A float literal that overflows upwards is refused.
-/

namespace CBind.Toml

/-- What is left of a text. -/
abbrev Rest := List Char

/-- Drop spaces and tabs. -/
def dropSpace (cs : Rest) : Rest :=
  cs.dropWhile fun c => c == ' ' || c == '\t'

/-- Read a line end. -/
def lineEnd? : Rest → Option Rest
  | '\n' :: rest => some rest
  | '\r' :: '\n' :: rest => some rest
  | _ => none

/-- Recognize the characters that may stand in comments and in texts; a line end may not. -/
def isPlain (c : Char) : Bool :=
  c == '\t' || (32 ≤ c.toNat && c.toNat != 127)

/-- Drop a prescribed beginning. -/
def after? (beginning : List Char) (cs : Rest) : Option Rest :=
  if beginning.isPrefixOf cs then some (cs.drop beginning.length) else none

/-! ## Texts -/

/-- Read a number of hexadecimal digits as a character. -/
def codePoint? (count : Nat) (cs : Rest) : Option (Char × Rest) :=
  let ds := cs.take count
  if ds.length = count && ds.all (fun c => (digitValue? 16 c).isSome) then
    let n := ds.foldl (fun n c => n * 16 + (digitValue? 16 c).getD 0) 0
    if h : n.isValidChar then some (Char.ofNatAux n h, cs.drop count) else none
  else none

/-- Read what follows a backslash. -/
def escape? : Rest → Option (Char × Rest)
  | 'b' :: rest => some ('\x08', rest)
  | 't' :: rest => some ('\t', rest)
  | 'n' :: rest => some ('\n', rest)
  | 'f' :: rest => some ('\x0c', rest)
  | 'r' :: rest => some ('\r', rest)
  | '"' :: rest => some ('"', rest)
  | '\\' :: rest => some ('\\', rest)
  | 'u' :: rest => codePoint? 4 rest
  | 'U' :: rest => codePoint? 8 rest
  | _ => none

/-- Read a text on one line behind its opening mark; `done` holds what was read, last character
first. The number bounds the characters still read. -/
def lineText? (escapes : Bool) (mark : Char) : Nat → List Char → Rest → Option (String × Rest)
  | 0, _, _ => none
  | fuel + 1, done, cs =>
    match cs with
    | [] => none
    | c :: rest =>
      if c == mark then some (String.ofList done.reverse, rest)
      else if escapes && c == '\\' then
        match escape? rest with
        | some (e, rest) => lineText? escapes mark fuel (e :: done) rest
        | none => none
      else if isPlain c then lineText? escapes mark fuel (c :: done) rest
      else none

/-- Drop spaces and line ends. -/
def dropBlankLines : Nat → Rest → Rest
  | 0, cs => cs
  | fuel + 1, cs =>
    let cs := dropSpace cs
    match lineEnd? cs with
    | some rest => dropBlankLines fuel rest
    | none => cs

/-- Read a text over several lines behind its opening marks. A run of three to five marks closes it,
all but the last three being part of the text; every line end counts as a line feed; and a backslash
at the end of a line joins the next line that is not blank. -/
def blockText? (escapes : Bool) (mark : Char) : Nat → List Char → Rest → Option (String × Rest)
  | 0, _, _ => none
  | fuel + 1, done, cs =>
    match cs with
    | [] => none
    | c :: rest =>
      if c == mark then
        let run := (cs.takeWhile (· == mark)).length
        if run < 3 then blockText? escapes mark fuel (List.replicate run mark ++ done) (cs.drop run)
        else
          let kept := min (run - 3) 2
          some (String.ofList (done.reverse ++ List.replicate kept mark), cs.drop (kept + 3))
      else if escapes && c == '\\' then
        match escape? rest with
        | some (e, rest) => blockText? escapes mark fuel (e :: done) rest
        | none =>
          match lineEnd? (dropSpace rest) with
          | some rest => blockText? escapes mark fuel done (dropBlankLines rest.length rest)
          | none => none
      else
        match lineEnd? cs with
        | some rest => blockText? escapes mark fuel ('\n' :: done) rest
        | none => if isPlain c then blockText? escapes mark fuel (c :: done) rest else none

/-- Read a text in quotation marks or apostrophes. -/
def quoted? (escapes : Bool) (mark : Char) (cs : Rest) : Option (String × Rest) :=
  match after? [mark, mark, mark] cs with
  | some rest =>
    let rest := (lineEnd? rest).getD rest
    blockText? escapes mark (rest.length + 1) [] rest
  | none =>
    match cs with
    | [] => none
    | _ :: rest => lineText? escapes mark (rest.length + 1) [] rest

/-- Read a text. -/
def text? (cs : Rest) : Option (String × Rest) :=
  match cs with
  | '"' :: _ => quoted? true '"' cs
  | '\'' :: _ => quoted? false '\'' cs
  | _ => none

/-! ## Numbers -/

/-- Read digits of a base, at least one, with single underscores between them. -/
def digitRun? (base : Nat) : Rest → Option (List Char × Rest)
  | [] => none
  | c :: rest =>
    if (digitValue? base c).isNone then none
    else
      match rest with
      | '_' :: more =>
        match digitRun? base more with
        | some (ds, rest) => some (c :: ds, rest)
        | none => none
      | more =>
        match digitRun? base more with
        | some (ds, rest) => some (c :: ds, rest)
        | none => some ([c], more)

/-- Read a sign; a number without one is positive. -/
def sign : Rest → Bool × Rest
  | '+' :: rest => (false, rest)
  | '-' :: rest => (true, rest)
  | cs => (false, cs)

/-- Read the digits of a decimal integer: a zero stands alone. -/
def decimalDigits? (cs : Rest) : Option (List Char × Rest) :=
  match cs with
  | '0' :: rest => some (['0'], rest)
  | _ => digitRun? 10 cs

/-- The least and the greatest integer. -/
def fitsInteger (n : Int) : Bool :=
  -0x8000000000000000 ≤ n && n < 0x8000000000000000

/-- Read an integer: hexadecimal, octal or binary behind its mark, decimal otherwise. -/
def integer? (cs : Rest) : Option (Int × Rest) :=
  let value (base : Nat) (ds : List Char) : Nat :=
    ds.foldl (fun n c => n * base + (digitValue? base c).getD 0) 0
  let finish (n : Int) (rest : Rest) : Option (Int × Rest) :=
    if fitsInteger n then some (n, rest) else none
  let based (base : Nat) (rest : Rest) : Option (Int × Rest) :=
    match digitRun? base rest with
    | some (ds, rest) => finish (value base ds) rest
    | none => none
  match cs with
  | '0' :: 'x' :: rest => based 16 rest
  | '0' :: 'o' :: rest => based 8 rest
  | '0' :: 'b' :: rest => based 2 rest
  | _ =>
    let (negative, unsigned) := sign cs
    match decimalDigits? unsigned with
    | some (ds, rest) => finish (if negative then -(value 10 ds : Int) else value 10 ds) rest
    | none => none

/-- Read the exponent of a float literal with its mark. -/
def exponent? (cs : Rest) : Option (List Char × Rest) :=
  let behind (rest : Rest) : Option (List Char × Rest) :=
    let (negative, unsigned) := sign rest
    match digitRun? 10 unsigned with
    | some (ds, rest) => some (['e'] ++ (if negative then ['-'] else []) ++ ds, rest)
    | none => none
  match cs with
  | 'e' :: rest => behind rest
  | 'E' :: rest => behind rest
  | _ => none

/-- Read the fraction of a float literal with its point. -/
def fraction? (cs : Rest) : Option (List Char × Rest) :=
  match cs with
  | '.' :: rest => (digitRun? 10 rest).map fun (ds, rest) => ('.' :: ds, rest)
  | _ => none

/-- Read the digits of a float literal, underscores dropped. -/
def floatDigits? (cs : Rest) : Option (List Char × Rest) :=
  match decimalDigits? cs with
  | none => none
  | some (whole, rest) =>
    match fraction? rest with
    | some (fraction, rest) =>
      match exponent? rest with
      | some (exponent, rest) => some (whole ++ fraction ++ exponent, rest)
      | none => some (whole ++ fraction, rest)
    | none => (exponent? rest).map fun (exponent, rest) => (whole ++ exponent, rest)

/-- Read a float: digits with a fraction, an exponent or both, or a word for infinity or NaN. -/
def float? (cs : Rest) : Option (UInt64 × Rest) :=
  let (negative, unsigned) := sign cs
  let signed (bits : Nat) : UInt64 :=
    UInt64.ofNat (bits + if negative then FloatFormat.double.signBit else 0)
  match floatDigits? unsigned with
  | some (ds, rest) =>
    match FloatFormat.double.readUnsigned? ds with
    | some bits =>
      if bits = FloatFormat.double.infinity && !negative then none else some (signed bits, rest)
    | none => none
  | none =>
    match after? ['i', 'n', 'f'] unsigned with
    | some rest => some (signed FloatFormat.double.infinity, rest)
    | none =>
      match after? ['n', 'a', 'n'] unsigned with
      | some rest => some (signed FloatFormat.double.quietNaN, rest)
      | none => none

/-! ## Dates and times -/

/-- Read a number of decimal digits that lies between two bounds. -/
def fixedNumber? (count low high : Nat) (cs : Rest) : Option (Nat × Rest) :=
  let ds := cs.take count
  let n := digitsValue ds
  if ds.length = count && ds.all isDecimalDigit && low ≤ n && n ≤ high then
    some (n, cs.drop count)
  else none

/-- The number of days of a month. -/
def daysIn (year month : Nat) : Nat :=
  if month = 2 then
    if year % 4 = 0 && (year % 100 != 0 || year % 400 = 0) then 29 else 28
  else if [4, 6, 9, 11].contains month then 30
  else 31

/-- Read a date. -/
def date? (cs : Rest) : Option Rest := do
  let (year, cs) ← fixedNumber? 4 0 9999 cs
  let cs ← after? ['-'] cs
  let (month, cs) ← fixedNumber? 2 1 12 cs
  let cs ← after? ['-'] cs
  let (_, cs) ← fixedNumber? 2 1 (daysIn year month) cs
  return cs

/-- Read a time of day, with a fraction of a second if there is one. -/
def time? (cs : Rest) : Option Rest := do
  let (_, cs) ← fixedNumber? 2 0 23 cs
  let cs ← after? [':'] cs
  let (_, cs) ← fixedNumber? 2 0 59 cs
  let cs ← after? [':'] cs
  let (_, cs) ← fixedNumber? 2 0 60 cs
  match cs with
  | '.' :: rest =>
    let digits := rest.takeWhile isDecimalDigit
    if digits.isEmpty then return cs else return rest.drop digits.length
  | _ => return cs

/-- Read the distance from universal time. -/
def offset? (cs : Rest) : Option Rest :=
  let distance (rest : Rest) : Option Rest := do
    let (_, rest) ← fixedNumber? 2 0 23 rest
    let rest ← after? [':'] rest
    let (_, rest) ← fixedNumber? 2 0 59 rest
    return rest
  match cs with
  | 'Z' :: rest => some rest
  | 'z' :: rest => some rest
  | '+' :: rest => distance rest
  | '-' :: rest => distance rest
  | _ => none

/-- Read a date, a time, or both with or without a distance. -/
def moment? (cs : Rest) : Option (String × Rest) :=
  let finish (rest : Rest) : Option (String × Rest) :=
    some (String.ofList (cs.take (cs.length - rest.length)), rest)
  match date? cs with
  | none => (time? cs).bind finish
  | some behindDate =>
    let behindTime : Option Rest :=
      match behindDate with
      | 'T' :: rest => time? rest
      | 't' :: rest => time? rest
      | ' ' :: rest => time? rest
      | _ => none
    match behindTime with
    | none => finish behindDate
    | some rest => finish ((offset? rest).getD rest)

/-- Read a scalar. -/
def scalar? (cs : Rest) : Option (Item × Rest) :=
  let number : Option (Item × Rest) :=
    match moment? cs with
    | some (written, rest) => some (.moment written, rest)
    | none =>
      match float? cs with
      | some (bits, rest) => some (.float bits, rest)
      | none => (integer? cs).map fun (n, rest) => (.integer n, rest)
  match cs with
  | '"' :: _ => (text? cs).map fun (s, rest) => (.text s, rest)
  | '\'' :: _ => (text? cs).map fun (s, rest) => (.text s, rest)
  | 't' :: _ => (after? "true".toList cs).map fun rest => (.boolean true, rest)
  | 'f' :: _ => (after? "false".toList cs).map fun rest => (.boolean false, rest)
  | _ => number

end CBind.Toml
