import CBind.Native.Code
import CBind.Text.Lines
import CBind.Text.Utf8

/-!
# Sample sources

A sample is a C source with what its functions do: the text that a reader reads, and the code and the data
that a compiler makes of it. Samples give the bridge something to build and to call where there is no C
compiler.

The code of a sample is written by hand beside its text. Nothing checks that the two agree.
-/

namespace CBind.Sample

open CBind.Text

/-- What the compiler is told to replace names by. -/
abbrev Macros := List (String × String)

/-- A C source with its meaning. A function's code gets the address of the data of its source. -/
structure Unit where
  path : String
  lines : List String
  compiles : Macros → Bool := fun _ => true
  functions : Macros → List (String × (Nat → NativeCode)) := fun _ => []
  data : List UInt8 := []
  objects : List (String × Nat) := []
  needs : List String := []

/-- The text of a sample: its lines, each with a line end. -/
def Unit.text (u : Unit) : String :=
  String.join (u.lines.map (· ++ "\n"))

/-- The names that a sample exports. -/
def Unit.exported (u : Unit) (macros : Macros) : List String :=
  (u.functions macros).map (·.1) ++ u.objects.map (·.1)

/-- A header with the lines of its block, two steps to the right. -/
def block (header : String) (lines : List String) : List String :=
  (header ++ " \x7b") :: lines.map ("  " ++ ·) ++ ["\x7d"]

/-- A function that does one thing. -/
def oneLine (header statement : String) : List String :=
  [header ++ " \x7b " ++ statement ++ " \x7d"]

/-- A name with code that computes a result from the arguments. -/
def computes (name : String) (f : List UInt64 → UInt64) : String × (Nat → NativeCode) :=
  (name, fun _ => .ofFunction f)

/-- A name with code that always returns the same number. -/
def returns (name : String) (n : Int) : String × (Nat → NativeCode) :=
  computes name fun _ => longResult n

/-- Data that holds texts one behind the other, each with a zero at its end. -/
def textData (texts : List (List UInt8)) : List UInt8 :=
  texts.flatMap (· ++ [0])

/-- Where a text of such data begins. -/
def textOffset (texts : List (List UInt8)) (i : Nat) : Nat :=
  (texts.take i).foldl (fun offset text => offset + text.length + 1) 0

/-- A name with code that returns the address of a text. -/
def returnsText (name : String) (texts : List (List UInt8)) (i : Nat) :
    String × (Nat → NativeCode) :=
  (name, fun data => .ofFunction fun _ => UInt64.ofNat (data + textOffset texts i))

end CBind.Sample
