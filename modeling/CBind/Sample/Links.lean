import CBind.Number.Arithmetic
import CBind.Number.Numeral
import CBind.Sample.Unit

/-!
# Samples: building and linking

A source without code, one that does not compile, one without functions, one whose function another source
defines, and one that needs the mathematical library.
-/

namespace CBind.Sample

/-- A source that does not compile. -/
def broken : Unit where
  path := "broken.c"
  lines :=
    ["// An operand is missing, so this does not compile."] ++
    block "int broken(int x)" ["return x +;"]
  compiles _ := false

/-- A source without any code. It is no sample of its own: every text of nothing but blanks and comments
means the same. -/
def blank : Unit where
  path := "blank"
  lines := []

/-- A source with a variable and no function. -/
def empty : Unit where
  path := "empty.c"
  lines := ["// Nothing to call.", "", "int only_a_global = 7;"]
  data := [7, 0, 0, 0]
  objects := [("only_a_global", 0)]

/-- What the function of the further source computes. -/
def fromExtra (x : Int) : Int :=
  (Int32.ofInt (x + 100)).toInt

/-- A source that another one needs. -/
def extra : Unit where
  path := "extra.c"
  lines :=
    ["// Called from another source.", ""] ++
    oneLine "int from_extra(int x)" "return x + 100;"
  functions _ := [computes "from_extra" fun words => intResult (fromExtra (intAt words 0))]

/-- The factor that a macro sets, if it is a number; two without the macro. -/
def scaleOf (macros : Macros) : Option Int :=
  match macros.find? (·.1 == "SCALE") with
  | none => some 2
  | some (_, text) => (readInt (0x7fffffff) text.toList).toOption

/-- A source whose function calls one of another source. -/
def needsExtra : Unit where
  path := "needs_extra.c"
  lines :=
    ["// Links only together with the source that defines from_extra.",
      "",
      "#ifndef SCALE",
      "#define SCALE 2",
      "#endif",
      "",
      "int from_extra(int x);",
      ""] ++
    oneLine "int scaled(int x)" "return from_extra(x) * SCALE;"
  compiles macros := (scaleOf macros).isSome
  functions macros :=
    [computes "scaled" fun words =>
      intResult (fromExtra (intAt words 0) * (scaleOf macros).getD 0)]
  needs := ["from_extra"]

/-- A source that needs the mathematical library. -/
def needsMath : Unit where
  path := "needs_math.c"
  lines :=
    ["// Links with the mathematical library.", "", "#include <math.h>", ""] ++
    oneLine "double root(double x)" "return sqrt(floor(x));"
  functions _ := [computes "root" fun words => rootOfFloor64 (wordAt words 0)]

end CBind.Sample
