import CBind.Number.Arithmetic
import CBind.Sample.Unit

/-!
# Sample: passing values through

Functions that give back what they are called with, a counter that lives in the data of the library, and
three definitions that cannot be called: one that is not exported and two whose parameters have no
canonical types.
-/

namespace CBind.Sample

/-- The text of the pass-through functions. -/
def echoLines : List String :=
  ["// Functions that pass their arguments through, and a counter of calls.",
    "// They are called to see what arrives.",
    "",
    "#define _POSIX_C_SOURCE 199309L",
    "#include <stdint.h>",
    "#include <time.h>",
    "",
    "struct pair \x7b",
    "  int a;",
    "  int b;",
    "\x7d;",
    "",
    "static int calls = 0;",
    "",
    "// Internal linkage: not exported."] ++
  block "static int hidden_helper(int x)" ["return x * 2;"] ++
  ["", "// @sync"] ++
  block "int echo_i32(int x)" ["return x;"] ++
  ["", "// @sync"] ++
  block "long echo_i64(long x)" ["return x;"] ++
  ["", "// @sync"] ++
  block "float echo_f32(float x)" ["return x;"] ++
  ["", "// @sync"] ++
  block "double echo_f64(double x)" ["return x;"] ++
  [""] ++
  block "void* echo_ptr(void* p)" ["return p;"] ++
  ["", "// Integers, floats and an address in one call.", "// @cost low"] ++
  block "double mix_args(int a, double b, float c, long d, const uint8_t* e)"
    ["return (double)a + b + (double)c + (double)d + (double)e[0];"] ++
  [""] ++
  block "int twice(int x)" ["return hidden_helper(x);"] ++
  ["", "// @cost high", "// @sync"] ++
  block "int counter_bump(void)" ["calls++;", "return calls;"] ++
  [""] ++
  block "int counter_get(void)" ["return calls;"] ++
  [""] ++
  block "void counter_reset(void)" ["calls = 0;"] ++
  ["", "// Returns its argument after as many milliseconds.", "// @async"] ++
  block "int sleep_then_return(int ms)"
    ["struct timespec ts;",
      "ts.tv_sec = ms / 1000;",
      "ts.tv_nsec = (long)(ms % 1000) * 1000000L;",
      "nanosleep(&ts, 0);",
      "return ms;"] ++
  ["", "// A structure by value has no canonical type."] ++
  block "int pair_sum(struct pair p)" ["return p.a + p.b;"] ++
  ["", "// Nor have parameters without a declaration."] ++
  block "int first_of(int n, ...)" ["return n;"]

/-- Add up an integer, two floats, another integer and a byte as 64-bit floats. -/
def mixArguments (words : List UInt64) (m : Memory) : Option UInt64 := do
  let byte ← m.byte? (addressAt words 4)
  return [wordAt words 1, widenFloat (singleAt words 2), floatOfInt (longAt words 3),
    floatOfInt byte.toNat].foldl add64 (floatOfInt (intAt words 0))

/-- Set the counter to what a function makes of it, and return it. -/
def updateCounter (data : Nat) (f : Nat → Nat) : NativeCode :=
  .onMemory fun _ m => do
    let count := f (← m.word? 4 data)
    return (UInt64.ofNat count, ← m.setWord? 4 data count)

/-- Functions that pass values through. -/
def echo : Unit where
  path := "echo.c"
  lines := echoLines
  functions _ :=
    [computes "echo_i32" (wordAt · 0),
      computes "echo_i64" (wordAt · 0),
      computes "echo_f32" (wordAt · 0),
      computes "echo_f64" (wordAt · 0),
      computes "echo_ptr" (wordAt · 0),
      ("mix_args", fun _ => .reading mixArguments),
      computes "twice" fun words => intResult (intAt words 0 * 2),
      ("counter_bump", fun data => updateCounter data (· + 1)),
      ("counter_get", fun data => updateCounter data id),
      ("counter_reset", fun data => updateCounter data fun _ => 0),
      computes "sleep_then_return" (wordAt · 0),
      computes "pair_sum" fun words =>
        intResult ((wordAt words 0).toUInt32.toInt32 +
          ((wordAt words 0) >>> 32).toUInt32.toInt32).toInt,
      computes "first_of" (wordAt · 0)]
  data := [0, 0, 0, 0]

end CBind.Sample
