import CBind.Number.Arithmetic
import CBind.Sample.Unit
import CBind.Type.Width

/-!
# Samples: how arguments and results travel

Functions that show at which width an argument arrives and a result comes back, functions with more
arguments than there are registers, and functions whose directives stand in unusual places.
-/

namespace CBind.Sample

/-- The argument at a position, as a narrow integer. -/
def narrowAt (w : NarrowInt) (words : List UInt64) (i : Nat) : Int :=
  (w.wrap (Int32.ofInt (intAt words i))).toInt

/-! ## Narrow integers -/

/-- The text of arithmetic on narrow integers. -/
def narrowLines : List String :=
  ["// Integers of 8 and 16 bits, as arguments and as results.",
    "",
    "#include <stdint.h>",
    ""] ++
  block "uint8_t add_u8(uint8_t a, uint8_t b)" ["return a + b;"] ++
  [""] ++
  block "int8_t neg_i8(int8_t x)" ["return -x;"] ++
  ["", "// The result is cut down."] ++
  block "unsigned char low_byte(int x)" ["return (unsigned char)x;"] ++
  [""] ++
  block "int widen_i16(short x)" ["return x;"] ++
  [""] ++
  block "uint16_t add_u16(uint16_t a, uint16_t b)" ["return a + b;"]

/-- Arithmetic on narrow integers. -/
def narrow : Unit where
  path := "narrow.c"
  lines := narrowLines
  functions _ :=
    [computes "add_u8" fun words => intResult (narrowAt .u8 words 0 + narrowAt .u8 words 1),
      computes "neg_i8" fun words => intResult (-narrowAt .i8 words 0),
      computes "low_byte" (wordAt · 0),
      computes "widen_i16" fun words => intResult (narrowAt .i16 words 0),
      computes "add_u16" fun words => intResult (narrowAt .u16 words 0 + narrowAt .u16 words 1)]

/-! ## All widths -/

/-- The text of the functions of all widths. -/
def widthLines : List String :=
  ["// One function for each way in which a value can travel.",
    "",
    "#include <stdint.h>",
    "",
    "// Results are cut down to the declared width."] ++
  oneLine "int8_t low_i8(long x)" "return (int8_t)x;" ++
  oneLine "uint8_t low_u8(long x)" "return (uint8_t)x;" ++
  oneLine "int16_t low_i16(long x)" "return (int16_t)x;" ++
  oneLine "uint16_t low_u16(long x)" "return (uint16_t)x;" ++
  ["", "// Arguments are cut down too."] ++
  oneLine "char echo_char(char c)" "return c;" ++
  oneLine "uint32_t echo_u32(uint32_t x)" "return x;" ++
  oneLine "uint64_t echo_u64(uint64_t x)" "return x;" ++
  ["", "// No result at all."] ++
  oneLine "void nothing(void)" "" ++
  ["", "// More integers than integer registers."] ++
  block "long ten_ints(int a, long b, int c, long d, int e, long f, int g, long h, int i, long j)"
    ["return a + 2 * b + 3 * c + 4 * d + 5 * e",
      "  + 6 * f + 7 * g + 8 * h + 9 * i + 10 * j;"] ++
  ["", "// More floats than float registers.",
    "double ten_doubles(double a, double b, double c, double d, double e,"] ++
  block "  double f, double g, double h, double i, double j)"
    ["return a - b + c - d + e - f + g - h + i - j;"] ++
  ["", "// Narrow integers in registers and behind them.",
    "long narrow_stack(uint8_t a, int8_t b, uint16_t c, int16_t d, int8_t e,"] ++
  block "  uint8_t f, int8_t g, uint8_t h, int16_t i, uint16_t j)"
    ["return a + 1000L * b + 1000000L * c + 7 * d + 11 * e",
      "  + 13 * f + 17 * g + 19 * h + 23 * i + 29 * j;"] ++
  ["", "// Floats of both widths."] ++
  oneLine "float mul_f32(float a, float b)" "return a * b;" ++
  oneLine "double f32_to_f64(float x)" "return x;" ++
  oneLine "float f64_to_f32(double x)" "return (float)x;" ++
  ["", "// Runs on a worker.", "// @async", "// @cost high"] ++
  oneLine "int async_add(int a, int b)" "return a + b;" ++
  ["", "// Attributes are no part of the signature."] ++
  oneLine "__attribute__((noinline)) int attributed(int x)" "return x;" ++
  ["", "// Not exported, for two reasons.", ""] ++
  oneLine "static int not_exported(int x)" "return x;" ++
  ["// Hidden."] ++
  oneLine "__attribute__((visibility(\"hidden\"))) int hidden_symbol(int x)"
    "return not_exported(x);" ++
  ["", "// The address of a function has no canonical type.", ""] ++
  oneLine "int takes_callback(int (*cb)(int), int x)" "return cb(x);" ++
  ["", "// @async now"] ++
  oneLine "int bad_directive(int x)" "return x;"

/-- Add up ten integers, each multiplied by its position. -/
def weighTen (words : List UInt64) : UInt64 :=
  longResult ((List.range 10).foldl (fun (sum : Int) (i : Nat) =>
    sum + (i + 1) * (if i % 2 = 0 then intAt words i else longAt words i)) 0)

/-- Subtract and add ten floats in turn. -/
def alternateTen (words : List UInt64) : UInt64 :=
  (List.range 9).foldl
    (fun acc i => (if i % 2 = 0 then sub64 else add64) acc (wordAt words (i + 1))) (wordAt words 0)

/-- The types of ten narrow integers, each with what it is multiplied by. -/
def narrowWeights : List (NarrowInt × Int) :=
  [(.u8, 1), (.i8, 1000), (.u16, 1000000), (.i16, 7), (.i8, 11), (.u8, 13), (.i8, 17), (.u8, 19),
    (.i16, 23), (.u16, 29)]

/-- Add up ten narrow integers with their weights. -/
def weighNarrow (words : List UInt64) : UInt64 :=
  longResult (narrowWeights.zipIdx.foldl
    (fun sum ((w, weight), i) => sum + weight * narrowAt w words i) 0)

/-- One function for each way in which a value can travel. -/
def widths : Unit where
  path := "abi.c"
  lines := widthLines
  functions _ :=
    [computes "low_i8" (wordAt · 0),
      computes "low_u8" (wordAt · 0),
      computes "low_i16" (wordAt · 0),
      computes "low_u16" (wordAt · 0),
      computes "echo_char" (wordAt · 0),
      computes "echo_u32" (wordAt · 0),
      computes "echo_u64" (wordAt · 0),
      returns "nothing" 0,
      computes "ten_ints" weighTen,
      computes "ten_doubles" alternateTen,
      computes "narrow_stack" weighNarrow,
      computes "mul_f32" fun words => (mul32 (singleAt words 0) (singleAt words 1)).toUInt64,
      computes "f32_to_f64" fun words => widenFloat (singleAt words 0),
      computes "f64_to_f32" fun words => (narrowFloat (wordAt words 0)).toUInt64,
      computes "async_add" fun words => intResult (intAt words 0 + intAt words 1),
      computes "attributed" (wordAt · 0),
      ("takes_callback", fun _ => .raising segmentationFault),
      computes "bad_directive" (wordAt · 0)]

/-! ## Directives -/

/-- The text of the functions with unusual directives. -/
def annotatedLines : List String :=
  ["// Where directives may stand.",
    "// @async",
    ""] ++
  oneLine "int detached(int x)" "return x;" ++
  [""] ++
  oneLine "int same_line(int x)" "return x; /* @async */" ++
  ["", "// @async", "// @cost high"] ++
  oneLine "int doubled(int x)" "return 2 * x;" ++
  ["",
    "/*",
    " * @cost low",
    " */",
    "// @async"] ++
  oneLine "int mixed_block(int x)" "return 3 * x;" ++
  ["", "// @sync", "// @async"] ++
  oneLine "int conflicting(int x)" "return x;" ++
  ["", "// @sync", "// @sync"] ++
  oneLine "int dup(int x)" "return x;" ++
  ["#ifndef OTHER"] ++
  oneLine "int chosen(int x)" "return x + 1;" ++
  ["#else"] ++
  oneLine "int chosen(int x)" "return x - 1;" ++
  ["#endif"]

/-- Functions with unusual directives. -/
def annotated : Unit where
  path := "annotated.c"
  lines := annotatedLines
  functions macros :=
    let shift : Int := if macros.any (·.1 == "OTHER") then -1 else 1
    [computes "detached" (wordAt · 0),
      computes "same_line" (wordAt · 0),
      computes "doubled" fun words => intResult (2 * intAt words 0),
      computes "mixed_block" fun words => intResult (3 * intAt words 0),
      computes "conflicting" (wordAt · 0),
      computes "dup" (wordAt · 0),
      computes "chosen" fun words => intResult (intAt words 0 + shift)]

end CBind.Sample
