import CBind.Sample.Unit

/-!
# Samples: native tests

Tests that pass, fail, crash and leave the process, functions that are named like tests but are none, and
tests that no library exports.
-/

namespace CBind.Sample

open CBind.Text

/-- The header whose macros assert something in a test that returns a text. -/
def assertionHeader : Unit where
  path := "native/native_test.h"
  lines :=
    ["#pragma once",
      "",
      "// Assertions for native tests.",
      "//",
      "// A test is an exported function named test_<name>. It takes no",
      "// parameters and returns either",
      "// - int: zero for success",
      "// - const char*: null for success, else what went wrong",
      "",
      "#ifdef __cplusplus",
      "extern \"C\" \x7b",
      "#endif",
      "",
      "#define RN_ASSERT(expr) \\",
      "  do \x7b \\",
      "    if (!(expr)) \x7b \\",
      "      return \"ASSERT(\" #expr \")\"; \\",
      "    \x7d \\",
      "  \x7d while (0)",
      "",
      "#define RN_ASSERT_MSG(expr, msg_literal) \\",
      "  do \x7b \\",
      "    if (!(expr)) \x7b \\",
      "      return (msg_literal); \\",
      "    \x7d \\",
      "  \x7d while (0)",
      "",
      "#ifdef __cplusplus",
      "\x7d",
      "#endif"]
  compiles _ := false

/-- The code of addition. -/
def addition : String × (Nat → NativeCode) :=
  computes "add" fun words => intResult (intAt words 0 + intAt words 1)

/-! ## Assertions -/

/-- What the failing assertions say. -/
def assertionTexts : List (List UInt8) :=
  [utf8 "ASSERT(add(2, 3) == 6)", []]

/-- Tests by assertions and by status. -/
def assertions : Unit where
  path := "harness/assertions_test.c"
  lines :=
    ["#include \"../native/native_test.h\"", ""] ++
    block "int add(int a, int b)" ["return a + b;"] ++
    [""] ++
    block "const char* test_add_basic(void)" ["RN_ASSERT(add(2, 3) == 5);", "return 0;"] ++
    [""] ++
    block "const char* test_add_wrong(void)" ["RN_ASSERT(add(2, 3) == 6);", "return 0;"] ++
    [""] ++
    block "int test_status_ok(void)" ["return 0;"] ++
    [""] ++
    block "int test_status_bad(void)" ["return 3;"] ++
    [""] ++
    block "const char* test_empty_message(void)" ["return \"\";"] ++
    ["", "// No test: it takes a parameter."] ++
    block "int test_needs_arg(int x)" ["return x;"] ++
    [""] ++
    block "double test_returns_double(void)" ["return 1.0;"]
  functions _ :=
    [addition,
      returns "test_add_basic" 0,
      returnsText "test_add_wrong" assertionTexts 0,
      returns "test_status_ok" 0,
      returns "test_status_bad" 3,
      returnsText "test_empty_message" assertionTexts 1,
      computes "test_needs_arg" (wordAt · 0),
      computes "test_returns_double" fun _ => 0x3ff0000000000000]
  data := textData assertionTexts

/-- Tests that all pass. -/
def additions : Unit where
  path := "native/add_test.c"
  lines :=
    ["#include \"native_test.h\"", "", "// All of these pass.", ""] ++
    block "int add(int a, int b)" ["return a + b;"] ++
    [""] ++
    block "const char* test_add_basic()" ["RN_ASSERT(add(2, 3) == 5);", "return 0;"] ++
    [""] ++
    block "const char* test_add_negative()" ["RN_ASSERT(add(-2, -3) == -5);", "return 0;"] ++
    [""] ++
    block "const char* test_add_failure_example()"
      ["// The message is for the day on which it fails.",
        "RN_ASSERT_MSG(1 == 1, \"should not fail\");",
        "return 0;"]
  functions _ :=
    [addition,
      returns "test_add_basic" 0,
      returns "test_add_negative" 0,
      returns "test_add_failure_example" 0]

/-! ## Crashes -/

/-- A test that writes to the address zero, between two that pass. -/
def crash : Unit where
  path := "harness/crash_test.c"
  lines :=
    ["#include \"../native/native_test.h\"", ""] ++
    block "int test_before_crash(void)" ["return 0;"] ++
    [""] ++
    block "int test_segfault(void)" ["volatile int* p = 0;", "*p = 42;", "return 0;"] ++
    [""] ++
    block "const char* test_after_crash(void)" ["RN_ASSERT(1 + 1 == 2);", "return 0;"]
  functions _ :=
    [returns "test_before_crash" 0,
      ("test_segfault", fun _ => .writing fun _ m => m.setWord? 4 0 42),
      returns "test_after_crash" 0]

/-- What the last test of the dying ones says. -/
def dyingTexts : List (List UInt8) :=
  [utf8 "still running"]

/-- Tests that end the process in many ways. -/
def dying : Unit where
  path := "dying_test.c"
  lines :=
    ["// How a test may end its process.", "", "#include <signal.h>", "#include <stdlib.h>",
      "#include <unistd.h>", ""] ++
    oneLine "int test_first(void)" "return 0;" ++
    oneLine "int test_abort(void)" "abort();" ++
    oneLine "int test_kill(void)" "raise(SIGKILL); return 0;" ++
    oneLine "int test_term(void)" "raise(SIGTERM); return 0;" ++
    oneLine "int test_exit_zero(void)" "_exit(0);" ++
    oneLine "int test_exit_three(void)" "_exit(3);" ++
    oneLine "const char* test_last(void)" "return \"still running\";"
  functions _ :=
    [returns "test_first" 0,
      ("test_abort", fun _ => .raising 6),
      ("test_kill", fun _ => .raising 9),
      ("test_term", fun _ => .raising 15),
      ("test_exit_zero", fun _ => .leaving 0),
      ("test_exit_three", fun _ => .leaving 3),
      returnsText "test_last" dyingTexts 0]
  data := textData dyingTexts

/-! ## Outcomes -/

/-- What the tests of all outcomes say. One text is not UTF-8. -/
def outcomeTexts : List (List UInt8) :=
  [utf8 "café ✗", [0x61, 0xff, 0x62], utf8 "line one\nline two", utf8 "bytes"]

/-- Tests of every result type and every kind of message. -/
def outcomes : Unit where
  path := "outcomes_test.c"
  lines :=
    ["// One test for each way in which a result is read.", "", "#include <stdint.h>", "",
      "// A status is zero or not, at its declared width.", ""] ++
    oneLine "int test_zero(void)" "return 0;" ++
    oneLine "int test_negative(void)" "return -1;" ++
    oneLine "long test_long_zero(void)" "return 0;" ++
    ["// The low half is zero."] ++
    oneLine "long test_long_high(void)" "return 1L << 32;" ++
    ["// Only the low byte counts."] ++
    oneLine "uint8_t test_narrow_wraps(void)" "return (uint8_t)256;" ++
    oneLine "int8_t test_narrow_fails(void)" "return (int8_t)255;" ++
    oneLine "const char* test_null(void)" "return 0;" ++
    oneLine "const char* test_unicode(void)" "return \"caf\\xc3\\xa9 \\xe2\\x9c\\x97\";" ++
    oneLine "const char* test_invalid_utf8(void)" "return \"a\\xff\" \"b\";" ++
    oneLine "const char* test_multiline(void)" "return \"line one\\nline two\";" ++
    oneLine "const unsigned char* test_unsigned_text(void)"
      "return (const unsigned char*)\"bytes\";" ++
    oneLine "void* test_opaque(void)" "return 0;" ++
    oneLine "int* test_int_pointer(void)" "return 0;" ++
    oneLine "void test_void(void)" "" ++
    oneLine "float test_float(void)" "return 0;" ++
    oneLine "int test_two_params(int a, int b)" "return a + b;" ++
    oneLine "static int test_static(void)" "return 0;" ++
    ["struct s \x7b int x; \x7d;"] ++
    oneLine "struct s test_struct(void)" "struct s v = \x7b test_static() \x7d; return v;" ++
    oneLine "int test_(void)" "return 0;" ++
    oneLine "int not_a_test(void)" "return 0;" ++
    oneLine "int Test_upper(void)" "return 0;" ++
    oneLine "int test_UPPER_9(void)" "return 0;"
  functions _ :=
    [returns "test_zero" 0,
      returns "test_negative" (-1),
      returns "test_long_zero" 0,
      returns "test_long_high" 0x100000000,
      returns "test_narrow_wraps" 256,
      returns "test_narrow_fails" 255,
      returns "test_null" 0,
      returnsText "test_unicode" outcomeTexts 0,
      returnsText "test_invalid_utf8" outcomeTexts 1,
      returnsText "test_multiline" outcomeTexts 2,
      returnsText "test_unsigned_text" outcomeTexts 3,
      returns "test_opaque" 0,
      returns "test_int_pointer" 0,
      returns "test_void" 0,
      returns "test_float" 0,
      computes "test_two_params" fun words => intResult (intAt words 0 + intAt words 1),
      returns "test_struct" 0,
      returns "test_" 0,
      returns "not_a_test" 0,
      returns "Test_upper" 0,
      returns "test_UPPER_9" 0]
  data := textData outcomeTexts

/-! ## A test with two definitions -/

/-- A test that is defined for each of two settings. Whatever is set, one definition is compiled. -/
def alternatives : Unit where
  path := "alternatives_test.c"
  lines :=
    ["#ifdef FAST"] ++
    oneLine "int test_sum(void)" "return 0;" ++
    ["#else"] ++
    oneLine "int test_sum(void)" "return 0;" ++
    ["#endif"]
  functions _ := [returns "test_sum" 0]

/-! ## Unbound tests -/

/-- A test that is not exported. -/
def internalTest : Unit where
  path := "unbound/static_only_test.c"
  lines := block "static int test_only_internal(void)" ["return 1;"]

/-- Tests that cannot be bound, and one that can. -/
def unbound : Unit where
  path := "unbound/unbound_test.c"
  lines :=
    ["// Only the last of these can be called. The others are", "// reported all the same.", "",
      "// Internal linkage: not exported."] ++
    block "static int test_internal(void)" ["return 0;"] ++
    [""] ++
    block "int test_variadic(int n, ...)" ["return n;"] ++
    ["", "// @cost medium"] ++
    block "int test_bad_annotation(void)" ["return 0;"] ++
    [""] ++
    block "int test_exported(void)" ["return 0;"]
  functions _ :=
    [computes "test_variadic" (wordAt · 0),
      returns "test_bad_annotation" 0,
      returns "test_exported" 0]

end CBind.Sample
