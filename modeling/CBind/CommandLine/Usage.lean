/-!
# Help and version texts
-/

namespace CBind.CommandLine

/-- The version of the program. -/
def versionNumber : String := "0.2.0"

/-- What a request for the version prints. -/
def versionText : String :=
  "nativebridge " ++ versionNumber ++ "\n"

/-- The help text. -/
def usageText : String :=
  String.join ([
    "nativebridge v" ++ versionNumber,
    "",
    "USAGE:",
    "    nativebridge [OPTIONS] <COMMAND>",
    "",
    "COMMANDS:",
    "    bench <FILE> <FUNCTION> [ARG...]   Benchmark one function",
    "    test <DIR|FILE>                    Run native test_* functions",
    "    doctor                             Check the C toolchain",
    "    cache status                       Show artifact cache usage",
    "    cache clean                        Remove cached artifacts",
    "",
    "OPTIONS:",
    "    -h, --help           Print this help message",
    "    -V, --version        Print version information",
    "    --verbose            Debug logging (overrides RUST_LOG)",
    "    --iterations <N>     bench: measured iterations",
    "    --warmup <N>         bench: discarded warmup iterations",
    "    --traditional        bench: compare against the built-in Rust baseline",
    "    --async              bench: compare sync and worker-pool dispatch",
    "    --in-process         test: call tests directly instead of forking",
    "",
    "EXAMPLES:",
    "    nativebridge bench fixtures/loop.c loop_sum",
    "    nativebridge bench fixtures/echo.c twice 21 --iterations 100",
    "    nativebridge bench fixtures/buffer.c sum_u8 --traditional",
    "    nativebridge test fixtures/harness"].map (· ++ "\n"))

end CBind.CommandLine
