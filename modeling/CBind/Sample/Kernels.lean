import CBind.Bench.Kernel
import CBind.Sample.Unit

/-!
# Samples: small kernels

Loops over integers, bytes and floats. Loops that write go through their elements one by one, so a call
whose areas overlap sees what it has written. Floats are added in the order of the loop.
-/

namespace CBind.Sample

/-! ## Bytes -/

/-- The text of filling and summing bytes. -/
def bufferLines : List String :=
  ["// @sync", "// @cost low", "//", "// Sets all bytes to a value."] ++
  block "void fill_u8(char* out, int n, int value)"
    (block "for (int i = 0; i < n; i++)" ["out[i] = (unsigned char)value;"]) ++
  ["", "// Adds bytes up."] ++
  block "int sum_u8(char* buf, int n)"
    ["int s = 0;",
      "for (int i = 0; i < n; i++) s += (unsigned char)buf[i];",
      "return s;"]

/-- Filling and summing bytes. -/
def buffer : Unit where
  path := "buffer.c"
  lines := bufferLines
  functions _ :=
    [("fill_u8", fun _ => .writing fun words m =>
        forIndices (fun i m => m.setByte? (addressAt words 0 + i) (wordAt words 2).toUInt8)
          (countAt words 1) 0 m),
      ("sum_u8", fun _ => .reading fun words m =>
        (m.bytes? (addressAt words 0) (countAt words 1)).map fun bytes =>
          intResult (hostSum bytes).toInt)]

/-- The text of the cyclic redundancy check. -/
def crcLines : List String :=
  ["// CRC-32 of bytes, one bit after the other.",
    "//",
    "// Signature:",
    "//   uint32_t crc32_u8(const uint8_t* data, int n)",
    "//",
    "// Polynomial:",
    "// - IEEE 802.3, coefficients reversed.",
    "// - No table.",
    "",
    "#include <stdint.h>",
    "",
    "// Takes one byte",
    "// into the register",
    "// of the check."] ++
  block "uint32_t crc32_update(uint32_t crc, uint8_t data)"
    (["crc ^= data;"] ++
      block "for (int k = 0; k < 8; k++)"
        ["uint32_t mask = (uint32_t)-(int)(crc & 1u);",
          "crc = (crc >> 1) ^ (0xEDB88320u & mask);"] ++
      ["return crc;"]) ++
  ["", "// @sync"] ++
  block "uint32_t crc32_u8(const uint8_t* data, int n)"
    (["uint32_t crc = 0xFFFFFFFFu;"] ++
      block "for (int i = 0; i < n; i++)" ["crc = crc32_update(crc, data[i]);"] ++
      ["return ~crc;"])

/-- One turn of the loop over the bits of a byte. -/
def crcTurn (crc : UInt32) : UInt32 :=
  let mask := (-(crc &&& 1).toInt32).toUInt32
  (crc >>> 1) ^^^ (0xedb88320 &&& mask)

/-- Take one byte into the register of the check. -/
def crcUpdate (crc : UInt32) (data : UInt8) : UInt32 :=
  Nat.repeat crcTurn 8 (crc ^^^ data.toUInt32)

/-- The check of `n` bytes from an address on. -/
def crcRun (address n : Nat) (m : Memory) : Option UInt32 := do
  let crc ← forIndices (fun i crc => do return crcUpdate crc (← m.byte? (address + i))) n 0 0xffffffff
  return ~~~ crc

/-- The cyclic redundancy check, for a byte and for a run of bytes. -/
def crc : Unit where
  path := "crc32.c"
  lines := crcLines
  functions _ :=
    [computes "crc32_update" fun words =>
        (crcUpdate (wordAt words 0).toUInt32 (wordAt words 1).toUInt8).toUInt64,
      ("crc32_u8", fun _ => .reading fun words m =>
        (crcRun (addressAt words 0) (countAt words 1) m).map UInt32.toUInt64)]

/-- The text of the exclusive or. -/
def xorLines : List String :=
  ["// Exclusive or of two runs of bytes.",
    "//",
    "// Signature:",
    "//   void xor_u8(const uint8_t* a, const uint8_t* b, uint8_t* out, int n)",
    "//",
    "// Limits:",
    "// - The count is an int.",
    "// - All three runs have that many bytes.",
    "",
    "#include <stdint.h>",
    "",
    "// @sync"] ++
  block "void xor_u8(const uint8_t* a, const uint8_t* b, uint8_t* out, int n)"
    (block "for (int i = 0; i < n; i++)" ["out[i] = (uint8_t)(a[i] ^ b[i]);"])

/-- The exclusive or of two runs of bytes. -/
def xor : Unit where
  path := "xor.c"
  lines := xorLines
  functions _ :=
    [("xor_u8", fun _ => .writing fun words m =>
      forIndices (fun i m => do
          let a ← m.byte? (addressAt words 0 + i)
          let b ← m.byte? (addressAt words 1 + i)
          m.setByte? (addressAt words 2 + i) (a ^^^ b))
        (countAt words 3) 0 m)]

/-- The text of the histogram. -/
def histogramLines : List String :=
  ["// How often each byte occurs.",
    "//",
    "// Signature:",
    "//   void histogram_u8(const uint8_t* data, int n, uint32_t* out256)",
    "//",
    "// Limits:",
    "// - The result has 256 counts.",
    "// - Counts wrap around at 32 bits.",
    "",
    "#include <stdint.h>",
    "",
    "// @sync"] ++
  block "void histogram_u8(const uint8_t* data, int n, uint32_t* out256)"
    (["// What was there before does not count.",
        "for (int i = 0; i < 256; i++) out256[i] = 0;",
        ""] ++
      block "for (int i = 0; i < n; i++)" ["out256[data[i]]++;"])

/-- The histogram of bytes. -/
def histogram : Unit where
  path := "histogram.c"
  lines := histogramLines
  functions _ :=
    [("histogram_u8", fun _ => .writing fun words m => do
      let counts := addressAt words 2
      let m ← forIndices (fun i m => m.setWord? 4 (counts + 4 * i) 0) 256 0 m
      forIndices (fun i m => do
          let place := counts + 4 * (← m.byte? (addressAt words 0 + i)).toNat
          m.setWord? 4 place ((← m.word? 4 place) + 1))
        (countAt words 1) 0 m)]

/-! ## Integers -/

/-- The text of the integer loop. -/
def loopLines : List String :=
  ["// @sync", "// @cost high", "//", "// A loop over integers whose result depends",
    "// on every turn."] ++
  block "long loop_sum(long n)"
    (["long acc = 0;"] ++
      block "for (long i = 0; i < n; i++)" ["acc += (i ^ 0x9e3779b97f4a7c15ULL) & 0xffff;"] ++
      ["return acc;"])

/-- A loop over integers. -/
def loop : Unit where
  path := "loop.c"
  lines := loopLines
  functions _ :=
    [computes "loop_sum" fun words => (hostLoopSum (wordAt words 0).toInt64).toUInt64]

/-! ## Floats -/

/-- The text of the dot product. -/
def dotLines : List String :=
  ["// @sync",
    "// @cost high",
    "",
    "// The dot product of two runs of floats.",
    "// A blank line stands between the directives and the function,",
    "// so they are not about it."] ++
  block "double dot_f64(double* a, double* b, int n)"
    (["double acc = 0.0;"] ++
      block "for (int i = 0; i < n; i++)" ["acc += a[i] * b[i];"] ++
      ["return acc;"])

/-- The dot product. -/
def dot : Unit where
  path := "dot.c"
  lines := dotLines
  functions _ :=
    [("dot_f64", fun _ => .reading fun words m => do
      let step (i : Nat) (acc : UInt64) : Option UInt64 := do
        let a ← m.word? 8 (addressAt words 0 + 8 * i)
        let b ← m.word? 8 (addressAt words 1 + 8 * i)
        return add64 acc (mul64 (UInt64.ofNat a) (UInt64.ofNat b))
      forIndices step (countAt words 2) 0 0)]

/-- The text of the scaled sum. -/
def saxpyLines : List String :=
  ["// Adds a multiple of one run of floats to another: y[i] = a*x[i] + y[i]",
    "//",
    "// Limits:",
    "//   both runs have as many elements as the last argument says",
    "",
    "// @sync"] ++
  block "void saxpy_f64(double a, double* x, double* y, int n)"
    (block "for (int i = 0; i < n; i++)" ["y[i] = a * x[i] + y[i];"])

/-- The scaled sum. -/
def saxpy : Unit where
  path := "saxpy.c"
  lines := saxpyLines
  functions _ :=
    [("saxpy_f64", fun _ => .writing fun words m =>
      forIndices (fun i m => do
          let x ← m.word? 8 (addressAt words 1 + 8 * i)
          let place := addressAt words 2 + 8 * i
          let y ← m.word? 8 place
          m.setWord? 8 place
            (add64 (mul64 (wordAt words 0) (UInt64.ofNat x)) (UInt64.ofNat y)).toNat)
        (countAt words 3) 0 m)]

/-- The text of the matrix product. -/
def matmulLines : List String :=
  ["// The product of two matrices that stand row by row: C[MxN] = A[MxK] * B[KxN]",
    "// Every element is one dot product.",
    "//",
    "// Limits:",
    "//   the result is written while the factors are still read",
    "",
    "// @sync"] ++
  block "void matmul_f32(const float* A, const float* B, float* C, int M, int K, int N)"
    (block "for (int i = 0; i < M; i++)"
      (block "for (int j = 0; j < N; j++)"
        (["float acc = 0.0f;"] ++
          block "for (int k = 0; k < K; k++)" ["acc += A[i * K + k] * B[k * N + j];"] ++
          ["C[i * N + j] = acc;"])))

/-- One element of a matrix product: row `i` of the first matrix with column `j` of the second. -/
def productElement (words : List UInt64) (m : Memory) (i j : Nat) : Option UInt32 :=
  let inner := countAt words 4
  let columns := countAt words 5
  let step (k : Nat) (acc : UInt32) : Option UInt32 := do
    let a ← m.word? 4 (addressAt words 0 + 4 * (i * inner + k))
    let b ← m.word? 4 (addressAt words 1 + 4 * (k * columns + j))
    return add32 acc (mul32 (UInt32.ofNat a) (UInt32.ofNat b))
  forIndices step inner 0 0

/-- The matrix product. -/
def matmul : Unit where
  path := "matmul.c"
  lines := matmulLines
  functions _ :=
    [("matmul_f32", fun _ => .writing fun words m =>
      let columns := countAt words 5
      forIndices (fun i m =>
          forIndices (fun j m => do
              let element ← productElement words m i j
              m.setWord? 4 (addressAt words 2 + 4 * (i * columns + j)) element.toNat)
            columns 0 m)
        (countAt words 3) 0 m)]

end CBind.Sample
