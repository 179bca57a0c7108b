import CBind.Call.Value
import CBind.Digest.Crc
import CBind.Memory.Buffer
import CBind.Number.Arithmetic

/-!
# Built-in kernels: inputs and host baselines

Nine kernels have built-in inputs, made of values and buffers with fixed patterns. Five of them have
a baseline too: the same computation on the host, whose result is widened to a 64-bit float.
-/

namespace CBind

/-- An argument of a kernel: a value, or the address of one of its buffers. -/
inductive KernelArgument where
  | value (v : Value)
  | buffer (index : Nat)
deriving DecidableEq, Repr

/-- The built-in inputs of a kernel. -/
structure KernelInputs where
  function : String
  arguments : List KernelArgument
  buffers : List Buffer
deriving DecidableEq, Repr

/-- The number of bytes of the byte kernels. -/
def kernelBytes : Nat := 1048576

/-- The number of elements of the float kernels. -/
def kernelElements : Nat := 100000

/-- The number of rows and columns of the matrix kernel. -/
def kernelMatrix : Nat := 64

/-- A buffer whose bytes are the multiples of a factor modulo 256. -/
def patternBytes (n factor : Nat) : Buffer :=
  ⟨(List.range n).map fun i => UInt8.ofNat (i * factor % 256)⟩

/-- A buffer of 64-bit floats: the indices modulo `modulus`, scaled. -/
def patternDoubles (n modulus : Nat) (scale : UInt64) : Buffer :=
  let period := ((List.range modulus).map fun (i : Nat) => (mul64 (floatOfInt i) scale).toNat).toArray
  .ofElements .float64 ((List.range n).map fun i => period.getD (i % modulus) 0)

/-- A buffer of 32-bit floats: the indices modulo `modulus`, scaled. -/
def patternSingles (n modulus : Nat) (scale : UInt32) : Buffer :=
  let period := ((List.range modulus).map fun (i : Nat) =>
    (mul32 (narrowFloat (floatOfInt i)) scale).toNat).toArray
  .ofElements .float32 ((List.range n).map fun i => period.getD (i % modulus) 0)

/-- The 64-bit float nearest to a decimal. -/
def doubleOf (coefficient : Nat) (exponent : Int) : UInt64 :=
  UInt64.ofNat (FloatFormat.double.ofDecimal ⟨coefficient, exponent⟩)

/-- The 32-bit float nearest to a decimal. -/
def singleOf (coefficient : Nat) (exponent : Int) : UInt32 :=
  UInt32.ofNat (FloatFormat.single.ofDecimal ⟨coefficient, exponent⟩)

/-- A 32-bit count as an argument. -/
def countArgument (n : Nat) : KernelArgument :=
  .value (.int32 (Int32.ofInt n))

/-- The built-in inputs of a kernel, by name. -/
def kernelInputs? (name : String) : Option KernelInputs :=
  let inputs (arguments : List KernelArgument) (buffers : List Buffer) : Option KernelInputs :=
    some ⟨name, arguments, buffers⟩
  let doubles := fun (_ : Unit) =>
    [patternDoubles kernelElements 1024 (doubleOf 1 (-3)),
      patternDoubles kernelElements 2048 (doubleOf 2 (-3))]
  let order := countArgument kernelMatrix
  if name == "add" then inputs [countArgument 1, countArgument 2] []
  else if name == "loop_sum" then inputs [.value (.int64 1000000)] []
  else if name == "sum_u8" then
    inputs [.buffer 0, countArgument kernelBytes] [⟨List.replicate kernelBytes 1⟩]
  else if name == "crc32_u8" then
    inputs [.buffer 0, countArgument kernelBytes] [patternBytes kernelBytes 131]
  else if name == "dot_f64" then
    inputs [.buffer 0, .buffer 1, countArgument kernelElements] (doubles ())
  else if name == "saxpy_f64" then
    inputs [.value (.float64 (doubleOf 10001 (-4))), .buffer 0, .buffer 1,
      countArgument kernelElements] (doubles ())
  else if name == "xor_u8" then
    inputs [.buffer 0, .buffer 1, .buffer 2, countArgument kernelBytes]
      [patternBytes kernelBytes 1, patternBytes kernelBytes 31, .zeroed kernelBytes]
  else if name == "histogram_u8" then
    inputs [.buffer 0, countArgument (kernelBytes / 2), .buffer 1]
      [patternBytes (kernelBytes / 2) 17, .zeroed (256 * 4)]
  else if name == "matmul_f32" then
    inputs [.buffer 0, .buffer 1, .buffer 2, order, order, order]
      [patternSingles (kernelMatrix * kernelMatrix) 13 (singleOf 1 (-2)),
        patternSingles (kernelMatrix * kernelMatrix) 7 (singleOf 2 (-2)),
        .zeroed (kernelMatrix * kernelMatrix * 4)]
  else none

/-- Add two 32-bit integers, wrapping around. -/
def hostAdd (a b : Int32) : Int32 :=
  a + b

/-- The summand of the loop kernel at an index. -/
def loopTerm (i : UInt64) : UInt64 :=
  (i ^^^ 0x9e3779b97f4a7c15) &&& 0xffff

/-- Add up `n` summands of the loop kernel from an index on. -/
def loopFrom (i acc : UInt64) : Nat → UInt64
  | 0 => acc
  | n + 1 => loopFrom (i + 1) (acc + loopTerm i) n

/-- The sum of the loop kernel; a negative count adds nothing. -/
def hostLoopSum (n : Int64) : Int64 :=
  (loopFrom 0 0 n.toInt.toNat).toInt64

/-- The sum of bytes, wrapping around at 32 bits. -/
def hostSum (bytes : List UInt8) : Int32 :=
  (bytes.foldl (fun (acc : UInt32) b => acc + b.toUInt32) 0).toInt32

/-- The dot product of as many pairs as there are, summed from left to right from negative zero. -/
def hostDot (a b : List UInt64) : UInt64 :=
  (List.zipWith mul64 a b).foldl add64 0x8000000000000000

/-- The integer among the arguments at a position, zero if there is none. -/
def KernelInputs.integer (k : KernelInputs) (i : Nat) : Int :=
  match k.arguments[i]? with
  | some (.value (.int32 n)) => n.toInt
  | some (.value (.int64 n)) => n.toInt
  | _ => 0

/-- The buffer at a position, empty if there is none. -/
def KernelInputs.bufferAt (k : KernelInputs) (i : Nat) : Buffer :=
  (k.buffers[i]?).getD ⟨[]⟩

/-- The result of a kernel's baseline as a 64-bit float, if it has a baseline. -/
def KernelInputs.baseline? (k : KernelInputs) : Option UInt64 :=
  let doubles (i : Nat) : List UInt64 := ((k.bufferAt i).view .float64).map UInt64.ofNat
  if k.function == "add" then
    some (floatOfInt (hostAdd (Int32.ofInt (k.integer 0)) (Int32.ofInt (k.integer 1))).toInt)
  else if k.function == "loop_sum" then
    some (floatOfInt (hostLoopSum (Int64.ofInt (k.integer 0))).toInt)
  else if k.function == "sum_u8" then some (floatOfInt (hostSum (k.bufferAt 0).bytes).toInt)
  else if k.function == "crc32_u8" then
    some (floatOfInt (Digest.crc32 (k.bufferAt 0).bytes).toNat)
  else if k.function == "dot_f64" then some (hostDot (doubles 0) (doubles 1))
  else none

/-- Whether a kernel has a baseline. -/
def KernelInputs.hasBaseline (k : KernelInputs) : Bool :=
  ["add", "loop_sum", "sum_u8", "dot_f64", "crc32_u8"].contains k.function

end CBind
