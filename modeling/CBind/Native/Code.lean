import CBind.Native.Process

/-!
# Writing native code

Small pieces from which the code of a function is put together: its arguments as numbers, its result as a
word, loops over memory, and the ways to end the process. A missing argument counts as zero.
-/

namespace CBind

/-- The argument at a position, as a word. -/
def wordAt (words : List UInt64) (i : Nat) : UInt64 :=
  words.getD i 0

/-- The argument at a position, as an address. -/
def addressAt (words : List UInt64) (i : Nat) : Nat :=
  (wordAt words i).toNat

/-- The argument at a position, as an integer of 32 bits. -/
def intAt (words : List UInt64) (i : Nat) : Int :=
  (wordAt words i).toUInt32.toInt32.toInt

/-- The argument at a position, as an integer of 64 bits. -/
def longAt (words : List UInt64) (i : Nat) : Int :=
  (wordAt words i).toInt64.toInt

/-- The argument at a position, as a number of repetitions: a negative one means none. -/
def countAt (words : List UInt64) (i : Nat) : Nat :=
  (intAt words i).toNat

/-- The argument at a position, as a 32-bit float. -/
def singleAt (words : List UInt64) (i : Nat) : UInt32 :=
  (wordAt words i).toUInt32

/-- An integer as a result of 32 bits. -/
def intResult (n : Int) : UInt64 :=
  (Int32.ofInt n).toUInt32.toUInt64

/-- An integer as a result of 64 bits. -/
def longResult (n : Int) : UInt64 :=
  (Int64.ofInt n).toUInt64

/-- Do a step for each of `n` indices from `i` on. -/
def forIndices {σ : Type} (step : Nat → σ → Option σ) : Nat → Nat → σ → Option σ
  | 0, _, s => some s
  | n + 1, i, s =>
    match step i s with
    | some s => forIndices step n (i + 1) s
    | none => none

namespace NativeCode

/-- Code that computes its result from its arguments. -/
def ofFunction (f : List UInt64 → UInt64) : NativeCode := fun words s =>
  (f words, s)

/-- Code that works on memory; where it gives nothing, it has made a wrong access. -/
def onMemory (f : List UInt64 → Memory → Option (UInt64 × Memory)) : NativeCode := fun words s =>
  match f words s.memory with
  | some (word, memory) => (word, { s with memory })
  | none => s.kill segmentationFault

/-- Code that computes its result from its arguments and from what it reads. -/
def reading (f : List UInt64 → Memory → Option UInt64) : NativeCode :=
  onMemory fun words m => (f words m).map (·, m)

/-- Code that changes memory and has no result. -/
def writing (f : List UInt64 → Memory → Option Memory) : NativeCode :=
  onMemory fun words m => (f words m).map (0, ·)

/-- Code that is killed by a signal. -/
def raising (signal : Int) : NativeCode := fun _ s =>
  s.kill signal

/-- Code that leaves the process with a status. -/
def leaving (status : Nat) : NativeCode := fun _ s =>
  (0, { s with ended := some (.exited status) })

end NativeCode

end CBind
