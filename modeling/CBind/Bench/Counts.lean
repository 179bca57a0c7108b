import CBind.Fault
import CBind.Number.Arithmetic

/-!
# How often a benchmark calls its function

The number of measured calls is the requested one, or the default for the declared cost. It must be
at least one and may not exceed a cap. The number of warm-up calls is the requested one, or a
fraction of the measured calls, rounded down and at least a minimum.
-/

namespace CBind

/-- The settings from which unspecified counts are derived. The fraction is the bit pattern of a
64-bit float. -/
structure BenchDefaults where
  lowCostIterations : Nat := 2000
  highCostIterations : Nat := 20
  warmupFraction : UInt64 := 0x3fa999999999999a
  minWarmup : Nat := 1
  maxIterations : Nat := 2000000
deriving DecidableEq, Repr

/-- The counts a caller asks for. -/
structure BenchOptions where
  iterations : Option Nat := none
  warmup : Option Nat := none
deriving DecidableEq, Repr

/-- The counts a benchmark runs with. -/
structure BenchCounts where
  iterations : Nat
  warmup : Nat
deriving DecidableEq, Repr

namespace BenchDefaults

/-- The measured calls of a function of a declared cost. -/
def iterationsFor (d : BenchDefaults) : Cost → Nat
  | .high => d.highCostIterations
  | .low => d.lowCostIterations
  | .unspecified => d.lowCostIterations

/-- The warm-up calls that go with a number of measured calls. -/
def warmupFor (d : BenchDefaults) (iterations : Nat) : Nat :=
  max (floorToCount maxCount (mul64 (floatOfInt iterations) d.warmupFraction)) d.minWarmup

end BenchDefaults

/-- Settle the counts of a benchmark. -/
def resolveCounts (function : String) (cost : Cost) (options : BenchOptions)
    (defaults : BenchDefaults) : Except Fault BenchCounts :=
  let iterations := options.iterations.getD (defaults.iterationsFor cost)
  if iterations = 0 then
    .error (.argument function "benchmark needs at least one measured iteration")
  else if defaults.maxIterations < iterations then
    .error (.argument function ("refusing to run " ++ decimal iterations ++ " iterations (cap " ++
      decimal defaults.maxIterations ++ ")"))
  else .ok ⟨iterations, options.warmup.getD (defaults.warmupFor iterations)⟩

end CBind
