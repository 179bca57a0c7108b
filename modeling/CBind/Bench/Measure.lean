import CBind.Fault
import CBind.Number.Arithmetic
import CBind.Number.Fixed

/-!
# Measuring calls

A benchmark makes its warm-up calls, then its measured calls, and gives up at the first call that
fails. Between the two it reserves room for the times of all measured calls at once, and there it stops
if no array can be that long. The times of the measured calls are summed up in a summary; the mean is
rounded down to whole nanoseconds and held below `2 ^ 64` of them.

A call is a function of a hidden state that answers with the time it took or a fault. What a clock
reads is not modelled, nor how much memory there is.
-/

namespace CBind

/-- Statistics of measured calls. -/
structure BenchSummary where
  function : String
  iterations : Nat
  warmup : Nat
  min : Span
  mean : Span
  max : Span
  total : Span
deriving DecidableEq, Repr

/-- A summary with the times it was drawn from. -/
structure BenchResult where
  summary : BenchSummary
  samples : List Span
deriving DecidableEq, Repr

/-- The sum of spans. -/
def totalSpan (samples : List Span) : Span :=
  ⟨samples.foldl (fun total s => total + s.nanos) 0⟩

/-- The least of some spans, zero if there are none. -/
def leastSpan (samples : List Span) : Span :=
  ⟨(samples.map Span.nanos).min?.getD 0⟩

/-- The greatest of some spans, zero if there are none. -/
def greatestSpan (samples : List Span) : Span :=
  ⟨(samples.map Span.nanos).max?.getD 0⟩

/-- The mean of spans in whole nanoseconds, zero if there are none. -/
def meanSpan (samples : List Span) : Span :=
  ⟨min ((totalSpan samples).nanos / samples.length) maxCount⟩

/-- Sum up the times of measured calls. -/
def BenchResult.ofSamples (function : String) (warmup : Nat) (samples : List Span) : BenchResult :=
  { summary :=
      { function := function
        iterations := samples.length
        warmup := warmup
        min := leastSpan samples
        mean := meanSpan samples
        max := greatestSpan samples
        total := totalSpan samples }
    samples := samples }

/-- Make `n` calls from a state, collecting their times behind those of `done`, which is in
reverse. -/
def repeatCall {σ : Type} (call : σ → Except Fault Span × σ) (done : List Span) :
    Nat → σ → Except Fault (List Span) × σ
  | 0, s => (.ok done.reverse, s)
  | n + 1, s =>
    match call s with
    | (.error fault, s') => (.error fault, s')
    | (.ok time, s') => repeatCall call (time :: done) n s'

/-- The greatest number of times that an array can hold: it takes fewer than `2 ^ 63` bytes, and a
time takes 16. -/
def mostSamples : Nat := 0x7fffffffffffffff / 16

/-- Why a benchmark has no result: a call failed, or no array can hold its times. -/
inductive BenchStop where
  | failed (fault : Fault)
  | noRoom
deriving DecidableEq, Repr

/-- Measure a callable: warm-up calls whose times are dropped, then measured calls, with room for the
times of all of them. -/
def measure {σ : Type} (function : String) (iterations warmup : Nat)
    (call : σ → Except Fault Span × σ) (start : σ) : Except BenchStop BenchResult × σ :=
  match repeatCall call [] warmup start with
  | (.error fault, s) => (.error (.failed fault), s)
  | (.ok _, s) =>
    if mostSamples < iterations then (.error .noRoom, s)
    else
      match repeatCall call [] iterations s with
      | (.error fault, s') => (.error (.failed fault), s')
      | (.ok samples, s') => (.ok (.ofSamples function warmup samples), s')

/-- A span in seconds as a 64-bit float: whole seconds plus the fraction of one. -/
def Span.seconds (d : Span) : UInt64 :=
  add64 (floatOfInt (d.nanos / 1000000000))
    (div64 (floatOfInt (d.nanos % 1000000000)) (floatOfInt 1000000000))

/-- The quotient of a float and a span in seconds, infinite for an empty span. -/
def perSeconds (num : UInt64) (d : Span) : UInt64 :=
  if d.nanos = 0 then 0x7ff0000000000000 else div64 num d.seconds

/-- The calls made in a second. -/
def BenchSummary.callsPerSecond (s : BenchSummary) : UInt64 :=
  perSeconds (floatOfInt s.iterations) s.total

/-- Write a summary: the counts, the times and the rate. -/
def BenchSummary.spelling (s : BenchSummary) : String :=
  s.function ++ ": " ++ decimal s.iterations ++ " iterations (" ++ decimal s.warmup ++
    " warmup)\n  mean " ++ s.mean.spelling ++ "  min " ++ s.min.spelling ++ "  max " ++
    s.max.spelling ++ "  total " ++ s.total.spelling ++ "\n  " ++
    FloatFormat.double.writeFixed 1 s.callsPerSecond.toNat ++ " calls/sec"

/-- Two summaries that are set against each other. -/
inductive Comparison where
  | syncAsync (sync async : BenchSummary)
  | baseline (called host : BenchSummary)
deriving DecidableEq, Repr

/-- The quotient of the means: async by sync, and host by native. -/
def Comparison.ratio : Comparison → UInt64
  | syncAsync sync async => perSeconds async.mean.seconds sync.mean
  | baseline called host => perSeconds host.mean.seconds called.mean

/-- Write a comparison: both summaries and the quotient of their means. -/
def Comparison.spelling (c : Comparison) : String :=
  let ratio := FloatFormat.double.writeFixed 2 c.ratio.toNat ++ "x"
  match c with
  | syncAsync sync async =>
    "[sync]\n" ++ sync.spelling ++ "\n[async]\n" ++ async.spelling ++
      "\nasync/sync mean latency: " ++ ratio
  | baseline called host =>
    "[native]\n" ++ called.spelling ++ "\n[baseline]\n" ++ host.spelling ++ "\nspeedup: " ++ ratio

end CBind
