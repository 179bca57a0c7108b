import CBind.Bench.Counts
import CBind.Bench.Kernel
import CBind.Bench.Measure
import CBind.Call.Invocation

/-!
# Benchmarks of bindings

A benchmark calls a binding as often as its counts say, where its policy says, and gives up at the first
call that fails, or before its measured calls if there can be no room for their times. Two benchmarks of
one binding can be set against each other: on the calling thread and through the workers, or the native
code and the same computation on the host.

Every call is taken to last the same time. What a clock would read is not modelled.
-/

namespace CBind

/-- The value of a call that somebody waits for. A call that no worker gets to is lost. -/
def Binding.callAndWait (b : Binding) (arguments : List Value) (w : CallWorkshop) :
    Except Fault Value × CallWorkshop :=
  let (result, w) := b.call arguments w
  (result.getD (.error (.poolClosed b.name)), w)

/-- What a benchmark needs to know besides its binding and arguments. -/
structure BenchPlan where
  options : BenchOptions
  defaults : BenchDefaults
  callTime : Span

namespace BenchPlan

/-- Measure a binding with its own policy. -/
def run (plan : BenchPlan) (b : Binding) (arguments : List Value) (w : CallWorkshop) :
    Except BenchStop BenchResult × CallWorkshop :=
  match resolveCounts b.name b.descriptor.annotations.cost plan.options plan.defaults with
  | .error fault => (.error (.failed fault), w)
  | .ok counts =>
    let call (w : CallWorkshop) : Except Fault Span × CallWorkshop :=
      let (result, w) := b.callAndWait arguments w
      (result.map fun _ => plan.callTime, w)
    measure b.name counts.iterations counts.warmup call w

/-- Measure a binding on the calling thread and through the workers. -/
def runBothPolicies (plan : BenchPlan) (b : Binding) (arguments : List Value) (w : CallWorkshop) :
    Except BenchStop (BenchResult × BenchResult) × CallWorkshop :=
  match plan.run (b.withPolicy .sync) arguments w with
  | (.error stop, w) => (.error stop, w)
  | (.ok sync, w) =>
    let (async, w) := plan.run (b.withPolicy .async) arguments w
    (async.map (sync, ·), w)

/-- The name of the baseline of a function. -/
def baselineName (function : String) : String :=
  function ++ " (baseline)"

/-- Measure the host's own computation as often as a binding was measured. -/
def runBaseline (plan : BenchPlan) (function : String) (called : BenchSummary) :
    Except BenchStop BenchResult :=
  (measure (baselineName function) called.iterations called.warmup
    (fun (_ : Unit) => (.ok plan.callTime, ())) ()).1

/-- Measure a kernel and its baseline, if it has one. -/
def runWithBaseline (plan : BenchPlan) (b : Binding) (k : KernelInputs) (arguments : List Value)
    (w : CallWorkshop) : Except BenchStop (Option (BenchResult × BenchResult)) × CallWorkshop :=
  if k.hasBaseline then
    match plan.run b arguments w with
    | (.error stop, w) => (.error stop, w)
    | (.ok called, w) =>
      ((plan.runBaseline b.name called.summary).map fun host => some (called, host), w)
  else (.ok none, w)

end BenchPlan

/-- The arguments of a kernel whose buffers are mapped at addresses. -/
def KernelInputs.values (k : KernelInputs) (addresses : List Nat) : List Value :=
  k.arguments.map fun
    | .value v => v
    | .buffer i => .address (UInt64.ofNat (addresses.getD i 0))

end CBind
