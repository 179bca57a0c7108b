import CBind.Bench.Run
import CBind.CommandLine.Options
import CBind.CommandLine.Usage
import CBind.Testing.Runner

/-!
# Running a command line

A run is a function of the words, the environment, the machine and the files. It prints texts, leaves the
files changed, and ends the process: with code 0 for success, with 1 for a failure, with 2 for words that are
no command line, with 101 for a benchmark that no array has room for, or as native code ended it.

Log lines are not modelled.
-/

namespace CBind.CommandLine

/-- What a command has printed so far, and the files as it leaves them. -/
structure Shell where
  files : Files
  stdout : String := ""
  stderr : String := ""

/-- Print a line. -/
def Shell.print (s : Shell) (line : String) : Shell :=
  { s with stdout := s.stdout ++ line ++ "\n" }

/-- Print a line to the error output. -/
def Shell.complain (s : Shell) (line : String) : Shell :=
  { s with stderr := s.stderr ++ line ++ "\n" }

/-- Print an error. -/
def Shell.error (s : Shell) (message : String) : Shell :=
  s.complain ("Error: " ++ message)

/-- How a command ends: it gives up with a message, or the process ends. -/
abbrev CommandEnd := Except String ProcessEnd

/-- A fault as the message of a command that gives up. -/
def orMessage (r : Except Fault α) : Except String α :=
  r.mapError Fault.message

/-! ## Benchmarks -/

/-- Which measurements a benchmark prints. A comparison includes the plain measurement. -/
structure Measurements where
  bothPolicies : Bool
  baseline : Bool
  plain : Bool
deriving DecidableEq, Repr

/-- The measurements that options ask for. -/
def Measurements.of (o : Options) (hasBaseline : Bool) : Measurements :=
  let baseline := o.traditional && hasBaseline
  { bothPolicies := o.compareAsync
    baseline
    plain := !o.compareAsync && !baseline }

/-- The arguments of a benchmark: built-in ones of a kernel, or given ones. -/
inductive BenchArguments where
  | builtIn (k : KernelInputs)
  | given (values : List Value)

/-- Read texts as values of types; the first that cannot be read is the fault. -/
def readValues : List String → List CType → Except String (List Value)
  | text :: texts, type :: types =>
    match Value.read text type with
    | .error fault => .error fault.message
    | .ok v => (readValues texts types).map (v :: ·)
  | _, _ => .ok []

/-- Decide what to call a function with. A function with parameters and no given arguments is called on the
built-in inputs of its name. -/
def benchArguments (function : String) (b : Binding) (o : Options) (arguments : List String) :
    Except String BenchArguments :=
  let types := b.descriptor.parameterTypes
  if arguments.isEmpty && !types.isEmpty then
    match kernelInputs? function with
    | some k => .ok (.builtIn k)
    | none =>
      .error (function ++ " takes " ++ decimal types.length ++
        " argument(s) and has no built-in inputs; pass them after the function name")
  else if arguments.length = types.length then do
    let values ← readValues arguments types
    if o.traditional && !arguments.isEmpty then
      throw "--traditional runs on built-in inputs; drop the explicit arguments"
    return .given values
  else
    .error (function ++ " expects " ++ decimal types.length ++ " argument(s), got " ++
      decimal arguments.length)

/-- Map the buffers of arguments and give their values. -/
def BenchArguments.place (a : BenchArguments) (p : Process) : List Value × Process :=
  match a with
  | .given values => (values, p)
  | .builtIn k =>
    let (addresses, memory) := p.state.memory.allocateAll (k.buffers.map (·.bytes))
    (k.values addresses, { p with state := { p.state with memory } })

/-- The kernel behind built-in arguments. -/
def BenchArguments.kernel? : BenchArguments → Option KernelInputs
  | .builtIn k => some k
  | .given _ => none

/-- Print the measurement of both policies. -/
def printBothPolicies (plan : BenchPlan) (b : Binding) (values : List Value) (w : CallWorkshop)
    (s : Shell) : Except BenchStop Unit × CallWorkshop × Shell :=
  match plan.runBothPolicies b values w with
  | (.error stop, w) => (.error stop, w, s)
  | (.ok (sync, async), w) =>
    (.ok (), w, s.print (Comparison.syncAsync sync.summary async.summary).spelling)

/-- Print the measurement of a kernel and its baseline. -/
def printBaseline (plan : BenchPlan) (b : Binding) (k : KernelInputs) (values : List Value)
    (w : CallWorkshop) (s : Shell) : Except BenchStop Unit × CallWorkshop × Shell :=
  match plan.runWithBaseline b k values w with
  | (.error stop, w) => (.error stop, w, s)
  | (.ok none, w) => (.ok (), w, s)
  | (.ok (some (called, host)), w) =>
    (.ok (), w, s.print (Comparison.baseline called.summary host.summary).spelling)

/-- Print the plain measurement. -/
def printPlain (plan : BenchPlan) (b : Binding) (values : List Value) (w : CallWorkshop)
    (s : Shell) : Except BenchStop Unit × CallWorkshop × Shell :=
  match plan.run b values w with
  | (.error stop, w) => (.error stop, w, s)
  | (.ok result, w) => (.ok (), w, s.print result.summary.spelling)

/-- Do one thing after the other until one gives up. -/
def inTurn : List (CallWorkshop → Shell → Except BenchStop Unit × CallWorkshop × Shell) →
    CallWorkshop → Shell → Except BenchStop Unit × CallWorkshop × Shell
  | [], w, s => (.ok (), w, s)
  | act :: rest, w, s =>
    match act w s with
    | (.error stop, w, s) => (.error stop, w, s)
    | (.ok _, w, s) => if w.world.state.ended.isSome then (.ok (), w, s) else inTurn rest w s

/-- How a benchmark without a result ends its command: a call that failed gives a message, and where
there is no room the process itself gives up. -/
def endOfStop (stop : BenchStop) (s : Shell) : CommandEnd × Shell :=
  match stop with
  | .failed fault => (.error fault.message, s)
  | .noRoom => (.ok (.exited 101), s.complain "capacity overflow")

/-- Measure a binding and print the results. -/
def printMeasurements (plan : BenchPlan) (b : Binding) (o : Options) (a : BenchArguments)
    (w : CallWorkshop) (s : Shell) : CommandEnd × Shell :=
  let hasBaseline := match a.kernel? with
    | some k => k.hasBaseline
    | none => false
  let wanted := Measurements.of o hasBaseline
  let warned := if o.traditional && !hasBaseline then
      s.complain ("No built-in baseline for " ++ b.name)
    else s
  let (values, world) := a.place w.world
  let acts :=
    (if wanted.bothPolicies then [printBothPolicies plan b values] else []) ++
    (match wanted.baseline, a.kernel? with
      | true, some k => [printBaseline plan b k values]
      | _, _ => []) ++
    (if wanted.plain then [printPlain plan b values] else [])
  match inTurn acts { w with world } (warned.print b.descriptor.spelling) with
  | (.error stop, w, s) =>
    match w.world.state.ended with
    | some how => (.ok how, s)
    | none => endOfStop stop s
  | (.ok _, w, s) => (.ok (w.world.state.ended.getD (.exited 0)), s)

/-- Benchmark a function of a source. -/
def runBench (m : Machine) (config : Config) (source function : String) (arguments : List String)
    (o : Options) (s : Shell) : CommandEnd × Shell :=
  match Bridge.new m config s.files with
  | .error fault => (.error fault.message, s)
  | .ok b =>
    let (loaded, b, w) := b.load m source ⟨s.files, {}⟩
    let s := { s with files := w.files }
    let ready : Except String (Binding × BenchArguments) := do
      let module ← orMessage loaded
      let binding ← orMessage (module.binding function)
      return (binding, ← benchArguments function binding o arguments)
    match ready with
    | .error message => (.error message, s)
    | .ok (binding, a) =>
      let plan : BenchPlan := ⟨o.counts, config.bench, m.callTime⟩
      printMeasurements plan binding o a (.new b.workers w.process) s

/-! ## The other commands -/

/-- Run the tests of a file or a folder. -/
def runTests (m : Machine) (config : Config) (path : String) (o : Options) (s : Shell) :
    CommandEnd × Shell :=
  match Bridge.new m config s.files with
  | .error fault => (.error fault.message, s)
  | .ok b =>
    let isolation : Isolation := if o.inProcess then .inProcess else .fork
    let (result, w) := b.runPath m isolation path ⟨s.files, {}⟩
    let s := { s with files := w.files }
    match w.process.state.ended, result with
    | some how, _ => (.ok how, s)
    | none, .error fault => (.error fault.message, s)
    | none, .ok report => (.ok (.exited report.exitCode), s.print report.spelling)

/-- Show what the toolchain is, and try it out. -/
def runDoctor (m : Machine) (config : Config) (s : Shell) : CommandEnd × Shell :=
  match Toolchain.detect m.host s.files config.compiler with
  | .error fault => (.error fault.message, s)
  | .ok t =>
    let s := s.print ("compiler:  " ++ t.path ++ " (" ++ t.vendor.spelling ++ ")")
      |>.print ("version:   " ++ t.version)
      |>.print ("platform:  " ++ platformName)
      |>.print ("cflags:    " ++ CBind.Text.joinWith " " config.cflags)
      |>.print ("cache:     " ++ config.cacheDir)
      |>.print ("workers:   " ++ decimal config.workerThreads)
    let scratch := Path.join config.cacheDir "doctor"
    let (result, files) := Toolchain.sanityCheck m.host t m.process scratch s.files
    let s := { s with files }
    match result with
    | .ok _ => (.ok (.exited 0), s.print "toolchain: ok")
    | .error fault => (.ok (.exited 1), s.print ("toolchain: FAILED\n" ++ fault.message))

/-- Show how full the cache is. -/
def showCache (config : Config) (s : Shell) : CommandEnd × Shell :=
  match Cache.status { root := config.cacheDir } s.files with
  | .error fault => (.error fault.message, s)
  | .ok status =>
    (.ok (.exited 0), s.print config.cacheDir
      |>.print (decimal status.entries ++ " entries, " ++ decimal status.bytes ++ " bytes"))

/-- Remove the entries of the cache. -/
def cleanCache (config : Config) (s : Shell) : CommandEnd × Shell :=
  let (result, files) := Cache.clean { root := config.cacheDir } s.files
  let s := { s with files }
  match result with
  | .error fault => (.error fault.message, s)
  | .ok (removed, _) =>
    (.ok (.exited 0), s.print ("Removed " ++ decimal removed ++ " cache entries"))

/-- Run a command. -/
def runCommand (m : Machine) (env : Environment) (c : Command) (o : Options) (s : Shell) :
    CommandEnd × Shell :=
  match Config.load env s.files with
  | .error fault => (.error fault.message, s)
  | .ok config =>
    match c with
    | .bench source function arguments => runBench m config source function arguments o s
    | .test path => runTests m config path o s
    | .doctor => runDoctor m config s
    | .cacheStatus => showCache config s
    | .cacheClean => cleanCache config s

/-- Run the words of a command line. -/
def run (m : Machine) (env : Environment) (words : List String) (files : Files) :
    ProcessEnd × Shell :=
  match readWords words with
  | .error fault =>
    let s : Shell := { files }
    (.exited 2, { s.error fault.message with
      stderr := (s.error fault.message).stderr ++ "\n" ++ usageText })
  | .ok .help => (.exited 0, { files, stderr := usageText })
  | .ok .version => (.exited 0, { files, stdout := versionText })
  | .ok (.run c o) =>
    match runCommand m env c o { files } with
    | (.ok how, s) => (how, s)
    | (.error message, s) => (.exited 1, s.error message)

end CBind.CommandLine
