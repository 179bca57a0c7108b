import CBind.Bench.Run
import CBind.Library.Holders
import CBind.Testing.Runner

/-!
# Working with a module

A session is a process that has loaded a module and works with it: it calls bindings, keeps copies of them,
waits for calls that are under way, holds its workers up and lets them go, passes buffers, measures, runs
tests, and unloads the library.

Bindings that were kept and calls that are queued or running keep the library loaded. A refused unload
gives the handle of the library back, so it can be tried again; the bindings of the module are gone then.
A session tells the holders of its one library about everything that refers to it.
-/

namespace CBind

/-- A process at work with a module. -/
structure Session where
  defaults : BenchDefaults
  callTime : Span
  module? : Option Module
  handle? : Option Library
  work : CallWorkshop
  holders : Holders := {}
  kept : List (String × Binding) := []
  waiting : List (String × CallId × PendingCall) := []
  held : List CallId := []
  buffers : List (String × Nat) := []

/-- The entry of a name in a list of named things. -/
def entryOf? (entries : List (String × α)) (name : String) : Option α :=
  (entries.find? (·.1 == name)).map (·.2)

/-- Put an entry under a name, in place of the one that is there. -/
def putEntry (entries : List (String × α)) (name : String) (a : α) : List (String × α) :=
  (name, a) :: entries.filter (·.1 != name)

/-- How a call is to be made. -/
inductive CallMode where
  | asPolicySays
  | here
  | onWorker
deriving DecidableEq, Repr

namespace Session

/-- A session with a module that was just loaded. -/
def new (m : Machine) (b : Bridge) (module : Module) (w : World) : Session :=
  { defaults := b.config.bench
    callTime := m.callTime
    module? := some module
    handle? := some module.library
    work := .new b.workers w.process
    holders := Holders.loadModule {} module.library module.bindings }

/-- Load the sources of a request and begin a session. -/
def begin? (m : Machine) (b : Bridge) (request : BuildRequest) (w : World) : Except Fault Session :=
  match b.loadRequest m request w with
  | (.error fault, _, _) => .error fault
  | (.ok module, b, w) => .ok (new m b module w)

/-! ## Bindings -/

/-- The path of the library of a session. -/
def libraryPath (s : Session) : String :=
  (s.handle?.map (·.path)).getD ""

/-- The binding of a function of the module. -/
def binding (s : Session) (function : String) : Except Fault Binding :=
  match s.module? with
  | some m => m.binding function
  | none => .error (.symbolNotFound function none s.libraryPath)

/-- The number of the one library of a session. -/
def theLibrary : LibraryId := 0

/-- Let go of a kept binding; the answer is whether there was one. -/
def drop (s : Session) (name : String) : Bool × Session :=
  match entryOf? s.kept name with
  | some b =>
    (true, { s with
      kept := s.kept.filter (·.1 != name)
      holders := s.holders.dropBinding theLibrary b })
  | none => (false, s)

/-- Keep a copy of a binding under a name, in place of the one that is there. -/
def keep (s : Session) (name : String) (b : Binding) : Session :=
  let holders := s.holders.addBinding theLibrary b
  let (_, s) := { s with holders }.drop name
  { s with kept := putEntry s.kept name b }

/-! ## Calls -/

/-- Go on with workers that have moved: calls that have ended let go of the library. -/
def withMoved (s : Session) (work : CallWorkshop) : Session :=
  { s with work, holders := s.holders.endCalls (s.work.pool.endedSince work.pool) }

/-- Go on with workers that have taken calls of bindings: each of these keeps the library until it ends. -/
def withCalls (s : Session) (work : CallWorkshop) : Session :=
  let begun := List.range' s.work.next (work.next - s.work.next)
  let holders := begun.foldl (fun h call => h.capture call theLibrary) s.holders
  { s with holders }.withMoved work

/-- Call a binding and wait for the value. -/
def call (s : Session) (mode : CallMode) (b : Binding) (arguments : List Value) :
    Except Fault Value × Session :=
  let bound := match mode with
    | .asPolicySays => b
    | .here => b.withPolicy .sync
    | .onWorker => b.withPolicy .async
  let (result, work) := bound.callAndWait arguments s.work
  (result, s.withCalls work)

/-- Begin a call on a worker, to be asked for under a name. -/
def start (s : Session) (name : String) (b : Binding) (arguments : List Value) :
    Except Fault String × Session :=
  match b.callAsync arguments s.work with
  | (.error fault, work) => (.error fault, s.withCalls work)
  | (.ok call, work) =>
    (.ok b.name,
      { s.withCalls work with waiting := putEntry s.waiting name (call, { function := b.name }) })

/-- Look at a call that is under way. -/
def look (s : Session) (name : String) : Option (CallId × PendingCall × Session) :=
  (entryOf? s.waiting name).map fun (call, p) =>
    let (p, work) := s.work.observe call p
    (call, p, { s with work, waiting := putEntry s.waiting name (call, p) })

/-- Wait for a call no longer than a span of time. -/
def waitTimeout? (s : Session) (name : String) (limit : Span) :
    Option (Except Fault Value × Session) :=
  (s.look name).map fun (_, p, s) => ((p.waitTimeout limit).1, s)

/-- Whether a call is done. -/
def isReady? (s : Session) (name : String) : Option (Bool × Session) :=
  (s.look name).map fun (_, p, s) => (p.isReady.1, s)

/-- Wait for a call, which is then done with; nothing if it is not known or still held up. -/
def wait? (s : Session) (name : String) : Option (Except Fault Value × Session) :=
  (s.look name).bind fun (call, p, s) =>
    p.wait?.map fun result =>
      (result, { s with
        work := s.work.forget call
        waiting := s.waiting.filter (·.1 != name) })

/-! ## Workers -/

/-- Occupy a number of workers with calls that do nothing until they are let go. -/
def holdWorkers : Nat → Session → Session
  | 0, s => s
  | n + 1, s =>
    match s.work.submit true fun p => (some .void, p) with
    | (some call, work) => holdWorkers n { s.withMoved work with held := s.held ++ [call] }
    | (none, work) => s.withMoved work

/-- Occupy all workers; the answer is how many there are to be let go. -/
def hold (s : Session) : Nat × Session :=
  let s := holdWorkers s.work.pool.size s
  (s.held.length, s)

/-- Let all workers go; the answer is how many were held. -/
def release (s : Session) : Nat × Session :=
  let work := s.held.foldl (fun work call => (work.openGate call).2) s.work
  (s.held.length, { s.withMoved work with held := [] })

/-- Shut the workers down. -/
def shutdown (s : Session) : Session :=
  { s.withMoved s.work.shutdown with held := [] }

/-! ## The library -/

/-- The references to the library. -/
def use (s : Session) : LibraryUse :=
  s.holders.use theLibrary

/-- Unload the library: the module goes, and the library too unless something still refers to it. The answer
is nothing if there is nothing to unload. -/
def unload? (s : Session) : Option (Except Nat Unit × Session) :=
  s.handle?.map fun _ =>
    let (result, holders) :=
      (s.holders.unloadModule? 0).getD (s.holders.unload theLibrary)
    let s := { s with module? := none, holders }
    match result with
    | .ok _ => (.ok (), { s with handle? := none })
    | .error refusal => (.error refusal.live, s)

/-! ## Buffers -/

/-- The memory of the session's process. -/
def memory (s : Session) : Memory :=
  s.work.world.state.memory

/-- Give the process another memory. -/
def withMemory (s : Session) (memory : Memory) : Session :=
  let world := s.work.world
  { s with work := { s.work with world := { world with state := { world.state with memory } } } }

/-- Map a buffer under a name, in place of the one that is there. -/
def putBuffer (s : Session) (name : String) (b : Buffer) : Session :=
  let cleared := match entryOf? s.buffers name with
    | some base => s.memory.unmap base
    | none => s.memory
  let (base, memory) := cleared.allocate b.bytes
  { s.withMemory memory with buffers := putEntry s.buffers name base }

/-- The buffer of a name with its address. -/
def buffer? (s : Session) (name : String) : Option (Nat × Buffer) := do
  let base ← entryOf? s.buffers name
  let block ← s.memory.blockAt? base
  return (base, ⟨block.bytes.toList⟩)

/-- Write one element of a buffer; the answer is whether the buffer has it. -/
def setElement (s : Session) (name : String) (kind : ElementKind) (index pattern : Nat) :
    Bool × Session :=
  match s.buffer? name with
  | none => (false, s)
  | some (base, b) =>
    match (b.set? kind index pattern).bind fun changed => s.memory.setBytes? base changed.bytes with
    | some memory => (true, s.withMemory memory)
    | none => (false, s)

/-- The buffer that an address points into, or at the end of, with the distance from its beginning. Empty
buffers are pointed into by nothing. -/
def locate? (s : Session) (address : Nat) : Option (String × Nat) :=
  s.buffers.findSome? fun (name, base) =>
    match s.memory.blockAt? base with
    | some block =>
      if block.bytes.size ≠ 0 && base ≤ address && address ≤ base + block.bytes.size then
        some (name, address - base)
      else none
    | none => none

/-! ## Kernels, benchmarks and tests -/

/-- The addresses of the buffers of a kernel, mapped for it. -/
def mapKernel (s : Session) (k : KernelInputs) : List Nat × Session :=
  let (addresses, memory) := s.memory.allocateAll (k.buffers.map (·.bytes))
  (addresses, s.withMemory memory)

/-- The result of a call on the built-in inputs, with the buffers as the call left them. -/
def callKernel (s : Session) (b : Binding) (k : KernelInputs) :
    Except Fault (Value × List (List UInt8)) × Session :=
  let (addresses, s) := s.mapKernel k
  let (result, s) := s.call .asPolicySays b (k.values addresses)
  let after := addresses.filterMap fun base =>
    (s.memory.blockAt? base).map (·.bytes.toList)
  (result.map (·, after), s.withMemory (addresses.foldl Memory.unmap s.memory))

/-- What a benchmark of this session needs to know. -/
def plan (s : Session) (options : BenchOptions) : BenchPlan :=
  ⟨options, s.defaults, s.callTime⟩

/-- Measure a binding. -/
def bench (s : Session) (options : BenchOptions) (b : Binding) (arguments : List Value) :
    Except BenchStop BenchResult × Session :=
  let (result, work) := (s.plan options).run b arguments s.work
  (result, s.withCalls work)

/-- Measure a binding on the calling thread and on the workers. -/
def benchBothPolicies (s : Session) (options : BenchOptions) (b : Binding) (arguments : List Value) :
    Except BenchStop (BenchResult × BenchResult) × Session :=
  let (result, work) := (s.plan options).runBothPolicies b arguments s.work
  (result, s.withCalls work)

/-- Measure a kernel and its baseline on the built-in inputs, if there are such. -/
def benchWithBaseline (s : Session) (options : BenchOptions) (b : Binding) :
    Except BenchStop (Option (BenchResult × BenchResult)) × Session :=
  match kernelInputs? b.name with
  | none => (.ok none, s)
  | some k =>
    let (addresses, s) := s.mapKernel k
    let (result, work) := (s.plan options).runWithBaseline b k (k.values addresses) s.work
    let s := s.withCalls work
    (result, s.withMemory (addresses.foldl Memory.unmap s.memory))

/-- Run the tests of the module. -/
def runTests (s : Session) (isolation : Isolation) : List TestCase × Session :=
  match s.module? with
  | none => ([], s)
  | some m =>
    let (cases, world) := runModule isolation m s.work.world
    (cases, { s with work := { s.work with world } })

end Session

end CBind
