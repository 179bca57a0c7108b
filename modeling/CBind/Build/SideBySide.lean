import CBind.Build.Builder

/-!
# Builds side by side

Threads of any number of processes build through one cache at the same time. Each call does what a build
does, taken apart into steps: it reads its sources one after the other, looks for the key, makes the
folder of the key and starts the compiler; when the compiler has ended it renames the temporary file or
discards it, and then it writes the record. Between two steps of a call others may take any number of theirs.

A compiler that was started is a program of its own. It opens the temporary file, adds to it piece by
piece, may remove it again, and ends with a code at any time. What it has written so far is kept beside
the call. All other programs together are one kind of step, which leaves some other files behind.

Builds are numbered in each process, whichever of its builders a call goes through. Threads that use one
builder share what it remembers of the cache.
-/

namespace CBind

open Digest Toolchain

/-- The output of a build under way: for which key, under which number, and what the compiler has written
since it opened the file. -/
structure BuildOutput where
  key : String
  ticket : Ticket
  written : Option (List UInt8) := none
deriving DecidableEq, Repr

/-- How far a call has come. A call that was built has its library in place, and its answer says whether the
record could be written; a call that failed has put nothing in place. -/
inductive BuildStage where
  | reading (read : List (String × List UInt8)) (left : List String)
  | looking (key : String)
  | making (key : String)
  | starting (key : String)
  | running (output : BuildOutput)
  | ended (output : BuildOutput) (code : Nat) (stdout stderr : List UInt8)
  | placed (output : BuildOutput)
  | found (artifact : Artifact)
  | failed (fault : Fault) (output : Option BuildOutput)
  | built (answer : Except Fault Artifact) (output : BuildOutput)
deriving Repr

namespace BuildStage

/-- The output of a call whose compiler was started. -/
def output? : BuildStage → Option BuildOutput
  | running o => some o
  | ended o _ _ _ => some o
  | placed o => some o
  | failed _ o => o
  | built _ o => some o
  | _ => none

/-- The output of a call whose library was put in place. -/
def placed? : BuildStage → Option BuildOutput
  | placed o => some o
  | built _ o => some o
  | _ => none

/-- The answer of a call that is over. -/
def answer? : BuildStage → Option (Except Fault Artifact)
  | found artifact => some (.ok artifact)
  | failed fault _ => some (.error fault)
  | built answer _ => some answer
  | _ => none

/-- Whether a call is over without a library. -/
def hasFailed : BuildStage → Bool
  | failed _ _ => true
  | _ => false

end BuildStage

/-- A call of a builder, which is known by its position. -/
structure BuildCall where
  builder : Nat
  request : BuildRequest
  stage : BuildStage
deriving Repr

/-- What a compiler does with its output file. -/
inductive CompilerAct where
  | opens
  | appends (piece : List UInt8)
  | removes
deriving DecidableEq, Repr

/-- What an act leaves behind of what was written and of the files. An act that the files refuse changes
nothing, and only a file that was opened is added to. -/
def CompilerAct.perform (path : String) (written : Option (List UInt8)) (files : Files) :
    CompilerAct → Option (List UInt8) × Files
  | opens =>
    match files.write path [] with
    | .ok files => (some [], files)
    | .error _ => (written, files)
  | appends piece =>
    match written, files.read path with
    | some sofar, .ok there =>
      match files.write path (there ++ piece) with
      | .ok files => (some (sofar ++ piece), files)
      | .error _ => (some sofar, files)
    | written, _ => (written, files)
  | removes =>
    match files.removeFile path with
    | .ok files => (none, files)
    | .error _ => (written, files)

/-- What a call, or the compiler it has started, does next. -/
inductive CallStep where
  | next (now : Nat)
  | start (refused : Option FileFault)
  | act (act : CompilerAct)
  | exit (code : Nat) (stdout stderr : List UInt8)
deriving DecidableEq, Repr

namespace Builder

/-- The place of the library of a key. -/
def libraryPath (b : Builder) (r : BuildRequest) (key : String) : String :=
  Path.join (b.cache.entryDir key) (sharedLibraryName r.stem)

/-- The file that the compiler of a build writes. -/
def temporaryPath (b : Builder) (r : BuildRequest) (o : BuildOutput) : String :=
  temporaryName o.ticket (b.libraryPath r o.key)

/-- The next step of a call that does not wait for its compiler. -/
def next (now : Nat) (b : Builder) (r : BuildRequest) (files : Files) :
    BuildStage → Option (BuildStage × Builder × Files)
  | .reading read [] => some (.looking (keyOf (keyParts read b.toolchain.path b.toolchain.version
      (r.commandFlags b.cflags))), b, files)
  | .reading read (path :: left) =>
    match files.read path with
    | .error fault => some (.failed (.file path fault.message) none, b, files)
    | .ok bytes => some (.reading (read ++ [(path, bytes)]) left, b, files)
  | .looking key =>
    match b.cache.lookup now key (sharedLibraryName r.stem) files with
    | (some library, cache, files) => some (.found ⟨library, key, true⟩, { b with cache }, files)
    | (none, cache, files) => some (.making key, { b with cache }, files)
  | .making key =>
    match files.makeFolders (b.cache.entryDir key) with
    | .error fault => some (.failed (.file (b.cache.entryDir key) fault.message) none, b, files)
    | .ok files => some (.starting key, b, files)
  | .ended o code stdout stderr =>
    if code = 0 then
      match files.rename (b.temporaryPath r o) (b.libraryPath r o.key) with
      | .ok files => some (.placed o, b, files)
      | .error fault => some (.failed (.file (b.libraryPath r o.key) fault.message) (some o), b, files)
    else some (.failed (.compile r.source (diagnosticOf stdout stderr)) (some o), b,
      discard (b.temporaryPath r o) files)
  | .placed o =>
    match b.cache.record (b.recordOf r o.key (b.libraryPath r o.key) now) files with
    | (.error fault, files) => some (.built (.error fault) o, b, files)
    | (.ok cache, files) =>
      some (.built (.ok ⟨b.libraryPath r o.key, o.key, false⟩) o, { b with cache }, files)
  | _ => none

/-- A step of a call or of its compiler, if it can be taken. Starting takes a number of the process, even if
the compiler cannot be started. -/
def takeStep (b : Builder) (c : BuildCall) (files : Files) :
    CallStep → Option (BuildStage × Builder × Files)
  | .next now => b.next now c.request files c.stage
  | .start refused =>
    match c.stage with
    | .starting key =>
      let started : BuildStage := match refused with
        | some fault => .failed (b.toolchain.startFault fault) none
        | none => .running ⟨key, ⟨b.process, b.builds⟩, none⟩
      some (started, { b with builds := b.builds + 1 }, files)
    | _ => none
  | .act act =>
    match c.stage with
    | .running o =>
      let (written, files) := act.perform (b.temporaryPath c.request o) o.written files
      some (.running { o with written }, b, files)
    | _ => none
  | .exit code stdout stderr =>
    match c.stage with
    | .running o => some (.ended o code stdout stderr, b, files)
    | _ => none

end Builder

/-- All builders with the files they share: how many builds each process has started, and all calls in the
order in which they began. -/
structure Builds where
  files : Files
  builders : List Builder
  numbers : Nat → Nat := fun _ => 0
  calls : List BuildCall := []

/-- What can happen next. Calls are known by their positions. -/
inductive BuildEvent where
  | begin (builder : Nat) (request : BuildRequest)
  | step (call : Nat) (step : CallStep)
  | outside (files : Files)
deriving DecidableEq, Repr

namespace Builds

/-- A builder as it is now, with the number of its process. -/
def builder? (w : Builds) (i : Nat) : Option Builder :=
  (w.builders[i]?).map fun b => { b with builds := w.numbers b.process }

/-- Take a step of a call. -/
def advance (w : Builds) (call : Nat) (step : CallStep) : Option Builds := do
  let c ← w.calls[call]?
  let b ← w.builder? c.builder
  let (stage, b, files) ← b.takeStep c w.files step
  return {
    files
    builders := w.builders.set c.builder b
    numbers := fun process => if process = b.process then b.builds else w.numbers process
    calls := w.calls.set call { c with stage } }

/-- What an event leads to, if it is possible. -/
def step (w : Builds) : BuildEvent → Option Builds
  | .begin builder request =>
    if builder < w.builders.length then
      some { w with calls := w.calls ++ [⟨builder, request, .reading [] request.sources⟩] }
    else none
  | .step call step => w.advance call step
  | .outside files => some { w with files }

/-- Let events happen one after the other. -/
def run (w : Builds) (events : List BuildEvent) : Option Builds :=
  events.foldlM step w

end Builds

end CBind
