import CBind.Bridge
import CBind.Testing.Collect
import CBind.Testing.Isolation

/-!
# Running native tests

The tests of a module are its functions with names of tests, in source order. A test takes no parameters
and returns an integer, zero for success, or a text, nothing or the empty text for success. A function that
is named like a test but is no test, or was not bound, is reported as such at its own place.

Each test is either called in the process itself, or in a copy of it that ends with the test. Only a test
that can be called gets a copy.
-/

namespace CBind

open CBind.Text

/-- How a test reports its result. -/
inductive ResultEncoding where
  | status
  | message
deriving DecidableEq, Repr

/-- Why a function with the name of a test is no test. -/
inductive TestSetupFault where
  | parameters (name : String) (arity : Nat)
  | result (name : String) (type : CType)
deriving DecidableEq, Repr

/-- Word the fault of a function that is no test. -/
def TestSetupFault.message : TestSetupFault → String
  | parameters name arity =>
    "test functions take no parameters, " ++ name ++ " declares " ++ decimal arity
  | result name type =>
    "test functions return int or const char*, " ++ name ++ " returns " ++ type.spelling

/-- How a function reports its result as a test, by its declared signature. -/
def encodingOf (d : Descriptor) : Except TestSetupFault ResultEncoding :=
  if d.arity = 0 then
    match d.returns.type with
    | .int32 => .ok .status
    | .int64 => .ok .status
    | .bytePointer => .ok .message
    | t => .error (.result d.name t)
  else .error (.parameters d.name d.arity)

/-- The outcome of a test that returned a text. -/
def outcomeOfText (text : List UInt8) : TestOutcome :=
  if text.isEmpty then .pass else .fail (some (textOfUtf8Lossy text))

/-- The outcome of a test by the value it returned. A text has to be mapped in memory. -/
def outcomeOfValue (m : Memory) : Value → TestOutcome
  | .int32 n => if n = 0 then .pass else .fail none
  | .int64 n => if n = 0 then .pass else .fail none
  | .address a => if a = 0 then .pass else outcomeOfText ((m.text? a.toNat).getD [])
  | v => .setupError ("unexpected result " ++ v.spelling)

/-- Call a function as a test. -/
def runOne (b : Binding) (p : Process) : TestOutcome × Process :=
  match encodingOf b.descriptor with
  | .error fault => (.setupError fault.message, p)
  | .ok _ =>
    match b.callSync [] p with
    | (.ok v, p) => (outcomeOfValue p.state.memory v, p)
    | (.error fault, p) => (.setupError fault.message, p)

/-- What a copy of the process did with a test. -/
def childRun (outcome : TestOutcome) (child : Process) : ChildRun :=
  match child.state.ended with
  | none => .returns outcome
  | some (.exited status) => .exits status
  | some (.killed signal) => .dies signal

/-- Run a test in the way that is asked for. A copy of the process leaves the process itself as it
was. -/
def runIsolated (isolation : Isolation) (b : Binding) (p : Process) : TestOutcome × Process :=
  match isolation, encodingOf b.descriptor with
  | .fork, .ok _ =>
    let (outcome, child) := runOne b p
    (runForked (childRun outcome child), p)
  | _, _ => runOne b p

/-- A skipped definition that is named like a test, as a case. -/
def skippedCase? (fault : Fault) : Option TestCase :=
  let atPlace (function : String) (location : Location) : Option TestCase :=
    if isTestName function then some ⟨function, location, .setupError fault.message⟩ else none
  match fault with
  | .unsupportedType function location _ => atPlace function location
  | .symbolNotFound function (some location) _ => atPlace function location
  | .parse (some function) location _ => atPlace function location
  | _ => none

/-- The cases of skipped definitions, by line. -/
def skippedCases (skipped : List Fault) : List TestCase :=
  (skipped.filterMap skippedCase?).mergeSort fun a b => a.location.line ≤ b.location.line

/-- Run tests one after the other; in front of each stand the skipped cases of lesser lines. -/
def runInOrder (isolation : Isolation) :
    List Binding → List TestCase → Process → List TestCase × Process
  | [], skipped, p => (skipped, p)
  | b :: rest, skipped, p =>
    let line := b.descriptor.location.line
    let before := skipped.takeWhile (·.location.line < line)
    let (outcome, p) := runIsolated isolation b p
    let (cases, p) := runInOrder isolation rest (skipped.dropWhile (·.location.line < line)) p
    (before ++ ⟨b.name, b.descriptor.location, outcome⟩ :: cases, p)

/-- Run the tests of a module. -/
def runModule (isolation : Isolation) (m : Module) (p : Process) : List TestCase × Process :=
  runInOrder isolation (m.bindings.filter (isTestName ·.name)) (skippedCases m.report.skipped) p

namespace Bridge

/-- Build a source once and run its tests. -/
def runFile (m : Machine) (isolation : Isolation) (b : Bridge) (source : String) (w : World) :
    FileReport × Bridge × World :=
  match b.load m source w with
  | (.error fault, b, w) => ({ source, fault := some fault }, b, w)
  | (.ok module, b, w) =>
    let (cases, process) := runModule isolation module w.process
    ({ source, cases }, b, { w with process })

/-- Build sources and run their tests, leaving out those that declare none. -/
def runFiles (m : Machine) (isolation : Isolation) :
    List String → Bridge → World → List FileReport × World
  | [], _, w => ([], w)
  | source :: rest, b, w =>
    if declaresTests w.files source then
      let (report, b, w) := b.runFile m isolation source w
      let (reports, w) := runFiles m isolation rest b w
      (report :: reports, w)
    else runFiles m isolation rest b w

/-- Run the tests of a file or of all files in a folder. -/
def runPath (m : Machine) (isolation : Isolation) (b : Bridge) (path : String) (w : World) :
    Except Fault TestReport × World :=
  match collectSources w.files path with
  | .error fault => (.error fault, w)
  | .ok sources =>
    let (files, w) := runFiles m isolation sources b w
    (.ok ⟨files⟩, w)

end Bridge

end CBind
