import CBind.Fault
import CBind.Text.CharClass

/-!
# Outcomes of native tests

A test is a function named `test_` and at least one more word character. It passes, fails with or
without a message, cannot be run as a test, or is killed by a signal.
-/

namespace CBind

/-- What became of a test. -/
inductive TestOutcome where
  | pass
  | fail (message : Option String)
  | setupError (message : String)
  | crashed (signal : Int)
deriving DecidableEq, Repr

/-- Recognize the characters of a test name behind its first word. -/
def isTestNameChar (c : Char) : Bool :=
  CBind.Text.isAsciiLetter c || CBind.Text.isAsciiDigit c || c == '_'

/-- Recognize the name of a test. -/
def isTestName (name : String) : Bool :=
  let cs := name.toList
  let rest := cs.drop 5
  cs.take 5 == ['t', 'e', 's', 't', '_'] && !rest.isEmpty && rest.all isTestNameChar

/-- A test with its outcome. -/
structure TestCase where
  name : String
  location : Location
  outcome : TestOutcome
deriving DecidableEq, Repr

/-- Write the lines of a test case. -/
def TestCase.spelling (c : TestCase) : String :=
  let place := "      at " ++ c.location.spelling ++ "\n"
  match c.outcome with
  | .pass => "  ✓ " ++ c.name ++ "\n"
  | .fail none => "  ✗ " ++ c.name ++ "\n" ++ place
  | .fail (some message) => "  ✗ " ++ c.name ++ " (" ++ message ++ ")\n" ++ place
  | .setupError message => "  ! " ++ c.name ++ " (setup error: " ++ message ++ ")\n" ++ place
  | .crashed signal =>
    "  ✗ " ++ c.name ++ " (" ++ (Fault.crash c.name signal).message ++ ")\n" ++ place

/-- The tests of a file, or the fault that kept the file from being built or loaded. -/
structure FileReport where
  source : String
  cases : List TestCase := []
  fault : Option Fault := none
deriving DecidableEq, Repr

/-- The tests of several files. -/
structure TestReport where
  files : List FileReport := []
deriving DecidableEq, Repr

namespace TestReport

/-- All test cases, file by file. -/
def cases (r : TestReport) : List TestCase :=
  r.files.flatMap (·.cases)

/-- The first test case of a name. -/
def find? (r : TestReport) (name : String) : Option TestCase :=
  r.cases.find? (·.name == name)

/-- The number of tests that passed. -/
def passed (r : TestReport) : Nat :=
  r.cases.countP (·.outcome == .pass)

/-- The number of tests that failed. -/
def failed (r : TestReport) : Nat :=
  r.cases.countP fun c =>
    match c.outcome with
    | .fail _ => true
    | _ => false

/-- The number of functions that could not be run as tests. -/
def setupErrors (r : TestReport) : Nat :=
  r.cases.countP fun c =>
    match c.outcome with
    | .setupError _ => true
    | _ => false

/-- The number of tests that a signal killed. -/
def crashed (r : TestReport) : Nat :=
  r.cases.countP fun c =>
    match c.outcome with
    | .crashed _ => true
    | _ => false

/-- The number of files that could not be built or loaded. -/
def fileFaults (r : TestReport) : Nat :=
  r.files.countP (·.fault.isSome)

/-- Whether every test passed and every file was built. -/
def isSuccess (r : TestReport) : Bool :=
  r.passed == r.cases.length && r.fileFaults == 0

/-- The exit code that a report calls for. -/
def exitCode (r : TestReport) : Nat :=
  if r.isSuccess then 0 else 1

/-- Write a count with its label, or nothing for zero. -/
def countLabel (n : Nat) (label : String) : String :=
  if n = 0 then "" else ", " ++ decimal n ++ label

/-- Write a report: each file with its fault and its cases, then a line of counts. -/
def spelling (r : TestReport) : String :=
  String.join (r.files.map fun f =>
    f.source ++ "\n" ++
      (match f.fault with
        | some fault => "  ! " ++ fault.message ++ "\n"
        | none => "") ++
      String.join (f.cases.map TestCase.spelling)) ++
    decimal r.passed ++ " passed, " ++ decimal r.failed ++ " failed" ++
    countLabel r.setupErrors " setup errors" ++ countLabel r.crashed " crashed" ++
    countLabel r.fileFaults " files failed to build"

end TestReport

end CBind
