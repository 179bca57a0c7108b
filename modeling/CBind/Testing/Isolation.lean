import CBind.Native.Process
import CBind.Testing.Outcome
import CBind.Text.Utf8

/-!
# Tests in a process of their own

An isolated test reports its outcome through a pipe: one tag byte, and behind it the message in
UTF-8 if the outcome has one. The parent reads everything the child wrote and then looks at how the
child ended. A signal is a crash whatever was written; otherwise what was written counts, and if it
is no report, the exit status is the failure.

Only the parent sees crashes, so a child cannot report one.
-/

namespace CBind

open CBind.Text

/-- How tests are run. -/
inductive Isolation where
  | inProcess
  | fork
deriving DecidableEq, Repr

/-- The bytes by which a child reports an outcome. -/
def TestOutcome.encode : TestOutcome → List UInt8
  | pass => [0x50]
  | fail none => [0x46]
  | fail (some message) => 0x4d :: utf8 message
  | setupError message => 0x53 :: utf8 message
  | crashed _ => 0x53 :: utf8 "unexpected crash encoding"

/-- Read a report; bytes that are not UTF-8 are replaced. -/
def TestOutcome.decode? : List UInt8 → Option TestOutcome
  | [] => none
  | tag :: rest =>
    if tag = 0x50 then some pass
    else if tag = 0x46 then some (fail none)
    else if tag = 0x4d then some (fail (some (textOfUtf8Lossy rest)))
    else if tag = 0x53 then some (setupError (textOfUtf8Lossy rest))
    else none

/-- What a child does with the test it runs. -/
inductive ChildRun where
  | returns (outcome : TestOutcome)
  | panics
  | exits (code : Int)
  | dies (signal : Int)
deriving DecidableEq, Repr

/-- The bytes a child wrote, and how it ended. Only the low eight bits of an exit code arrive. -/
def ChildRun.transcript : ChildRun → List UInt8 × ProcessEnd
  | returns outcome => (outcome.encode, .exited 0)
  | panics => ((TestOutcome.setupError "test runner panicked").encode, .exited 0)
  | exits code => ([], .exited (code % 256).toNat)
  | dies signal => ([], .killed signal)

/-- The outcome the parent concludes from what the child wrote and how it ended. -/
def concludeOutcome (written : List UInt8) : ProcessEnd → TestOutcome
  | .killed signal => .crashed signal
  | .exited status =>
    match TestOutcome.decode? written with
    | some outcome => outcome
    | none =>
      .fail (some ("test process exited with status " ++ decimal status ++ " without reporting"))

/-- Run a test in a process of its own. -/
def runForked (child : ChildRun) : TestOutcome :=
  concludeOutcome child.transcript.1 child.transcript.2

end CBind
