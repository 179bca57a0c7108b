import CBind.Testing.Isolation

/-!
# The pipe between an isolated test and its parent

A child writes its report into a pipe piece by piece, as far as there is room, and its parent reads piece by
piece what is there. The two go on in any order. A child that exits has written all that it had to; one that
a signal kills may have written anything before. The parent concludes when the child has ended and the pipe
is empty.

Only the child writes into the pipe here, and reading from it does not fail.
-/

namespace CBind

/-- The reports that a child can be writing: its own, or any if it is killed before the end. -/
inductive ChildRun.MayReport : ChildRun → List UInt8 → Prop
  | own (child : ChildRun) : MayReport child child.transcript.1
  | any (signal : Int) (report : List UInt8) : MayReport (dies signal) report

/-- A child at its pipe: what it has still to write, what is in the pipe, what its parent has read, and how
it ended. -/
structure Exchange where
  unwritten : List UInt8
  inPipe : List UInt8 := []
  received : List UInt8 := []
  ended : Option ProcessEnd := none
deriving DecidableEq, Repr

namespace Exchange

/-- One step at a pipe with some room: the child writes, the parent reads, or the child ends. -/
inductive Step (room : Nat) (child : ChildRun) : Exchange → Exchange → Prop
  | write {e : Exchange} {piece rest : List UInt8} (runs : e.ended = none) (nonempty : piece ≠ [])
      (writes : e.unwritten = piece ++ rest) (fits : e.inPipe.length + piece.length ≤ room) :
      Step room child e { e with unwritten := rest, inPipe := e.inPipe ++ piece }
  | read {e : Exchange} {piece rest : List UInt8} (nonempty : piece ≠ []) (reads : e.inPipe = piece ++ rest) :
      Step room child e { e with inPipe := rest, received := e.received ++ piece }
  | exit {e : Exchange} {status : Nat} (runs : e.ended = none) (wrote : e.unwritten = [])
      (how : child.transcript.2 = .exited status) :
      Step room child e { e with ended := some (.exited status) }
  | die {e : Exchange} {signal : Int} (runs : e.ended = none) (how : child.transcript.2 = .killed signal) :
      Step room child e { e with ended := some (.killed signal) }

/-- What the parent concludes, once the child has ended and the pipe is empty. -/
def conclusion? (e : Exchange) : Option TestOutcome :=
  match e.ended, e.inPipe with
  | some how, [] => some (concludeOutcome e.received how)
  | _, _ => none

end Exchange

end CBind
