import CBind.Call.Value
import CBind.Fault

/-!
# Completions and pending calls

The completion of a call is a place that stays empty while the call is under way, then holds its value
until somebody takes it, or is closed without one. A pending call reads its completion and keeps the
first answer that it got, so it can be asked again.

A wait is modelled by what it finds: an empty completion makes a bounded wait time out, and makes an
unbounded wait go on.
-/

namespace CBind

/-- Where a call leaves its value. -/
inductive Completion (α : Type) where
  | empty
  | holds (value : α)
  | closed
deriving DecidableEq, Repr

/-- What somebody finds in a completion. -/
inductive Received (α : Type) where
  | nothing
  | value (a : α)
  | disconnected
deriving DecidableEq, Repr

/-- Look into a completion and take its value. A value is there once. -/
def Completion.receive {α : Type} : Completion α → Received α × Completion α
  | empty => (.nothing, empty)
  | holds a => (.value a, closed)
  | closed => (.disconnected, closed)

/-- A call that is under way, with the answer its completion gave, if it gave one. -/
structure PendingCall where
  function : String
  completion : Completion Value := .empty
  answer : Option (Except Fault Value) := none

namespace PendingCall

/-- The answer that an observation gives. -/
def answerOf (p : PendingCall) : Received Value → Option (Except Fault Value)
  | .nothing => none
  | .value v => some (.ok v)
  | .disconnected => some (.error (.poolClosed p.function))

/-- Look into the completion, unless the answer is known, and keep what it says. -/
def observe (p : PendingCall) : PendingCall :=
  match p.answer with
  | some _ => p
  | none =>
    let (found, completion) := p.completion.receive
    { p with completion, answer := p.answerOf found }

/-- Whether the answer is there, and the call as it is known afterwards. -/
def isReady (p : PendingCall) : Bool × PendingCall :=
  let p := p.observe
  (p.answer.isSome, p)

/-- Wait no longer than a span of time. -/
def waitTimeout (p : PendingCall) (limit : Span) : Except Fault Value × PendingCall :=
  let p := p.observe
  match p.answer with
  | some answer => (answer, p)
  | none => (.error (.timeout p.function limit), p)

/-- Wait for the answer; nothing if the call is still under way. -/
def wait? (p : PendingCall) : Option (Except Fault Value) :=
  p.observe.answer

end PendingCall

end CBind
