import CBind.Call.Binding
import CBind.Call.Workshop

/-!
# Calls through a pool

A binding whose policy is to run elsewhere queues its calls on the workers. The arguments are checked
before anything is queued, and a pool that was shut down takes no call.
-/

namespace CBind

/-- The calls of a process on its workers. -/
abbrev CallWorkshop := Workshop Process Value

/-- What an invocation gives: a value, or a call that is under way. -/
inductive Invocation where
  | ready (value : Value)
  | pending (call : CallId)
deriving DecidableEq, Repr

namespace Binding

/-- Queue a call, whatever the policy. -/
def callAsync (b : Binding) (arguments : List Value) (w : CallWorkshop) :
    Except Fault CallId × CallWorkshop :=
  match b.marshal arguments with
  | .error fault => (.error fault, w)
  | .ok slots =>
    let run (p : Process) : Option Value × Process :=
      let (v, p) := b.execute slots p
      (some v, p)
    match w.submit false run with
    | (some call, w) => (.ok call, w)
    | (none, w) => (.error (.poolClosed b.name), w)

/-- Call on the calling thread of a process that has workers, whatever the policy. -/
def callHere (b : Binding) (arguments : List Value) (w : CallWorkshop) :
    Except Fault Value × CallWorkshop :=
  let (result, world) := b.callSync arguments w.world
  (result, { w with world })

/-- Call where the policy says. -/
def invoke (b : Binding) (arguments : List Value) (w : CallWorkshop) :
    Except Fault Invocation × CallWorkshop :=
  match b.policy with
  | .sync =>
    let (result, w) := b.callHere arguments w
    (result.map .ready, w)
  | .async =>
    let (result, w) := b.callAsync arguments w
    (result.map .pending, w)

end Binding

/-- Look at a pending call through the completion of its call, whose value is taken unless the answer is
known. -/
def CallWorkshop.observe (w : CallWorkshop) (call : CallId) (p : PendingCall) :
    PendingCall × CallWorkshop :=
  let seen := { p with completion := w.completion call }.observe
  (seen, if p.answer.isSome then w else w.forget call)

/-- Wait for an invocation; nothing if its call is still under way. -/
def CallWorkshop.await? (w : CallWorkshop) (function : String) :
    Invocation → Option (Except Fault Value) × CallWorkshop
  | .ready v => (some (.ok v), w)
  | .pending call =>
    let (p, w) := w.observe call { function }
    (p.answer, w.forget call)

/-- Call where the policy says, and wait for the value; nothing if no worker gets to the call. -/
def Binding.call (b : Binding) (arguments : List Value) (w : CallWorkshop) :
    Option (Except Fault Value) × CallWorkshop :=
  match b.invoke arguments w with
  | (.error fault, w) => (some (.error fault), w)
  | (.ok invocation, w) => w.await? b.name invocation

end CBind
