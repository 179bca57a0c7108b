import CBind.Call.Completion

/-!
# The worker pool

A fixed number of workers takes calls from one bounded queue, in the order they entered it. The pool is
a state with events; an event is possible in some states and impossible in others, and any order of
possible events is a run. Submitters, workers and callers of a shutdown thus interleave freely.

A submitter that finds the queue full waits for space and keeps the queue open while it waits. A
shutdown sets the closed flag, closes the queue, takes the workers that nobody else waits for, and
returns when these have exited. A worker that takes a call after the flag was set drops it.

What a call does is not part of the pool: a call is a number, and it ends with a value or a panic. Its
completion shows how it ended.
-/

namespace CBind

/-- The number of a submitted call. -/
abbrev CallId := Nat

/-- What a worker is doing. -/
inductive WorkerState where
  | idle
  | holding (call : CallId)
  | running (call : CallId)
  | exited
deriving DecidableEq, Repr

/-- How far a caller of a shutdown has come. -/
inductive ShutdownPhase where
  | flagged
  | queueClosed
  | joining (workers : List Nat)
  | returned
deriving DecidableEq, Repr

/-- How an accepted call was resolved. -/
inductive CallEnd where
  | value
  | panicked
  | dropped
deriving DecidableEq, Repr

/-- A pool. The last four lists log what happened, oldest first. -/
structure Pool where
  size : Nat
  closed : Bool := false
  queueOpen : Bool := true
  queue : List CallId := []
  blocked : List CallId := []
  workers : List WorkerState
  unjoined : List Nat
  shutdowns : List ShutdownPhase := []
  entered : List CallId := []
  left : List CallId := []
  started : List CallId := []
  ends : List (CallId × CallEnd) := []
deriving DecidableEq, Repr

/-- What can happen in a pool. -/
inductive PoolEvent where
  | submit (call : CallId)
  | unblock (position : Nat)
  | take (worker : Nat)
  | start (worker : Nat)
  | finish (worker : Nat) (panicked : Bool)
  | exit (worker : Nat)
  | shutdown
  | closeQueue (caller : Nat)
  | collectWorkers (caller : Nat)
  | return (caller : Nat)
deriving DecidableEq, Repr

/-- What a resolved call leaves in its completion, with nothing said about the value. -/
def CallEnd.completion : CallEnd → Completion Unit
  | value => .holds ()
  | panicked => .closed
  | dropped => .closed

/-- The call that a worker has. -/
def WorkerState.call? : WorkerState → Option CallId
  | .holding call => some call
  | .running call => some call
  | _ => none

namespace Pool

/-- The queue slots of each worker. -/
def slotsPerWorker : Nat := 4

/-- A pool with a number of workers, at least one. -/
def new (size : Nat) : Pool :=
  let size := max size 1
  { size, workers := List.replicate size .idle, unjoined := List.range size }

/-- The calls the queue holds at most. -/
def capacity (p : Pool) : Nat :=
  p.size * slotsPerWorker

/-- Whether a submitted call is accepted. -/
def accepts (p : Pool) : Bool :=
  p.queueOpen

/-- Put a call into the queue. -/
def enqueue (p : Pool) (call : CallId) : Pool :=
  { p with queue := p.queue ++ [call], entered := p.entered ++ [call] }

/-- Give a worker another state. -/
def setWorker (p : Pool) (worker : Nat) (state : WorkerState) : Pool :=
  { p with workers := p.workers.set worker state }

/-- Give a caller of a shutdown another phase. -/
def setShutdown (p : Pool) (caller : Nat) (phase : ShutdownPhase) : Pool :=
  { p with shutdowns := p.shutdowns.set caller phase }

/-- Note how a call was resolved. -/
def resolve (p : Pool) (call : CallId) (how : CallEnd) : Pool :=
  { p with ends := p.ends ++ [(call, how)] }

/-- Whether a worker has exited. -/
def hasExited (p : Pool) (worker : Nat) : Bool :=
  p.workers[worker]? == some .exited

/-- Let an event happen, if it is possible. -/
def step (p : Pool) : PoolEvent → Option Pool
  | .submit call =>
    if !p.queueOpen then some p
    else if p.queue.length < p.capacity then some (p.enqueue call)
    else some { p with blocked := p.blocked ++ [call] }
  | .unblock position =>
    match p.blocked[position]? with
    | some call =>
      if p.queue.length < p.capacity then
        some { p.enqueue call with blocked := p.blocked.eraseIdx position }
      else none
    | none => none
  | .take worker =>
    match p.workers[worker]?, p.queue with
    | some .idle, call :: rest =>
      some { p.setWorker worker (.holding call) with queue := rest, left := p.left ++ [call] }
    | _, _ => none
  | .start worker =>
    match p.workers[worker]? with
    | some (.holding call) =>
      if p.closed then some ((p.setWorker worker .idle).resolve call .dropped)
      else some { p.setWorker worker (.running call) with started := p.started ++ [call] }
    | _ => none
  | .finish worker panicked =>
    match p.workers[worker]? with
    | some (.running call) =>
      some ((p.setWorker worker .idle).resolve call (if panicked then .panicked else .value))
    | _ => none
  | .exit worker =>
    match p.workers[worker]? with
    | some .idle =>
      if p.queue.isEmpty && !p.queueOpen then some (p.setWorker worker .exited) else none
    | _ => none
  | .shutdown => some { p with closed := true, shutdowns := p.shutdowns ++ [.flagged] }
  | .closeQueue caller =>
    match p.shutdowns[caller]? with
    | some .flagged =>
      if p.blocked.isEmpty then some { p.setShutdown caller .queueClosed with queueOpen := false }
      else none
    | _ => none
  | .collectWorkers caller =>
    match p.shutdowns[caller]? with
    | some .queueClosed => some { p.setShutdown caller (.joining p.unjoined) with unjoined := [] }
    | _ => none
  | .return caller =>
    match p.shutdowns[caller]? with
    | some (.joining workers) =>
      if workers.all p.hasExited then some (p.setShutdown caller .returned) else none
    | _ => none

/-- Let events happen one after the other. -/
def run (p : Pool) (events : List PoolEvent) : Option Pool :=
  events.foldlM step p

/-- The calls that are still unresolved: queued, waiting for space, or with a worker. -/
def pending (p : Pool) : List CallId :=
  p.queue ++ p.blocked ++ p.workers.filterMap WorkerState.call?

/-- The completion of a call that nobody has received from. -/
def completion (p : Pool) (call : CallId) : Completion Unit :=
  match p.ends.find? (·.1 == call) with
  | some (_, how) => how.completion
  | none => .empty

/-- The calls that have ended since an earlier state. -/
def endedSince (earlier p : Pool) : List CallId :=
  (p.ends.drop earlier.ends.length).map (·.1)

end Pool

end CBind
