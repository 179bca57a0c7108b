import CBind.Call.Pool

/-!
# Running a pool

A workshop is a pool together with what its calls do to the world they run in. It lets the workers move
whenever they can, the first one first, so a call runs as soon as a worker is free and nothing is left
to timing. A gated call is started, but does not run on until its gate is opened.

A workshop moves its pool by the events of the pool only, and keeps the values of the calls that ran to
their end until somebody takes them.
-/

namespace CBind

/-- A pool with its calls, the values that nobody has taken yet, and the world the calls change. -/
structure Workshop (σ α : Type) where
  pool : Pool
  world : σ
  actions : List (CallId × (σ → Option α × σ)) := []
  values : List (CallId × α) := []
  gates : List CallId := []
  next : CallId := 0

namespace Workshop

variable {σ α : Type}

/-- A workshop with a new pool. -/
def new (size : Nat) (world : σ) : Workshop σ α :=
  { pool := .new size, world }

/-- The completion of a call: once its value was taken, it is closed. -/
def completion (w : Workshop σ α) (call : CallId) : Completion α :=
  match w.pool.completion call with
  | .empty => .empty
  | .closed => .closed
  | .holds () =>
    match w.values.find? (·.1 == call) with
    | some (_, a) => .holds a
    | none => .closed

/-- Forget the value of a call. -/
def forget (w : Workshop σ α) (call : CallId) : Workshop σ α :=
  { w with values := w.values.filter (·.1 != call) }

/-- Let a pool event happen if it is possible. -/
def event (w : Workshop σ α) (e : PoolEvent) : Workshop σ α :=
  match w.pool.step e with
  | some pool => { w with pool }
  | none => w

/-- Run the call of a worker to its end. -/
def finishCall (w : Workshop σ α) (worker : Nat) (call : CallId) : Workshop σ α :=
  match w.actions.find? (·.1 == call) with
  | none => w.event (.finish worker true)
  | some (_, action) =>
    let (result, world) := action w.world
    let w := { w with world, actions := w.actions.filter (·.1 != call) }
    match result with
    | some a => { w.event (.finish worker false) with values := (call, a) :: w.values }
    | none => w.event (.finish worker true)

/-- Let a worker move, if it can. -/
def moveWorker? (w : Workshop σ α) (worker : Nat) : Option (Workshop σ α) :=
  match w.pool.workers[worker]? with
  | some .idle =>
    if !w.pool.queue.isEmpty then some (w.event (.take worker))
    else if !w.pool.queueOpen then some (w.event (.exit worker))
    else none
  | some (.holding _) => some (w.event (.start worker))
  | some (.running call) => if w.gates.contains call then none else some (w.finishCall worker call)
  | _ => none

/-- Let somebody move: a submitter that waits for space, or the first worker that can. -/
def move? (w : Workshop σ α) : Option (Workshop σ α) :=
  if !w.pool.blocked.isEmpty && w.pool.queue.length < w.pool.capacity then
    some (w.event (.unblock 0))
  else (List.range w.pool.workers.length).findSome? w.moveWorker?

/-- Let everybody move until nobody can, at most a number of times. -/
def settleFor : Nat → Workshop σ α → Workshop σ α
  | 0, w => w
  | fuel + 1, w =>
    match w.move? with
    | none => w
    | some moved => settleFor fuel moved

/-- Let everybody move until nobody can. Each call takes at most four moves, each worker one more. -/
def settle (w : Workshop σ α) : Workshop σ α :=
  settleFor (4 * (w.pool.queue.length + w.pool.blocked.length) + 5 * w.pool.workers.length) w

/-- Submit a call, and let it run if it can. A pool that was shut down refuses it. -/
def submit (w : Workshop σ α) (gated : Bool) (action : σ → Option α × σ) :
    Option CallId × Workshop σ α :=
  if w.pool.accepts then
    let call := w.next
    let w : Workshop σ α :=
      { w with
        actions := (call, action) :: w.actions
        gates := if gated then call :: w.gates else w.gates
        next := call + 1 }
    (some call, (w.event (.submit call)).settle)
  else (none, w)

/-- Open the gate of a call, if it has one. -/
def openGate (w : Workshop σ α) (call : CallId) : Bool × Workshop σ α :=
  if w.gates.contains call then (true, { w with gates := w.gates.erase call }.settle) else (false, w)

/-- Open all gates. -/
def openGates (w : Workshop σ α) : Workshop σ α :=
  { w with gates := [] }.settle

/-- Shut the pool down: gates are opened once it is closed. -/
def shutdown (w : Workshop σ α) : Workshop σ α :=
  let caller := w.pool.shutdowns.length
  let w := ((w.event .shutdown).openGates.event (.closeQueue caller)).settle
  (w.event (.collectWorkers caller)).event (.return caller)

/-- Look into the completion of a call and take its value. -/
def receive (w : Workshop σ α) (call : CallId) : Received α × Workshop σ α :=
  ((w.completion call).receive.1, w.forget call)

end Workshop

end CBind
