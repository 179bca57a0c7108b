import CBind.Call.Workshop
import CBind.Proofs.Call.Progress

/-!
# All schedules of a workshop

A workshop lets its workers move in one order, at once and as far as they come. Here its moves are steps that
come in any order: calls are submitted, workers take, start and finish them, a shutdown goes on, somebody else
changes the world, values are received. A run of such steps is one of the ways in which threads may
interleave, and the order of the workshop itself is one of them.

Whether a call is gated does not matter here: it may finish at any time, or never.
-/

namespace CBind

/-- Whether an event of a pool concerns no code of a call. -/
def PoolEvent.isBare : PoolEvent → Bool
  | .submit _ => false
  | .finish _ _ => false
  | _ => true

/-- An event that concerns no code submits nothing. -/
theorem PoolEvent.submitted?_of_isBare {e : PoolEvent} (h : e.isBare = true) : e.submitted? = none := by
  cases e with
  | submit => contradiction
  | _ => rfl

/-- What can happen to a workshop. -/
inductive WorkshopEvent (σ α : Type) where
  | submit (gated : Bool) (action : σ → Option α × σ)
  | finish (worker : Nat)
  | pool (e : PoolEvent)
  | outside (change : σ → σ)
  | receive (call : CallId)

namespace WorkshopEvent

variable {σ α : Type}

/-- The moves that a workshop makes by itself. -/
def isMove : WorkshopEvent σ α → Bool
  | finish _ => true
  | pool e => e.isMove
  | _ => false

/-- What holds of the world is kept by the code that an event brings along. -/
def Keeps (holds : σ → Prop) : WorkshopEvent σ α → Prop
  | submit _ action => ∀ world, holds world → holds (action world).2
  | outside change => ∀ world, holds world → holds (change world)
  | _ => True

end WorkshopEvent

namespace Workshop

variable {σ α : Type}

/-- Take a submitted call, and let nobody move yet. A pool that was shut down refuses it. -/
def enter (w : Workshop σ α) (gated : Bool) (action : σ → Option α × σ) : Workshop σ α :=
  if w.pool.accepts then
    ({ w with
        actions := (w.next, action) :: w.actions
        gates := if gated then w.next :: w.gates else w.gates
        next := w.next + 1 } : Workshop σ α).event (.submit w.next)
  else w

/-- Let an event happen, if it is possible. -/
def step (w : Workshop σ α) : WorkshopEvent σ α → Option (Workshop σ α)
  | .submit gated action => some (w.enter gated action)
  | .finish worker =>
    match w.pool.workers[worker]? with
    | some (.running call) => some (w.finishCall worker call)
    | _ => none
  | .pool e => if e.isBare then (w.pool.step e).map fun pool => { w with pool } else none
  | .outside change => some { w with world := change w.world }
  | .receive call => some (w.forget call)

/-- Let events happen one after the other. -/
def run (w : Workshop σ α) (events : List (WorkshopEvent σ α)) : Option (Workshop σ α) :=
  events.foldlM step w

/-- Submitting a call is taking it and then letting everybody move. -/
theorem submit_eq (w : Workshop σ α) (gated : Bool) (action : σ → Option α × σ) :
    w.submit gated action =
      if w.pool.accepts then (some w.next, (w.enter gated action).settle) else (none, w) := by
  unfold submit enter
  split <;> rfl

/-- A run is extended by further events. -/
theorem run_append (w : Workshop σ α) (before after : List (WorkshopEvent σ α)) :
    w.run (before ++ after) = (w.run before).bind (·.run after) :=
  List.foldlM_append

/-! ## What a step can do -/

/-- Everything that can happen to a workshop in one step. -/
inductive Moves (w : Workshop σ α) : WorkshopEvent σ α → Workshop σ α → Prop
  | refused {gated : Bool} {action : σ → Option α × σ} (hclosed : w.pool.queueOpen = false) :
      Moves w (.submit gated action) w
  | submitted {gated : Bool} {action : σ → Option α × σ} {pool : Pool} (hopen : w.pool.queueOpen = true)
      (hpool : w.pool.Moves (.submit w.next) pool) :
      Moves w (.submit gated action)
        { w with
          pool
          actions := (w.next, action) :: w.actions
          gates := if gated then w.next :: w.gates else w.gates
          next := w.next + 1 }
  | returned {worker : Nat} {call : CallId} {action : σ → Option α × σ} {a : α} {pool : Pool}
      (hruns : w.pool.workers[worker]? = some (.running call))
      (haction : w.actions.find? (·.1 == call) = some (call, action))
      (hresult : (action w.world).1 = some a) (hpool : w.pool.Moves (.finish worker false) pool) :
      Moves w (.finish worker)
        { w with
          pool
          world := (action w.world).2
          actions := w.actions.filter (·.1 != call)
          values := (call, a) :: w.values }
  | panicked {worker : Nat} {call : CallId} {action : σ → Option α × σ} {pool : Pool}
      (hruns : w.pool.workers[worker]? = some (.running call))
      (haction : w.actions.find? (·.1 == call) = some (call, action))
      (hresult : (action w.world).1 = none) (hpool : w.pool.Moves (.finish worker true) pool) :
      Moves w (.finish worker)
        { w with
          pool
          world := (action w.world).2
          actions := w.actions.filter (·.1 != call) }
  | lost {worker : Nat} {call : CallId} {pool : Pool}
      (hruns : w.pool.workers[worker]? = some (.running call))
      (haction : w.actions.find? (·.1 == call) = none) (hpool : w.pool.Moves (.finish worker true) pool) :
      Moves w (.finish worker) { w with pool }
  | moved {e : PoolEvent} {pool : Pool} (hbare : e.isBare = true) (hpool : w.pool.Moves e pool) :
      Moves w (.pool e) { w with pool }
  | changed {change : σ → σ} : Moves w (.outside change) { w with world := change w.world }
  | received {call : CallId} : Moves w (.receive call) (w.forget call)

variable {w w' : Workshop σ α} {e : WorkshopEvent σ α}

/-- An event of the pool that is possible happens. -/
theorem event_eq {poolEvent : PoolEvent} {pool : Pool} (h : w.pool.step poolEvent = some pool) :
    w.event poolEvent = { w with pool } := by
  rw [event, h]

/-- A worker that runs a call finishes it, in the way that its code decides. -/
theorem moves_finishCall {worker : Nat} {call : CallId}
    (hruns : w.pool.workers[worker]? = some (.running call)) :
    w.Moves (.finish worker) (w.finishCall worker call) := by
  have hpool (panicked : Bool) : ∃ pool, w.pool.step (.finish worker panicked) = some pool := by
    simp only [Pool.step, hruns]
    exact ⟨_, rfl⟩
  obtain ⟨stopped, hstopped⟩ := hpool true
  obtain ⟨done, hdone⟩ := hpool false
  unfold finishCall
  split
  next haction =>
    rw [event_eq hstopped]
    exact .lost hruns haction (Pool.moves_of_step hstopped)
  next named action haction =>
    have hnamed := List.find?_some haction
    obtain rfl : named = call := beq_iff_eq.mp hnamed
    dsimp only
    split
    next a hresult =>
      have hevent := event_eq (w := { w with
        world := (action w.world).2, actions := w.actions.filter (·.1 != named) }) hdone
      rw [hevent]
      exact .returned hruns haction hresult (Pool.moves_of_step hdone)
    next hresult =>
      have hevent := event_eq (w := { w with
        world := (action w.world).2, actions := w.actions.filter (·.1 != named) }) hstopped
      rw [hevent]
      exact .panicked hruns haction hresult (Pool.moves_of_step hstopped)

/-- An open workshop takes every call that is submitted under the next number, and adds it to those that are
unresolved. -/
theorem exists_enter_eq (hopen : w.pool.queueOpen = true) (gated : Bool) (action : σ → Option α × σ) :
    ∃ pool, w.pool.Moves (.submit w.next) pool ∧ pool.pending.Perm (w.next :: w.pool.pending) ∧
      w.enter gated action =
        { w with
          pool
          actions := (w.next, action) :: w.actions
          gates := if gated then w.next :: w.gates else w.gates
          next := w.next + 1 } := by
  obtain ⟨pool, hpool, hpending⟩ := Pool.exists_step_submit (p := w.pool) hopen w.next
  refine ⟨pool, Pool.moves_of_step hpool, hpending, ?_⟩
  have hevent := event_eq (w := { w with
    actions := (w.next, action) :: w.actions
    gates := if gated then w.next :: w.gates else w.gates
    next := w.next + 1 }) hpool
  rw [enter, if_pos (show w.pool.accepts = true from hopen), hevent]

/-- Submitting a call leaves the flag as it is. -/
theorem enter_closed_eq (w : Workshop σ α) (gated : Bool) (action : σ → Option α × σ) :
    (w.enter gated action).pool.closed = w.pool.closed := by
  by_cases hopen : w.pool.queueOpen = true
  · obtain ⟨pool, hpool, -, henter⟩ := exists_enter_eq hopen gated action
    rw [henter]
    exact hpool.closed_eq nofun
  · rw [enter, if_neg (show ¬w.pool.accepts = true from hopen)]

/-- A call that is not gated adds no gate. -/
theorem enter_gates_eq (w : Workshop σ α) (action : σ → Option α × σ) :
    (w.enter false action).gates = w.gates := by
  unfold enter event
  split
  · split <;> rfl
  · rfl

/-- An event that is possible does one of these things. -/
theorem moves_of_step (h : w.step e = some w') : w.Moves e w' := by
  cases e with
  | submit gated action =>
    obtain rfl := Option.some.inj h
    by_cases hopen : w.pool.queueOpen = true
    · obtain ⟨pool, hpool, -, henter⟩ := exists_enter_eq hopen gated action
      rw [henter]
      exact .submitted hopen hpool
    · rw [enter, if_neg (show ¬w.pool.accepts = true from hopen)]
      exact .refused (eq_false_of_ne_true hopen)
  | finish worker =>
    simp only [step] at h
    split at h
    next call hruns =>
      obtain rfl := Option.some.inj h
      exact moves_finishCall hruns
    next => contradiction
  | pool e =>
    simp only [step] at h
    split at h
    next hbare =>
      obtain ⟨pool, hpool, rfl⟩ := Option.map_eq_some_iff.mp h
      exact .moved hbare (Pool.moves_of_step hpool)
    next => contradiction
  | outside change =>
    obtain rfl := Option.some.inj h
    exact .changed
  | receive call =>
    obtain rfl := Option.some.inj h
    exact .received

/-- Submitting a call is a step. -/
theorem moves_enter (w : Workshop σ α) (gated : Bool) (action : σ → Option α × σ) :
    w.Moves (.submit gated action) (w.enter gated action) :=
  moves_of_step rfl

/-- A step of a workshop is a step of its pool, or leaves the pool as it is. -/
theorem Moves.pool_cases (h : w.Moves e w') :
    w'.pool = w.pool ∨ ∃ poolEvent, w.pool.Moves poolEvent w'.pool := by
  cases h with
  | submitted _ hpool => exact .inr ⟨_, hpool⟩
  | returned _ _ _ hpool => exact .inr ⟨_, hpool⟩
  | panicked _ _ _ hpool => exact .inr ⟨_, hpool⟩
  | lost _ _ hpool => exact .inr ⟨_, hpool⟩
  | moved _ hpool => exact .inr ⟨_, hpool⟩
  | _ => exact .inl rfl

/-! ## Whole runs -/

/-- What holds in every run: the pool of a workshop of a size is accounted for, only numbers that were given
out are in use, and the flag is set once anybody shuts the pool down. -/
structure Sound (size : Nat) (w : Workshop σ α) : Prop where
  accounted : ∃ events, Pool.Accounted size events w.pool
  below : w.pool.Below w.next
  values_lt : ∀ entry ∈ w.values, entry.1 < w.next
  flagged : w.pool.Flagged

/-- A new workshop has no calls. -/
theorem sound_new (size : Nat) (world : σ) : Sound size (new size world : Workshop σ α) where
  accounted := ⟨[], Pool.accounted_new size⟩
  below := Pool.below_new size
  values_lt _ h := absurd h List.not_mem_nil
  flagged := Pool.flagged_new size

/-- Every step keeps a workshop sound. -/
theorem Sound.move {size : Nat} (hw : w.Sound size) (h : w.Moves e w') : w'.Sound size where
  accounted := by
    obtain ⟨events, haccounted⟩ := hw.accounted
    rcases h.pool_cases with hsame | ⟨poolEvent, hpool⟩
    · exact ⟨events, hsame ▸ haccounted⟩
    · exact ⟨events ++ [poolEvent], haccounted.move hpool⟩
  below := by
    cases h with
    | submitted _ hpool => exact hw.below.submit hpool
    | returned _ _ _ hpool => exact hw.below.move hpool rfl
    | panicked _ _ _ hpool => exact hw.below.move hpool rfl
    | lost _ _ hpool => exact hw.below.move hpool rfl
    | moved hbare hpool => exact hw.below.move hpool (PoolEvent.submitted?_of_isBare hbare)
    | _ => exact hw.below
  values_lt := by
    cases h with
    | submitted => exact fun entry hentry => Nat.lt_succ_of_lt (hw.values_lt entry hentry)
    | returned hruns =>
      exact List.forall_mem_cons.mpr
        ⟨hw.below.of_pending _ (Pool.mem_pending_of_worker hruns rfl), hw.values_lt⟩
    | received => exact fun entry hentry => hw.values_lt entry (List.mem_of_mem_filter hentry)
    | _ => exact hw.values_lt
  flagged := by
    rcases h.pool_cases with hsame | ⟨poolEvent, hpool⟩
    · exact hsame ▸ hw.flagged
    · exact hw.flagged.move hpool

/-- What one step of some kind keeps, every run of such steps keeps. -/
theorem run_induction {P : Workshop σ α → Prop} {K : WorkshopEvent σ α → Prop}
    (hstep : ∀ v v' e, K e → v.Moves e v' → P v → P v') {events : List (WorkshopEvent σ α)}
    (hevents : ∀ e ∈ events, K e) (hw : P w) (h : w.run events = some w') : P w' := by
  induction events generalizing w with
  | nil =>
    cases h
    exact hw
  | cons e events ih =>
    obtain ⟨v, he, hrun⟩ := Option.bind_eq_some_iff.mp h
    have hfirst := hevents e List.mem_cons_self
    exact ih (fun f hf => hevents f (List.mem_cons_of_mem e hf))
      (hstep w v e hfirst (moves_of_step he) hw) hrun

/-- Every run of a workshop is sound. -/
theorem Sound.run {size : Nat} (hw : w.Sound size) {events : List (WorkshopEvent σ α)}
    (h : w.run events = some w') : w'.Sound size :=
  run_induction (K := fun _ => True) (fun _ _ _ _ hmove hv => hv.move hmove) (fun _ _ => trivial) hw h

/-- Something holds of the world, and the code of every queued call keeps it. -/
structure Keeps (holds : σ → Prop) (w : Workshop σ α) : Prop where
  of_world : holds w.world
  of_action : ∀ entry ∈ w.actions, ∀ world, holds world → holds (entry.2 world).2

/-- What holds of the world is kept by code that keeps it. -/
theorem Keeps.move {holds : σ → Prop} (hw : w.Keeps holds) (h : w.Moves e w') (he : e.Keeps holds) :
    w'.Keeps holds := by
  have hfiltered {call : CallId} : ∀ entry ∈ w.actions.filter (·.1 != call), ∀ world, holds world →
      holds (entry.2 world).2 :=
    fun entry hentry => hw.of_action entry (List.mem_of_mem_filter hentry)
  cases h with
  | submitted => exact ⟨hw.of_world, List.forall_mem_cons.mpr ⟨he, hw.of_action⟩⟩
  | returned _ haction =>
    exact ⟨hw.of_action _ (List.mem_of_find?_eq_some haction) _ hw.of_world, hfiltered⟩
  | panicked _ haction =>
    exact ⟨hw.of_action _ (List.mem_of_find?_eq_some haction) _ hw.of_world, hfiltered⟩
  | changed => exact ⟨he _ hw.of_world, hw.of_action⟩
  | _ => exact ⟨hw.of_world, hw.of_action⟩

/-- A move brings no code along. -/
theorem keeps_of_isMove {holds : σ → Prop} (hmove : e.isMove = true) : e.Keeps holds := by
  cases e with
  | submit => contradiction
  | outside => contradiction
  | _ => exact trivial

/-- What holds of the world holds in every run whose code keeps it. -/
theorem Keeps.run {holds : σ → Prop} (hw : w.Keeps holds) {events : List (WorkshopEvent σ α)}
    (hevents : ∀ e ∈ events, e.Keeps holds) (h : w.run events = some w') : w'.Keeps holds :=
  run_induction (fun _ _ _ he hmove hv => hv.move hmove he) hevents hw h

/-! ## Going on -/

/-- Every move leaves the pool fewer moves. -/
theorem Moves.movesLeft_lt (h : w.Moves e w') (hmove : e.isMove = true) :
    w'.pool.movesLeft < w.pool.movesLeft := by
  cases h with
  | returned _ _ _ hpool => exact hpool.movesLeft_lt rfl
  | panicked _ _ _ hpool => exact hpool.movesLeft_lt rfl
  | lost _ _ hpool => exact hpool.movesLeft_lt rfl
  | moved _ hpool => exact hpool.movesLeft_lt hmove
  | _ => contradiction

/-- A move changes neither the flag nor the gates. -/
theorem Moves.closed_gates_eq (h : w.Moves e w') (hmove : e.isMove = true) :
    w'.pool.closed = w.pool.closed ∧ w'.gates = w.gates := by
  cases h with
  | returned _ _ _ hpool => exact ⟨hpool.closed_eq nofun, rfl⟩
  | panicked _ _ _ hpool => exact ⟨hpool.closed_eq nofun, rfl⟩
  | lost _ _ hpool => exact ⟨hpool.closed_eq nofun, rfl⟩
  | moved _ hpool =>
    refine ⟨hpool.closed_eq ?_, rfl⟩
    rintro rfl
    contradiction
  | _ => contradiction

/-- Moves change neither the flag nor the gates. -/
theorem closed_gates_eq_of_run {moves : List (WorkshopEvent σ α)} (hmoves : ∀ e ∈ moves, e.isMove = true)
    (h : w.run moves = some w') : w'.pool.closed = w.pool.closed ∧ w'.gates = w.gates := by
  refine run_induction (P := fun v => v.pool.closed = w.pool.closed ∧ v.gates = w.gates)
    (fun v v' e he hmove ⟨hclosed, hgates⟩ => ?_) hmoves ⟨rfl, rfl⟩ h
  have hkept := hmove.closed_gates_eq he
  exact ⟨hkept.1.trans hclosed, hkept.2.trans hgates⟩

/-- A bare event that the pool allows is a step. -/
theorem step_pool {e : PoolEvent} (hbare : e.isBare = true) (h : (w.pool.step e).isSome) :
    w.step (.pool e) = some (w.event e) := by
  obtain ⟨pool, hpool⟩ := Option.isSome_iff_exists.mp h
  rw [step, if_pos hbare, event_eq hpool, hpool, Option.map_some]

/-- What a worker does by itself is a step. -/
theorem step_of_moveWorker? {worker : Nat} (h : w.moveWorker? worker = some w') :
    ∃ e : WorkshopEvent σ α, e.isMove = true ∧ w.step e = some w' := by
  unfold moveWorker? at h
  split at h
  next hidle =>
    split at h
    next hqueue =>
      obtain rfl := Option.some.inj h
      refine ⟨.pool (.take worker), rfl, step_pool rfl ?_⟩
      cases hcalls : w.pool.queue with
      | nil =>
        rw [hcalls] at hqueue
        contradiction
      | cons call rest => simp only [Pool.step, hidle, hcalls, Option.isSome_some]
    next hqueue =>
      split at h
      next hclosed =>
        obtain rfl := Option.some.inj h
        refine ⟨.pool (.exit worker), rfl, step_pool rfl ?_⟩
        have hempty : (w.pool.queue.isEmpty && !w.pool.queueOpen) = true := by
          rw [hclosed, Bool.and_true]
          simpa using hqueue
        simp only [Pool.step, hidle, hempty, if_true, Option.isSome_some]
      next => contradiction
  next call hholds =>
    obtain rfl := Option.some.inj h
    refine ⟨.pool (.start worker), rfl, step_pool rfl ?_⟩
    simp only [Pool.step, hholds]
    split <;> rfl
  next call hruns =>
    split at h
    · contradiction
    · obtain rfl := Option.some.inj h
      exact ⟨.finish worker, rfl, by simp only [step, hruns]⟩
  next => contradiction

/-- A submitter that waits comes in where there is space. -/
theorem step_unblock (hwaits : w.pool.blocked ≠ []) (hroom : w.pool.queue.length < w.pool.capacity) :
    w.step (.pool (.unblock 0)) = some (w.event (.unblock 0)) := by
  refine step_pool rfl ?_
  cases hblocked : w.pool.blocked with
  | nil => contradiction
  | cons call rest => simp only [Pool.step, hblocked, List.getElem?_cons_zero, if_pos hroom, Option.isSome_some]

/-- What a workshop does by itself is a step. -/
theorem step_of_move? (h : w.move? = some w') :
    ∃ e : WorkshopEvent σ α, e.isMove = true ∧ w.step e = some w' := by
  unfold move? at h
  split at h
  next hcan =>
    obtain ⟨hwaits, hroom⟩ := Bool.and_eq_true_iff.mp hcan
    obtain rfl := Option.some.inj h
    refine ⟨.pool (.unblock 0), rfl, step_unblock ?_ (of_decide_eq_true hroom)⟩
    simpa using hwaits
  next =>
    obtain ⟨worker, -, hworker⟩ := List.exists_of_findSome?_eq_some h
    exact step_of_moveWorker? hworker

/-- Where somebody is able to move with a call, there is a move. -/
theorem exists_move (h : w.pool.Able) : ∃ (e : WorkshopEvent σ α) (v : Workshop σ α),
    e.isMove = true ∧ w.step e = some v := by
  cases h with
  | unblock hwaits hroom => exact ⟨_, _, rfl, step_unblock hwaits hroom⟩
  | @take worker hidle hqueue =>
    refine ⟨.pool (.take worker), _, rfl, step_pool rfl ?_⟩
    cases hcalls : w.pool.queue with
    | nil => contradiction
    | cons call rest => simp only [Pool.step, hidle, hcalls, Option.isSome_some]
  | @start worker call hholds =>
    refine ⟨.pool (.start worker), _, rfl, step_pool rfl ?_⟩
    simp only [Pool.step, hholds]
    split <;> rfl
  | @finish worker call hruns => exact ⟨.finish worker, _, rfl, by simp only [step, hruns]; rfl⟩

/-- Where somebody is able to move with a call and no call is gated, the workshop moves. -/
theorem isSome_move? (h : w.pool.Able) (hgates : w.gates = []) : w.move?.isSome = true := by
  unfold move?
  split
  next => rfl
  next hcan =>
    have hmoves {worker : Nat} {state : WorkerState} (hstate : w.pool.workers[worker]? = some state)
        (hmove : (w.moveWorker? worker).isSome = true) :
        ((List.range w.pool.workers.length).findSome? w.moveWorker?).isSome = true := by
      obtain ⟨hlt, -⟩ := List.getElem?_eq_some_iff.mp hstate
      exact List.findSome?_isSome_iff.mpr ⟨worker, List.mem_range.mpr hlt, hmove⟩
    cases h with
    | unblock hwaits hroom =>
      refine absurd ?_ hcan
      rw [Bool.and_eq_true_iff]
      exact ⟨by simpa using hwaits, decide_eq_true hroom⟩
    | take hidle hqueue =>
      have hsome : (!w.pool.queue.isEmpty) = true := by simpa using hqueue
      exact hmoves hidle (by simp only [moveWorker?, hidle, hsome, if_true, Option.isSome_some])
    | start hholds => exact hmoves hholds (by simp only [moveWorker?, hholds, Option.isSome_some])
    | @finish worker call hruns =>
      have hopen : w.gates.contains call = false := by rw [hgates]; rfl
      refine hmoves hruns ?_
      simp only [moveWorker?, hruns, hopen, Bool.false_eq_true, if_false, Option.isSome_some]

/-- A workshop that is let move for a while makes moves; if nobody can move longer than that, it comes to a
rest. -/
theorem settleFor_spec (n : Nat) (w : Workshop σ α) : ∃ moves : List (WorkshopEvent σ α),
    (∀ e ∈ moves, e.isMove = true) ∧ w.run moves = some (settleFor n w) ∧
      (w.pool.movesLeft ≤ n → (settleFor n w).move? = none) := by
  induction n generalizing w with
  | zero =>
    refine ⟨[], nofun, rfl, fun hleft => ?_⟩
    by_contra hsome
    obtain ⟨moved, hmoved⟩ := Option.ne_none_iff_exists'.mp hsome
    obtain ⟨e, hmove, hstep⟩ := step_of_move? hmoved
    have hless := (moves_of_step hstep).movesLeft_lt hmove
    exact Nat.not_lt_zero _ (Nat.lt_of_lt_of_le hless hleft)
  | succ n ih =>
    unfold settleFor
    split
    next hnone => exact ⟨[], nofun, rfl, fun _ => hnone⟩
    next moved hmoved =>
      obtain ⟨e, hmove, hstep⟩ := step_of_move? hmoved
      obtain ⟨moves, hmoves, hrun, hrest⟩ := ih moved
      have hless := (moves_of_step hstep).movesLeft_lt hmove
      refine ⟨e :: moves, List.forall_mem_cons.mpr ⟨hmove, hmoves⟩, ?_, fun hleft => hrest (by omega)⟩
      rw [run, List.foldlM_cons, hstep]
      exact hrun

/-- Letting everybody move is one of the ways in which the moves may come, and ends in a rest. -/
theorem settle_spec (w : Workshop σ α) : ∃ moves : List (WorkshopEvent σ α),
    (∀ e ∈ moves, e.isMove = true) ∧ w.run moves = some w.settle ∧ w.settle.move? = none := by
  have hworkers := Pool.sum_movesLeft_le w.pool.workers
  obtain ⟨moves, hmoves, hrun, hrest⟩ := settleFor_spec
    (4 * (w.pool.queue.length + w.pool.blocked.length) + 5 * w.pool.workers.length) w
  refine ⟨moves, hmoves, hrun, hrest ?_⟩
  unfold Pool.movesLeft
  omega

/-- Where nobody can move and no call is gated, all calls are resolved. -/
theorem Sound.pending_eq_nil {size : Nat} (hw : w.Sound size) (hrest : w.move? = none)
    (hgates : w.gates = []) : w.pool.pending = [] := by
  obtain ⟨events, haccounted⟩ := hw.accounted
  by_contra hpending
  have hmove := isSome_move? (haccounted.able hpending) hgates
  rw [hrest] at hmove
  contradiction

end Workshop

end CBind
