import CBind.Proofs.Call.Resolution
import Mathlib.Algebra.GroupWithZero.Nat

/-!
# A pool goes on by itself

Workers and submitters that wait for space need nobody to go on. Each of their moves leaves fewer moves to be
made, so they come to a rest; and as long as a call is unresolved, one of them can move.

Seen from one call, a step leaves it unresolved or ends it. An end stays noted as it is.
-/

namespace CBind

/-- The moves that a pool makes by itself: those of its workers, and of submitters that wait for space. -/
def PoolEvent.isMove : PoolEvent → Bool
  | .unblock _ => true
  | .take _ => true
  | .start _ => true
  | .finish _ _ => true
  | .exit _ => true
  | _ => false

/-- The moves that a worker has left if it gets no further call. -/
def WorkerState.movesLeft : WorkerState → Nat
  | .idle => 1
  | .holding _ => 3
  | .running _ => 2
  | .exited => 0

namespace Pool

variable {size : Nat} {p q : Pool} {e : PoolEvent} {call : CallId}

/-! ## Coming to a rest -/

/-- The most moves that a pool can still make by itself. -/
def movesLeft (p : Pool) : Nat :=
  4 * p.blocked.length + 3 * p.queue.length + (p.workers.map WorkerState.movesLeft).sum

/-- A worker that gets another state changes the moves left by those it had and has. -/
theorem sum_movesLeft_setWorker {worker : Nat} {state : WorkerState} (h : p.workers[worker]? = some state)
    (next : WorkerState) :
    ((p.setWorker worker next).workers.map WorkerState.movesLeft).sum + state.movesLeft =
      (p.workers.map WorkerState.movesLeft).sum + next.movesLeft := by
  obtain ⟨hlt, rfl⟩ := List.getElem?_eq_some_iff.mp h
  have hbefore := ((List.getElem_cons_eraseIdx_perm hlt).map WorkerState.movesLeft).sum_nat
  have hafter := ((List.set_perm_cons_eraseIdx hlt next).map WorkerState.movesLeft).sum_nat
  rw [List.map_cons, List.sum_cons] at hbefore hafter
  change ((p.workers.set worker next).map WorkerState.movesLeft).sum + _ = _
  omega

/-- A worker that comes closer to its rest leaves fewer moves. -/
theorem movesLeft_setWorker_lt {worker : Nat} {state next : WorkerState}
    (h : p.workers[worker]? = some state) (hless : next.movesLeft < state.movesLeft) :
    (p.setWorker worker next).movesLeft < p.movesLeft := by
  have hworkers := sum_movesLeft_setWorker h next
  change 4 * p.blocked.length + 3 * p.queue.length +
    ((p.setWorker worker next).workers.map WorkerState.movesLeft).sum < 4 * _ + 3 * _ + _
  omega

/-- Every move leaves fewer moves. -/
theorem Moves.movesLeft_lt (h : p.Moves e q) (hmove : e.isMove = true) : q.movesLeft < p.movesLeft := by
  cases h with
  | @unblocked position c hwaits _ =>
    obtain ⟨hlt, rfl⟩ := List.getElem?_eq_some_iff.mp hwaits
    have hblocked := List.length_eraseIdx_of_lt hlt
    have hqueue : (p.queue ++ [p.blocked[position]]).length = p.queue.length + 1 := List.length_append
    change 4 * (p.blocked.eraseIdx position).length + 3 * (p.queue ++ [p.blocked[position]]).length +
      (p.workers.map WorkerState.movesLeft).sum < 4 * _ + 3 * _ + _
    omega
  | @taken worker c rest hidle hqueue =>
    have hworkers : ((p.setWorker worker (.holding c)).workers.map WorkerState.movesLeft).sum + 1 =
        (p.workers.map WorkerState.movesLeft).sum + 3 := sum_movesLeft_setWorker hidle (.holding c)
    have hlength : p.queue.length = rest.length + 1 := congrArg List.length hqueue
    change 4 * p.blocked.length + 3 * rest.length +
      ((p.setWorker worker (.holding c)).workers.map WorkerState.movesLeft).sum < 4 * _ + 3 * _ + _
    omega
  | dropped hholds => exact movesLeft_setWorker_lt hholds (show 1 < 3 by decide)
  | started hholds => exact movesLeft_setWorker_lt hholds (show 2 < 3 by decide)
  | finished _ hruns => exact movesLeft_setWorker_lt hruns (show 1 < 2 by decide)
  | exited hidle => exact movesLeft_setWorker_lt hidle (show 0 < 1 by decide)
  | _ => contradiction

/-- No worker has more than three moves left. -/
theorem sum_movesLeft_le (workers : List WorkerState) :
    (workers.map WorkerState.movesLeft).sum ≤ 3 * workers.length := by
  induction workers with
  | nil => exact Nat.le_refl 0
  | cons state workers ih =>
    have hstate : state.movesLeft ≤ 3 := by
      cases state <;> exact Nat.le_of_ble_eq_true rfl
    rw [List.map_cons, List.sum_cons, List.length_cons]
    omega

/-- A situation in which somebody can move with a call. -/
inductive Able (p : Pool) : Prop
  | unblock (hwaits : p.blocked ≠ []) (hroom : p.queue.length < p.capacity)
  | take {worker : Nat} (hidle : p.workers[worker]? = some .idle) (hqueue : p.queue ≠ [])
  | start {worker : Nat} {call : CallId} (hholds : p.workers[worker]? = some (.holding call))
  | finish {worker : Nat} {call : CallId} (hruns : p.workers[worker]? = some (.running call))

/-- A worker that has a call can move with it. -/
theorem able_of_withWorkers (h : p.withWorkers ≠ []) : p.Able := by
  obtain ⟨call, hcall⟩ := List.exists_mem_of_ne_nil _ h
  obtain ⟨state, hstate, hhas⟩ := List.mem_filterMap.mp hcall
  obtain ⟨worker, hworker⟩ := List.mem_iff_getElem?.mp hstate
  cases state with
  | holding => exact .start hworker
  | running => exact .finish hworker
  | idle => contradiction
  | exited => contradiction

/-- As long as a call is unresolved, somebody can move with one. -/
theorem Accounted.able {events : List PoolEvent} (h : Accounted size events p) (hpending : p.pending ≠ []) :
    p.Able := by
  by_cases hworkers : p.withWorkers = []
  · have hwaiting : p.queue ++ p.blocked ≠ [] := by
      intro hnil
      rw [pending, hnil] at hpending
      exact hpending hworkers
    have hfirst : 0 < p.workers.length := by
      rw [h.length_workers, h.size_eq]
      omega
    have hmem := List.getElem_mem hfirst
    have hnone := List.filterMap_eq_nil_iff.mp hworkers _ hmem
    -- no worker has a call, and none has exited while a call waits
    cases hstate : p.workers[0] with
    | holding =>
      rw [hstate] at hnone
      contradiction
    | running =>
      rw [hstate] at hnone
      contradiction
    | exited =>
      obtain ⟨hclosed, hqueue⟩ := h.of_exited_mem (hstate ▸ hmem)
      rw [hqueue, h.blocked_eq_nil hclosed] at hwaiting
      contradiction
    | idle =>
      by_cases hqueue : p.queue = []
      · refine .unblock (fun hblocked => hwaiting (by rw [hqueue, hblocked, List.append_nil])) ?_
        rw [hqueue, List.length_nil, capacity, h.size_eq, slotsPerWorker]
        omega
      · exact .take (List.getElem?_eq_some_iff.mpr ⟨hfirst, hstate⟩) hqueue
  · exact able_of_withWorkers hworkers

/-! ## One call among others -/

/-- A call that was submitted and has not ended. -/
structure Unresolved (p : Pool) (call : CallId) : Prop where
  pending_once : p.pending.count call = 1
  not_ended : ∀ how, (call, how) ∉ p.ends

/-- A call that has ended in a way. -/
structure Settled (p : Pool) (call : CallId) (how : CallEnd) : Prop where
  not_pending : call ∉ p.pending
  find?_ends : p.ends.find? (·.1 == call) = some (call, how)

/-- The completion of an unresolved call is empty. -/
theorem Unresolved.completion_eq (h : p.Unresolved call) : p.completion call = .empty :=
  ((p.completion_cases call).resolve_right fun ⟨how, hmem, _⟩ => h.not_ended how hmem).1

/-- The completion of a call that has ended shows how. -/
theorem Settled.completion_eq {how : CallEnd} (h : p.Settled call how) :
    p.completion call = how.completion := by
  rw [completion, h.find?_ends]

/-- A step notes at most one end, that of the call that ends by it. -/
theorem Moves.ends_cases (h : p.Moves e q) :
    q.ends = p.ends ∨ ∃ c how, p.Ends e c how ∧ q.ends = p.ends ++ [(c, how)] := by
  cases h with
  | dropped hholds hclosed => exact .inr ⟨_, _, .dropped hholds hclosed, rfl⟩
  | finished panicked hruns =>
    cases panicked with
    | false => exact .inr ⟨_, _, .value hruns, rfl⟩
    | true => exact .inr ⟨_, _, .panicked hruns, rfl⟩
  | _ => exact .inl rfl

/-- Submitting a call resolves nothing, and adds that call only. -/
theorem Moves.of_submit {c : CallId} (h : p.Moves (.submit c) q) (hne : c ≠ call) :
    q.ends = p.ends ∧ q.pending.count call = p.pending.count call := by
  have hadded (calls : List CallId) : (calls ++ [c]).count call = calls.count call := by
    rw [List.count_append, List.count_singleton, if_neg (fun heq => hne (beq_iff_eq.mp heq)), Nat.add_zero]
  cases h with
  | refused => exact ⟨rfl, rfl⟩
  | entered =>
    refine ⟨rfl, ?_⟩
    rw [count_pending, count_pending]
    exact congrArg (· + _ + _) (hadded p.queue)
  | waits =>
    refine ⟨rfl, ?_⟩
    rw [count_pending, count_pending]
    exact congrArg (_ + · + _) (hadded p.blocked)

/-- An end that a step notes is the first one of its call. -/
theorem Unresolved.find?_ends (hp : p.Unresolved call) (h : p.Moves e q) {how : CallEnd}
    (hnoted : (call, how) ∈ q.ends) : q.ends.find? (·.1 == call) = some (call, how) := by
  have hfront : p.ends.find? (·.1 == call) = none := by
    refine List.find?_eq_none.mpr fun ⟨c, other⟩ hmem heq => hp.not_ended other ?_
    exact beq_iff_eq.mp heq ▸ hmem
  rcases h.ends_cases with hsame | ⟨c, other, -, hmore⟩
  · exact absurd (hsame ▸ hnoted) (hp.not_ended how)
  · rw [hmore] at hnoted ⊢
    have hlast := List.mem_singleton.mp ((List.mem_append.mp hnoted).resolve_left (hp.not_ended how))
    rw [List.find?_append, hfront, Option.none_or, ← hlast, List.find?_singleton,
      if_pos (beq_iff_eq.mpr rfl)]

/-- A step leaves an unresolved call unresolved or ends it, unless its number is used once more. -/
theorem Unresolved.move (hp : p.Unresolved call) (h : p.Moves e q) (hother : e.submitted? ≠ some call) :
    q.Unresolved call ∨ ∃ how, p.Ends e call how ∧ q.Settled call how := by
  cases hsubmitted : e.submitted? with
  | some c =>
    have hne : c ≠ call := fun heq => hother (heq ▸ hsubmitted)
    obtain rfl := PoolEvent.eq_submit hsubmitted
    obtain ⟨hends, hcount⟩ := h.of_submit hne
    exact .inl ⟨hcount.trans hp.pending_once, fun how => hends ▸ hp.not_ended how⟩
  | none =>
    obtain ⟨ended, hended, hcount⟩ := h.exists_ended hsubmitted
    have hone := hcount call
    rw [← Pool.count_pending, ← Pool.count_pending, hp.pending_once] at hone
    by_cases hmem : call ∈ ended.map (·.1)
    · obtain ⟨⟨_, how⟩, hnow, rfl⟩ := List.mem_map.mp hmem
      have hnoted := hended ▸ List.mem_append_right p.ends hnow
      have hpos := List.count_pos_iff.mpr hmem
      refine .inr ⟨how, (h.mem_ends hnoted).resolve_left (hp.not_ended how), ?_, hp.find?_ends h hnoted⟩
      rw [← List.count_eq_zero]
      omega
    · have hzero := List.count_eq_zero.mpr hmem
      refine .inl ⟨by omega, fun how hnoted => ?_⟩
      rw [hended] at hnoted
      rcases List.mem_append.mp hnoted with hnoted | hnoted
      · exact hp.not_ended how hnoted
      · exact hmem (List.mem_map.mpr ⟨_, hnoted, rfl⟩)

/-- The end of a call stays as it was noted, unless its number is used once more. -/
theorem Settled.move {how : CallEnd} (hp : p.Settled call how) (h : p.Moves e q)
    (hother : e.submitted? ≠ some call) : q.Settled call how := by
  have hzero := List.count_eq_zero.mpr hp.not_pending
  constructor
  · rw [← List.count_eq_zero]
    cases hsubmitted : e.submitted? with
    | some c =>
      have hne : c ≠ call := fun heq => hother (heq ▸ hsubmitted)
      obtain rfl := PoolEvent.eq_submit hsubmitted
      exact (h.of_submit hne).2.trans hzero
    | none =>
      have hcount := (h.pending_perm hsubmitted).count_eq call
      rw [List.count_append] at hcount
      omega
  · rcases h.ends_cases with hsame | ⟨c, how', -, hmore⟩
    · rw [hsame, hp.find?_ends]
    · rw [hmore, List.find?_append, hp.find?_ends, Option.some_or]

/-! ## Numbers -/

/-- All calls that a pool knows of have numbers below `n`. -/
structure Below (n : Nat) (p : Pool) : Prop where
  of_pending : ∀ call ∈ p.pending, call < n
  of_ended : ∀ call how, (call, how) ∈ p.ends → call < n
  of_started : ∀ call ∈ p.started, call < n

/-- A new pool knows of no calls. -/
theorem below_new (size : Nat) : (new size).Below 0 where
  of_pending call hcall := by
    have hnone : (new size).withWorkers = [] := List.filterMap_replicate
    rw [pending, ← withWorkers, hnone] at hcall
    contradiction
  of_ended _ _ h := absurd h List.not_mem_nil
  of_started _ h := absurd h List.not_mem_nil

/-- The call that a worker has is unresolved. -/
theorem mem_pending_of_worker {worker : Nat} {state : WorkerState} (h : p.workers[worker]? = some state)
    (hcall : state.call? = some call) : call ∈ p.pending :=
  List.mem_append_right _ (List.mem_filterMap.mpr ⟨state, List.mem_of_getElem? h, hcall⟩)

/-- A call that ends was unresolved. -/
theorem Ends.mem_pending {how : CallEnd} (h : p.Ends e call how) : call ∈ p.pending := by
  cases h with
  | value hruns => exact mem_pending_of_worker hruns rfl
  | panicked hruns => exact mem_pending_of_worker hruns rfl
  | dropped hholds => exact mem_pending_of_worker hholds rfl

/-- Only calls with workers are started. -/
theorem Moves.mem_started (h : p.Moves e q) (hstarted : call ∈ q.started) :
    call ∈ p.started ∨ call ∈ p.pending := by
  cases h with
  | started hholds =>
    refine (List.mem_append.mp hstarted).imp_right fun hnow => ?_
    rw [List.mem_singleton.mp hnow]
    exact mem_pending_of_worker hholds rfl
  | _ => exact .inl hstarted

/-- A step that submits nothing knows of no further call. -/
theorem Below.move {n : Nat} (hp : p.Below n) (h : p.Moves e q) (hsubmitted : e.submitted? = none) :
    q.Below n where
  of_pending c hc :=
    hp.of_pending c ((h.pending_perm hsubmitted).mem_iff.mpr (List.mem_append_right _ hc))
  of_ended c how hc :=
    (h.mem_ends hc).elim (hp.of_ended c how) fun hends => hp.of_pending c hends.mem_pending
  of_started c hc := (h.mem_started hc).elim (hp.of_started c) (hp.of_pending c)

/-- A further call takes the next number. -/
theorem Below.submit {n : Nat} (hp : p.Below n) (h : p.Moves (.submit n) q) : q.Below (n + 1) where
  of_pending c hc := by
    by_cases hne : n = c
    · exact hne ▸ Nat.lt_succ_self n
    · rw [← List.count_pos_iff, (h.of_submit hne).2, List.count_pos_iff] at hc
      exact Nat.lt_succ_of_lt (hp.of_pending c hc)
  of_ended c how hc :=
    Nat.lt_succ_of_lt ((h.mem_ends hc).elim (hp.of_ended c how) fun hends =>
      hp.of_pending c hends.mem_pending)
  of_started c hc :=
    Nat.lt_succ_of_lt ((h.mem_started hc).elim (hp.of_started c) (hp.of_pending c))

/-! ## The closed flag -/

/-- A pool whose queue was closed, or that anybody began to shut down, has its flag set. -/
structure Flagged (p : Pool) : Prop where
  of_shutdown : p.shutdowns ≠ [] → p.closed = true
  of_queue : p.queueOpen = false → p.closed = true

/-- Nobody has begun to shut a new pool down. -/
theorem flagged_new (size : Nat) : (new size).Flagged where
  of_shutdown h := absurd rfl h
  of_queue h := absurd h (show ¬true = false by decide)

/-- The flag is set by whoever shuts the pool down, and is never taken back. -/
theorem Flagged.move (hp : p.Flagged) (h : p.Moves e q) : q.Flagged := by
  have hset {caller : Nat} {phase : ShutdownPhase} (hphase : p.shutdowns[caller]? = some phase) :
      p.closed = true := by
    refine hp.of_shutdown fun hnil => ?_
    rw [hnil] at hphase
    contradiction
  cases h with
  | flagged => exact ⟨fun _ => rfl, fun _ => rfl⟩
  | queueClosed hphase =>
    exact ⟨fun _ => hset hphase, fun _ => hset hphase⟩
  | collected hphase => exact ⟨fun _ => hset hphase, hp.of_queue⟩
  | returned hphase => exact ⟨fun _ => hset hphase, hp.of_queue⟩
  | _ => exact ⟨hp.of_shutdown, hp.of_queue⟩

/-- Behind the closed flag nothing is started. -/
theorem Moves.of_closed (h : p.Moves e q) (hclosed : p.closed = true) :
    q.closed = true ∧ q.started = p.started := by
  cases h with
  | started _ hopen => exact absurd (hclosed.symm.trans hopen) (by decide)
  | flagged => exact ⟨rfl, rfl⟩
  | _ => exact ⟨hclosed, rfl⟩

/-- What was started stays among the calls that were. -/
theorem Moves.mem_started_of_mem (h : p.Moves e q) (hstarted : call ∈ p.started) : call ∈ q.started := by
  cases h with
  | started => exact List.mem_append_left _ hstarted
  | _ => exact hstarted

/-- Nobody but a caller of a shutdown sets the flag. -/
theorem Moves.closed_eq (h : p.Moves e q) (hother : e ≠ .shutdown) : q.closed = p.closed := by
  cases h with
  | flagged => exact absurd rfl hother
  | _ => rfl

/-- A call that a worker runs was started. -/
theorem Accounted.mem_started {events : List PoolEvent} (h : Accounted size events p) {worker : Nat}
    (hruns : p.workers[worker]? = some (.running call)) : call ∈ p.started := by
  have hrunning : 0 < p.running.count call :=
    List.count_pos_iff.mpr (List.mem_filterMap.mpr ⟨_, List.mem_of_getElem? hruns, rfl⟩)
  rw [← List.count_pos_iff, h.count_started]
  exact Nat.lt_of_lt_of_le hrunning (Nat.le_add_right _ _)

/-- What workers have they hold or run. -/
theorem count_withWorkers (p : Pool) (call : CallId) :
    p.withWorkers.count call = p.held.count call + p.running.count call := by
  unfold withWorkers held running
  induction p.workers with
  | nil => rfl
  | cons state workers ih =>
    have hstate : state.call?.toList.count call =
        state.held?.toList.count call + state.running?.toList.count call := by
      cases state with
      | running => exact (Nat.zero_add _).symm
      | _ => rfl
    rw [count_filterMap_cons, count_filterMap_cons, count_filterMap_cons, ih]
    omega

/-- A call that a worker has taken and not started was not started. -/
theorem Accounted.not_mem_started {events : List PoolEvent} (h : Accounted size events p)
    (hp : p.Unresolved call) {worker : Nat} (hholds : p.workers[worker]? = some (.holding call)) :
    call ∉ p.started := by
  have hheld : 0 < p.held.count call :=
    List.count_pos_iff.mpr (List.mem_filterMap.mpr ⟨_, List.mem_of_getElem? hholds, rfl⟩)
  have hexecuted : p.executed.count call = 0 := by
    rw [List.count_eq_zero, executed, List.mem_append, mem_endedAs, mem_endedAs]
    exact fun hended => hended.elim (hp.not_ended _) (hp.not_ended _)
  have hone := hp.pending_once
  rw [Pool.count_pending, count_withWorkers] at hone
  rw [← List.count_eq_zero, h.count_started, hexecuted]
  omega

end Pool

end CBind
