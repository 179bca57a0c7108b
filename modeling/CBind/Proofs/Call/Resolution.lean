import CBind.Proofs.Call.PoolSteps
import Mathlib.Data.List.Induction
import Mathlib.Data.List.Nodup

/-!
# Every call is resolved once

A call that is submitted to an open pool enters the queue or waits for space, and a call that entered
stands in one place at a time: in the queue, with one worker, or among the calls that ended. Calls leave
the queue in the order in which they entered it. A completion shows how its call ended, and every call has
ended when the last worker exits.

Any number of submitters, workers and callers of a shutdown take part, and their events interleave in any
order that is possible. Submitted calls are told apart by their numbers, and no number is submitted twice.
-/

namespace CBind.Pool

variable {size : Nat} {p q : Pool} {e : PoolEvent}

/-! ## The queue -/

/-- The calls that left the queue and those in it are the calls that entered it, in this order. -/
theorem Moves.left_append_queue (h : p.Moves e q) (hp : p.left ++ p.queue = p.entered) :
    q.left ++ q.queue = q.entered := by
  cases h with
  | @entered call =>
    change p.left ++ (p.queue ++ [call]) = p.entered ++ [call]
    rw [← List.append_assoc, hp]
  | @unblocked _ call =>
    change p.left ++ (p.queue ++ [call]) = p.entered ++ [call]
    rw [← List.append_assoc, hp]
  | @taken _ call rest _ hqueue =>
    change p.left ++ [call] ++ rest = p.entered
    rw [List.append_assoc, List.singleton_append, ← hqueue, hp]
  | _ => exact hp

/-- The queue never holds more calls than it has room for. -/
theorem Moves.length_queue_le (h : p.Moves e q) (hp : p.queue.length ≤ p.capacity) :
    q.queue.length ≤ q.capacity := by
  cases h with
  | entered _ hroom =>
    change (p.queue ++ [_]).length ≤ p.capacity
    rw [List.length_append, List.length_singleton]
    omega
  | unblocked _ hroom =>
    change (p.queue ++ [_]).length ≤ p.capacity
    rw [List.length_append, List.length_singleton]
    omega
  | @taken _ _ rest _ hqueue =>
    change rest.length ≤ p.capacity
    rw [hqueue, List.length_cons] at hp
    omega
  | _ => exact hp

/-- The number of workers does not change. -/
theorem Moves.length_workers (h : p.Moves e q) (hp : p.workers.length = p.size) :
    q.workers.length = q.size := by
  cases h with
  | taken | dropped | started | finished | exited => exact List.length_set.trans hp
  | _ => exact hp

/-- The size of a pool does not change. -/
theorem Moves.size_eq (h : p.Moves e q) : q.size = p.size := by
  cases h <;> rfl

/-!
## Where calls stand

Workers end calls in any order, so the lists below agree up to their order only: every call is counted.
-/

/-- A call that left the queue is held by a worker, or was started, or was dropped. -/
theorem Moves.count_left (h : p.Moves e q) (call : CallId)
    (hp : p.left.count call =
      p.held.count call + p.started.count call + (p.endedAs .dropped).count call) :
    q.left.count call =
      q.held.count call + q.started.count call + (q.endedAs .dropped).count call := by
  cases h with
  | @taken worker c _ hidle _ =>
    have hheld : (p.setWorker worker (.holding c)).held.count call + 0 =
        p.held.count call + [c].count call := count_held_setWorker hidle _ call
    change (p.left ++ [c]).count call = (p.setWorker worker (.holding c)).held.count call +
      p.started.count call + (p.endedAs .dropped).count call
    rw [List.count_append]
    omega
  | @dropped worker c hholds _ =>
    have hheld : (p.setWorker worker .idle).held.count call + [c].count call =
        p.held.count call + 0 := count_held_setWorker hholds _ call
    rw [endedAs_resolve, List.count_append, if_pos rfl]
    change p.left.count call = (p.setWorker worker .idle).held.count call + p.started.count call +
      ((p.endedAs .dropped).count call + [c].count call)
    omega
  | @started worker c hholds _ =>
    have hheld : (p.setWorker worker (.running c)).held.count call + [c].count call =
        p.held.count call + 0 := count_held_setWorker hholds _ call
    change p.left.count call = (p.setWorker worker (.running c)).held.count call +
      (p.started ++ [c]).count call + (p.endedAs .dropped).count call
    rw [List.count_append]
    omega
  | @finished worker c panicked hruns =>
    have hheld : (p.setWorker worker .idle).held.count call + 0 = p.held.count call + 0 :=
      count_held_setWorker hruns _ call
    rw [dropped_finished]
    change p.left.count call = (p.setWorker worker .idle).held.count call + p.started.count call +
      (p.endedAs .dropped).count call
    omega
  | @exited worker hidle _ _ =>
    have hheld : (p.setWorker worker .exited).held.count call + 0 = p.held.count call + 0 :=
      count_held_setWorker hidle _ call
    change p.left.count call = (p.setWorker worker .exited).held.count call + p.started.count call +
      (p.endedAs .dropped).count call
    omega
  | _ => exact hp

/-- A call that was started is running or was executed. -/
theorem Moves.count_started (h : p.Moves e q) (call : CallId)
    (hp : p.started.count call = p.running.count call + p.executed.count call) :
    q.started.count call = q.running.count call + q.executed.count call := by
  cases h with
  | @taken worker c _ hidle _ =>
    have hrunning : (p.setWorker worker (.holding c)).running.count call + 0 =
        p.running.count call + 0 := count_running_setWorker hidle _ call
    change p.started.count call =
      (p.setWorker worker (.holding c)).running.count call + p.executed.count call
    omega
  | @dropped worker c hholds _ =>
    have hrunning : (p.setWorker worker .idle).running.count call + 0 = p.running.count call + 0 :=
      count_running_setWorker hholds _ call
    rw [executed, endedAs_resolve, endedAs_resolve, if_neg (by decide), if_neg (by decide),
      List.append_nil, List.append_nil]
    change p.started.count call = (p.setWorker worker .idle).running.count call + p.executed.count call
    omega
  | @started worker c hholds _ =>
    have hrunning : (p.setWorker worker (.running c)).running.count call + 0 =
        p.running.count call + [c].count call := count_running_setWorker hholds _ call
    change (p.started ++ [c]).count call =
      (p.setWorker worker (.running c)).running.count call + p.executed.count call
    rw [List.count_append]
    omega
  | @finished worker c panicked hruns =>
    have hrunning : (p.setWorker worker .idle).running.count call + [c].count call =
        p.running.count call + 0 := count_running_setWorker hruns _ call
    rw [count_executed_finished]
    change p.started.count call = (p.setWorker worker .idle).running.count call +
      (p.executed.count call + [c].count call)
    omega
  | @exited worker hidle _ _ =>
    have hrunning : (p.setWorker worker .exited).running.count call + 0 = p.running.count call + 0 :=
      count_running_setWorker hidle _ call
    change p.started.count call =
      (p.setWorker worker .exited).running.count call + p.executed.count call
    omega
  | _ => exact hp

/-- A call that entered the queue or waits for space was submitted. -/
theorem Moves.count_entered_le (h : p.Moves e q) (call : CallId) :
    q.entered.count call + q.blocked.count call ≤
      p.entered.count call + p.blocked.count call + e.submitted?.toList.count call := by
  cases h with
  | @entered c _ _ =>
    change (p.entered ++ [c]).count call + p.blocked.count call ≤ _ + [c].count call
    rw [List.count_append]
    omega
  | @waits c _ _ =>
    change p.entered.count call + (p.blocked ++ [c]).count call ≤ _ + [c].count call
    rw [List.count_append]
    omega
  | @unblocked position c hwaits _ =>
    obtain ⟨hlt, rfl⟩ := List.getElem?_eq_some_iff.mp hwaits
    have hblocked := (List.getElem_cons_eraseIdx_perm hlt).count_eq call
    change (p.entered ++ [p.blocked[position]]).count call + (p.blocked.eraseIdx position).count call ≤ _
    rw [← List.singleton_append, List.count_append] at hblocked
    rw [List.count_append]
    omega
  | _ => exact Nat.le_add_right _ _

/-- Whoever closes the queue waits for the submitters, and nobody waits at a closed queue. -/
theorem Moves.blocked_eq_nil (h : p.Moves e q) (hp : p.queueOpen = false → p.blocked = []) :
    q.queueOpen = false → q.blocked = [] := by
  cases h with
  | waits hopen =>
    intro hclosed
    exact absurd (hopen.symm.trans hclosed) (by decide)
  | unblocked hwaits =>
    intro hclosed
    rw [hp hclosed] at hwaits
    contradiction
  | queueClosed _ hblocked => exact fun _ => hblocked
  | _ => exact hp

/-- A worker that has exited is one that had, unless it exits now. -/
theorem exited_mem_of_mem_set {workers : List WorkerState} {worker : Nat} {next : WorkerState}
    (h : .exited ∈ workers.set worker next) (hnext : .exited ≠ next) : .exited ∈ workers :=
  (List.mem_or_eq_of_mem_set h).resolve_right hnext

/-- A worker exits at an empty closed queue, which stays empty. -/
theorem Moves.of_exited_mem (h : p.Moves e q) (hblocked : p.queueOpen = false → p.blocked = [])
    (hp : .exited ∈ p.workers → p.queueOpen = false ∧ p.queue = []) :
    .exited ∈ q.workers → q.queueOpen = false ∧ q.queue = [] := by
  intro hmem
  cases h with
  | entered hopen => exact absurd ((hp hmem).1.symm.trans hopen) (by decide)
  | unblocked hwaits =>
    rw [hblocked (hp hmem).1] at hwaits
    contradiction
  | taken _ hqueue =>
    have hempty := (hp (exited_mem_of_mem_set hmem nofun)).2
    rw [hqueue] at hempty
    contradiction
  | dropped => exact hp (exited_mem_of_mem_set hmem nofun)
  | started => exact hp (exited_mem_of_mem_set hmem nofun)
  | finished => exact hp (exited_mem_of_mem_set hmem nofun)
  | exited _ hqueue hclosed => exact ⟨hclosed, hqueue⟩
  | queueClosed => exact ⟨rfl, (hp hmem).2⟩
  | _ => exact hp hmem

/-! ## Whole runs -/

/-- What holds of a pool of a size after any run with some events. -/
structure Accounted (size : Nat) (events : List PoolEvent) (p : Pool) : Prop where
  size_eq : p.size = max size 1
  length_workers : p.workers.length = p.size
  left_append_queue : p.left ++ p.queue = p.entered
  length_queue_le : p.queue.length ≤ p.capacity
  count_left (call : CallId) : p.left.count call =
    p.held.count call + p.started.count call + (p.endedAs .dropped).count call
  count_started (call : CallId) : p.started.count call =
    p.running.count call + p.executed.count call
  count_entered_le (call : CallId) : p.entered.count call + p.blocked.count call ≤
    (events.filterMap PoolEvent.submitted?).count call
  blocked_eq_nil : p.queueOpen = false → p.blocked = []
  of_exited_mem : .exited ∈ p.workers → p.queueOpen = false ∧ p.queue = []

/-- A new pool has no calls. -/
theorem accounted_new (size : Nat) : Accounted size [] (new size) where
  size_eq := rfl
  length_workers := List.length_replicate
  left_append_queue := rfl
  length_queue_le := Nat.zero_le _
  count_left call := by
    have hheld : (new size).held = [] := List.filterMap_replicate
    rw [hheld]
    rfl
  count_started call := by
    have hrunning : (new size).running = [] := List.filterMap_replicate
    rw [hrunning]
    rfl
  count_entered_le _ := Nat.le_refl 0
  blocked_eq_nil _ := rfl
  of_exited_mem h := absurd (List.eq_of_mem_replicate h) nofun

/-- A move keeps the account. -/
theorem Accounted.move {events : List PoolEvent} (hp : Accounted size events p) (h : p.Moves e q) :
    Accounted size (events ++ [e]) q where
  size_eq := h.size_eq.trans hp.size_eq
  length_workers := h.length_workers hp.length_workers
  left_append_queue := h.left_append_queue hp.left_append_queue
  length_queue_le := h.length_queue_le hp.length_queue_le
  count_left call := h.count_left call (hp.count_left call)
  count_started call := h.count_started call (hp.count_started call)
  count_entered_le call := by
    have hbefore := hp.count_entered_le call
    have hnow := h.count_entered_le call
    have hsubmitted : [e].filterMap PoolEvent.submitted? = e.submitted?.toList := by
      rw [List.filterMap_cons]
      cases e.submitted? <;> rfl
    rw [List.filterMap_append, List.count_append, hsubmitted]
    omega
  blocked_eq_nil := h.blocked_eq_nil hp.blocked_eq_nil
  of_exited_mem := h.of_exited_mem hp.blocked_eq_nil hp.of_exited_mem

/-- Every run keeps the account. -/
theorem accounted_of_run {events : List PoolEvent} (h : (new size).run events = some p) :
    Accounted size events p := by
  induction events using List.reverseRecOn generalizing p with
  | nil =>
    cases h
    exact accounted_new size
  | append_singleton events e ih =>
    rw [run, foldlM_append_singleton] at h
    obtain ⟨q, hq, hstep⟩ := Option.bind_eq_some_iff.mp h
    exact (ih hq).move (moves_of_step hstep)

/-! ## How calls come in -/

/-- In a run, a call was submitted while the pool accepted calls. -/
def Accepted (size : Nat) (events : List PoolEvent) (call : CallId) : Prop :=
  Happened step (new size) events fun q e => e = .submit call ∧ q.accepts = true

/-- A call entered or waits for space if it did before, or if it is submitted now to an open queue. -/
theorem Moves.mem_entered_append_blocked (h : p.Moves e q) (call : CallId) :
    call ∈ q.entered ++ q.blocked ↔
      call ∈ p.entered ++ p.blocked ∨ e = .submit call ∧ p.accepts = true := by
  cases h with
  | refused hclosed =>
    have hrefuses : p.accepts ≠ true := by
      rw [accepts, hclosed]
      decide
    exact ⟨.inl, fun hmem => hmem.resolve_right fun hsubmitted => hrefuses hsubmitted.2⟩
  | @entered c hopen =>
    change call ∈ p.entered ++ [c] ++ p.blocked ↔ _
    have haccepts : p.accepts = true := hopen
    simp only [List.mem_append, List.mem_singleton, PoolEvent.submit.injEq, haccepts, and_true,
      eq_comm (a := c), or_right_comm]
  | @waits c hopen =>
    change call ∈ p.entered ++ (p.blocked ++ [c]) ↔ _
    have haccepts : p.accepts = true := hopen
    simp only [List.mem_append, List.mem_singleton, PoolEvent.submit.injEq, haccepts, and_true,
      eq_comm (a := c), or_assoc]
  | @unblocked position c hwaits =>
    obtain ⟨hlt, rfl⟩ := List.getElem?_eq_some_iff.mp hwaits
    have hblocked := (List.getElem_cons_eraseIdx_perm hlt).mem_iff (a := call)
    change call ∈ p.entered ++ [p.blocked[position]] ++ p.blocked.eraseIdx position ↔ _
    rw [List.append_assoc, List.singleton_append, List.mem_append, List.mem_append, hblocked]
    simp only [reduceCtorEq, false_and, or_false]
  | _ => exact (or_iff_left (fun hsubmitted => PoolEvent.noConfusion hsubmitted.1)).symm

/-- In every state that a run leads to, the calls that entered the queue or wait for space are those that
were submitted while the pool accepted calls. -/
theorem mem_entered_append_blocked {events : List PoolEvent} (h : (new size).run events = some p)
    (call : CallId) : call ∈ p.entered ++ p.blocked ↔ Accepted size events call :=
  iff_happened (Q := fun p => call ∈ p.entered ++ p.blocked) (List.not_mem_nil)
    (fun _ hstep => (moves_of_step hstep).mem_entered_append_blocked call) h

/-! ## How calls end -/

/-- A call ends by an event: it runs to its end or into a panic, or the worker that has taken it finds the
closed flag set and drops it. -/
inductive Ends (p : Pool) : PoolEvent → CallId → CallEnd → Prop
  | value {worker : Nat} {call : CallId} (hruns : p.workers[worker]? = some (.running call)) :
      Ends p (.finish worker false) call .value
  | panicked {worker : Nat} {call : CallId} (hruns : p.workers[worker]? = some (.running call)) :
      Ends p (.finish worker true) call .panicked
  | dropped {worker : Nat} {call : CallId} (hholds : p.workers[worker]? = some (.holding call))
      (hclosed : p.closed = true) : Ends p (.start worker) call .dropped

/-- In a run, there was an event by which a call ended. -/
def Ended (size : Nat) (events : List PoolEvent) (call : CallId) (how : CallEnd) : Prop :=
  ∃ before e after q, events = before ++ e :: after ∧ (new size).run before = some q ∧ Ends q e call how

/-- A noted end was noted before or is the end of a call now. -/
theorem Moves.mem_ends {call : CallId} {how : CallEnd} (h : p.Moves e q) (hmem : (call, how) ∈ q.ends) :
    (call, how) ∈ p.ends ∨ p.Ends e call how := by
  cases h with
  | dropped hholds hclosed =>
    rcases List.mem_append.mp hmem with hmem | hmem
    · exact .inl hmem
    · cases List.mem_singleton.mp hmem
      exact .inr (.dropped hholds hclosed)
  | finished panicked hruns =>
    rcases List.mem_append.mp hmem with hmem | hmem
    · exact .inl hmem
    · cases List.mem_singleton.mp hmem
      cases panicked with
      | false => exact .inr (.value hruns)
      | true => exact .inr (.panicked hruns)
  | _ => exact .inl hmem

/-- Every end that a run notes happened in it. -/
theorem ended_of_mem {events : List PoolEvent} {call : CallId} {how : CallEnd}
    (h : (new size).run events = some p) (hmem : (call, how) ∈ p.ends) : Ended size events call how := by
  induction events using List.reverseRecOn generalizing p with
  | nil =>
    cases h
    contradiction
  | append_singleton events e ih =>
    rw [run, foldlM_append_singleton] at h
    obtain ⟨q, hq, hstep⟩ := Option.bind_eq_some_iff.mp h
    rcases (moves_of_step hstep).mem_ends hmem with hmem | hends
    · exact (happened_append_singleton hq e _).mpr (.inl (ih hq hmem))
    · exact (happened_append_singleton hq e _).mpr (.inr hends)

/-- The calls that ended in a way are noted with it. -/
theorem mem_endedAs {call : CallId} {how : CallEnd} : call ∈ p.endedAs how ↔ (call, how) ∈ p.ends := by
  rw [endedAs, List.mem_map]
  constructor
  · rintro ⟨⟨c, h⟩, hmem, rfl⟩
    obtain ⟨hends, hhow⟩ := List.mem_filter.mp hmem
    obtain rfl : h = how := eq_of_beq hhow
    exact hends
  · intro hmem
    exact ⟨_, List.mem_filter.mpr ⟨hmem, beq_self_eq_true how⟩, rfl⟩

/-- A completion is empty as long as no end of its call is noted, and then shows a noted end. -/
theorem completion_cases (p : Pool) (call : CallId) :
    (p.completion call = .empty ∧ ∀ how, (call, how) ∉ p.ends) ∨
    ∃ how, (call, how) ∈ p.ends ∧ p.completion call = how.completion := by
  unfold completion
  split
  next c how hfind =>
    have hcall := List.find?_some hfind
    obtain rfl : c = call := eq_of_beq hcall
    exact .inr ⟨how, List.mem_of_find?_eq_some hfind, rfl⟩
  next hfind =>
    refine .inl ⟨rfl, fun how hmem => ?_⟩
    exact List.find?_eq_none.mp hfind _ hmem (beq_self_eq_true call)

/-- A value was left by a call that ran to its end. -/
theorem ended_of_receive_value {events : List PoolEvent} {call : CallId}
    (h : (new size).run events = some p) (hvalue : (p.completion call).receive.1 = .value ()) :
    Ended size events call .value := by
  rcases p.completion_cases call with ⟨hempty, -⟩ | ⟨how, hmem, hcompletion⟩
  · rw [hempty] at hvalue
    contradiction
  · rw [hcompletion] at hvalue
    cases how with
    | value => exact ended_of_mem h hmem
    | panicked => contradiction
    | dropped => contradiction

/-- A completion without a value is left by a call that panicked or was dropped. -/
theorem ended_of_receive_disconnected {events : List PoolEvent} {call : CallId}
    (h : (new size).run events = some p) (hclosed : (p.completion call).receive.1 = .disconnected) :
    Ended size events call .panicked ∨ Ended size events call .dropped := by
  rcases p.completion_cases call with ⟨hempty, -⟩ | ⟨how, hmem, hcompletion⟩
  · rw [hempty] at hclosed
    contradiction
  · rw [hcompletion] at hclosed
    cases how with
    | value => contradiction
    | panicked => exact .inl (ended_of_mem h hmem)
    | dropped => exact .inr (ended_of_mem h hmem)

/-! ## The pool -/

namespace Accounted

variable {events : List PoolEvent}

/-- A call that entered the queue is counted in all places together as often as it entered. -/
theorem places_perm (h : Accounted size events p) :
    (p.queue ++ p.held ++ p.running ++ p.executed ++ p.endedAs .dropped).Perm p.entered := by
  rw [List.perm_iff_count]
  intro call
  have hleft := h.count_left call
  have hstarted := h.count_started call
  rw [← h.left_append_queue]
  simp only [List.count_append]
  omega

/-- A call that is submitted once enters once or waits once. -/
theorem nodup_entered_append_blocked (h : Accounted size events p)
    (hdistinct : (events.filterMap PoolEvent.submitted?).Nodup) : (p.entered ++ p.blocked).Nodup := by
  rw [List.nodup_iff_count_le_one] at hdistinct ⊢
  intro call
  rw [List.count_append]
  exact Nat.le_trans (h.count_entered_le call) (hdistinct call)

/-- Where all workers have exited, nothing is left to do. -/
theorem nothing_left (h : Accounted size events p) (hexited : ∀ state ∈ p.workers, state = .exited) :
    p.queue = [] ∧ p.blocked = [] ∧
      ∀ call? : WorkerState → Option CallId, call? .exited = none → p.workers.filterMap call? = [] := by
  have hlength : p.workers ≠ [] := by
    intro hnil
    have hzero := h.length_workers
    rw [hnil, List.length_nil, h.size_eq] at hzero
    omega
  obtain ⟨state, hmem⟩ := List.exists_mem_of_ne_nil _ hlength
  have hone : .exited ∈ p.workers := hexited state hmem ▸ hmem
  obtain ⟨hclosed, hqueue⟩ := h.of_exited_mem hone
  refine ⟨hqueue, h.blocked_eq_nil hclosed, fun call? hnone => ?_⟩
  rw [List.filterMap_eq_nil_iff]
  intro state hmem
  rw [hexited state hmem, hnone]

/-- Where all workers have exited, every call that entered the queue is resolved. -/
theorem resolved (h : Accounted size events p) (hexited : ∀ state ∈ p.workers, state = .exited)
    {call : CallId} (hcall : call ∈ p.entered) : (p.completion call).receive.1 ≠ .nothing := by
  obtain ⟨hqueue, -, hworkers⟩ := h.nothing_left hexited
  -- no place is left but the ends, and an end is seen in the completion
  have hplace := h.places_perm.mem_iff.mpr hcall
  rw [hqueue, held, running, hworkers WorkerState.held? rfl, hworkers WorkerState.running? rfl,
    List.nil_append, List.nil_append, List.nil_append, executed, List.mem_append, List.mem_append,
    mem_endedAs, mem_endedAs, mem_endedAs] at hplace
  rcases p.completion_cases call with ⟨-, hnone⟩ | ⟨how, -, hcompletion⟩
  · rcases hplace with (hmem | hmem) | hmem
    · exact absurd hmem (hnone _)
    · exact absurd hmem (hnone _)
    · exact absurd hmem (hnone _)
  · rw [hcompletion]
    cases how with
    | value => decide
    | panicked => decide
    | dropped => decide

end Accounted

/-- A pool resolves every call once and in the order of the queue, whatever takes part and however it
interleaves. In every state that a run leads to, each call that was submitted while the pool accepted
calls has entered the queue or waits for space, and no other call has. Each call that entered stands in one
place: in the queue, held or running with one worker, executed, or dropped; calls were started once if they
are running or executed, and not at all otherwise. Calls left the queue in the order in which they entered it,
and the queue holds at most four calls for each worker. A completion gives a value only for a call that
ran to its end, and disconnects only for one that panicked or was dropped behind the closed flag. Where all
workers have exited, nothing is unresolved. -/
theorem resolves_every_call_once (size : Nat) (events : List PoolEvent) (p : Pool)
    (hrun : (new size).run events = some p)
    (hdistinct : (events.filterMap PoolEvent.submitted?).Nodup) :
    ((∀ call, call ∈ p.entered ++ p.blocked ↔ Accepted size events call) ∧
      (p.entered ++ p.blocked).Nodup) ∧
    ((p.queue ++ p.held ++ p.running ++ p.executed ++ p.endedAs .dropped).Perm p.entered ∧
      (p.queue ++ p.held ++ p.running ++ p.executed ++ p.endedAs .dropped).Nodup ∧
      p.started.Perm (p.running ++ p.executed)) ∧
    (p.left ++ p.queue = p.entered ∧ p.queue.length ≤ 4 * max size 1) ∧
    (∀ call,
      ((p.completion call).receive.1 = .value () → Ended size events call .value) ∧
      ((p.completion call).receive.1 = .disconnected →
        Ended size events call .panicked ∨ Ended size events call .dropped)) ∧
    ((∀ state ∈ p.workers, state = .exited) →
      p.pending = [] ∧ ∀ call ∈ p.entered, (p.completion call).receive.1 ≠ .nothing) := by
  have h := accounted_of_run hrun
  have hnodup := h.nodup_entered_append_blocked hdistinct
  refine ⟨⟨mem_entered_append_blocked hrun, hnodup⟩, ⟨h.places_perm, ?_, ?_⟩,
    ⟨h.left_append_queue, ?_⟩, ?_, ?_⟩
  · exact h.places_perm.nodup_iff.mpr (List.nodup_append.mp hnodup).1
  · rw [List.perm_iff_count]
    intro call
    rw [List.count_append, h.count_started]
  · have hroom := h.length_queue_le
    rw [capacity, h.size_eq, slotsPerWorker] at hroom
    omega
  · exact fun call => ⟨ended_of_receive_value hrun, ended_of_receive_disconnected hrun⟩
  · intro hexited
    obtain ⟨hqueue, hblocked, hworkers⟩ := h.nothing_left hexited
    refine ⟨?_, fun call => h.resolved hexited⟩
    rw [pending, hqueue, hblocked, hworkers WorkerState.call? rfl]
    rfl

/-- A run of one worker: its first call panics, the second runs to its end although the pool is shut down
meanwhile, and the third is dropped. -/
def shutDownRun : List PoolEvent :=
  [.submit 1, .submit 2, .take 0, .start 0, .finish 0 true, .submit 3, .take 0, .start 0, .shutdown,
    .finish 0 false, .take 0, .start 0, .closeQueue 0, .submit 4, .exit 0, .collectWorkers 0, .return 0]

/-- The pool that it leads to. -/
def shutDown : Pool where
  size := 1
  closed := true
  queueOpen := false
  workers := [.exited]
  unjoined := []
  shutdowns := [.returned]
  entered := [1, 2, 3]
  left := [1, 2, 3]
  started := [1, 2]
  ends := [(1, .panicked), (2, .value), (3, .dropped)]

/-- Such a run resolves each of its calls, in three ways; the call that came too late never entered. -/
theorem shutDownRun_resolves :
    (new 1).run shutDownRun = some shutDown ∧
    (Accepted 1 shutDownRun 3 ∧ ¬Accepted 1 shutDownRun 4) ∧
    (shutDown.executed ++ shutDown.endedAs .dropped).Perm [1, 2, 3] ∧
    Ended 1 shutDownRun 2 .value ∧
    (Ended 1 shutDownRun 3 .panicked ∨ Ended 1 shutDownRun 3 .dropped) ∧
    ∀ call ∈ [1, 2, 3], (shutDown.completion call).receive.1 ≠ .nothing := by
  have hrun : (new 1).run shutDownRun = some shutDown := by decide
  obtain ⟨⟨haccepted, -⟩, ⟨hplaces, -, -⟩, -, hends, hexited⟩ :=
    resolves_every_call_once 1 shutDownRun shutDown hrun (by decide)
  refine ⟨hrun, ⟨(haccepted 3).mp (by decide), fun hfour => ?_⟩, hplaces, (hends 2).1 rfl,
    (hends 3).2 rfl, (hexited (by decide)).2⟩
  exact absurd ((haccepted 4).mpr hfour) (by decide)

end CBind.Pool
