import CBind.Call.Pool
import Mathlib.Data.List.Perm.Basic
import Mathlib.Data.List.Count
import Mathlib.Data.List.Induction

/-!
# What a pool can do in one step

Each event of a pool is possible in few situations and changes little. Everything about runs of a pool is
shown by induction on the run, with one case for each of these situations.

A call is counted where it stands: in the queue, with a worker, or in a log. One worker at a time gets
another state, so the calls that workers have change by what that worker had and has.
-/

namespace CBind

/-- A run is extended by one more event at its end. -/
theorem foldlM_append_singleton {σ ε : Type} (step : σ → ε → Option σ) (s : σ) (events : List ε) (e : ε) :
    (events ++ [e]).foldlM step s = (events.foldlM step s).bind (step · e) := by
  rw [List.foldlM_append]
  cases events.foldlM step s with
  | none => rfl
  | some t => exact bind_pure (step t e)

/-- In a run, an event happened in a state, and both are in a relation. -/
def Happened {σ ε : Type} (step : σ → ε → Option σ) (s : σ) (events : List ε) (P : σ → ε → Prop) : Prop :=
  ∃ before e after t, events = before ++ e :: after ∧ before.foldlM step s = some t ∧ P t e

/-- In a run with one more event, that event or an earlier one happened. -/
theorem happened_append_singleton {σ ε : Type} {step : σ → ε → Option σ} {s t : σ} {events : List ε}
    (h : events.foldlM step s = some t) (e : ε) (P : σ → ε → Prop) :
    Happened step s (events ++ [e]) P ↔ Happened step s events P ∨ P t e := by
  constructor
  · rintro ⟨before, e', after, u, hevents, hbefore, hP⟩
    rcases List.eq_nil_or_concat after with rfl | ⟨after, last, rfl⟩
    · obtain ⟨rfl, heq⟩ := List.append_inj' hevents rfl
      obtain rfl := List.singleton_inj.mp heq
      obtain rfl := Option.some.inj (h.symm.trans hbefore)
      exact .inr hP
    · rw [List.concat_eq_append, ← List.cons_append, ← List.append_assoc] at hevents
      obtain ⟨rfl, -⟩ := List.append_inj' hevents rfl
      exact .inl ⟨before, e', after, u, rfl, hbefore, hP⟩
  · rintro (⟨before, e', after, u, rfl, hbefore, hP⟩ | hP)
    · exact ⟨before, e', after ++ [e], u, by simp, hbefore, hP⟩
    · exact ⟨events, e, [], t, rfl, h, hP⟩

/-- What is so exactly from an event on is so in the end exactly if the event happened. -/
theorem iff_happened {σ ε : Type} {step : σ → ε → Option σ} {s t : σ} {events : List ε}
    {P : σ → ε → Prop} {Q : σ → Prop} (hnew : ¬Q s)
    (hstep : ∀ {before : List ε} {t u : σ} {e : ε}, before.foldlM step s = some t → step t e = some u →
      (Q u ↔ Q t ∨ P t e))
    (h : events.foldlM step s = some t) : Q t ↔ Happened step s events P := by
  induction events using List.reverseRecOn generalizing t with
  | nil =>
    cases h
    refine ⟨fun hQ => absurd hQ hnew, ?_⟩
    rintro ⟨before, e, after, u, hnil, -⟩
    exact absurd hnil.symm (List.append_ne_nil_of_right_ne_nil before (List.cons_ne_nil _ after))
  | append_singleton events e ih =>
    rw [foldlM_append_singleton] at h
    obtain ⟨u, hu, he⟩ := Option.bind_eq_some_iff.mp h
    rw [hstep hu he, ih hu, happened_append_singleton hu]

/-- The call that a worker has taken and not started. -/
def WorkerState.held? : WorkerState → Option CallId
  | .holding call => some call
  | _ => none

/-- The call that a worker is running. -/
def WorkerState.running? : WorkerState → Option CallId
  | .running call => some call
  | _ => none

/-- The call that an event submits. -/
def PoolEvent.submitted? : PoolEvent → Option CallId
  | .submit call => some call
  | _ => none

/-- What is submitted is submitted by that event. -/
theorem PoolEvent.eq_submit {e : PoolEvent} {call : CallId} (h : e.submitted? = some call) :
    e = .submit call := by
  cases e <;> cases h
  rfl

namespace Pool

/-- Everything that a pool can do in one step, with the situation in which it can. -/
inductive Moves (p : Pool) : PoolEvent → Pool → Prop
  | refused {call : CallId} (hclosed : p.queueOpen = false) : Moves p (.submit call) p
  | entered {call : CallId} (hopen : p.queueOpen = true) (hroom : p.queue.length < p.capacity) :
      Moves p (.submit call) (p.enqueue call)
  | waits {call : CallId} (hopen : p.queueOpen = true) (hfull : p.capacity ≤ p.queue.length) :
      Moves p (.submit call) { p with blocked := p.blocked ++ [call] }
  | unblocked {position : Nat} {call : CallId} (hwaits : p.blocked[position]? = some call)
      (hroom : p.queue.length < p.capacity) :
      Moves p (.unblock position) { p.enqueue call with blocked := p.blocked.eraseIdx position }
  | taken {worker : Nat} {call : CallId} {rest : List CallId} (hidle : p.workers[worker]? = some .idle)
      (hqueue : p.queue = call :: rest) :
      Moves p (.take worker)
        { p.setWorker worker (.holding call) with queue := rest, left := p.left ++ [call] }
  | dropped {worker : Nat} {call : CallId} (hholds : p.workers[worker]? = some (.holding call))
      (hclosed : p.closed = true) :
      Moves p (.start worker) ((p.setWorker worker .idle).resolve call .dropped)
  | started {worker : Nat} {call : CallId} (hholds : p.workers[worker]? = some (.holding call))
      (hopen : p.closed = false) :
      Moves p (.start worker)
        { p.setWorker worker (.running call) with started := p.started ++ [call] }
  | finished {worker : Nat} {call : CallId} (panicked : Bool)
      (hruns : p.workers[worker]? = some (.running call)) :
      Moves p (.finish worker panicked)
        ((p.setWorker worker .idle).resolve call (if panicked then .panicked else .value))
  | exited {worker : Nat} (hidle : p.workers[worker]? = some .idle) (hqueue : p.queue = [])
      (hclosed : p.queueOpen = false) :
      Moves p (.exit worker) (p.setWorker worker .exited)
  | flagged : Moves p .shutdown { p with closed := true, shutdowns := p.shutdowns ++ [.flagged] }
  | queueClosed {caller : Nat} (hphase : p.shutdowns[caller]? = some .flagged)
      (hblocked : p.blocked = []) :
      Moves p (.closeQueue caller) { p.setShutdown caller .queueClosed with queueOpen := false }
  | collected {caller : Nat} (hphase : p.shutdowns[caller]? = some .queueClosed) :
      Moves p (.collectWorkers caller)
        { p.setShutdown caller (.joining p.unjoined) with unjoined := [] }
  | returned {caller : Nat} {workers : List Nat} (hphase : p.shutdowns[caller]? = some (.joining workers))
      (hexited : workers.all p.hasExited = true) :
      Moves p (.return caller) (p.setShutdown caller .returned)

variable {p q : Pool} {e : PoolEvent}

/-- A step is one of the moves. -/
theorem moves_of_step (h : p.step e = some q) : p.Moves e q := by
  cases e with
  | submit call =>
    simp only [step] at h
    split at h
    next hclosed =>
      cases h
      exact .refused (by simpa using hclosed)
    next hopen =>
      have hopen : p.queueOpen = true := by simpa using hopen
      split at h
      next hroom =>
        cases h
        exact .entered hopen hroom
      next hfull =>
        cases h
        exact .waits hopen (by omega)
  | unblock position =>
    simp only [step] at h
    split at h
    next call hwaits =>
      split at h
      next hroom =>
        cases h
        exact .unblocked hwaits hroom
      next => contradiction
    next => contradiction
  | take worker =>
    simp only [step] at h
    split at h
    next call rest hidle hqueue =>
      cases h
      exact .taken hidle hqueue
    next => contradiction
  | start worker =>
    simp only [step] at h
    split at h
    next call hholds =>
      split at h
      next hclosed =>
        cases h
        exact .dropped hholds hclosed
      next hopen =>
        cases h
        exact .started hholds (by simpa using hopen)
    next => contradiction
  | finish worker panicked =>
    simp only [step] at h
    split at h
    next call hruns =>
      cases h
      exact .finished panicked hruns
    next => contradiction
  | exit worker =>
    simp only [step] at h
    split at h
    next hidle =>
      split at h
      next hdone =>
        cases h
        obtain ⟨hqueue, hclosed⟩ : p.queue = [] ∧ p.queueOpen = false := by simpa using hdone
        exact .exited hidle hqueue hclosed
      next => contradiction
    next => contradiction
  | shutdown =>
    cases h
    exact .flagged
  | closeQueue caller =>
    simp only [step] at h
    split at h
    next hphase =>
      split at h
      next hblocked =>
        cases h
        exact .queueClosed hphase (by simpa using hblocked)
      next => contradiction
    next => contradiction
  | collectWorkers caller =>
    simp only [step] at h
    split at h
    next hphase =>
      cases h
      exact .collected hphase
    next => contradiction
  | «return» caller =>
    simp only [step] at h
    split at h
    next workers hphase =>
      split at h
      next hexited =>
        cases h
        exact .returned hphase hexited
      next => contradiction
    next => contradiction

/-- The calls that workers have taken and not started. -/
def held (p : Pool) : List CallId :=
  p.workers.filterMap WorkerState.held?

/-- The calls that workers are running. -/
def running (p : Pool) : List CallId :=
  p.workers.filterMap WorkerState.running?

/-- The calls that ended in a way. -/
def endedAs (p : Pool) (how : CallEnd) : List CallId :=
  (p.ends.filter (·.2 == how)).map (·.1)

/-- The calls that were run, to their end or into a panic. -/
def executed (p : Pool) : List CallId :=
  p.endedAs .value ++ p.endedAs .panicked

/-- What workers have is what the first one and the others have. -/
theorem count_filterMap_cons (call? : WorkerState → Option CallId) (state : WorkerState)
    (workers : List WorkerState) (call : CallId) :
    ((state :: workers).filterMap call?).count call =
      (call? state).toList.count call + (workers.filterMap call?).count call := by
  rw [List.filterMap_cons, ← List.count_append]
  cases call? state <;> rfl

/-- A worker that gets another state changes what workers have by what it had and has. -/
theorem count_filterMap_set {workers : List WorkerState} {worker : Nat} {state : WorkerState}
    (h : workers[worker]? = some state) (call? : WorkerState → Option CallId) (next : WorkerState)
    (call : CallId) :
    ((workers.set worker next).filterMap call?).count call + (call? state).toList.count call =
      (workers.filterMap call?).count call + (call? next).toList.count call := by
  obtain ⟨hlt, rfl⟩ := List.getElem?_eq_some_iff.mp h
  have hbefore := ((List.getElem_cons_eraseIdx_perm hlt).filterMap call?).count_eq call
  have hafter := ((List.set_perm_cons_eraseIdx hlt next).filterMap call?).count_eq call
  rw [count_filterMap_cons] at hbefore hafter
  omega

/-- What a worker has taken and not started changes with its state. -/
theorem count_held_setWorker {worker : Nat} {state : WorkerState} (h : p.workers[worker]? = some state)
    (next : WorkerState) (call : CallId) :
    (p.setWorker worker next).held.count call + state.held?.toList.count call =
      p.held.count call + next.held?.toList.count call :=
  count_filterMap_set h WorkerState.held? next call

/-- What a worker is running changes with its state. -/
theorem count_running_setWorker {worker : Nat} {state : WorkerState} (h : p.workers[worker]? = some state)
    (next : WorkerState) (call : CallId) :
    (p.setWorker worker next).running.count call + state.running?.toList.count call =
      p.running.count call + next.running?.toList.count call :=
  count_filterMap_set h WorkerState.running? next call

/-- A call is noted under the way in which it ended. -/
theorem endedAs_resolve (p : Pool) (call : CallId) (how other : CallEnd) :
    (p.resolve call how).endedAs other = p.endedAs other ++ if how = other then [call] else [] := by
  rw [endedAs, endedAs, resolve, List.filter_append, List.map_append]
  cases how <;> cases other <;> rfl

/-- A call that ran to its end or into a panic counts as executed. -/
theorem count_executed_finished (p : Pool) (c : CallId) (panicked : Bool) (call : CallId) :
    (p.resolve c (if panicked then .panicked else .value)).executed.count call =
      p.executed.count call + [c].count call := by
  rw [executed, executed, List.count_append, List.count_append, endedAs_resolve, endedAs_resolve,
    List.count_append, List.count_append]
  cases panicked with
  | false =>
    change (_ + [c].count call) + (_ + 0) = _
    omega
  | true =>
    change (_ + 0) + (_ + [c].count call) = _
    omega

/-- A call that ran was not dropped. -/
theorem dropped_finished (p : Pool) (c : CallId) (panicked : Bool) :
    (p.resolve c (if panicked then .panicked else .value)).endedAs .dropped = p.endedAs .dropped := by
  rw [endedAs_resolve]
  cases panicked with
  | false => exact List.append_nil _
  | true => exact List.append_nil _

/-- The calls that workers have taken and not resolved. -/
def withWorkers (p : Pool) : List CallId :=
  p.workers.filterMap WorkerState.call?

/-- What a worker has changes with its state. -/
theorem count_withWorkers_setWorker {worker : Nat} {state : WorkerState}
    (h : p.workers[worker]? = some state) (next : WorkerState) (call : CallId) :
    (p.setWorker worker next).withWorkers.count call + state.call?.toList.count call =
      p.withWorkers.count call + next.call?.toList.count call :=
  count_filterMap_set h WorkerState.call? next call

/-- An unresolved call is counted where it waits. -/
theorem count_pending (p : Pool) (call : CallId) :
    p.pending.count call =
      p.queue.count call + p.blocked.count call + p.withWorkers.count call := by
  rw [pending, List.count_append, List.count_append]
  rfl

/-- A step that submits nothing notes the ends of some calls; the unresolved calls are these and those that
remain. -/
theorem Moves.exists_ended (h : p.Moves e q) (hsubmitted : e.submitted? = none) :
    ∃ ended, q.ends = p.ends ++ ended ∧
      ∀ call, p.queue.count call + p.blocked.count call + p.withWorkers.count call =
        (ended.map (·.1)).count call +
          (q.queue.count call + q.blocked.count call + q.withWorkers.count call) := by
  cases h with
  | refused | entered | waits => contradiction
  | @unblocked position c hwaits _ =>
    refine ⟨[], (List.append_nil _).symm, fun call => ?_⟩
    obtain ⟨hlt, rfl⟩ := List.getElem?_eq_some_iff.mp hwaits
    have hblocked := (List.getElem_cons_eraseIdx_perm hlt).count_eq call
    rw [← List.singleton_append, List.count_append] at hblocked
    change _ = 0 + ((p.queue ++ [p.blocked[position]]).count call +
      (p.blocked.eraseIdx position).count call + p.withWorkers.count call)
    rw [List.count_append]
    omega
  | @taken worker c rest hidle hqueue =>
    refine ⟨[], (List.append_nil _).symm, fun call => ?_⟩
    have hworkers : (p.setWorker worker (.holding c)).withWorkers.count call + 0 =
        p.withWorkers.count call + [c].count call := count_withWorkers_setWorker hidle _ call
    rw [hqueue, ← List.singleton_append, List.count_append]
    change _ = 0 + (rest.count call + p.blocked.count call +
      (p.setWorker worker (.holding c)).withWorkers.count call)
    omega
  | @dropped worker c hholds _ =>
    refine ⟨[(c, .dropped)], rfl, fun call => ?_⟩
    have hworkers : (p.setWorker worker .idle).withWorkers.count call + [c].count call =
        p.withWorkers.count call + 0 := count_withWorkers_setWorker hholds _ call
    change _ = [c].count call + (p.queue.count call + p.blocked.count call +
      (p.setWorker worker .idle).withWorkers.count call)
    omega
  | @started worker c hholds _ =>
    refine ⟨[], (List.append_nil _).symm, fun call => ?_⟩
    have hworkers : (p.setWorker worker (.running c)).withWorkers.count call + [c].count call =
        p.withWorkers.count call + [c].count call := count_withWorkers_setWorker hholds _ call
    change _ = 0 + (p.queue.count call + p.blocked.count call +
      (p.setWorker worker (.running c)).withWorkers.count call)
    omega
  | @finished worker c panicked hruns =>
    refine ⟨[(c, if panicked then .panicked else .value)], rfl, fun call => ?_⟩
    have hworkers : (p.setWorker worker .idle).withWorkers.count call + [c].count call =
        p.withWorkers.count call + 0 := count_withWorkers_setWorker hruns _ call
    change _ = [c].count call + (p.queue.count call + p.blocked.count call +
      (p.setWorker worker .idle).withWorkers.count call)
    omega
  | @exited worker hidle _ _ =>
    refine ⟨[], (List.append_nil _).symm, fun call => ?_⟩
    have hworkers : (p.setWorker worker .exited).withWorkers.count call + 0 =
        p.withWorkers.count call + 0 := count_withWorkers_setWorker hidle _ call
    change _ = 0 + (p.queue.count call + p.blocked.count call +
      (p.setWorker worker .exited).withWorkers.count call)
    omega
  | flagged | queueClosed | collected | returned =>
    exact ⟨[], (List.append_nil _).symm, fun call => (Nat.zero_add _).symm⟩

/-- Where nothing is submitted, the unresolved calls are those that end now and those that remain. -/
theorem Moves.pending_perm (h : p.Moves e q) (hsubmitted : e.submitted? = none) :
    p.pending.Perm (p.endedSince q ++ q.pending) := by
  obtain ⟨ended, hends, hcount⟩ := h.exists_ended hsubmitted
  rw [List.perm_iff_count, endedSince, hends, List.drop_left]
  intro call
  rw [List.count_append, count_pending, count_pending]
  exact hcount call

/-- An open pool takes every call that is submitted, which is then unresolved. -/
theorem exists_step_submit (haccepts : p.accepts = true) (call : CallId) :
    ∃ q, p.step (.submit call) = some q ∧ q.pending.Perm (call :: p.pending) := by
  have hopen : ¬(!p.queueOpen) = true := by
    rw [show p.queueOpen = true from haccepts]
    decide
  have hpending (c : CallId) : (call :: p.pending).count c = [call].count c + p.pending.count c := by
    rw [← List.count_append, List.singleton_append]
  rw [step, if_neg hopen]
  split
  · refine ⟨_, rfl, List.perm_iff_count.mpr fun c => ?_⟩
    rw [hpending, count_pending, count_pending]
    change (p.queue ++ [call]).count c + p.blocked.count c + p.withWorkers.count c = _
    rw [List.count_append]
    omega
  · refine ⟨_, rfl, List.perm_iff_count.mpr fun c => ?_⟩
    rw [hpending, count_pending, count_pending]
    change p.queue.count c + (p.blocked ++ [call]).count c + p.withWorkers.count c = _
    rw [List.count_append]
    omega

end Pool

end CBind
