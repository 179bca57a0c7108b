import CBind.Proofs.Call.Resolution

/-!
# What has ended when a shutdown returns

A caller of a shutdown waits for the workers that it took, and the first one to come takes them all. A
caller that comes later finds none, waits for nobody and returns, although workers may still be running.
So a shutdown returns behind the last worker exactly if it overtakes no other caller that is still waiting.

Every worker is at any time to be taken, taken by a caller that waits for it, or gone. Where all are gone,
no call runs or will start, and every call that entered the queue is resolved.
-/

namespace CBind.Pool

variable {size : Nat} {p q : Pool} {e : PoolEvent}

/-- All workers have exited. -/
def Stopped (p : Pool) : Prop :=
  ∀ state ∈ p.workers, state = .exited

/-- Some caller of a shutdown waits for a worker that has not exited. -/
def Awaits (p : Pool) : Prop :=
  ∃ workers, .joining workers ∈ p.shutdowns ∧ workers.all p.hasExited = false

/-- Nothing goes on any more: all workers have exited, no call is running or will be started, and the
completion of every call that entered the queue shows how it ended. -/
structure AtRest (p : Pool) : Prop where
  stopped : p.Stopped
  running_eq_nil : p.running = []
  started_eq (events : List PoolEvent) (q : Pool) : p.run events = some q → q.started = p.started
  resolved : ∀ call ∈ p.entered, (p.completion call).receive.1 ≠ .nothing

/-- In a run, each shutdown that returns leaves the pool at rest. -/
def ShutsDownAtRest (size : Nat) (events : List PoolEvent) : Prop :=
  ∀ before caller after q, events = before ++ .return caller :: after →
    (new size).run (before ++ [.return caller]) = some q → q.AtRest

/-- In a run, some shutdown returns while another caller still waits for a worker. -/
def Overtakes (size : Nat) (events : List PoolEvent) : Prop :=
  ∃ before caller after q, events = before ++ .return caller :: after ∧
    (new size).run (before ++ [.return caller]) = some q ∧ q.Awaits

/-! ## Workers that have exited -/

/-- A worker has exited if that is its state. -/
theorem hasExited_iff {worker : Nat} : p.hasExited worker = true ↔ p.workers[worker]? = some .exited :=
  beq_iff_eq

/-- All workers have exited if each of them has. -/
theorem stopped_iff : p.Stopped ↔ ∀ worker < p.workers.length, p.hasExited worker = true := by
  rw [Stopped, List.forall_mem_iff_getElem]
  refine forall₂_congr fun worker hlt => ?_
  rw [hasExited_iff, List.getElem?_eq_getElem hlt, Option.some.injEq]

/-- A worker that has exited is none that gets another state. -/
theorem hasExited_setWorker {worker k : Nat} {state next : WorkerState}
    (hstate : p.workers[worker]? = some state) (hne : state ≠ .exited) (hk : p.hasExited k = true) :
    (p.setWorker worker next).hasExited k = true := by
  rw [hasExited_iff] at hk ⊢
  have hother : worker ≠ k := by
    rintro rfl
    exact hne (Option.some.inj (hstate.symm.trans hk))
  exact (List.getElem?_set_ne hother).trans hk

/-- A worker that has exited stays so. -/
theorem Moves.hasExited (h : p.Moves e q) {k : Nat} (hk : p.hasExited k = true) :
    q.hasExited k = true := by
  cases h with
  | taken hidle | exited hidle => exact hasExited_setWorker hidle nofun hk
  | dropped hholds | started hholds => exact hasExited_setWorker hholds nofun hk
  | finished _ hruns => exact hasExited_setWorker hruns nofun hk
  | _ => exact hk

/-- There are as many workers as before. -/
theorem Moves.length_workers_eq (h : p.Moves e q) : q.workers.length = p.workers.length := by
  cases h with
  | taken | dropped | started | finished | exited => exact List.length_set
  | _ => rfl

/-- Where all workers have exited, they stay so, and nothing is started. -/
theorem Stopped.move (hp : p.Stopped) (h : p.Moves e q) : q.Stopped ∧ q.started = p.started := by
  constructor
  · rw [stopped_iff] at hp ⊢
    rw [h.length_workers_eq]
    exact fun worker hlt => h.hasExited (hp worker hlt)
  · cases h with
    | started hholds => exact absurd (hp _ (List.mem_of_getElem? hholds)) nofun
    | _ => rfl

/-- Where all workers have exited, nothing is ever started again. -/
theorem Stopped.run (hp : p.Stopped) {events : List PoolEvent} (h : p.run events = some q) :
    q.started = p.started := by
  induction events generalizing p with
  | nil =>
    cases h
    rfl
  | cons e events ih =>
    obtain ⟨r, hstep, hrun⟩ := Option.bind_eq_some_iff.mp h
    obtain ⟨hr, hstarted⟩ := hp.move (moves_of_step hstep)
    exact (ih hr hrun).trans hstarted

/-- Where all workers have exited, the pool is at rest. -/
theorem Accounted.atRest {events : List PoolEvent} (h : Accounted size events p) (hp : p.Stopped) :
    p.AtRest where
  stopped := hp
  running_eq_nil := (h.nothing_left hp).2.2 WorkerState.running? rfl
  started_eq _ _ := hp.run
  resolved _ := h.resolved hp

/-! ## Workers that are waited for -/

/-- Every worker is to be taken, taken by a caller that waits for it, or gone; and once a caller has taken
workers, none is left to be taken. -/
structure Shared (p : Pool) : Prop where
  lt_of_unjoined : ∀ worker ∈ p.unjoined, worker < p.workers.length
  lt_of_joining : ∀ workers, .joining workers ∈ p.shutdowns → ∀ worker ∈ workers, worker < p.workers.length
  cases : ∀ worker < p.workers.length, worker ∈ p.unjoined ∨
    (∃ workers, .joining workers ∈ p.shutdowns ∧ worker ∈ workers) ∨ p.hasExited worker = true
  of_joining : ∀ workers, .joining workers ∈ p.shutdowns → p.unjoined = []
  of_returned : .returned ∈ p.shutdowns → p.unjoined = []

/-- All workers of a new pool are to be taken. -/
theorem shared_new (size : Nat) : (new size).Shared where
  lt_of_unjoined worker hworker := by
    rw [new, List.length_replicate]
    exact List.mem_range.mp hworker
  lt_of_joining _ h := absurd h List.not_mem_nil
  cases worker hlt := by
    rw [new, List.length_replicate] at hlt
    exact .inl (List.mem_range.mpr hlt)
  of_joining _ h := absurd h List.not_mem_nil
  of_returned h := absurd h List.not_mem_nil

/-- Where the same callers wait for the same workers, workers may still exit. -/
theorem Shared.congr (hp : p.Shared) (h : p.Moves e q) (hunjoined : q.unjoined = p.unjoined)
    (hjoining : ∀ workers, .joining workers ∈ q.shutdowns ↔ .joining workers ∈ p.shutdowns)
    (hreturned : .returned ∈ q.shutdowns → .returned ∈ p.shutdowns) : q.Shared where
  lt_of_unjoined := by
    rw [hunjoined, h.length_workers_eq]
    exact hp.lt_of_unjoined
  lt_of_joining workers hworkers := by
    rw [h.length_workers_eq]
    exact hp.lt_of_joining workers ((hjoining workers).mp hworkers)
  cases := by
    simp only [hjoining, hunjoined, h.length_workers_eq]
    exact fun worker hlt => (hp.cases worker hlt).imp_right (.imp_right h.hasExited)
  of_joining workers hworkers := hunjoined.trans (hp.of_joining workers ((hjoining workers).mp hworkers))
  of_returned hmem := hunjoined.trans (hp.of_returned (hreturned hmem))

/-- Replacing an element changes nothing about others. -/
theorem mem_set_iff {α : Type} {l : List α} {i : Nat} {a b c : α} (hi : l[i]? = some a) (ha : b ≠ a)
    (hc : b ≠ c) : b ∈ l.set i c ↔ b ∈ l := by
  constructor
  · exact fun hmem => (List.mem_or_eq_of_mem_set hmem).resolve_right hc
  · intro hmem
    obtain ⟨j, hj⟩ := List.mem_iff_getElem?.mp hmem
    have hij : i ≠ j := by
      rintro rfl
      exact ha (Option.some.inj (hj.symm.trans hi))
    exact List.mem_of_getElem? ((List.getElem?_set_ne hij).trans hj)

/-- Every move leaves each worker to be taken, waited for or gone. -/
theorem Shared.move (hp : p.Shared) (h : p.Moves e q) : q.Shared := by
  have hmove := h
  cases h with
  | flagged => exact hp.congr hmove rfl (by simp) (by simp)
  | queueClosed hphase =>
    exact hp.congr hmove rfl (fun _ => mem_set_iff hphase (by simp) (by simp))
      (mem_set_iff hphase (by simp) (by simp)).mp
  | @collected caller hphase =>
    have hsame (workers : List Nat) (hne : workers ≠ p.unjoined) :
        .joining workers ∈ p.shutdowns.set caller (.joining p.unjoined) ↔ .joining workers ∈ p.shutdowns :=
      mem_set_iff hphase (by simp) (hne ∘ ShutdownPhase.joining.inj)
    have hmine : .joining p.unjoined ∈ p.shutdowns.set caller (.joining p.unjoined) :=
      List.mem_set (List.getElem?_eq_some_iff.mp hphase).1 _
    refine ⟨fun _ h => absurd h List.not_mem_nil, fun workers hworkers => ?_, fun worker hlt => ?_,
      fun _ _ => rfl, fun _ => rfl⟩
    · by_cases heq : workers = p.unjoined
      · exact heq ▸ hp.lt_of_unjoined
      · exact hp.lt_of_joining workers ((hsame workers heq).mp hworkers)
    · refine .inr ?_
      rcases hp.cases worker hlt with hmem | ⟨workers, hworkers, hmem⟩ | hexited
      · exact .inl ⟨p.unjoined, hmine, hmem⟩
      · by_cases heq : workers = p.unjoined
        · exact .inl ⟨p.unjoined, hmine, heq ▸ hmem⟩
        · exact .inl ⟨workers, (hsame workers heq).mpr hworkers, hmem⟩
      · exact .inr hexited
  | @returned caller workers hphase hexited =>
    have hold {others : List Nat} (hmem : .joining others ∈ p.shutdowns.set caller .returned) :
        .joining others ∈ p.shutdowns :=
      (List.mem_or_eq_of_mem_set hmem).resolve_right nofun
    have hnone := hp.of_joining workers (List.mem_of_getElem? hphase)
    refine ⟨hp.lt_of_unjoined, fun others hothers => hp.lt_of_joining others (hold hothers),
      fun worker hlt => ?_, fun _ _ => hnone, fun _ => hnone⟩
    rcases hp.cases worker hlt with hmem | ⟨others, hothers, hmem⟩ | hgone
    · exact .inl hmem
    · by_cases heq : others = workers
      · -- the caller that returns has seen these exit
        subst heq
        exact .inr (.inr (List.all_eq_true.mp hexited worker hmem))
      · have hstays := (mem_set_iff (c := .returned) hphase (heq ∘ ShutdownPhase.joining.inj) nofun).mpr hothers
        exact .inr (.inl ⟨others, hstays, hmem⟩)
    · exact .inr (.inr hgone)
  | _ => exact hp.congr hmove rfl (fun _ => Iff.rfl) id

/-- In every run, each worker is to be taken, waited for or gone. -/
theorem shared_of_run {events : List PoolEvent} (h : (new size).run events = some p) : p.Shared := by
  induction events using List.reverseRecOn generalizing p with
  | nil =>
    cases h
    exact shared_new size
  | append_singleton events e ih =>
    rw [run, foldlM_append_singleton] at h
    obtain ⟨q, hq, hstep⟩ := Option.bind_eq_some_iff.mp h
    exact (ih hq).move (moves_of_step hstep)

/-- Once all workers were taken, they have exited exactly if no caller waits for one. -/
theorem Shared.stopped_iff (hp : p.Shared) (hunjoined : p.unjoined = []) : p.Stopped ↔ ¬p.Awaits := by
  rw [Pool.stopped_iff]
  constructor
  · rintro hexited ⟨workers, hjoining, hwaits⟩
    obtain ⟨worker, hmem, hnot⟩ := List.all_eq_false.mp hwaits
    exact hnot (hexited worker (hp.lt_of_joining workers hjoining worker hmem))
  · intro hnone worker hlt
    rcases hp.cases worker hlt with hmem | ⟨workers, hjoining, hmem⟩ | hgone
    · rw [hunjoined] at hmem
      contradiction
    · by_contra hnot
      exact hnone ⟨workers, hjoining, List.all_eq_false.mpr ⟨worker, hmem, hnot⟩⟩
    · exact hgone

/-- A shutdown that has returned leaves the pool at rest exactly if no other caller waits for a worker. -/
theorem atRest_iff {events : List PoolEvent} {caller : Nat}
    (h : (new size).run (events ++ [.return caller]) = some p) : p.AtRest ↔ ¬p.Awaits := by
  have hreturned : .returned ∈ p.shutdowns := by
    rw [run, foldlM_append_singleton] at h
    obtain ⟨q, -, hstep⟩ := Option.bind_eq_some_iff.mp h
    cases moves_of_step hstep with
    | returned hphase =>
      obtain ⟨hlt, -⟩ := List.getElem?_eq_some_iff.mp hphase
      exact List.mem_set hlt _
  have hshared := shared_of_run h
  have hstopped := hshared.stopped_iff (hshared.of_returned hreturned)
  exact ⟨fun hrest => hstopped.mp hrest.stopped,
    fun hnone => (accounted_of_run h).atRest (hstopped.mpr hnone)⟩

/-- Shutdowns are barriers exactly as long as none of them overtakes another. Whatever submitters, workers
and callers do, and in whatever order: each shutdown that returns leaves all workers exited, no call running
or to be started and every call resolved, if and only if no shutdown returns while another caller still waits
for a worker. -/
theorem shutsDownAtRest_iff (size : Nat) (events : List PoolEvent) :
    ShutsDownAtRest size events ↔ ¬Overtakes size events := by
  constructor
  · rintro h ⟨before, caller, after, q, hevents, hrun, hawaits⟩
    exact (atRest_iff hrun).mp (h before caller after q hevents hrun) hawaits
  · intro h before caller after q hevents hrun
    rw [atRest_iff hrun]
    exact fun hawaits => h ⟨before, caller, after, q, hevents, hrun, hawaits⟩

/-- Two callers shut a pool down while its worker runs a call. The first waits for the worker; the second
comes later, finds no worker to wait for and returns. -/
def overtakingRun : List PoolEvent :=
  [.submit 1, .take 0, .start 0, .shutdown, .closeQueue 0, .collectWorkers 0, .shutdown, .closeQueue 1,
    .collectWorkers 1, .return 1]

/-- The second caller returns while the call still runs. -/
theorem overtakingRun_not_atRest : ¬ShutsDownAtRest 1 overtakingRun := by
  intro h
  have hrun : ((new 1).run overtakingRun).map (·.running) = some [1] := by decide
  obtain ⟨q, hq, hrunning⟩ := Option.map_eq_some_iff.mp hrun
  have hrest := (h (overtakingRun.dropLast) 1 [] q rfl hq).running_eq_nil
  rw [hrunning] at hrest
  contradiction

end CBind.Pool
