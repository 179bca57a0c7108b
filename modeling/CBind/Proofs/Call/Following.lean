import CBind.Proofs.Call.Schedule

/-!
# One call in all schedules

Whatever else happens in a workshop, a call that it took is under way until one event ends it: a worker runs
its code to an end, or drops it behind the closed flag. From then on its completion holds what the call left,
until somebody receives it.
-/

namespace CBind

/-- The completion of a call that ended with a value or without one. -/
def Completion.of {α : Type} : Option α → Completion α
  | some a => .holds a
  | none => .closed

namespace Workshop

variable {σ α : Type} {w w' : Workshop σ α} {e : WorkshopEvent σ α} {call : CallId}
  {action : σ → Option α × σ} {outcome : Option α}

/-- A call whose code has not been run to an end. -/
structure Underway (w : Workshop σ α) (call : CallId) (action : σ → Option α × σ) : Prop where
  lt_next : call < w.next
  unresolved : w.pool.Unresolved call
  find?_actions : w.actions.find? (·.1 == call) = some (call, action)
  no_value : ∀ entry ∈ w.values, entry.1 ≠ call

/-- A call that has ended with a value or without one, and whose value nobody has received. -/
structure Done (w : Workshop σ α) (call : CallId) (outcome : Option α) : Prop where
  lt_next : call < w.next
  settled : ∃ how, w.pool.Settled call how
  completion_eq : w.completion call = .of outcome

/-- An event ends a call: a worker finishes it with what its code gives, or drops it. -/
inductive Ends (w : Workshop σ α) (action : σ → Option α × σ) :
    WorkshopEvent σ α → CallId → Option α → Prop
  | finished {worker : Nat} {call : CallId} (hruns : w.pool.workers[worker]? = some (.running call)) :
      Ends w action (.finish worker) call (action w.world).1
  | dropped {worker : Nat} {call : CallId} (hholds : w.pool.workers[worker]? = some (.holding call))
      (hclosed : w.pool.closed = true) : Ends w action (.pool (.start worker)) call none

/-! ## Entries of other calls -/

/-- What is filed under a call is found behind an entry of another. -/
theorem find?_cons_of_ne {β : Type} {c : CallId} (hne : c ≠ call) (b : β) (l : List (CallId × β)) :
    ((c, b) :: l).find? (·.1 == call) = l.find? (·.1 == call) :=
  List.find?_cons_of_neg fun heq => hne (beq_iff_eq.mp heq)

/-- What is filed under a call is found when the entries of another are removed. -/
theorem find?_filter_of_ne {β : Type} {c : CallId} (hne : c ≠ call) (l : List (CallId × β)) :
    (l.filter (·.1 != c)).find? (·.1 == call) = l.find? (·.1 == call) := by
  rw [List.find?_filter]
  congr 1
  funext entry
  by_cases heq : entry.1 = call
  · simp [heq, Ne.symm hne]
  · simp [heq]

/-! ## Under way -/

/-- A call that is under way has left nothing. -/
theorem Underway.completion_eq (hw : w.Underway call action) : w.completion call = .empty := by
  rw [completion, hw.unresolved.completion_eq]

/-- There is nothing to forget of a call that is under way. -/
theorem Underway.forget_eq (hw : w.Underway call action) : w.forget call = w := by
  have hall : w.values.filter (·.1 != call) = w.values :=
    List.filter_eq_self.mpr fun entry hentry => bne_iff_ne.mpr (hw.no_value entry hentry)
  rw [forget, hall]

/-- A call that is under way is pending, and somebody can move. -/
theorem Underway.exists_move {size : Nat} (hw : w.Underway call action) (hsound : w.Sound size) :
    call ∈ w.pool.pending ∧
      ∃ (e : WorkshopEvent σ α) (v : Workshop σ α), e.isMove = true ∧ w.step e = some v := by
  have hpending : call ∈ w.pool.pending :=
    List.count_pos_iff.mp (hw.unresolved.pending_once ▸ Nat.one_pos)
  obtain ⟨_, haccounted⟩ := hsound.accounted
  exact ⟨hpending, Workshop.exists_move (haccounted.able (List.ne_nil_of_mem hpending))⟩

/-- A call that an open workshop takes is under way. -/
theorem underway_enter {size : Nat} (hw : w.Sound size) (hopen : w.pool.queueOpen = true) (gated : Bool)
    (action : σ → Option α × σ) : (w.enter gated action).Underway w.next action := by
  obtain ⟨pool, hpool, hpending, henter⟩ := exists_enter_eq hopen gated action
  rw [henter]
  refine ⟨Nat.lt_succ_self _, ⟨?_, fun how hended => ?_⟩, List.find?_cons_of_pos (beq_self_eq_true w.next),
    fun entry hentry => Nat.ne_of_lt (hw.values_lt entry hentry)⟩
  · have hnew : w.pool.pending.count w.next = 0 :=
      List.count_eq_zero.mpr fun hmem => Nat.lt_irrefl _ (hw.below.of_pending _ hmem)
    rw [hpending.count_eq, List.count_cons_self, hnew]
  · rcases hpool.mem_ends hended with hbefore | hnow
    · exact Nat.lt_irrefl _ (hw.below.of_ended _ how hbefore)
    · cases hnow

/-- The call of a worker that finishes one is not unresolved any more. -/
theorem ne_of_unresolved {worker : Nat} {c : CallId} {panicked : Bool} {p q : Pool}
    (hruns : p.workers[worker]? = some (.running c)) (h : p.Moves (.finish worker panicked) q)
    (hq : q.Unresolved call) : c ≠ call := by
  rintro rfl
  cases h with
  | finished _ hruns' =>
    obtain rfl := WorkerState.running.inj (Option.some.inj (hruns.symm.trans hruns'))
    exact hq.not_ended _ (List.mem_append_right _ List.mem_cons_self)

/-- The completion of a call that ended with a value holds the value that is kept. -/
theorem completion_of_value {a : α} (hsettled : w.pool.Settled call .value)
    (hvalue : w.values.find? (·.1 == call) = some (call, a)) : w.completion call = .holds a := by
  simp only [completion, hsettled.completion_eq, CallEnd.completion, hvalue]

/-- The completion of a call that ended without a value is closed. -/
theorem completion_of_closed {how : CallEnd} (hsettled : w.pool.Settled call how)
    (hclosed : how.completion = .closed) : w.completion call = .closed := by
  rw [completion, hsettled.completion_eq, hclosed]

/-- A worker has one call at a time. -/
theorem eq_of_runs {p : Pool} {worker : Nat} {c d : CallId} (hc : p.workers[worker]? = some (.running c))
    (hd : p.workers[worker]? = some (.running d)) : c = d :=
  WorkerState.running.inj (Option.some.inj (hc.symm.trans hd))

/-- A step leaves a call under way or ends it, and what the call leaves is seen in its completion. -/
theorem Underway.move (hw : w.Underway call action) (h : w.Moves e w') :
    w'.Underway call action ∨ ∃ outcome, w.Ends action e call outcome ∧ w'.Done call outcome := by
  obtain ⟨hlt, hunresolved, haction, hvalues⟩ := hw
  cases h with
  | refused | changed => exact .inl ⟨hlt, hunresolved, haction, hvalues⟩
  | received =>
    exact .inl ⟨hlt, hunresolved, haction, fun entry hentry =>
      hvalues entry (List.mem_of_mem_filter hentry)⟩
  | @submitted gated other _ hopen hpool =>
    have hne : w.next ≠ call := Nat.ne_of_gt hlt
    rcases hunresolved.move hpool (fun h => hne (Option.some.inj h)) with hstays | ⟨how, hends, -⟩
    · exact .inl ⟨Nat.lt_succ_of_lt hlt, hstays, (find?_cons_of_ne hne other _).trans haction, hvalues⟩
    · cases hends
  | @returned worker c other a _ hruns hother hresult hpool =>
    rcases hunresolved.move hpool nofun with hstays | ⟨how, hends, hsettled⟩
    · have hne := ne_of_unresolved hruns hpool hstays
      exact .inl ⟨hlt, hstays, (find?_filter_of_ne hne _).trans haction,
        List.forall_mem_cons.mpr ⟨hne, hvalues⟩⟩
    · cases hends with
      | value hruns' =>
        obtain rfl := eq_of_runs hruns hruns'
        obtain rfl : other = action := (Prod.mk.inj (Option.some.inj (hother.symm.trans haction))).2
        refine .inr ⟨_, .finished hruns, hlt, ⟨_, hsettled⟩, ?_⟩
        rw [hresult]
        exact completion_of_value hsettled (List.find?_cons_of_pos (beq_self_eq_true c))
  | @panicked worker c other _ hruns hother hresult hpool =>
    rcases hunresolved.move hpool nofun with hstays | ⟨how, hends, hsettled⟩
    · have hne := ne_of_unresolved hruns hpool hstays
      exact .inl ⟨hlt, hstays, (find?_filter_of_ne hne _).trans haction, hvalues⟩
    · cases hends with
      | panicked hruns' =>
        obtain rfl := eq_of_runs hruns hruns'
        obtain rfl : other = action := (Prod.mk.inj (Option.some.inj (hother.symm.trans haction))).2
        refine .inr ⟨_, .finished hruns, hlt, ⟨_, hsettled⟩, ?_⟩
        rw [hresult]
        exact completion_of_closed hsettled rfl
  | @lost worker c _ hruns hnone hpool =>
    rcases hunresolved.move hpool nofun with hstays | ⟨how, hends, -⟩
    · exact .inl ⟨hlt, hstays, haction, hvalues⟩
    · cases hends with
      | panicked hruns' =>
        obtain rfl := eq_of_runs hruns hruns'
        rw [haction] at hnone
        contradiction
  | @moved poolEvent _ hbare hpool =>
    have hother : poolEvent.submitted? ≠ some call := by
      rw [PoolEvent.submitted?_of_isBare hbare]
      exact (Option.some_ne_none call).symm
    rcases hunresolved.move hpool hother with hstays | ⟨how, hends, hsettled⟩
    · exact .inl ⟨hlt, hstays, haction, hvalues⟩
    · cases hends with
      | value | panicked => contradiction
      | dropped hholds hclosed =>
        exact .inr ⟨none, .dropped hholds hclosed, hlt, ⟨_, hsettled⟩, completion_of_closed hsettled rfl⟩

/-! ## Done -/

/-- What is left of a call stays as it is as long as nobody receives it. -/
theorem Done.move (hw : w.Done call outcome) (h : w.Moves e w') (howner : e ≠ .receive call) :
    w'.Done call outcome := by
  obtain ⟨hlt, ⟨how, hsettled⟩, hcompletion⟩ := hw
  -- the completion is read off the end and the values that are filed under the call
  have hread {v : Workshop σ α} (hv : v.pool.Settled call how)
      (hvalues : v.values.find? (·.1 == call) = w.values.find? (·.1 == call)) :
      v.completion call = .of outcome := by
    rw [← hcompletion, completion, completion, hv.completion_eq, hsettled.completion_eq, hvalues]
  cases h with
  | refused | changed => exact ⟨hlt, ⟨how, hsettled⟩, hcompletion⟩
  | submitted hopen hpool =>
    have hne : w.next ≠ call := Nat.ne_of_gt hlt
    have hstays := hsettled.move hpool fun h => hne (Option.some.inj h)
    exact ⟨Nat.lt_succ_of_lt hlt, ⟨how, hstays⟩, hread hstays rfl⟩
  | @returned worker c _ a _ hruns _ _ hpool =>
    have hstays := hsettled.move hpool nofun
    have hne : c ≠ call := by
      rintro rfl
      exact hsettled.not_pending (Pool.mem_pending_of_worker hruns rfl)
    exact ⟨hlt, ⟨how, hstays⟩, hread hstays (find?_cons_of_ne hne a _)⟩
  | panicked _ _ _ hpool =>
    have hstays := hsettled.move hpool nofun
    exact ⟨hlt, ⟨how, hstays⟩, hread hstays rfl⟩
  | lost _ _ hpool =>
    have hstays := hsettled.move hpool nofun
    exact ⟨hlt, ⟨how, hstays⟩, hread hstays rfl⟩
  | @moved poolEvent _ hbare hpool =>
    have hother : poolEvent.submitted? ≠ some call := by
      rw [PoolEvent.submitted?_of_isBare hbare]
      exact (Option.some_ne_none call).symm
    have hstays := hsettled.move hpool hother
    exact ⟨hlt, ⟨how, hstays⟩, hread hstays rfl⟩
  | @received c =>
    have hne : c ≠ call := fun heq => howner (heq ▸ rfl)
    exact ⟨hlt, ⟨how, hsettled⟩, hread hsettled (find?_filter_of_ne hne _)⟩

/-! ## Whole runs -/

/-- In a run, a call that is under way ends with an outcome by one event. -/
def EndsIn (w : Workshop σ α) (action : σ → Option α × σ) (events : List (WorkshopEvent σ α))
    (call : CallId) (outcome : Option α) : Prop :=
  ∃ before e after v, events = before ++ e :: after ∧ w.run before = some v ∧
    v.Underway call action ∧ v.Ends action e call outcome

/-- Through a whole run a call is under way, or one event ends it and it is done with what it left. -/
theorem Underway.run (hw : w.Underway call action) {events : List (WorkshopEvent σ α)}
    (howner : .receive call ∉ events) (h : w.run events = some w') :
    w'.Underway call action ∨ ∃ outcome, w.EndsIn action events call outcome ∧ w'.Done call outcome := by
  induction events using List.reverseRecOn generalizing w' with
  | nil =>
    cases h
    exact .inl hw
  | append_singleton events e ih =>
    rw [Workshop.run, foldlM_append_singleton] at h
    obtain ⟨v, hv, hstep⟩ := Option.bind_eq_some_iff.mp h
    have hmove := moves_of_step hstep
    rw [List.mem_append, not_or, List.mem_singleton] at howner
    rcases ih howner.1 hv with hopen | ⟨outcome, hends, hdone⟩
    · rcases hopen.move hmove with hstays | ⟨outcome, hends, hdone⟩
      · exact .inl hstays
      · exact .inr ⟨outcome, (happened_append_singleton hv e _).mpr (.inr ⟨hopen, hends⟩), hdone⟩
    · exact .inr ⟨outcome, (happened_append_singleton hv e _).mpr (.inl hends),
        hdone.move hmove (Ne.symm howner.2)⟩

/-! ## Shut down first -/

/-- In a run, the flag of the pool is set before a worker starts a call. -/
def ShutsDownBefore (w : Workshop σ α) (events : List (WorkshopEvent σ α)) (call : CallId) : Prop :=
  ∃ before after v, events = before ++ after ∧ w.run before = some v ∧ v.pool.closed = true ∧
    call ∉ v.pool.started

/-- A call that was started stays among those that were. -/
theorem mem_started_of_run {events : List (WorkshopEvent σ α)} (hstarted : call ∈ w.pool.started)
    (h : w.run events = some w') : call ∈ w'.pool.started := by
  refine run_induction (P := fun v => call ∈ v.pool.started) (K := fun _ => True)
    (fun v v' e _ hmove hv => ?_) (fun _ _ => trivial) hstarted h
  rcases hmove.pool_cases with hsame | ⟨poolEvent, hpool⟩
  · exact hsame ▸ hv
  · exact hpool.mem_started_of_mem hv

/-- Behind the closed flag, a call that was not started is not started any more. -/
theorem not_mem_started_of_run {events : List (WorkshopEvent σ α)} (hclosed : w.pool.closed = true)
    (hstarted : call ∉ w.pool.started) (h : w.run events = some w') : call ∉ w'.pool.started := by
  refine (run_induction (P := fun v => v.pool.closed = true ∧ call ∉ v.pool.started) (K := fun _ => True)
    (fun v v' e _ hmove ⟨hclosed, hstarted⟩ => ?_) (fun _ _ => trivial) ⟨hclosed, hstarted⟩ h).2
  rcases hmove.pool_cases with hsame | ⟨poolEvent, hpool⟩
  · exact hsame ▸ ⟨hclosed, hstarted⟩
  · obtain ⟨hstays, hsame⟩ := hpool.of_closed hclosed
    exact ⟨hstays, hsame ▸ hstarted⟩

/-- Where a call was started in a run, nobody shut the pool down before. -/
theorem not_shutsDownBefore {before after : List (WorkshopEvent σ α)} (h : w.run before = some w')
    (hstarted : call ∈ w'.pool.started) : ¬w.ShutsDownBefore (before ++ after) call := by
  rintro ⟨first, rest, v, hevents, hrun, hclosed, hnot⟩
  -- one of the two parts of the run comes first
  rcases List.append_eq_append_iff.mp hevents with ⟨between, rfl, -⟩ | ⟨between, rfl, -⟩
  · rw [run_append, h] at hrun
    exact hnot (mem_started_of_run hstarted hrun)
  · rw [run_append, hrun] at h
    exact not_mem_started_of_run hclosed hnot h hstarted

/-- A call ends without a value if the pool was shut down before it was started, and otherwise with what its
code gives in some state of the run. -/
theorem EndsIn.cases {size : Nat} (hw : w.Sound size) {events : List (WorkshopEvent σ α)}
    (h : w.EndsIn action events call outcome) :
    (w.ShutsDownBefore events call ∧ outcome = none) ∨
    (¬w.ShutsDownBefore events call ∧ ∃ before after v, events = before ++ after ∧ w.run before = some v ∧
      outcome = (action v.world).1) := by
  obtain ⟨before, e, after, v, rfl, hrun, hunderway, hends⟩ := h
  obtain ⟨_, haccounted⟩ := (hw.run hrun).accounted
  cases hends with
  | finished hruns =>
    exact .inr ⟨not_shutsDownBefore hrun (haccounted.mem_started hruns), before, _, v, rfl, hrun, rfl⟩
  | dropped hholds hclosed =>
    have hnot := haccounted.not_mem_started hunderway.unresolved hholds
    exact .inl ⟨⟨before, _, v, rfl, hrun, hclosed, hnot⟩, rfl⟩

end Workshop

end CBind
