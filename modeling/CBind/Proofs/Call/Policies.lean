import CBind.Call.Invocation
import CBind.Proofs.Call.Waiting
import CBind.Proofs.Call.Widening

/-!
# Where a call runs does not change what it gives

A binding calls on the calling thread or through the queue. Both ways check the arguments first and then run
the same code on the same words, so a function whose result depends on its arguments only gives the same both
times, whatever else is queued or running meanwhile.

A queued call may find its pool shut down. Then it is answered without having run; a call on the calling
thread does not see the pool. Nothing is said here about code that changes the process.
-/

namespace CBind.Binding

variable {b : Binding} {arguments : List Value} {w : CallWorkshop}

/-- In all processes of a kind, code called with some words changes nothing and gives one result. -/
structure IsPureOn (b : Binding) (words : List UInt64) (holds : Process → Prop) : Prop where
  unchanged : ∀ p, holds p → (p.call b.address words).2 = p
  same_result : ∀ p q, holds p → holds q → (p.call b.address words).1 = (q.call b.address words).1

/-- Mapped code that leaves every process of a kind as it is and gives one word in all of them. -/
theorem isPureOn_of_runs {code : NativeCode} {words : List UInt64} {word : UInt64} {holds : Process → Prop}
    (h : ∀ p, holds p → p.Runs b.address code ∧ code words p.state = (word, p.state)) :
    b.IsPureOn words holds where
  unchanged p hp := by rw [(h p hp).1.call_eq, (h p hp).2]
  same_result p q hp hq := by rw [(h p hp).1.call_eq, (h q hq).1.call_eq, (h p hp).2, (h q hq).2]

/-- Such code gives one value for accepted arguments. -/
theorem IsPureOn.exists_value {holds : Process → Prop} {world : Process} (hworld : holds world)
    (hpure : b.IsPureOn (b.words arguments) holds) :
    ∃ value, ∀ p, holds p → b.execute (arguments.map (·.store 0)) p = (value, p) := by
  refine ⟨(b.execute (arguments.map (·.store 0)) world).1, fun p hp => Prod.ext ?_ (hpure.unchanged p hp)⟩
  have hword := hpure.same_result p world hp hworld
  exact congrArg
    (fun word => Value.load ((CallShape.of b.descriptor).giveBack word) b.descriptor.returns.type) hword

/-! ## Queueing and waiting -/

/-- What a worker runs for a call. -/
def job (b : Binding) (slots : List UInt64) (p : Process) : Option Value × Process :=
  let (v, p) := b.execute slots p
  (some v, p)

/-- Queue a call, and let nobody move yet. -/
def queueCall (b : Binding) (arguments : List Value) (w : CallWorkshop) :
    Except Fault CallId × CallWorkshop :=
  match b.marshal arguments with
  | .error fault => (.error fault, w)
  | .ok slots =>
    if w.pool.accepts then (.ok w.next, w.enter false (b.job slots)) else (.error (.poolClosed b.name), w)

/-- Queue a call, let things happen, and wait for the value; no answer if the call is still under way. -/
def answerAfter (b : Binding) (arguments : List Value) (meanwhile : List (WorkshopEvent Process Value))
    (w : CallWorkshop) : Option (Option (Except Fault Value) × CallWorkshop) :=
  let (queued, w) := b.queueCall arguments w
  (w.run meanwhile).map fun v =>
    match queued with
    | .error fault => (some (.error fault), v)
    | .ok call => ((v.await? b.name (.pending call)).1, v)

/-- The pool is shut down before a worker starts the call. -/
def ShutFirst (b : Binding) (arguments : List Value) (meanwhile : List (WorkshopEvent Process Value))
    (w : CallWorkshop) : Prop :=
  (b.queueCall arguments w).2.ShutsDownBefore meanwhile w.next

/-- Calling through the queue is queueing the call and letting everybody move. -/
theorem callAsync_eq (b : Binding) (arguments : List Value) (w : CallWorkshop) :
    b.callAsync arguments w =
      match b.queueCall arguments w with
      | (.ok call, v) => (.ok call, v.settle)
      | (.error fault, v) => (.error fault, v) := by
  unfold callAsync queueCall
  cases b.marshal arguments with
  | error fault => rfl
  | ok slots =>
    have hsubmit := w.submit_eq false (b.job slots)
    by_cases hopen : w.pool.accepts = true
    · rw [if_pos hopen] at hsubmit
      simp only [if_pos hopen]
      split
      next hcall =>
        cases hcall.symm.trans hsubmit
        rfl
      next hcall => cases hcall.symm.trans hsubmit
    · rw [if_neg hopen] at hsubmit
      simp only [if_neg hopen]
      split
      next hcall => cases hcall.symm.trans hsubmit
      next hcall =>
        cases hcall.symm.trans hsubmit
        rfl

/-- An invocation under the other policy is a queued call. -/
theorem invoke_async (b : Binding) (arguments : List Value) (w : CallWorkshop) :
    (b.withPolicy .async).invoke arguments w =
      ((b.callAsync arguments w).1.map .pending, (b.callAsync arguments w).2) :=
  rfl

/-- A call that is refused is answered at once. -/
theorem call_async_of_refused {fault : Fault} {v : CallWorkshop}
    (h : b.queueCall arguments w = (.error fault, v)) :
    (b.withPolicy .async).call arguments w = (some (.error fault), v) := by
  rw [call, invoke_async, callAsync_eq, h]
  rfl

/-- A call that is queued is waited for. -/
theorem call_async_of_queued {call : CallId} {v : CallWorkshop}
    (h : b.queueCall arguments w = (.ok call, v)) :
    (b.withPolicy .async).call arguments w = CallWorkshop.await? v.settle b.name (.pending call) := by
  rw [Binding.call, invoke_async, callAsync_eq, h]
  rfl

/-! ## One call among others -/

section Accepted

variable {size : Nat} {holds : Process → Prop} {value : Value} {v : CallWorkshop}
  {meanwhile : List (WorkshopEvent Process Value)} {answer : Option (Except Fault Value)}

/-- Accepted arguments are queued under the next number where the queue is open. -/
theorem Accepts.queueCall_eq (h : b.Accepts arguments) (hopen : w.pool.queueOpen = true) :
    b.queueCall arguments w = (.ok w.next, w.enter false (b.job (arguments.map (·.store 0)))) := by
  rw [queueCall, marshal_eq_ok_iff.mpr ⟨h, rfl⟩]
  exact if_pos hopen

/-- A closed queue refuses accepted arguments. -/
theorem Accepts.queueCall_closed (h : b.Accepts arguments) (hclosed : w.pool.queueOpen = false) :
    b.queueCall arguments w = (.error (.poolClosed b.name), w) := by
  rw [queueCall, marshal_eq_ok_iff.mpr ⟨h, rfl⟩]
  exact if_neg (ne_true_of_eq_false hclosed)

/-- A pool that is shut down when a call is submitted was shut down first. -/
theorem shutFirst_of_closed (hw : w.Sound size) (hclosed : w.pool.closed = true)
    (h : b.Accepts arguments) (meanwhile : List (WorkshopEvent Process Value)) :
    b.ShutFirst arguments meanwhile w := by
  have hnew : w.next ∉ w.pool.started := fun hmem => Nat.lt_irrefl _ (hw.below.of_started _ hmem)
  by_cases hopen : w.pool.queueOpen = true
  · rw [ShutFirst, h.queueCall_eq hopen]
    obtain ⟨pool, hpool, -, henter⟩ :=
      Workshop.exists_enter_eq hopen false (b.job (arguments.map (·.store 0)))
    obtain ⟨hstays, hsame⟩ := hpool.of_closed hclosed
    rw [henter]
    exact ⟨[], meanwhile, _, rfl, rfl, hstays, hsame ▸ hnew⟩
  · rw [ShutFirst, h.queueCall_closed (eq_false_of_ne_true hopen)]
    exact ⟨[], meanwhile, w, rfl, rfl, hclosed, hnew⟩

/-- A queued call is under way, or was answered that its pool is closed because it was shut down first, or has
given its value. -/
theorem Accepts.answer_cases (h : b.Accepts arguments) (hw : w.Sound size) (hkeeps : w.Keeps holds)
    (hvalue : ∀ p, holds p → b.execute (arguments.map (·.store 0)) p = (value, p))
    (hmeanwhile : ∀ e ∈ meanwhile, e.Keeps holds) (howner : .receive w.next ∉ meanwhile)
    (hanswer : b.answerAfter arguments meanwhile w = some (answer, v)) :
    (answer = none ∧ w.next ∈ v.pool.pending ∧
      ∃ (e : WorkshopEvent Process Value) (u : CallWorkshop), e.isMove = true ∧ v.step e = some u) ∨
    (answer = some (.error (.poolClosed b.name)) ∧ b.ShutFirst arguments meanwhile w) ∨
    (answer = some (.ok value) ∧ ¬b.ShutFirst arguments meanwhile w) := by
  by_cases hopen : w.pool.queueOpen = true
  · have hqueued := h.queueCall_eq hopen
    let entered : CallWorkshop := w.enter false (b.job (arguments.map (·.store 0)))
    have hjob (p : Process) (hp : holds p) : b.job (arguments.map (·.store 0)) p = (some value, p) := by
      rw [job, hvalue p hp]
    have hentered : entered.Sound size := hw.move (w.moves_enter _ _)
    have hholds : entered.Keeps holds :=
      hkeeps.move (w.moves_enter _ _) fun p hp => (hjob p hp).symm ▸ hp
    have hunderway : entered.Underway w.next (b.job (arguments.map (·.store 0))) :=
      Workshop.underway_enter hw hopen _ _
    rw [answerAfter, hqueued] at hanswer
    obtain ⟨u, hrun, heq⟩ := Option.map_eq_some_iff.mp hanswer
    obtain ⟨rfl, rfl⟩ := Prod.mk.inj heq
    rw [ShutFirst, hqueued]
    rcases hunderway.run howner hrun with hstays | ⟨outcome, hends, hdone⟩
    · refine .inl ⟨?_, hstays.exists_move (hentered.run hrun)⟩
      change (CallWorkshop.observe u w.next { function := b.name }).1.answer = none
      rw [hstays.observe_eq]
    · have hgives : ((CallWorkshop.await? u b.name (.pending w.next)).1) =
          some (answerFor b.name outcome) := hdone.answer_eq b.name
      refine .inr ?_
      rcases hends.cases hentered with ⟨hshut, rfl⟩ | ⟨hnot, before, after, t, rfl, ht, rfl⟩
      · exact .inl ⟨hgives, hshut⟩
      · have hworld := (hholds.run (fun e he => hmeanwhile e (List.mem_append_left _ he)) ht).of_world
        rw [hjob _ hworld] at hgives
        exact .inr ⟨hgives, hnot⟩
  · have hrefused := h.queueCall_closed (eq_false_of_ne_true hopen)
    rw [answerAfter, hrefused] at hanswer
    obtain ⟨u, -, heq⟩ := Option.map_eq_some_iff.mp hanswer
    obtain ⟨rfl, rfl⟩ := Prod.mk.inj heq
    have hclosed : w.pool.closed = true := hw.flagged.of_queue (eq_false_of_ne_true hopen)
    exact .inr (.inl ⟨rfl, shutFirst_of_closed hw hclosed h meanwhile⟩)

/-- Where no call is gated, calling through the queue gives the value, unless the pool is shut down. -/
theorem Accepts.call_async (h : b.Accepts arguments) (hw : w.Sound size) (hkeeps : w.Keeps holds)
    (hvalue : ∀ p, holds p → b.execute (arguments.map (·.store 0)) p = (value, p)) (hgates : w.gates = []) :
    (w.pool.closed = true →
      ((b.withPolicy .async).call arguments w).1 = some (.error (.poolClosed b.name))) ∧
    (w.pool.closed = false → ((b.withPolicy .async).call arguments w).1 = some (.ok value)) := by
  by_cases hopen : w.pool.queueOpen = true
  · have hqueued := h.queueCall_eq hopen
    let entered : CallWorkshop := w.enter false (b.job (arguments.map (·.store 0)))
    have hentered : entered.Sound size := hw.move (w.moves_enter _ _)
    obtain ⟨moves, hmoves, hrun, hrest⟩ := Workshop.settle_spec entered
    have hanswer : b.answerAfter arguments moves w =
        some (((b.withPolicy .async).call arguments w).1, entered.settle) := by
      rw [call_async_of_queued hqueued, answerAfter, hqueued]
      exact congrArg (Option.map fun v => ((CallWorkshop.await? v b.name (.pending w.next)).1, v)) hrun
    have howner : .receive w.next ∉ moves := fun hmem => absurd (hmoves _ hmem) nofun
    rcases h.answer_cases hw hkeeps hvalue (fun e he => Workshop.keeps_of_isMove (hmoves e he)) howner
      hanswer with ⟨-, hpending, -⟩ | ⟨hgives, before, after, u, rfl, hu, hclosed, -⟩ | ⟨hgives, hnot⟩
    · have hopened : entered.settle.gates = [] := by
        rw [(Workshop.closed_gates_eq_of_run hmoves hrun).2, Workshop.enter_gates_eq, hgates]
      have hnil := (hentered.run hrun).pending_eq_nil hrest hopened
      rw [hnil] at hpending
      contradiction
    · -- no move sets the flag, so it was set before
      rw [hqueued] at hu
      have hbefore := Workshop.closed_gates_eq_of_run
        (fun e he => hmoves e (List.mem_append_left after he)) hu
      rw [hclosed, Workshop.enter_closed_eq] at hbefore
      exact ⟨fun _ => hgives, fun hfalse => absurd (hbefore.1.trans hfalse) (by decide)⟩
    · exact ⟨fun hclosed => absurd (shutFirst_of_closed hw hclosed h moves) hnot, fun _ => hgives⟩
  · have hclosed : w.pool.closed = true := hw.flagged.of_queue (eq_false_of_ne_true hopen)
    rw [call_async_of_refused (h.queueCall_closed (eq_false_of_ne_true hopen))]
    exact ⟨fun _ => rfl, fun hfalse => absurd (hclosed.symm.trans hfalse) (by decide)⟩

end Accepted

/-- Refused arguments are answered with their fault at once, whatever happens meanwhile. -/
theorem answers_of_refused {fault : Fault} (h : b.marshal arguments = .error fault) (w : CallWorkshop) :
    ((b.withPolicy .async).call arguments w).1 = some (.error fault) ∧
    ∀ meanwhile answer v, b.answerAfter arguments meanwhile w = some (answer, v) →
      answer = some (.error fault) := by
  have hqueued : b.queueCall arguments w = (.error fault, w) := by rw [queueCall, h]
  refine ⟨congrArg Prod.fst (call_async_of_refused hqueued), fun meanwhile answer v hanswer => ?_⟩
  rw [answerAfter, hqueued] at hanswer
  obtain ⟨u, -, heq⟩ := Option.map_eq_some_iff.mp hanswer
  exact (congrArg Prod.fst heq).symm

/-- A call on the calling thread gives what its process gives. -/
theorem call_sync_eq {result : Except Fault Value}
    (h : b.callSync arguments w.world = (result, w.world)) :
    (b.withPolicy .sync).call arguments w = (some result, w) := by
  have hinvoke : (b.withPolicy .sync).invoke arguments w =
      ((b.callHere arguments w).1.map .ready, (b.callHere arguments w).2) := rfl
  rw [call, hinvoke, callHere, h]
  cases result <;> rfl

/-- A policy changes where a call runs and not what it gives. Take a function whose code changes nothing and
gives one result in all processes of a kind, any arguments, and a workshop in which anything is queued or
running, as long as the code of it keeps the process of the kind. Then there is one result, a value if the
arguments are accepted and their fault if they are refused. A call on the calling thread gives it in every state
of the workshop. A call through the queue, with anything happening between its submission and the wait, is
still under way, and then somebody can move; or its arguments are accepted and the pool was shut down before a
worker started it, and then it is answered that the pool is closed; or neither, and then it gives the result.
Where no call is gated and everybody moves, it is answered in one of the last two ways. -/
theorem policies_agree {size : Nat} {world : Process} {before : List (WorkshopEvent Process Value)}
    {w : CallWorkshop} (b : Binding) (arguments : List Value) (holds : Process → Prop)
    (hpure : b.Accepts arguments → b.IsPureOn (b.words arguments) holds) (hworld : holds world)
    (hkeeps : ∀ e ∈ before, e.Keeps holds)
    (hbefore : (Workshop.new size world : CallWorkshop).run before = some w) :
    ∃ result : Except Fault Value,
      (b.Accepts arguments → ∃ value, result = .ok value) ∧
      (¬b.Accepts arguments → ∃ fault, b.Refuses arguments fault ∧
        result = .error (.argument b.name fault.message)) ∧
      (∀ v : CallWorkshop, holds v.world → (b.withPolicy .sync).call arguments v = (some result, v)) ∧
      (∀ (meanwhile : List (WorkshopEvent Process Value)) (answer : Option (Except Fault Value))
        (v : CallWorkshop), (∀ e ∈ meanwhile, e.Keeps holds) → .receive w.next ∉ meanwhile →
        b.answerAfter arguments meanwhile w = some (answer, v) →
        (answer = none ∧ w.next ∈ v.pool.pending ∧
          ∃ (e : WorkshopEvent Process Value) (u : CallWorkshop), e.isMove = true ∧ v.step e = some u) ∨
        (answer = some (.error (.poolClosed b.name)) ∧
          b.Accepts arguments ∧ b.ShutFirst arguments meanwhile w) ∨
        (answer = some result ∧ ¬(b.Accepts arguments ∧ b.ShutFirst arguments meanwhile w))) ∧
      (w.gates = [] →
        (b.Accepts arguments ∧ w.pool.closed = true →
          ((b.withPolicy .async).call arguments w).1 = some (.error (.poolClosed b.name))) ∧
        (¬(b.Accepts arguments ∧ w.pool.closed = true) →
          ((b.withPolicy .async).call arguments w).1 = some result)) := by
  have hsound : w.Sound size := (Workshop.sound_new size world).run hbefore
  have hnew : (Workshop.new size world : CallWorkshop).Keeps holds := ⟨hworld, nofun⟩
  have hholds : w.Keeps holds := hnew.run hkeeps hbefore
  rcases b.marshal_cases arguments with ⟨haccepts, hslots⟩ | ⟨fault, hrefuses, hfault⟩
  · obtain ⟨value, hvalue⟩ := (hpure haccepts).exists_value hworld
    refine ⟨.ok value, fun _ => ⟨value, rfl⟩, fun hnot => absurd haccepts hnot, ?_, ?_, ?_⟩
    · intro v hv
      refine call_sync_eq ?_
      rw [callSync, hslots]
      exact congrArg (fun done : Value × Process => (Except.ok done.1, done.2)) (hvalue v.world hv)
    · intro meanwhile answer v hmeanwhile howner hanswer
      rcases haccepts.answer_cases hsound hholds hvalue hmeanwhile howner hanswer with
        hstays | ⟨hclosed, hshut⟩ | ⟨hgives, hnot⟩
      · exact .inl hstays
      · exact .inr (.inl ⟨hclosed, haccepts, hshut⟩)
      · exact .inr (.inr ⟨hgives, fun hboth => hnot hboth.2⟩)
    · intro hgates
      obtain ⟨hclosed, hopen⟩ := haccepts.call_async hsound hholds hvalue hgates
      exact ⟨fun hboth => hclosed hboth.2,
        fun hnot => hopen (eq_false_of_ne_true fun hflag => hnot ⟨haccepts, hflag⟩)⟩
  · have hnot := hrefuses.not_accepts
    obtain ⟨hcall, hanswers⟩ := answers_of_refused hfault w
    refine ⟨.error (.argument b.name fault.message), fun h => absurd h hnot,
      fun _ => ⟨fault, hrefuses, rfl⟩, ?_, ?_, ?_⟩
    · intro v _
      refine call_sync_eq ?_
      rw [callSync, hfault]
    · intro meanwhile answer v _ _ hanswer
      exact .inr (.inr ⟨hanswers meanwhile answer v hanswer, fun hboth => hnot hboth.1⟩)
    · exact fun _ => ⟨fun hboth => absurd hboth.1 hnot, fun _ => hcall⟩

/-- A process with the code of a function. -/
def lowByteProcess : Process where
  code := [(64, lowByteCode)]

/-- A call that changes the process otherwise, and panics. -/
def mapsAndPanics (p : Process) : Option Value × Process :=
  (none, { p with mapped := p.mapped + 1 })

/-- The one worker runs the call in front, and then the one behind it. -/
def bothRun : List (WorkshopEvent Process Value) :=
  [.pool (.take 0), .pool (.start 0), .finish 0, .pool (.take 0), .pool (.start 0), .finish 0]

/-- The pool is shut down while the worker runs the call in front. -/
def shutBetween : List (WorkshopEvent Process Value) :=
  [.pool (.take 0), .pool (.start 0), .pool .shutdown, .finish 0, .pool (.take 0), .pool (.start 0)]

/-- Queued behind a call that panics, the function gives what it gives on the calling thread; if the pool is
shut down while the call in front runs, it is not started. -/
theorem low_byte_behind_panic :
    let arguments : List Value := [.int32 40000, .float64 0x7ff8000000000001]
    let w : CallWorkshop := (Workshop.new 1 lowByteProcess).enter false mapsAndPanics
    (lowByte.withPolicy .sync).call arguments w = (some (.ok (.int32 64)), w) ∧
    (lowByte.answerAfter arguments bothRun w).map Prod.fst = some (some (.ok (.int32 64))) ∧
    (lowByte.answerAfter arguments shutBetween w).map Prod.fst =
      some (some (.error (.poolClosed "low_byte"))) ∧
    lowByte.ShutFirst arguments shutBetween w ∧
    ((lowByte.withPolicy .async).call arguments w).1 = some (.ok (.int32 64)) := by
  intro arguments w
  have hpure : lowByte.IsPureOn (lowByte.words arguments) (·.Runs 64 lowByteCode) :=
    isPureOn_of_runs fun p hp => ⟨hp, rfl⟩
  have hkeeps : ∀ e ∈ [WorkshopEvent.submit false mapsAndPanics], e.Keeps (·.Runs 64 lowByteCode) :=
    List.forall_mem_singleton.mpr fun p hp => ⟨hp.alive, hp.code_at⟩
  obtain ⟨result, -, -, hsync, hanswers, hasync⟩ :=
    policies_agree (w := w) lowByte arguments _ (fun _ => hpure) ⟨rfl, rfl⟩ hkeeps rfl
  have hruns : (lowByte.answerAfter arguments bothRun w).map Prod.fst = some (some (.ok (.int32 64))) := rfl
  have hshut : (lowByte.answerAfter arguments shutBetween w).map Prod.fst =
      some (some (.error (.poolClosed "low_byte"))) := rfl
  obtain ⟨⟨_, v⟩, hv, hvalue⟩ := Option.map_eq_some_iff.mp hruns
  obtain ⟨⟨_, u⟩, hu, hclosed⟩ := Option.map_eq_some_iff.mp hshut
  have hresult : result = .ok (.int32 64) := by
    rcases hanswers bothRun _ v (by simp [bothRun, WorkshopEvent.Keeps]) (by simp [bothRun]) hv with
      ⟨hgives, -⟩ | ⟨hgives, -⟩ | ⟨hgives, -⟩
    · cases hvalue.symm.trans hgives
    · cases hvalue.symm.trans hgives
    · exact Option.some.inj (hgives.symm.trans hvalue)
  subst hresult
  have hfirst : lowByte.ShutFirst arguments shutBetween w := by
    rcases hanswers shutBetween _ u (by simp [shutBetween, WorkshopEvent.Keeps]) (by simp [shutBetween]) hu
      with ⟨hgives, -⟩ | ⟨-, -, hfirst⟩ | ⟨hgives, -⟩
    · cases hclosed.symm.trans hgives
    · exact hfirst
    · cases hclosed.symm.trans hgives
  exact ⟨hsync w ⟨rfl, rfl⟩, hruns, hshut, hfirst, (hasync rfl).2 fun h => absurd h.2 nofun⟩

end CBind.Binding
