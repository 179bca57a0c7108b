import CBind.Call.Invocation
import CBind.Proofs.Call.Following

/-!
# What the holder of a pending call is told

A holder may ask as often as it likes, in any order and at any time, whether its call is done and what came of
it. A completion gives its value once, so a pending call keeps the first answer that it gets.

Until the call ends, the holder is told to come back, and asking leaves no trace. Behind the end every reply
is the same: what the call left.
-/

namespace CBind

/-- What the holder of a pending call may ask. -/
inductive Question where
  | isReady
  | waitTimeout (limit : Span)

/-- What it is told. -/
inductive Reply where
  | ready (isReady : Bool)
  | result (result : Except Fault Value)

/-- The answer that a call gives by what it left: its value, or that its pool was closed. -/
def answerFor (function : String) : Option Value → Except Fault Value
  | some v => .ok v
  | none => .error (.poolClosed function)

/-- There is nothing to see of a call that is under way, and looking leaves no trace. -/
theorem Workshop.Underway.observe_eq {w : CallWorkshop} {call : CallId}
    {action : Process → Option Value × Process} (h : w.Underway call action) (function : String) :
    CallWorkshop.observe w call { function } = ({ function }, w) := by
  rw [CallWorkshop.observe, h.completion_eq, h.forget_eq]
  rfl

/-- A call that has ended gives an answer by what it left. -/
theorem Workshop.Done.answer_eq {w : CallWorkshop} {call : CallId} {outcome : Option Value}
    (h : w.Done call outcome) (function : String) :
    (CallWorkshop.observe w call { function }).1.answer = some (answerFor function outcome) := by
  rw [CallWorkshop.observe, h.completion_eq]
  cases outcome <;> rfl

namespace Question

/-- The reply of a pending call that has looked into its completion. -/
def replyOf (p : PendingCall) : Question → Reply
  | isReady => .ready p.isReady.1
  | waitTimeout limit => .result (p.waitTimeout limit).1

/-- The reply that asks to come back. -/
def notYet (function : String) : Question → Reply
  | isReady => .ready false
  | waitTimeout limit => .result (.error (.timeout function limit))

/-- The reply that gives an answer. -/
def settled (answer : Except Fault Value) : Question → Reply
  | isReady => .ready true
  | waitTimeout _ => .result answer

end Question

/-- A pending call in the hands of a holder, with the workshop it runs in and what the holder was told. -/
structure Waiting where
  call : CallId
  handle : PendingCall
  work : CallWorkshop
  replies : List Reply := []

/-- What can happen while a holder waits: it asks, or something else happens in the workshop. -/
inductive WaitingEvent where
  | ask (question : Question)
  | other (e : WorkshopEvent Process Value)

/-- The questions among events. -/
def questionsOf (events : List WaitingEvent) : List Question :=
  events.filterMap fun
    | .ask question => some question
    | .other _ => none

/-- The other events. -/
def othersOf (events : List WaitingEvent) : List (WorkshopEvent Process Value) :=
  events.filterMap fun
    | .ask _ => none
    | .other e => some e

namespace Waiting

/-- Begin to wait for a call that a workshop takes. -/
def begin (w : CallWorkshop) (gated : Bool) (action : Process → Option Value × Process)
    (function : String) : Waiting :=
  { call := w.next, handle := { function }, work := w.enter gated action }

/-- Let something happen, if it is possible. -/
def step (s : Waiting) : WaitingEvent → Option Waiting
  | .ask question =>
    let (handle, work) := s.work.observe s.call s.handle
    some { s with handle, work, replies := s.replies ++ [question.replyOf handle] }
  | .other e => (s.work.step e).map fun work => { s with work }

/-- Let things happen one after the other. -/
def run (s : Waiting) (events : List WaitingEvent) : Option Waiting :=
  events.foldlM step s

/-- What a final wait gives; nothing if it goes on. -/
def wait? (s : Waiting) : Option (Except Fault Value) :=
  (s.work.observe s.call s.handle).1.wait?

/-! ## As long as the call is under way -/

variable {s t : Waiting} {function : String} {action : Process → Option Value × Process}
  {outcome : Option Value}

/-- A call that is under way, and a handle that knows nothing of it. -/
structure Open (s : Waiting) (function : String) (action : Process → Option Value × Process) : Prop where
  handle_eq : s.handle = { function }
  underway : s.work.Underway s.call action

/-- Looking into the completion of a call that is under way changes nothing. -/
theorem Open.observe_eq (h : s.Open function action) :
    s.work.observe s.call s.handle = (s.handle, s.work) := by
  rw [h.handle_eq, h.underway.observe_eq]

/-- Until the call ends, asking gives the reply to come back and leaves no trace. -/
theorem Open.ask (h : s.Open function action) (question : Question) :
    s.step (.ask question) = some { s with replies := s.replies ++ [question.notYet function] } := by
  have hreply : question.replyOf s.handle = question.notYet function := by
    rw [h.handle_eq]
    cases question <;> rfl
  rw [step, h.observe_eq]
  dsimp only
  rw [hreply]

/-- Until the call ends, a final wait goes on. -/
theorem Open.wait?_eq (h : s.Open function action) : s.wait? = none := by
  rw [wait?, h.observe_eq, h.handle_eq]
  rfl

/-! ## Behind the end -/

/-- A call that has ended: its completion has what it left and the handle knows nothing of it, or the handle
keeps the answer. -/
inductive Answered (s : Waiting) (function : String) (outcome : Option Value) : Prop
  | unasked (hhandle : s.handle = { function }) (hdone : s.work.Done s.call outcome)
  | told (hanswer : s.handle.answer = some (answerFor function outcome))

/-- Looking into the completion of a call that has ended gives its answer. -/
theorem Answered.answer_eq (h : s.Answered function outcome) :
    (s.work.observe s.call s.handle).1.answer = some (answerFor function outcome) := by
  cases h with
  | unasked hhandle hdone =>
    rw [hhandle, hdone.answer_eq]
  | told hanswer =>
    simp only [CallWorkshop.observe, PendingCall.observe, hanswer]

/-- A pending call that has its answer gives it in every reply. -/
theorem replyOf_of_answer {p : PendingCall} {answer : Except Fault Value} (h : p.answer = some answer)
    (question : Question) : question.replyOf p = question.settled answer := by
  cases question with
  | isReady => simp only [Question.replyOf, Question.settled, PendingCall.isReady, PendingCall.observe, h,
      Option.isSome_some]
  | waitTimeout limit =>
    simp only [Question.replyOf, Question.settled, PendingCall.waitTimeout, PendingCall.observe, h]

/-- Behind the end, asking gives the answer. -/
theorem Answered.ask (h : s.Answered function outcome) (question : Question)
    (hstep : s.step (.ask question) = some t) :
    t.call = s.call ∧ t.Answered function outcome ∧
      t.replies = s.replies ++ [question.settled (answerFor function outcome)] := by
  obtain rfl := Option.some.inj hstep
  have hanswer := h.answer_eq
  exact ⟨rfl, .told hanswer, congrArg (s.replies ++ [·]) (replyOf_of_answer hanswer question)⟩

/-- Behind the end, nothing else changes the answer, as long as nobody else receives the value. -/
theorem Answered.other (h : s.Answered function outcome) {e : WorkshopEvent Process Value}
    (howner : e ≠ .receive s.call) (hstep : s.step (.other e) = some t) :
    t.call = s.call ∧ t.Answered function outcome ∧ t.replies = s.replies := by
  obtain ⟨work, hwork, rfl⟩ := Option.map_eq_some_iff.mp hstep
  refine ⟨rfl, ?_, rfl⟩
  cases h with
  | unasked hhandle hdone => exact .unasked hhandle (hdone.move (Workshop.moves_of_step hwork) howner)
  | told hanswer => exact .told hanswer

/-- Behind the end, a final wait gives the answer. -/
theorem Answered.wait?_eq (h : s.Answered function outcome) :
    s.wait? = some (answerFor function outcome) := by
  have hanswer := h.answer_eq
  simp only [wait?, PendingCall.wait?, PendingCall.observe, hanswer]

/-! ## Whole runs -/

variable {start : Waiting} {events : List WaitingEvent}

/-- A run in which the call stays under way: questions were answered by replies to come back, and everything
else happened as it would have without them. -/
structure StaysOpen (start : Waiting) (function : String) (action : Process → Option Value × Process)
    (events : List WaitingEvent) (s : Waiting) : Prop where
  isOpen : s.Open function action
  call_eq : s.call = start.call
  replies_eq : s.replies = (questionsOf events).map (·.notYet function)
  run_others : start.work.run (othersOf events) = some s.work

/-- A run in which the call ends: questions in front of the end were answered by replies to come back, and
those behind it by what the call left. -/
structure Ended (start : Waiting) (function : String) (action : Process → Option Value × Process)
    (events : List WaitingEvent) (outcome : Option Value) (s : Waiting) : Prop where
  answered : s.Answered function outcome
  call_eq : s.call = start.call
  exists_end : ∃ first e last t, events = first ++ .other e :: last ∧ start.run first = some t ∧
    StaysOpen start function action first t ∧ t.work.Ends action e start.call outcome ∧
    s.replies = (questionsOf first).map (·.notYet function) ++
      (questionsOf last).map (·.settled (answerFor function outcome))

/-- One more event leaves the call under way or ends it. -/
theorem StaysOpen.step {e : WaitingEvent} (h : StaysOpen start function action events s)
    (hrun : start.run events = some s) (hstep : s.step e = some t) :
    StaysOpen start function action (events ++ [e]) t ∨
      ∃ outcome, Ended start function action (events ++ [e]) outcome t := by
  cases e with
  | ask question =>
    rw [h.isOpen.ask] at hstep
    obtain rfl := Option.some.inj hstep
    refine .inl ⟨⟨h.isOpen.handle_eq, h.isOpen.underway⟩, h.call_eq, ?_, ?_⟩
    · rw [questionsOf, List.filterMap_append, List.map_append, ← questionsOf, ← h.replies_eq]
      rfl
    · rw [othersOf, List.filterMap_append]
      exact (congrArg _ (List.append_nil _)).trans h.run_others
  | other e =>
    obtain ⟨work, hwork, rfl⟩ := Option.map_eq_some_iff.mp hstep
    rcases h.isOpen.underway.move (Workshop.moves_of_step hwork) with hstays | ⟨outcome, hends, hdone⟩
    · refine .inl ⟨⟨h.isOpen.handle_eq, hstays⟩, h.call_eq, ?_, ?_⟩
      · rw [questionsOf, List.filterMap_append, List.map_append]
        exact h.replies_eq.trans (List.append_nil _).symm
      · rw [othersOf, List.filterMap_append, Workshop.run_append, ← othersOf, h.run_others]
        exact bind_pure (s.work.step e) |>.trans hwork
    · refine .inr ⟨outcome, .unasked h.isOpen.handle_eq hdone, h.call_eq, events, e, [], s, rfl, hrun, h, ?_, ?_⟩
      · exact h.call_eq ▸ hends
      · exact h.replies_eq.trans (List.append_nil _).symm

/-- One more event leaves the answer of a call that has ended. -/
theorem Ended.step {e : WaitingEvent} (h : Ended start function action events outcome s)
    (howner : e ≠ .other (.receive start.call)) (hstep : s.step e = some t) :
    Ended start function action (events ++ [e]) outcome t := by
  obtain ⟨hanswered, hcall, first, e', last, t', rfl, hfirst, hopen, hends, hreplies⟩ := h
  have hevents : first ++ .other e' :: last ++ [e] = first ++ .other e' :: (last ++ [e]) := by
    rw [List.append_assoc, List.cons_append]
  cases e with
  | ask question =>
    obtain ⟨hcall', hanswered', hreplies'⟩ := hanswered.ask question hstep
    refine ⟨hanswered', hcall'.trans hcall, first, e', _, t', hevents, hfirst, hopen, hends, ?_⟩
    rw [hreplies', hreplies, questionsOf, questionsOf, questionsOf, List.filterMap_append, List.map_append,
      List.append_assoc]
    rfl
  | other e =>
    have howner' : e ≠ .receive s.call := fun heq => howner (by rw [heq, hcall])
    obtain ⟨hcall', hanswered', hreplies'⟩ := hanswered.other howner' hstep
    refine ⟨hanswered', hcall'.trans hcall, first, e', _, t', hevents, hfirst, hopen, hends, ?_⟩
    rw [hreplies', hreplies, questionsOf, questionsOf, questionsOf, List.filterMap_append]
    exact congrArg _ (congrArg _ (List.append_nil _).symm)

/-- Every run leaves the call under way or ends it. -/
theorem run_cases (hopen : start.Open function action) (hreplies : start.replies = [])
    (howner : .other (.receive start.call) ∉ events) (hrun : start.run events = some s) :
    StaysOpen start function action events s ∨ ∃ outcome, Ended start function action events outcome s := by
  induction events using List.reverseRecOn generalizing s with
  | nil =>
    cases hrun
    exact .inl ⟨hopen, rfl, hreplies, rfl⟩
  | append_singleton events e ih =>
    rw [List.mem_append, not_or, List.mem_singleton] at howner
    rw [run, foldlM_append_singleton] at hrun
    obtain ⟨t, ht, hstep⟩ := Option.bind_eq_some_iff.mp hrun
    rcases ih howner.1 ht with hstays | ⟨outcome, hended⟩
    · exact hstays.step ht hstep
    · exact .inr ⟨outcome, hended.step (Ne.symm howner.2) hstep⟩

/-- The outcome of a pending call is stable and never lost. Take a call that is submitted to any workshop, and
let its holder ask in any order, and anything else happen in between, as long as nobody else receives the value.
Either the call is under way: every reply said to come back, a final wait goes on, the handle is as it was made,
and the workshop is as if nobody had asked; the call waits for a move that somebody can make. Or one event
ended the call, by what its code gave or by dropping it: every question in front of it was answered by a reply
to come back, every one behind it by what the call left, and so is a final wait. -/
theorem one_outcome {size : Nat} {world : Process} {before : List (WorkshopEvent Process Value)}
    {w : CallWorkshop} (hbefore : (Workshop.new size world : CallWorkshop).run before = some w)
    (haccepts : w.pool.accepts = true) (gated : Bool) (action : Process → Option Value × Process)
    (function : String) {events : List WaitingEvent} {s : Waiting}
    (howner : .other (.receive w.next) ∉ events)
    (hrun : (begin w gated action function).run events = some s) :
    (s.replies = (questionsOf events).map (·.notYet function) ∧ s.wait? = none ∧
      s.handle = { function } ∧ (w.enter gated action).run (othersOf events) = some s.work ∧
      w.next ∈ s.work.pool.pending ∧
      ∃ (e : WorkshopEvent Process Value) (v : CallWorkshop), e.isMove = true ∧ s.work.step e = some v) ∨
    ∃ outcome first e last t, events = first ++ .other e :: last ∧
      (begin w gated action function).run first = some t ∧ t.work.Ends action e w.next outcome ∧
      s.replies = (questionsOf first).map (·.notYet function) ++
        (questionsOf last).map (·.settled (answerFor function outcome)) ∧
      s.wait? = some (answerFor function outcome) := by
  have hsound : w.Sound size := (Workshop.sound_new size world).run hbefore
  have hunderway : (w.enter gated action).Underway w.next action :=
    Workshop.underway_enter hsound haccepts gated action
  have hopen : (begin w gated action function).Open function action := ⟨rfl, hunderway⟩
  rcases run_cases hopen rfl howner hrun with hstays | ⟨outcome, hended⟩
  · refine .inl ⟨hstays.replies_eq, hstays.isOpen.wait?_eq, hstays.isOpen.handle_eq, hstays.run_others, ?_⟩
    have hentered : (w.enter gated action).Sound size := hsound.move (w.moves_enter gated action)
    have hcall : s.call = w.next := hstays.call_eq
    exact hcall ▸ hstays.isOpen.underway.exists_move (hentered.run hstays.run_others)
  · obtain ⟨first, e, last, t, hevents, hfirst, -, hends, hreplies⟩ := hended.exists_end
    exact .inr ⟨outcome, first, e, last, t, hevents, hfirst, hends, hreplies, hended.answered.wait?_eq⟩

/-- A call that gives a number. -/
def seven (p : Process) : Option Value × Process :=
  (some (.int32 7), p)

/-- A holder that asks before a worker takes the call, while it runs, and behind its end. -/
def patient : List WaitingEvent :=
  [.ask (.waitTimeout ⟨5⟩), .other (.pool (.take 0)), .other (.pool (.start 0)), .ask .isReady,
    .other (.finish 0), .ask .isReady, .ask (.waitTimeout ⟨5⟩), .ask (.waitTimeout ⟨0⟩)]

/-- It is told to come back twice, and the number from then on. -/
theorem patient_told_seven : ∃ (s t : Waiting) (outcome : Option Value) (first : List WaitingEvent)
    (e : WorkshopEvent Process Value) (last : List WaitingEvent),
    (begin (Workshop.new 1 {}) false seven "f").run patient = some s ∧
    s.replies = [.result (.error (.timeout "f" ⟨5⟩)), .ready false, .ready true,
      .result (.ok (.int32 7)), .result (.ok (.int32 7))] ∧
    patient = first ++ .other e :: last ∧ t.work.Ends seven e 0 outcome ∧
    s.replies = (questionsOf first).map (·.notYet "f") ++
      (questionsOf last).map (·.settled (answerFor "f" outcome)) ∧
    s.wait? = some (answerFor "f" outcome) := by
  have hseen : ((begin (Workshop.new 1 {}) false seven "f").run patient).map
      (fun s => (s.replies, s.wait?)) =
        some ([.result (.error (.timeout "f" ⟨5⟩)), .ready false, .ready true,
          .result (.ok (.int32 7)), .result (.ok (.int32 7))], some (.ok (.int32 7))) := rfl
  obtain ⟨s, hrun, hsaw⟩ := Option.map_eq_some_iff.mp hseen
  obtain ⟨hreplies, hwait⟩ := Prod.mk.inj hsaw
  have howner : .other (.receive 0) ∉ patient := by
    simp [patient]
  have hnew : (Workshop.new 1 {} : CallWorkshop).run [] = some (Workshop.new 1 {}) := rfl
  rcases one_outcome hnew rfl false seven "f" howner hrun with
    ⟨-, hgoes, -⟩ | ⟨outcome, first, e, last, t, hevents, -, hends, hboth, hanswer⟩
  · rw [hwait] at hgoes
    contradiction
  · exact ⟨s, t, outcome, first, e, last, hrun, hreplies, hevents, hends, hboth, hanswer⟩

end Waiting

end CBind
