import CBind.Proofs.Testing.Outcomes
import CBind.Proofs.Text.Encoding
import CBind.Testing.Pipe
import Mathlib.Logic.Relation

/-!
# Tests in a process of their own

A report is read as the outcome that was written, whatever its text: the first byte alone says which outcome
it is, and what was encoded is decoded without a replacement. So a test that returns has the same outcome in
a copy of its process as in the process itself.

How the report goes through the pipe does not matter. At every point what the parent has read, what is in the
pipe and what the child has still to write are the report. So the parent has all of it once a child that
exited has ended and the pipe is empty; and of one that a signal killed it looks at the signal only.

A pipe and a copy of the process can always be had here. Native code sees the memory of its process, and
nothing that tells a copy of the process from it, such as its number.
-/

namespace CBind

open CBind.Text Relation

/-! ## Reports -/

/-- An outcome other than a crash is read as it was written. -/
theorem TestOutcome.decode?_encode {o : TestOutcome} (h : ∀ signal, o ≠ .crashed signal) :
    decode? o.encode = some o := by
  cases o with
  | pass => rfl
  | fail message =>
    cases message with
    | none => rfl
    | some message =>
      change some (fail (some (textOfUtf8Lossy (utf8 message)))) = _
      rw [textOfUtf8Lossy_utf8]
  | setupError message =>
    change some (setupError (textOfUtf8Lossy (utf8 message))) = _
    rw [textOfUtf8Lossy_utf8]
  | crashed signal => exact absurd rfl (h signal)

/-- A child that returns is concluded to have the outcome that it returned. -/
theorem runForked_returns {o : TestOutcome} (h : ∀ signal, o ≠ .crashed signal) :
    runForked (.returns o) = o := by
  rw [runForked, ChildRun.transcript, concludeOutcome, TestOutcome.decode?_encode h]

/-! ## Two ways to run a test -/

section Running

variable (b : Binding) (p : Process)

/-- A test does not tell that it was killed. -/
theorem runOne_ne_crashed (signal : Int) : (runOne b p).1 ≠ .crashed signal := by
  intro hcrashed
  rcases encodingOf_cases b.descriptor with ⟨htest, -⟩ | ⟨-, fault, hfault⟩
  · rcases runOne_cases htest p with h | h | ⟨message, -, h⟩ <;> rw [h] at hcrashed <;> cases hcrashed
  · rw [runOne_of_fault hfault] at hcrashed
    cases hcrashed

/-- A test that returns has the same outcome in a copy of the process as in the process itself. -/
theorem runIsolated_fork_of_returns (h : (runOne b p).2.state.ended = none) :
    (runIsolated .fork b p).1 = (runIsolated .inProcess b p).1 := by
  unfold runIsolated
  cases encodingOf b.descriptor with
  | error fault => rfl
  | ok encoding =>
    change runForked (childRun (runOne b p).1 (runOne b p).2) = (runOne b p).1
    rw [childRun, h]
    exact runForked_returns (runOne_ne_crashed b p)

/-- A test that is killed in a copy of the process has crashed, and the process goes on as it was. -/
theorem runIsolated_fork_of_killed {signal : Int} (halive : p.state.ended = none)
    (h : (runOne b p).2.state.ended = some (.killed signal)) :
    runIsolated .fork b p = (.crashed signal, p) := by
  unfold runIsolated
  cases hencoding : encodingOf b.descriptor with
  | error fault =>
    rw [runOne_of_fault hencoding, halive] at h
    cases h
  | ok encoding =>
    change (runForked (childRun (runOne b p).1 (runOne b p).2), p) = _
    rw [childRun, h]
    rfl

end Running

/-! ## Through the pipe -/

namespace Exchange

variable {room : Nat} {child : ChildRun} {report : List UInt8} {e next : Exchange}

/-- What holds of a report at every point of its way: no byte of it is lost or changes its place, the child
ends as it does, and it does not exit before everything is written. -/
structure Carries (child : ChildRun) (report : List UInt8) (e : Exchange) : Prop where
  bytes : e.received ++ (e.inPipe ++ e.unwritten) = report
  ended : ∀ how, e.ended = some how → how = child.transcript.2
  wrote : ∀ status, e.ended = some (.exited status) → e.unwritten = []

/-- At first all of a report has to be written. -/
theorem carries_start (child : ChildRun) (report : List UInt8) : Carries child report ⟨report, [], [], none⟩ :=
  ⟨rfl, nofun, nofun⟩

/-- A step carries a report on. -/
theorem Carries.step (h : Carries child report e) (hstep : Step room child e next) :
    Carries child report next := by
  cases hstep with
  | write runs nonempty writes fits =>
    refine ⟨?_, h.ended, fun status hexited => ?_⟩
    · rw [← h.bytes, writes, List.append_assoc]
    · rw [runs] at hexited
      cases hexited
  | read nonempty reads =>
    refine ⟨?_, h.ended, h.wrote⟩
    rw [← h.bytes, reads, List.append_assoc, List.append_assoc]
  | exit runs wrote how =>
    exact ⟨h.bytes, fun _ hhow => how ▸ (Option.some.inj hhow).symm, fun _ _ => wrote⟩
  | die runs how =>
    refine ⟨h.bytes, fun _ hhow => how ▸ (Option.some.inj hhow).symm, fun status hexited => ?_⟩
    cases hexited

/-- Steps carry a report on. -/
theorem Carries.steps (h : Carries child report e) (hsteps : ReflTransGen (Step room child) e next) :
    Carries child report next := by
  induction hsteps with
  | refl => exact h
  | tail _ hstep ih => exact ih.step hstep

/-- What the parent concludes is what it concludes from the whole report. -/
theorem Carries.conclusion?_eq (h : Carries child report e) (hreport : child.MayReport report)
    {o : TestOutcome} (ho : e.conclusion? = some o) : o = runForked child := by
  unfold conclusion? at ho
  split at ho
  next how hended hempty =>
    obtain rfl := h.ended how hended
    rw [← Option.some.inj ho, runForked]
    cases hhow : child.transcript.2 with
    | killed signal => rfl
    | exited status =>
      have hall := h.bytes
      rw [hempty, h.wrote status (hhow ▸ hended), List.append_nil, List.append_nil] at hall
      cases hreport with
      | own => rw [hall]
      | any signal => cases hhow
  next => cases ho

/-- How far an exchange is from its end. -/
def remaining (e : Exchange) : Nat :=
  2 * e.unwritten.length + e.inPipe.length + if e.ended = none then 1 else 0

/-- A step leaves less to be done. -/
theorem remaining_lt (h : Step room child e next) : next.remaining < e.remaining := by
  cases h with
  | write runs nonempty writes fits =>
    have hpos := List.length_pos_iff.mpr nonempty
    simp only [remaining, writes, List.length_append]
    omega
  | read nonempty reads =>
    have hpos := List.length_pos_iff.mpr nonempty
    simp only [remaining, reads, List.length_append]
    omega
  | exit runs wrote how =>
    simp [remaining, runs]
  | die runs how =>
    simp [remaining, runs]

/-- As long as the parent cannot conclude, the child or the parent can take a step. -/
theorem exists_step (hroom : 0 < room) (child : ChildRun) (h : e.conclusion? = none) :
    ∃ next, Step room child e next := by
  cases hpipe : e.inPipe with
  | cons byte rest => exact ⟨_, .read (List.cons_ne_nil byte []) hpipe⟩
  | nil =>
    cases hended : e.ended with
    | some how => simp [conclusion?, hended, hpipe] at h
    | none =>
      cases hunwritten : e.unwritten with
      | cons byte rest =>
        refine ⟨_, .write hended (List.cons_ne_nil byte []) hunwritten ?_⟩
        rw [hpipe]
        exact hroom
      | nil =>
        cases hhow : child.transcript.2 with
        | exited status => exact ⟨_, .exit hended hunwritten hhow⟩
        | killed signal => exact ⟨_, .die hended hhow⟩

/-- An exchange goes on until the parent concludes what it concludes from the whole report. -/
theorem concludes_or_goes_on (hroom : 0 < room) (hreport : child.MayReport report)
    (hsteps : ReflTransGen (Step room child) ⟨report, [], [], none⟩ e) :
    e.conclusion? = some (runForked child) ∨ e.conclusion? = none ∧ ∃ next, Step room child e next := by
  cases hconclusion : e.conclusion? with
  | none => exact .inr ⟨rfl, exists_step hroom child hconclusion⟩
  | some o =>
    rw [((carries_start child report).steps hsteps).conclusion?_eq hreport hconclusion]
    exact .inl rfl

/-- No exchange goes on for ever. -/
theorem wellFounded_step (room : Nat) (child : ChildRun) :
    WellFounded fun next e => Step room child e next :=
  Subrelation.wf remaining_lt (InvImage.wf remaining Nat.lt_wfRel.wf)

end Exchange

/-- Running tests in processes of their own shows nowhere but in crashes. A report is read as the outcome that
was written; a test that returns has the same outcome in a copy of the process as in the process itself; one
that a signal kills in the copy has crashed with that signal. And however the report of a child goes through a
pipe with any room, the parent comes to conclude what it concludes from the child as a whole, which is the
signal alone if there was one, whatever the child was writing. -/
theorem isolation_transparent :
    (∀ o : TestOutcome, (∀ signal, o ≠ .crashed signal) → TestOutcome.decode? o.encode = some o) ∧
    (∀ (b : Binding) (p : Process), (runOne b p).2.state.ended = none →
      (runIsolated .fork b p).1 = (runIsolated .inProcess b p).1) ∧
    (∀ (b : Binding) (p : Process) (signal : Int), p.state.ended = none →
      (runOne b p).2.state.ended = some (.killed signal) → (runIsolated .fork b p).1 = .crashed signal) ∧
    (∀ signal, runForked (.dies signal) = .crashed signal) ∧
    ∀ (room : Nat) (child : ChildRun), 0 < room → (WellFounded fun next e => Exchange.Step room child e next) ∧
      ∀ report, child.MayReport report → ∀ e,
        ReflTransGen (Exchange.Step room child) ⟨report, [], [], none⟩ e →
          e.conclusion? = some (runForked child) ∨
            e.conclusion? = none ∧ ∃ next, Exchange.Step room child e next := by
  refine ⟨fun o => TestOutcome.decode?_encode, runIsolated_fork_of_returns, ?_, fun _ => rfl, ?_⟩
  · intro b p signal halive hkilled
    rw [runIsolated_fork_of_killed b p halive hkilled]
  · intro room child hroom
    refine ⟨Exchange.wellFounded_step room child, fun report hreport e hsteps => ?_⟩
    exact Exchange.concludes_or_goes_on hroom hreport hsteps

/-- A message that starts like the tag of a success arrives, a wrong access in the copy is a crash, and so is a
child that was killed behind the first byte of its report. -/
theorem isolation_transparent_text_and_kill :
    let p : Process := { state := { memory := ⟨#[⟨4096, (utf8 "Pé").toArray.push 0⟩]⟩ },
                         code := [(64, fun _ s => (4096, s))] }
    let killed : Exchange := ⟨[0x50], [], [0x4d], some (.killed 9)⟩
    (runIsolated .fork textTest p).1 = .fail (some "Pé") ∧
      (runIsolated .fork textTest {}).1 = .crashed 11 ∧ killed.conclusion? = some (.crashed 9) := by
  intro p killed
  obtain ⟨-, hreturns, hkilled, hdies, hpipe⟩ := isolation_transparent
  obtain ⟨-, hconcludes⟩ := hpipe 1 (.dies 9) (by decide)
  refine ⟨?_, hkilled textTest {} 11 (by decide) (by decide +kernel), ?_⟩
  · rw [hreturns textTest p (by decide +kernel)]
    decide +kernel
  · have hwrite : Exchange.Step 1 (.dies 9) ⟨[0x4d, 0x50], [], [], none⟩ ⟨[0x50], [0x4d], [], none⟩ :=
      .write rfl (List.cons_ne_nil _ []) rfl (by decide)
    have hread : Exchange.Step 1 (.dies 9) ⟨[0x50], [0x4d], [], none⟩ ⟨[0x50], [], [0x4d], none⟩ :=
      .read (List.cons_ne_nil _ []) rfl
    have hdie : Exchange.Step 1 (.dies 9) ⟨[0x50], [], [0x4d], none⟩ killed := .die rfl rfl
    have hsteps := ((ReflTransGen.single hwrite).tail hread).tail hdie
    rcases hconcludes [0x4d, 0x50] (.any 9 _) killed hsteps with h | ⟨h, -⟩
    · rw [h, hdies]
    · cases h

end CBind
