import CBind.Proofs.Library.Reporting
import CBind.Proofs.Testing.Isolated

/-!
# Which cases the tests of a module give

The bound tests of a module run one after the other, in the order of its source, and each finds the process
as the one before left it. What was skipped although it is named like a test is sorted by line and merged
into the cases of these. A module comes from a source whose functions stand in the order of their lines, so
the merged cases stand in that order too.

What running one test comes to is said from the call of its code on, and not by the functions that run it: a
test is called once, in the process or in a copy, and its outcome is that of the value the call returned, or the
end of the copy.
-/

namespace CBind

open CBind.Source CBind.Text

/-- Whether a case stands on no later line than another. -/
def TestCase.lineLE (a b : TestCase) : Bool :=
  a.location.line ≤ b.location.line

/-- Run tests one after the other, each where the one before left the process. -/
def runEach (isolation : Isolation) : List Binding → Process → List TestCase × Process
  | [], p => ([], p)
  | b :: rest, p =>
    let (outcome, p) := runIsolated isolation b p
    let (cases, p) := runEach isolation rest p
    (⟨b.name, b.descriptor.location, outcome⟩ :: cases, p)

/-- What running a function as a test comes to. A function without the signature of a test is not called. Any
other is called without arguments, in the process itself, or in a copy of it while the process stays as it is;
the value that the call returned tells the outcome, unless the copy has ended. -/
inductive RunsTest (b : Binding) (p : Process) : Isolation → TestOutcome → Process → Prop
  | refused {isolation : Isolation} {fault : TestSetupFault} (hfault : encodingOf b.descriptor = .error fault) :
      RunsTest b p isolation (.setupError fault.message) p
  | called {v : Value} {q : Process} (htest : b.descriptor.IsTest) (hcall : b.callSync [] p = (.ok v, q)) :
      RunsTest b p .inProcess (outcomeOfValue q.state.memory v) q
  | returned {v : Value} {q : Process} (htest : b.descriptor.IsTest) (hcall : b.callSync [] p = (.ok v, q))
      (hgoesOn : q.state.ended = none) : RunsTest b p .fork (outcomeOfValue q.state.memory v) p
  | exited {v : Value} {q : Process} {status : Nat} (htest : b.descriptor.IsTest)
      (hcall : b.callSync [] p = (.ok v, q)) (hended : q.state.ended = some (.exited status)) :
      RunsTest b p .fork (.fail (some ("test process exited with status " ++ decimal (status % 256) ++
        " without reporting"))) p
  | killed {v : Value} {q : Process} {signal : Int} (htest : b.descriptor.IsTest)
      (hcall : b.callSync [] p = (.ok v, q)) (hended : q.state.ended = some (.killed signal)) :
      RunsTest b p .fork (.crashed signal) p

/-- Tests run one after the other, each once and where the one before left the process; each gives a case with
its name, its place and its outcome. -/
inductive RunsTests (isolation : Isolation) : List Binding → Process → List TestCase → Process → Prop
  | done (p : Process) : RunsTests isolation [] p [] p
  | next {b : Binding} {rest : List Binding} {p q r : Process} {o : TestOutcome} {cases : List TestCase}
      (hone : RunsTest b p isolation o q) (hrest : RunsTests isolation rest q cases r) :
      RunsTests isolation (b :: rest) p (⟨b.name, b.descriptor.location, o⟩ :: cases) r

/-- The case of a fault that is about a test and points at its place: it has the name, the place and the
text of the fault. -/
def Fault.setupCase? (fault : Fault) : Option TestCase :=
  match fault.function?, fault.location? with
  | some name, some location =>
    if isTestName name then some ⟨name, location, .setupError fault.message⟩ else none
  | _, _ => none

/-! ## Running tests -/

/-- Running a test calls it once, and gives the outcome of that call. -/
theorem runsTest_runIsolated (isolation : Isolation) (b : Binding) (p : Process) :
    RunsTest b p isolation (runIsolated isolation b p).1 (runIsolated isolation b p).2 := by
  rcases encodingOf_cases b.descriptor with ⟨htest, e, he⟩ | ⟨-, fault, hfault⟩
  · have hcall := Binding.callSync_nil htest.1 p
    cases isolation with
    | inProcess =>
      rw [show runIsolated .inProcess b p = runOne b p from rfl, runOne_of_isTest htest]
      exact .called htest hcall
    | fork =>
      have hcopy : runIsolated .fork b p = (runForked (childRun (runOne b p).1 (runOne b p).2), p) := by
        unfold runIsolated
        rw [he]
      rw [hcopy]
      have hcrashed := runOne_ne_crashed b p
      rw [runOne_of_isTest htest] at hcrashed ⊢
      dsimp only
      rw [childRun]
      cases hended : (p.call b.address []).2.state.ended with
      | none =>
        rw [runForked_returns hcrashed]
        exact .returned htest hcall hended
      | some how =>
        cases how with
        | exited status => exact .exited htest hcall hended
        | killed signal => exact .killed htest hcall hended
  · have hnotCalled : runIsolated isolation b p = (.setupError fault.message, p) := by
      rw [← runOne_of_fault hfault p]
      unfold runIsolated
      rw [hfault]
      cases isolation <;> rfl
    rw [hnotCalled]
    exact .refused hfault

/-- Running tests one after the other runs each of them once. -/
theorem runsTests_runEach (isolation : Isolation) (tests : List Binding) (p : Process) :
    RunsTests isolation tests p (runEach isolation tests p).1 (runEach isolation tests p).2 := by
  induction tests generalizing p with
  | nil => exact .done p
  | cons b rest ih => exact .next (runsTest_runIsolated isolation b p) (ih _)

/-! ## Merging by line -/

/-- Merging puts in front of an element what has to stand before it. -/
theorem merge_cons_eq {α : Type} (le : α → α → Bool) (a : α) (l r : List α) :
    (a :: l).merge r le =
      r.takeWhile (fun b => !le a b) ++ a :: l.merge (r.dropWhile fun b => !le a b) le := by
  induction r with
  | nil => simp
  | cons b r ih =>
    rw [List.cons_merge_cons]
    by_cases hab : le a b = true
    · simp [hab]
    · simp [hab, ih]

/-- Merging keeps the order of the first list. -/
theorem sublist_merge {α : Type} (le : α → α → Bool) (l r : List α) : l.Sublist (l.merge r le) := by
  induction l generalizing r with
  | nil => exact List.nil_sublist _
  | cons a l ih =>
    rw [merge_cons_eq]
    exact ((ih _).cons_cons a).trans (List.sublist_append_right _ _)

/-- Lines are compared transitively. -/
theorem TestCase.lineLE_trans (a b c : TestCase) (hab : a.lineLE b = true) (hbc : b.lineLE c = true) :
    a.lineLE c = true := by
  simp only [lineLE, decide_eq_true_eq] at *
  omega

/-- Of two cases one stands on no later line than the other. -/
theorem TestCase.lineLE_total (a b : TestCase) : (a.lineLE b || b.lineLE a) = true := by
  simp only [lineLE, Bool.or_eq_true, decide_eq_true_eq]
  omega

/-- Running tests with skipped cases between them is running them and merging by line. -/
theorem runInOrder_eq (isolation : Isolation) (tests : List Binding) (skipped : List TestCase)
    (p : Process) :
    runInOrder isolation tests skipped p =
      ((runEach isolation tests p).1.merge skipped TestCase.lineLE, (runEach isolation tests p).2) := by
  -- What is taken from the front before a test is what merging puts in front of its case.
  induction tests generalizing skipped p with
  | nil => simp [runInOrder, runEach]
  | cons b rest ih =>
    have hbefore : (fun c : TestCase => !TestCase.lineLE ⟨b.name, b.descriptor.location,
        (runIsolated isolation b p).1⟩ c) = fun c => decide (c.location.line < b.descriptor.location.line) := by
      funext c
      rw [TestCase.lineLE, ← decide_not, decide_eq_decide, Nat.not_le]
    simp only [runInOrder, runEach, ih]
    rw [merge_cons_eq, hbefore]

/-- Each test gives a case with its name and its place. -/
theorem map_runEach (isolation : Isolation) (tests : List Binding) (p : Process) :
    (runEach isolation tests p).1.map (fun c => (c.name, c.location)) =
      tests.map fun b => (b.name, b.descriptor.location) := by
  induction tests generalizing p with
  | nil => rfl
  | cons b rest ih =>
    simp only [runEach, List.map_cons]
    rw [ih]

/-- The cases of tests are named like the tests. -/
theorem names_runEach (isolation : Isolation) (tests : List Binding) (p : Process) :
    (runEach isolation tests p).1.map (·.name) = tests.map (·.name) := by
  simpa [Function.comp_def] using congrArg (List.map Prod.fst) (map_runEach isolation tests p)

/-- Tests that stand in the order of their lines give cases in that order. -/
theorem pairwise_runEach (isolation : Isolation) {tests : List Binding}
    (h : tests.Pairwise (·.descriptor.location.line ≤ ·.descriptor.location.line)) (p : Process) :
    (runEach isolation tests p).1.Pairwise fun a b => a.lineLE b = true := by
  have hlines : (runEach isolation tests p).1.map (·.location.line) =
      tests.map (·.descriptor.location.line) := by
    simpa [Function.comp_def] using
      congrArg (List.map fun place : String × Location => place.2.line) (map_runEach isolation tests p)
  rw [← List.pairwise_map (f := fun x : Binding => x.descriptor.location.line) (R := (· ≤ ·)), ← hlines,
    List.pairwise_map] at h
  exact h.imp fun hline => decide_eq_true hline

/-- A skipped definition is reported by the name, the place and the text of its fault. -/
theorem skippedCase?_eq (fault : Fault) : skippedCase? fault = fault.setupCase? := by
  cases fault with
  | parse function location message => cases function <;> rfl
  | symbolNotFound function location library => cases location <;> rfl
  | _ => rfl

/-- The skipped cases are those of the faults, sorted by line. -/
theorem skippedCases_eq (skipped : List Fault) :
    skippedCases skipped = (skipped.filterMap Fault.setupCase?).mergeSort TestCase.lineLE := by
  unfold skippedCases
  rw [funext skippedCase?_eq]
  rfl

/-- The cases of a module are those of its tests, with those of its skipped definitions merged in. -/
theorem runModule_eq (isolation : Isolation) (module : Module) (p : Process) :
    runModule isolation module p =
      ((runEach isolation (module.bindings.filter (isTestName ·.name)) p).1.merge
          ((module.report.skipped.filterMap Fault.setupCase?).mergeSort TestCase.lineLE) TestCase.lineLE,
        (runEach isolation (module.bindings.filter (isTestName ·.name)) p).2) := by
  rw [runModule, runInOrder_eq, skippedCases_eq]

/-- The cases of a module are those of its tests and those of its skipped definitions. -/
theorem perm_runModule (isolation : Isolation) (module : Module) (p : Process) :
    (runModule isolation module p).1.Perm
      ((runEach isolation (module.bindings.filter (isTestName ·.name)) p).1 ++
        module.report.skipped.filterMap Fault.setupCase?) := by
  rw [runModule_eq]
  exact (List.merge_perm_append _).trans ((List.mergeSort_perm _ _).append_left _)

/-! ## Modules that come from a source -/

/-- A module binds the described functions that are exported and reports all other definitions of a
reading: what the reader gave up, then what is not exported. -/
structure Module.Splits (module : Module) (r : Reading) (exported : String → Bool) : Prop where
  bound : module.bindings.map (·.descriptor) = r.descriptors.filter (exported ·.name)
  skipped : module.report.skipped = r.diagnostics ++
    (r.descriptors.filter (!exported ·.name)).map fun d =>
      .symbolNotFound d.name (some d.location) module.report.library

/-- A module that a bridge gives splits what was read of its source. -/
theorem Bridge.splits_of_loadRequest {m : Machine} {b : Bridge} {request : BuildRequest} {w : World}
    {module : Module} (h : (b.loadRequest m request w).1 = .ok module) :
    ∃ text exported, w.files.readText request.source = .ok text ∧
      module.Splits (readSource request.source text) exported := by
  unfold loadRequest at h
  split at h
  · cases h
  next r hread =>
  split at h
  · cases h
  next artifact builder files hbuilt =>
  obtain ⟨text, htext, rfl⟩ : ∃ text, w.files.readText request.source = .ok text ∧
      r = readSource request.source text := by
    unfold readSourceFile at hread
    split at hread
    · contradiction
    next text htext => exact ⟨text, htext, (Except.ok.inj hread).symm⟩
  simp only [loadArtifact, Library.load] at h
  split at h
  · cases h
  next image hopened =>
  obtain rfl := Except.ok.inj h
  refine ⟨text, _, htext, Module.map_descriptor_bindAll _ _, ?_⟩
  exact congrArg (_ ++ ·) (Module.map_placeMissing fun d hd => find?_of_mem_descriptors hd)

/-- The places of described functions are places of findings. -/
theorem sublist_locations_descriptors (r : Reading) :
    (r.descriptors.map fun d => some d.location).Sublist (r.findings.map Finding.location?) := by
  refine sublist_map_filterMap (fun finding d h => ?_) _
  cases finding <;> cases h
  rfl

/-- The functions of a text stand in the order of their lines. -/
theorem pairwise_line_descriptors (file text : String) :
    (readSource file text).descriptors.Pairwise (·.location.line ≤ ·.location.line) := by
  obtain ⟨lines, hlines, hsorted⟩ := (linesUp_readTokens file
    (pairwise_tokensFrom 1 (lexemes text.toList))).sublist (sublist_locations_descriptors
      (readSource file text))
  have hmapped : (readSource file text).descriptors.map (·.location.line) = lines := by
    have := congrArg (List.map fun place : Option Location => (place.map (·.line)).getD 0) hlines
    rwa [List.map_map, List.map_map, show (fun place : Option Location => (place.map (·.line)).getD 0) ∘
      (fun n => some (⟨file, n⟩ : Location)) = id from rfl, List.map_id] at this
  rw [← hmapped, List.pairwise_map] at hsorted
  exact hsorted

/-- The tests of a module that comes from a source stand in the order of the source. -/
theorem Module.Splits.sublist_tests {module : Module} {r : Reading} {exported : String → Bool}
    (h : module.Splits r exported) :
    ((module.bindings.filter (isTestName ·.name)).map (·.descriptor)).Sublist r.descriptors := by
  have hbound : (module.bindings.map (·.descriptor)).Sublist r.descriptors :=
    h.bound ▸ List.filter_sublist
  exact (List.filter_sublist.map _).trans hbound

/-- The tests of a module that comes from a source stand in the order of their lines. -/
theorem Module.Splits.pairwise_line_tests {module : Module} {file text : String} {exported : String → Bool}
    (h : module.Splits (readSource file text) exported) :
    (module.bindings.filter (isTestName ·.name)).Pairwise
      (·.descriptor.location.line ≤ ·.descriptor.location.line) := by
  have hsorted := (pairwise_line_descriptors file text).sublist h.sublist_tests
  rwa [List.pairwise_map] at hsorted

/-- Discovery neither drops nor repeats nor reorders. The tests of a module that was loaded from a source are
run in the order of the source, each once and where the one before left the process, and each gives one case,
with its name, its place and the outcome of its call. Each skipped fault that is about a test and points at a
place gives one case, with the name, the place and the text of the fault. There is no other case, and the lines
of the cases do not decrease. -/
theorem runModule_discovers (m : Machine) (b : Bridge) (request : BuildRequest) (w : World)
    {module : Module} (hloaded : (b.loadRequest m request w).1 = .ok module) (isolation : Isolation)
    (p : Process) :
    let tests := module.bindings.filter (isTestName ·.name)
    let cases := (runModule isolation module p).1
    ∃ ran, RunsTests isolation tests p ran (runModule isolation module p).2 ∧
      ran.map (fun c => (c.name, c.location)) = tests.map (fun x => (x.name, x.descriptor.location)) ∧
      cases.Perm (ran ++ module.report.skipped.filterMap Fault.setupCase?) ∧
      cases.Pairwise (·.location.line ≤ ·.location.line) ∧ ran.Sublist cases ∧
      ∃ r, readSourceFile w.files request.source = .ok r ∧
        (tests.map (·.descriptor)).Sublist r.descriptors := by
  intro tests cases
  obtain ⟨text, exported, htext, hsplits⟩ := Bridge.splits_of_loadRequest hloaded
  have hread : readSourceFile w.files request.source = .ok (readSource request.source text) := by
    rw [readSourceFile, htext]
  have hcases : cases = (runEach isolation tests p).1.merge
      ((module.report.skipped.filterMap Fault.setupCase?).mergeSort TestCase.lineLE) TestCase.lineLE :=
    congrArg Prod.fst (runModule_eq isolation module p)
  have hafter : (runModule isolation module p).2 = (runEach isolation tests p).2 := by
    rw [runModule_eq]
  have hsorted := pairwise_runEach isolation hsplits.pairwise_line_tests p
  refine ⟨(runEach isolation tests p).1, ?_, map_runEach isolation tests p,
    perm_runModule isolation module p, ?_, ?_, _, hread, hsplits.sublist_tests⟩
  · rw [hafter]
    exact runsTests_runEach isolation tests p
  · rw [hcases]
    exact (List.pairwise_merge TestCase.lineLE_trans TestCase.lineLE_total _ _ hsorted
      (List.pairwise_mergeSort TestCase.lineLE_trans TestCase.lineLE_total _)).imp
        fun h => of_decide_eq_true h
  · rw [hcases]
    exact sublist_merge _ _ _

/-! ## A source with tests that cannot be bound -/

namespace UnboundTests

/-- A test with a list of any length, a test, and a test that no library exports. -/
def text : String :=
  "int test_a(int n, ...) \x7b return n; \x7d\nint test_b() \x7b return 1; \x7d\n" ++
    "static int test_c() \x7b return 0; \x7d\n"

/-- The source in the working folder. -/
def world : World where
  files :=
    { root := .folder ['w'] (.file "k.c".toList ⟨utf8 text, .denied⟩ .done) .done
      home := [['w']] }
  process := {}

/-- A machine whose compiler writes a library that exports two of the tests. -/
def machine : Machine :=
  { StaticHelper.machine with
    opener := ⟨fun _ _ => some
      { functions := [("test_a", fun _ => .ofFunction (wordAt · 0)),
          ("test_b", fun _ => .ofFunction fun _ => 1)] }⟩ }

/-- What a bridge makes of the source. -/
def loading : Except Fault Module × Bridge × World :=
  StaticHelper.bridge.loadRequest machine { source := "k.c" } world

/-- One test is bound, which reports by a status and whose call returns one; the other two are reported. -/
theorem results_loading : loading.1.toOption.map (fun module =>
    ((module.bindings.filter (isTestName ·.name)).map fun b =>
        (b.name, (encodingOf b.descriptor).toOption, (b.callSync [] loading.2.2.process).1.toOption),
      (module.report.skipped.filterMap Fault.setupCase?).map (·.name))) =
    some ([("test_b", some .status, some (.int32 1))], ["test_a", "test_c"]) := by
  decide +kernel

/-- One test is bound; the other two are reported. -/
theorem names_loading : loading.1.toOption.map (fun module =>
    ((module.bindings.filter (isTestName ·.name)).map (·.name),
      (module.report.skipped.filterMap Fault.setupCase?).map (·.name))) =
    some (["test_b"], ["test_a", "test_c"]) := by
  simpa [Function.comp_def] using
    congrArg (Option.map fun found => (found.1.map Prod.fst, found.2)) results_loading

/-- All three tests give a case, in the order of their lines, and the test that is bound is called and fails. -/
theorem runModule_discovers_three : ∃ module, loading.1 = .ok module ∧
    ((runModule .inProcess module loading.2.2.process).1.map (·.name)).Perm
      ["test_b", "test_a", "test_c"] ∧
    (runModule .inProcess module loading.2.2.process).1.Pairwise (·.location.line ≤ ·.location.line) ∧
    ∃ c ∈ (runModule .inProcess module loading.2.2.process).1, c.name = "test_b" ∧ c.outcome = .fail none := by
  have hnames := names_loading
  have hresults := results_loading
  cases hloaded : loading.1 with
  | error fault =>
    rw [hloaded] at hnames
    contradiction
  | ok module =>
    obtain ⟨ran, hruns, hplaces, hperm, hlines, hsublist, -⟩ := runModule_discovers machine
      StaticHelper.bridge { source := "k.c" } world hloaded .inProcess loading.2.2.process
    rw [hloaded] at hnames hresults
    obtain ⟨htests, hfound⟩ := Prod.mk.inj (Option.some.inj hnames)
    refine ⟨module, rfl, ?_, hlines, ?_⟩
    · have hran : ran.map (·.name) = ["test_b"] := by
        rw [← htests]
        simpa [Function.comp_def] using congrArg (List.map Prod.fst) hplaces
      have hmapped := hperm.map (·.name)
      rwa [List.map_append, hfound, hran] at hmapped
    · obtain ⟨b, hb, hname⟩ := List.map_eq_singleton_iff.mp (Prod.mk.inj (Option.some.inj hresults)).1
      obtain ⟨hname, hresult⟩ := Prod.mk.inj hname
      obtain ⟨hencoding, hcalled⟩ := Prod.mk.inj hresult
      rw [hb] at hruns
      cases hruns with
      | next hone hrest =>
        refine ⟨_, hsublist.subset List.mem_cons_self, hname, ?_⟩
        cases hone with
        | refused hfault =>
          rw [hfault] at hencoding
          contradiction
        | called htest hcall =>
          rw [hcall] at hcalled
          cases hcalled
          rfl

end UnboundTests

end CBind
