import CBind.Proofs.Testing.Verdicts

/-!
# Which files are skipped

Before a file is built, its source is looked through for names of tests: names of functions, and of those
definitions that the reader gives up. After the build, cases are made of what the module binds and of what it
reports, which includes functions that the library does not export. Both go back to the definitions of the
source that are named like tests, so a file is skipped exactly if its module would give no case, whatever
its library exports. A file that cannot be read is not skipped.

A source is looked through and built in the same state of the files. Nothing is said of one that somebody
else changes in between.
-/

namespace CBind.Source

/-! ## Names of tests in findings -/

/-- Whether a finding is looked for by the name that it has. -/
def Finding.IsFoundByName (finding : Finding) : Prop :=
  finding.namesTest = finding.name?.any isTestName

/-- A fault of a header is looked for by the function that it is about. -/
theorem namesTest_toFault (location : Location) (fault : HeaderFault) :
    Finding.namesTest (.error (fault.toFault location)) = fault.name?.any isTestName := by
  cases fault with
  | declarator fault => cases fault <;> rfl
  | parameter name fault => cases fault <;> rfl
  | _ => rfl

/-- What a header gives is looked for by the name that it has. -/
theorem isFoundByName_mapError (location : Location) (result : Except HeaderFault Descriptor) :
    Finding.IsFoundByName (result.mapError (HeaderFault.toFault location)) := by
  cases result with
  | ok d => rfl
  | error fault =>
    exact (namesTest_toFault location fault).trans
      (congrArg (Option.any isTestName) (function?_toFault location fault)).symm

/-- Looking at a block adds only findings that are looked for by their names. -/
theorem Progress.isFoundByName_readBlock (p : Progress) (file : String) (tokens header : List Placed)
    (h : ∀ finding ∈ p.findings, finding.IsFoundByName) :
    ∀ finding ∈ (p.readBlock file tokens header).findings, finding.IsFoundByName := by
  rcases p.readBlock_cases file tokens header with
    ⟨-, hread⟩ | ⟨first, rest, -, ⟨fault, -, hread⟩ | ⟨d, -, -, hread⟩ | ⟨d, -, -, hread⟩⟩ <;> rw [hread]
  · exact h
  all_goals
    refine List.forall_mem_append.mpr ⟨h, fun finding hfinding => ?_⟩
    rw [List.mem_singleton.mp hfinding]
  · exact isFoundByName_mapError ⟨file, first.line⟩ (.error (.declarator fault))
  · exact isFoundByName_mapError ⟨file, first.line⟩ (.error (.duplicate d.name))
  · exact isFoundByName_mapError _ _

/-- Every finding of a text is looked for by its name. -/
theorem isFoundByName_of_mem_findings {file text : String} {finding : Finding}
    (h : finding ∈ (readSource file text).findings) : finding.IsFoundByName := by
  suffices hall : ∀ (headers : List (List Placed)) (p : Progress),
      (∀ finding ∈ p.findings, finding.IsFoundByName) →
      ∀ finding ∈ (headers.foldl (Progress.readBlock file (tokenize text)) p).findings,
        finding.IsFoundByName from
    hall (blockHeaders (tokenize text)) {} (fun _ hnone => nomatch hnone) finding h
  intro headers
  induction headers with
  | nil => exact fun p hp => hp
  | cons header rest ih => exact fun p hp => ih _ (p.isFoundByName_readBlock file _ header hp)

/-- A finding with the name of a test is found exactly if the text defines a test. -/
theorem any_namesTest_iff (file text : String) :
    (readSource file text).findings.any Finding.namesTest = true ↔ definedTests text ≠ [] := by
  have hdefined : definedTests text =
      ((readSource file text).findings.filterMap Finding.name?).filter isTestName :=
    congrArg (List.filter isTestName) (names_readTokens file (tokenize text)).symm
  rw [hdefined, List.any_eq_true]
  constructor
  · rintro ⟨finding, hfinding, htest⟩
    rw [isFoundByName_of_mem_findings hfinding, Option.any_eq_true] at htest
    obtain ⟨name, hname, htest⟩ := htest
    have hmem := List.mem_filterMap.mpr ⟨finding, hfinding, hname⟩
    exact List.ne_nil_of_mem (List.mem_filter.mpr ⟨hmem, htest⟩)
  · intro hsome
    obtain ⟨name, hname⟩ := List.exists_mem_of_ne_nil _ hsome
    obtain ⟨hmem, htest⟩ := List.mem_filter.mp hname
    obtain ⟨finding, hfinding, hname⟩ := List.mem_filterMap.mp hmem
    refine ⟨finding, hfinding, ?_⟩
    rw [isFoundByName_of_mem_findings hfinding, hname]
    exact htest

end CBind.Source

namespace CBind

open CBind.Source CBind.Text

variable {files : Files} {path text : String}

/-! ## One file -/

/-- A source that can be read is looked at exactly if it defines a test. -/
theorem declaresTests_iff (h : files.readText path = .ok text) :
    declaresTests files path = true ↔ definedTests text ≠ [] := by
  rw [declaresTests, readSourceFile, h]
  exact any_namesTest_iff path text

/-- A source that cannot be read is looked at. -/
theorem declaresTests_of_unreadable {fault : Fault} (h : readSourceFile files path = .error fault) :
    declaresTests files path = true := by
  rw [declaresTests, h]

/-- A module of a text gives a case exactly if the text defines a test, whatever the library exports. -/
theorem Module.Splits.cases_ne_nil_iff {module : Module} {file : String} {exported : String → Bool}
    (h : module.Splits (readSource file text) exported) (isolation : Isolation) (p : Process) :
    (runModule isolation module p).1 ≠ [] ↔ definedTests text ≠ [] := by
  have hlength := (h.perm_cases isolation p).length_eq
  rw [List.length_map] at hlength
  rw [← List.length_pos_iff, ← List.length_pos_iff, hlength]

/-- Looking through a text before the build and running the module that was loaded from the same text
agree on whether there are tests. -/
theorem declaresTests_iff_cases {m : Machine} {b : Bridge} {request : BuildRequest} {w : World}
    {module : Module} (hloaded : (b.loadRequest m request w).1 = .ok module)
    (hread : w.files.readText request.source = .ok text) (hlooked : files.readText path = .ok text)
    (isolation : Isolation) (p : Process) :
    declaresTests files path = true ↔ (runModule isolation module p).1 ≠ [] := by
  obtain ⟨loaded, exported, htext, hsplits⟩ := Bridge.splits_of_loadRequest hloaded
  obtain rfl : loaded = text := Except.ok.inj (htext.symm.trans hread)
  rw [declaresTests_iff hlooked, hsplits.cases_ne_nil_iff]

/-! ## A run over sources -/

namespace Bridge

/-- The reports of a run leave no test out: as its turn comes, a source either has its report, with a
fault or with a case, or it can be read and gives no case however it is loaded then. -/
inductive Covers (m : Machine) (isolation : Isolation) :
    List String → Bridge → World → List FileReport → Prop
  | done {b : Bridge} {w : World} : Covers m isolation [] b w []
  | ran {source : String} {rest : List String} {b : Bridge} {w : World} {reports : List FileReport}
      (shows : (b.runFile m isolation source w).1.fault.isSome = true ∨
        (b.runFile m isolation source w).1.cases ≠ [])
      (others : Covers m isolation rest (b.runFile m isolation source w).2.1
        (b.runFile m isolation source w).2.2 reports) :
      Covers m isolation (source :: rest) b w ((b.runFile m isolation source w).1 :: reports)
  | skipped {source text : String} {rest : List String} {b : Bridge} {w : World}
      {reports : List FileReport} (readable : w.files.readText source = .ok text)
      (empty : ∀ module, (b.load m source w).1 = .ok module → ∀ p, (runModule isolation module p).1 = [])
      (others : Covers m isolation rest b w reports) :
      Covers m isolation (source :: rest) b w reports

/-- The report of a source that was looked at has a fault or a case. -/
theorem shows_runFile {m : Machine} {isolation : Isolation} {b : Bridge} {source : String} {w : World}
    (h : declaresTests w.files source = true) :
    (b.runFile m isolation source w).1.fault.isSome = true ∨
      (b.runFile m isolation source w).1.cases ≠ [] := by
  unfold runFile
  rcases hload : b.load m source w with ⟨fault | module, after, later⟩
  · exact .inl rfl
  · have hloaded : (b.loadRequest m { source } w).1 = .ok module := congrArg Prod.fst hload
    obtain ⟨text, -, hread, -⟩ := splits_of_loadRequest hloaded
    exact .inr ((declaresTests_iff_cases hloaded hread hread isolation later.process).mp h)

/-- A source that was skipped can be read, and a module that is loaded from it gives no case. -/
theorem empty_of_skipped {m : Machine} {b : Bridge} {source : String} {w : World}
    (h : ¬declaresTests w.files source = true) :
    ∃ text, w.files.readText source = .ok text ∧ ∀ module, (b.load m source w).1 = .ok module →
      ∀ (isolation : Isolation) (p : Process), (runModule isolation module p).1 = [] := by
  cases hread : w.files.readText source with
  | error fault =>
    have hunread : readSourceFile w.files source = .error (.file source fault.message) := by
      rw [readSourceFile, hread]
    exact absurd (declaresTests_of_unreadable hunread) h
  | ok text =>
    refine ⟨text, rfl, fun module hload isolation p => ?_⟩
    have hloaded : (b.loadRequest m { source } w).1 = .ok module := hload
    by_contra hcases
    exact h ((declaresTests_iff_cases hloaded hread hread isolation p).mpr hcases)

/-- The reports of a run leave no test out. -/
theorem covers_runFiles (m : Machine) (isolation : Isolation) (sources : List String) (b : Bridge)
    (w : World) : Covers m isolation sources b w (runFiles m isolation sources b w).1 := by
  induction sources generalizing b w with
  | nil => exact .done
  | cons source rest ih =>
    unfold runFiles
    by_cases htests : declaresTests w.files source = true
    · rw [if_pos htests]
      exact .ran (shows_runFile htests) (ih _ _)
    · rw [if_neg htests]
      obtain ⟨text, hread, hempty⟩ := empty_of_skipped (m := m) (b := b) htests
      exact .skipped hread (fun module hloaded => hempty module hloaded isolation) (ih b w)

end Bridge

/-- Skipping never hides a test. Whatever the text of a source and whatever its library exports, the source
is looked at exactly if the module that is loaded from the same text gives a case. A source that cannot be
read is looked at. And so, in a run over any sources, each has a report with a fault or a case, or holds no
test. -/
theorem skipping_hides_no_test (m : Machine) (isolation : Isolation) :
    (∀ (files : Files) (path text : String), files.readText path = .ok text →
      ∀ (b : Bridge) (request : BuildRequest) (w : World) (module : Module),
        w.files.readText request.source = .ok text → (b.loadRequest m request w).1 = .ok module →
        ∀ p, declaresTests files path = true ↔ (runModule isolation module p).1 ≠ []) ∧
    (∀ (files : Files) (path : String) (fault : Fault), readSourceFile files path = .error fault →
      declaresTests files path = true) ∧
    ∀ (sources : List String) (b : Bridge) (w : World),
      Bridge.Covers m isolation sources b w (b.runFiles m isolation sources w).1 := by
  refine ⟨?_, fun files path fault => declaresTests_of_unreadable, fun sources b w => ?_⟩
  · intro files path text hlooked b request w module hread hloaded p
    exact declaresTests_iff_cases hloaded hread hlooked isolation p
  · exact Bridge.covers_runFiles m isolation sources b w

/-! ## A test that no library exports -/

namespace StaticTest

/-- The working folder: a source with a test that is not exported, and one without tests. -/
def world : World where
  files :=
    { root := .folder ['w']
        (.file "hidden.c".toList ⟨utf8 "static int test_half() \x7b return 0; \x7d\n", .denied⟩
          (.file "plain.c".toList ⟨utf8 "int f(int x) \x7b return x; \x7d\n", .denied⟩ .done)) .done
      home := [['w']] }
  process := {}

/-- What a bridge makes of the source with the test. -/
def loading : Except Fault Module × Bridge × World :=
  StaticHelper.bridge.loadRequest StaticHelper.machine { source := "hidden.c" } world

/-- A run over both sources and a file that does not exist leaves out the source without tests only. -/
example : ((StaticHelper.bridge.runFiles StaticHelper.machine .inProcess
      ["hidden.c", "plain.c", "gone.c"] world).1.map fun report =>
        (report.source, report.cases.map (·.name), report.fault.isSome)) =
    [("hidden.c", ["test_half"], false), ("gone.c", [], true)] := by
  decide +kernel

/-- The test is not exported, yet the source is looked at and gives a case; so is a file that does not
exist; and a run over both and the source without tests leaves nothing out. -/
theorem hides_no_test : (∃ module, loading.1 = .ok module ∧ module.bindings = [] ∧
      (runModule .inProcess module world.process).1 ≠ []) ∧
    declaresTests world.files "gone.c" = true ∧
    Bridge.Covers StaticHelper.machine .inProcess ["hidden.c", "plain.c", "gone.c"] StaticHelper.bridge
      world (StaticHelper.bridge.runFiles StaticHelper.machine .inProcess
        ["hidden.c", "plain.c", "gone.c"] world).1 := by
  obtain ⟨hagree, hunreadable, hcovers⟩ := skipping_hides_no_test StaticHelper.machine .inProcess
  have hread : world.files.readText "hidden.c" = .ok "static int test_half() \x7b return 0; \x7d\n" := by
    decide +kernel
  have hlooked : declaresTests world.files "hidden.c" = true := by decide +kernel
  have hbound : loading.1.toOption.map (·.bindings.length) = some 0 := by decide +kernel
  have hmissing : world.files.readText "gone.c" = .error .notFound := by decide +kernel
  have hgone : readSourceFile world.files "gone.c" = .error (.file "gone.c" FileFault.notFound.message) := by
    rw [readSourceFile, hmissing]
  refine ⟨?_, hunreadable _ _ _ hgone, hcovers _ _ _⟩
  cases hloaded : loading.1 with
  | error fault =>
    rw [hloaded] at hbound
    contradiction
  | ok module =>
    rw [hloaded] at hbound
    have hnone := List.length_eq_zero_iff.mp (Option.some.inj hbound)
    exact ⟨module, rfl, hnone, (hagree _ _ _ hread StaticHelper.bridge { source := "hidden.c" } world module
      hread hloaded world.process).mp hlooked⟩

end StaticTest

end CBind
