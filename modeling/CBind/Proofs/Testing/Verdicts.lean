import CBind.Proofs.Testing.Discovery

/-!
# How often a test is reported

A test that was bound and run is reported by its case, and so is each definition that was skipped although
it is named like a test. Nothing compares the names of the two. So a source that defines a test twice, say
once in each branch of a condition, has a case for each definition: the one that is bound, and the one that
the reader gives up as a duplicate. A test has one verdict exactly if the source defines it once.
-/

namespace CBind.Source

/-- The name that the header of a block gives a function, if the header looks like a definition and gets as
far as a name. -/
def headerName? (header : List Placed) : Option String :=
  if looksLikeDefinition (stripAttributes header) then
    match readDeclarator (stripAttributes header) with
    | .ok d => some d.name
    | .error fault => (HeaderFault.declarator fault).name?
  else none

/-- The names of the tests that a text defines, each as often as it is defined. -/
def definedTests (text : String) : List String :=
  ((blockHeaders (tokenize text)).filterMap headerName?).filter isTestName

/-- Looking at a block reports the name that its header gives. -/
theorem Progress.names_readBlock (p : Progress) (file : String) (tokens header : List Placed) :
    (p.readBlock file tokens header).findings.filterMap Finding.name? =
      p.findings.filterMap Finding.name? ++ (headerName? header).toList := by
  have hplaced (fault : HeaderFault) (location : Location) :
      Finding.name? (.error (fault.toFault location)) = fault.name? := function?_toFault location fault
  have hone (finding : Finding) : [finding].filterMap Finding.name? = finding.name?.toList := by
    cases hname : finding.name? <;> simp [hname]
  unfold readBlock headerName?
  dsimp only
  split
  next hlooks =>
    cases hbare : stripAttributes header with
    | nil => simp [hbare, looksLikeDefinition] at hlooks
    | cons first rest =>
      simp only [readHeader]
      cases readDeclarator (first :: rest) with
      | error fault =>
        dsimp only
        rw [List.filterMap_append, hone]
        exact congrArg (_ ++ Option.toList ·) (hplaced _ _)
      | ok d =>
        dsimp only
        split <;> rw [List.filterMap_append, hone]
        · exact congrArg (_ ++ Option.toList ·) (hplaced _ _)
        · exact congrArg (_ ++ Option.toList ·) (name?_mapError_readDefinition _)
  next => rw [Option.toList_none, List.append_nil]

/-- The findings of a token sequence have the names that the headers of its blocks give. -/
theorem names_readTokens (file : String) (tokens : List Placed) :
    (readTokens file tokens).filterMap Finding.name? = (blockHeaders tokens).filterMap headerName? := by
  suffices h : ∀ (headers : List (List Placed)) (p : Progress),
      (headers.foldl (Progress.readBlock file tokens) p).findings.filterMap Finding.name? =
        p.findings.filterMap Finding.name? ++ headers.filterMap headerName? from h _ {}
  intro headers
  induction headers with
  | nil => simp
  | cons header rest ih =>
    intro p
    rw [List.foldl_cons, ih, Progress.names_readBlock, List.append_assoc, List.filterMap_cons]
    cases headerName? header <;> rfl

/-- Each finding is a function that was understood or one that was given up. -/
theorem Reading.perm_names (r : Reading) :
    (r.findings.filterMap Finding.name?).Perm
      (r.descriptors.map (·.name) ++ r.diagnostics.filterMap Fault.function?) := by
  unfold descriptors diagnostics
  induction r.findings with
  | nil => exact .nil
  | cons finding rest ih =>
    cases finding with
    | ok d => exact ih.cons d.name
    | error fault =>
      cases hname : fault.function? with
      | none => simpa [List.filterMap_cons, Finding.name?, hname] using ih
      | some name =>
        simp only [List.filterMap_cons, Finding.name?, hname]
        exact (ih.cons name).trans List.perm_middle.symm

/-- What the reader of a text gives up has a place. -/
theorem isSome_location?_of_mem_diagnostics {file text : String} {fault : Fault}
    (h : fault ∈ (readSource file text).diagnostics) : fault.location?.isSome = true := by
  obtain ⟨lines, hlines, -⟩ := linesUp_readTokens file (pairwise_tokensFrom 1 (lexemes text.toList))
  obtain ⟨finding, hfinding, hfault⟩ := List.mem_filterMap.mp h
  cases finding with
  | ok d => cases hfault
  | error found =>
    obtain rfl : found = fault := Option.some.inj hfault
    have hplace := List.mem_map_of_mem (f := Finding.location?) hfinding
    obtain ⟨line, -, hline⟩ := List.mem_map.mp (hlines ▸ hplace)
    exact Option.isSome_iff_exists.mpr ⟨_, hline.symm⟩

end CBind.Source

namespace CBind

open CBind.Source CBind.Text

/-- The case of a fault that has a place is named like the test that the fault is about. -/
theorem Fault.name_setupCase? {fault : Fault} (h : fault.location?.isSome = true) :
    fault.setupCase?.map (·.name) = fault.function?.filter isTestName := by
  obtain ⟨location, hlocation⟩ := Option.isSome_iff_exists.mp h
  unfold setupCase?
  rw [hlocation]
  cases fault.function? with
  | none => rfl
  | some name =>
    rw [Option.filter_some]
    by_cases hname : isTestName name = true <;> simp [hname]

/-- The cases of faults that have a place are named like the tests that the faults are about. -/
theorem names_setupCases {faults : List Fault} (h : ∀ f ∈ faults, f.location?.isSome = true) :
    (faults.filterMap Fault.setupCase?).map (·.name) =
      (faults.filterMap Fault.function?).filter isTestName := by
  rw [List.map_filterMap, List.filter_filterMap]
  exact List.filterMap_congr fun fault hfault => Fault.name_setupCase? (h fault hfault)

/-- The tests of a module are those of its descriptors that it binds. -/
theorem Module.Splits.names_tests {module : Module} {r : Reading} {exported : String → Bool}
    (h : module.Splits r exported) :
    (module.bindings.filter (isTestName ·.name)).map (·.name) =
      ((r.descriptors.filter (exported ·.name)).map (·.name)).filter isTestName := by
  rw [← h.bound, List.map_map, List.filter_map]
  rfl

/-- Each test that a source defines gives one case, under its name. -/
theorem Module.Splits.perm_cases {module : Module} {file text : String} {exported : String → Bool}
    (h : module.Splits (readSource file text) exported) (isolation : Isolation) (p : Process) :
    ((runModule isolation module p).1.map (·.name)).Perm (definedTests text) := by
  set r := readSource file text
  set bound := r.descriptors.filter (exported ·.name)
  set unbound := r.descriptors.filter (!exported ·.name)
  have hran : (runEach isolation (module.bindings.filter (isTestName ·.name)) p).1.map (·.name) =
      (bound.map (·.name)).filter isTestName := by
    rw [names_runEach, h.names_tests]
  have hskipped : (module.report.skipped.filterMap Fault.setupCase?).map (·.name) =
      (r.diagnostics.filterMap Fault.function? ++ unbound.map (·.name)).filter isTestName := by
    have hnames : (unbound.map fun d => .symbolNotFound d.name (some d.location)
        module.report.library).filterMap Fault.function? = unbound.map (·.name) := by
      rw [List.filterMap_map]
      exact congrFun List.filterMap_eq_map unbound
    rw [h.skipped, names_setupCases, List.filterMap_append, hnames]
    · intro fault hfault
      rcases List.mem_append.mp hfault with hfault | hfault
      · exact isSome_location?_of_mem_diagnostics hfault
      · obtain ⟨d, -, rfl⟩ := List.mem_map.mp hfault
        rfl
  -- What is bound and what is not exported are all descriptors; with the diagnostics they are all findings.
  have hsplit : (bound.map (·.name) ++ (r.diagnostics.filterMap Fault.function? ++ unbound.map (·.name))).Perm
      (r.findings.filterMap Finding.name?) := by
    refine (List.perm_append_comm.append_left _).trans ?_
    rw [← List.append_assoc, ← List.map_append]
    exact (((List.filter_append_perm _ _).map _).append_right _).trans r.perm_names.symm
  refine ((perm_runModule isolation module p).map _).trans ?_
  rw [List.map_append, hran, hskipped, ← List.filter_append, definedTests, ← names_readTokens file]
  exact hsplit.filter _

/-- One verdict per test, exactly if the source defines no test twice. However the library of a module was
made and whatever it exports, no two cases of the module have the same name if and only if no two definitions
of its source give the same test name. -/
theorem oneVerdictEach_iff (m : Machine) (b : Bridge) (request : BuildRequest) (w : World)
    {module : Module} {text : String} (htext : w.files.readText request.source = .ok text)
    (hloaded : (b.loadRequest m request w).1 = .ok module) (isolation : Isolation) (p : Process) :
    ((runModule isolation module p).1.map (·.name)).Nodup ↔ (definedTests text).Nodup := by
  obtain ⟨read, exported, hread, hsplits⟩ := Bridge.splits_of_loadRequest hloaded
  obtain rfl : read = text := Except.ok.inj (hread.symm.trans htext)
  exact (hsplits.perm_cases isolation p).nodup_iff

/-- Three tests that are defined once each have one verdict each. -/
theorem UnboundTests.oneVerdictEach : ∃ module, UnboundTests.loading.1 = .ok module ∧
    ((runModule .inProcess module UnboundTests.loading.2.2.process).1.map (·.name)).Nodup := by
  have htext : UnboundTests.world.files.readText "k.c" = .ok UnboundTests.text := by decide +kernel
  have hnames : (definedTests UnboundTests.text).Nodup := by decide +kernel
  have hbound := UnboundTests.names_loading
  cases hloaded : UnboundTests.loading.1 with
  | error fault =>
    rw [hloaded] at hbound
    contradiction
  | ok module =>
    exact ⟨module, rfl, (oneVerdictEach_iff UnboundTests.machine StaticHelper.bridge { source := "k.c" }
      UnboundTests.world htext hloaded .inProcess _).mpr hnames⟩

/-! ## A test with two definitions -/

namespace Alternatives

/-- A test that is written once for each branch of a condition. -/
def text : String :=
  "#ifdef FAST\nint test_sum(void) \x7b return 0; \x7d\n#else\n" ++
    "int test_sum(void) \x7b return 0; \x7d\n#endif\n"

/-- The source in the working folder. -/
def world : World where
  files :=
    { root := .folder ['w'] (.file "k.c".toList ⟨utf8 text, .denied⟩ .done) .done
      home := [['w']] }
  process := {}

/-- A machine whose compiler writes a library that exports the test. -/
def machine : Machine :=
  { StaticHelper.machine with
    opener := ⟨fun _ _ => some { functions := [("test_sum", fun _ => .ofFunction fun _ => 0)] }⟩ }

/-- What a bridge makes of the source. -/
def loading : Except Fault Module × Bridge × World :=
  StaticHelper.bridge.loadRequest machine { source := "k.c" } world

/-- What running the tests gives. -/
theorem cases_loading : loading.1.toOption.map (fun module =>
    (runModule .inProcess module loading.2.2.process).1.map fun c => (c.name, c.outcome)) =
    some [("test_sum", .pass),
      ("test_sum", .setupError "parse error at k.c:4: duplicate definition of 'test_sum'")] := by
  decide +kernel

/-- The test is bound, runs and passes, and is reported a second time as one that cannot be bound. -/
theorem two_verdicts : ∃ module, loading.1 = .ok module ∧
    ((runModule .inProcess module loading.2.2.process).1.map fun c => (c.name, c.outcome)) =
      [("test_sum", .pass),
        ("test_sum", .setupError "parse error at k.c:4: duplicate definition of 'test_sum'")] ∧
    ¬((runModule .inProcess module loading.2.2.process).1.map (·.name)).Nodup := by
  have hcases := cases_loading
  cases hloaded : loading.1 with
  | error fault =>
    rw [hloaded] at hcases
    contradiction
  | ok module =>
    rw [hloaded] at hcases
    have hcases := Option.some.inj hcases
    have hnames : (runModule .inProcess module loading.2.2.process).1.map (·.name) =
        ["test_sum", "test_sum"] := by
      simpa [Function.comp_def] using congrArg (List.map Prod.fst) hcases
    refine ⟨module, rfl, hcases, ?_⟩
    rw [hnames]
    decide

end Alternatives

end CBind
