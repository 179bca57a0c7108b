import CBind.Proofs.Build.SideBySide

/-!
# A build alone

The steps of a build that nobody disturbs, one after the other, are what a call of the builder does in one
go: the same answer, the same files, and the builder is left the same. So what is proved of builds side by
side is proved of the calls of builders.

A program that was started is taken as one that does what it likes to other files and then goes through a
list of acts on its output file.
-/

namespace CBind

open Digest Toolchain

/-- What acts leave behind, one after the other. -/
def CompilerAct.performAll (path : String) (written : Option (List UInt8)) (files : Files) :
    List CompilerAct → Option (List UInt8) × Files
  | [] => (written, files)
  | act :: acts =>
    performAll path (act.perform path written files).1 (act.perform path written files).2 acts

/-- The temporary file does not depend on what is written to it. -/
theorem Builder.temporaryPath_written (b : Builder) (r : BuildRequest) (o : BuildOutput)
    (written : Option (List UInt8)) : b.temporaryPath r { o with written } = b.temporaryPath r o := rfl

namespace Site

/-- The compiler leaves the cache alone, apart from its output file, which it opens, adds to and removes. -/
def WritesByActs (s : Site) (r : BuildRequest) : Prop :=
  ∀ file files code stdout stderr after, files.Tidy →
    s.host.start s.toolchain.path (buildArguments r s.cflags file) files =
      .finished code stdout stderr after →
    ∃ tree acts, BuildEvent.SparesCache s files (.outside tree) ∧
      after = (CompilerAct.performAll file none tree acts).2

/-- Builds have come to where one builder has one call, at a stage of it. -/
structure Comes (s : Site) (w : Builds) (r : BuildRequest) (b : Builder) (stage : BuildStage)
    (files : Files) : Prop where
  runs : s.Runs b
  home : files.home = s.home
  tidy : files.Tidy
  named : ∀ key, stage.key? = some key → Path.IsName key.toList
  course : ∃ events u, s.Course w events u ∧ u.files = files ∧ u.builder? 0 = some b ∧
    u.calls = [⟨0, r, stage⟩]

/-- Builds have come to where the one call is over, with what a builder gives. -/
def Answers (s : Site) (w : Builds) (r : BuildRequest) (given : Except Fault Artifact × Builder × Files) :
    Prop :=
  ∃ stage, stage.answer? = some given.1 ∧ s.Comes w r given.2.1 stage given.2.2

variable {s : Site} {w : Builds} {r : BuildRequest} {b b' : Builder} {files files' : Files}

/-! ## Steps -/

/-- The call takes a step. -/
theorem Comes.take {stage stage' : BuildStage} (h : s.Comes w r b stage files) (step : CallStep)
    (htake : b.takeStep ⟨0, r, stage⟩ files step = some (stage', b', files'))
    (htoolchain : b'.toolchain = b.toolchain) (hcflags : b'.cflags = b.cflags) :
    s.Comes w r b' stage' files' := by
  obtain ⟨events, u, hcourse, rfl, hb, hcalls⟩ := h.course
  have htakes := takes_of_takeStep h.runs.root h.home h.tidy h.named htake
  obtain ⟨b₀, hb₀, hnumbered⟩ := Option.map_eq_some_iff.mp hb
  have hstep : u.step (.step 0 step) = some {
      files := files'
      builders := u.builders.set 0 b'
      numbers := fun process => if process = b'.process then b'.builds else u.numbers process
      calls := [⟨0, r, stage'⟩] } := by
    simp only [Builds.step, Builds.advance, hcalls, List.getElem?_cons_zero, Option.bind_eq_bind,
      Option.bind_some, hb, htake]
    rfl
  refine ⟨⟨htoolchain.trans h.runs.toolchain, hcflags.trans h.runs.cflags, htakes.root.trans h.runs.root⟩,
    htakes.deed.home.trans h.home, htakes.tidy, htakes.named,
    _, _, hcourse.step (e := .step 0 step) trivial hstep, rfl, ?_, rfl⟩
  have hlength : 0 < u.builders.length := (List.getElem?_eq_some_iff.mp hb₀).1
  simp only [Builds.builder?, List.getElem?_set_self hlength, Option.map_some, if_true]

/-- Other files are changed. -/
theorem Comes.outside {stage : BuildStage} (h : s.Comes w r b stage files)
    (hspares : BuildEvent.SparesCache s files (.outside files')) : s.Comes w r b stage files' := by
  obtain ⟨events, u, hcourse, rfl, hb, hcalls⟩ := h.course
  exact ⟨h.runs, hspares.2.home.trans h.home, hspares.1, h.named,
    _, _, hcourse.step hspares rfl, rfl, hb, hcalls⟩

/-- The compiler goes through its acts. -/
theorem Comes.acts {o : BuildOutput} {path : String} (hpath : b.temporaryPath r o = path)
    (h : s.Comes w r b (.running o) files) (acts : List CompilerAct) :
    s.Comes w r b (.running { o with written := (CompilerAct.performAll path o.written files acts).1 })
      (CompilerAct.performAll path o.written files acts).2 := by
  induction acts generalizing o files with
  | nil => exact h
  | cons act acts ih =>
    have hact : s.Comes w r b (.running { o with written := (act.perform path o.written files).1 })
        (act.perform path o.written files).2 :=
      h.take (.act act) (by simp only [Builder.takeStep, hpath]) rfl rfl
    exact ih ((b.temporaryPath_written r o _).trans hpath) hact

/-! ## A whole call -/

/-- The sources are read one after the other. -/
theorem Comes.readSources {read : List (String × List UInt8)} {paths : List String}
    (h : s.Comes w r b (.reading read paths) files) :
    match Builder.readSources files paths with
    | .error fault => s.Comes w r b (.failed fault none) files
    | .ok sources => s.Comes w r b (.reading (read ++ sources) []) files := by
  induction paths generalizing read with
  | nil => simpa [Builder.readSources] using h
  | cons path paths ih =>
    simp only [Builder.readSources]
    cases hread : files.read path with
    | error fault => exact h.take (.next 0) (by simp only [Builder.takeStep, Builder.next, hread]) rfl rfl
    | ok bytes =>
      have hnext : s.Comes w r b (.reading (read ++ [(path, bytes)]) paths) files :=
        h.take (.next 0) (by simp only [Builder.takeStep, Builder.next, hread]) rfl rfl
      have hrest := ih hnext
      cases hsources : Builder.readSources files paths with
      | error fault => rwa [hsources] at hrest
      | ok sources =>
        rw [hsources] at hrest
        change s.Comes w r b (.reading (read ++ [(path, bytes)] ++ sources) []) files at hrest
        rwa [List.append_assoc] at hrest

/-- The compiler goes through its acts and ends. -/
theorem Comes.compiler {o : BuildOutput} {after : Files} (code : Nat) (stdout stderr : List UInt8)
    (h : s.Comes w r b (.running { o with written := none }) files)
    (hwrites : ∃ tree acts, BuildEvent.SparesCache s files (.outside tree) ∧
      after = (CompilerAct.performAll (b.temporaryPath r o) none tree acts).2) :
    ∃ written, s.Comes w r b (.ended { o with written } code stdout stderr) after := by
  obtain ⟨tree, acts, hspares, rfl⟩ := hwrites
  have hacted := (h.outside hspares).acts (b.temporaryPath_written r o none) acts
  exact ⟨_, hacted.take (.exit code stdout stderr) rfl rfl rfl⟩

/-- Behind a library in place its record is written. -/
theorem Comes.placed {o : BuildOutput} (now : Nat) (h : s.Comes w r b (.placed o) files) :
    s.Answers w r (match b.cache.record (b.recordOf r o.key (b.libraryPath r o.key) now) files with
      | (.error fault, files) => (.error fault, b, files)
      | (.ok cache, files) => (.ok ⟨b.libraryPath r o.key, o.key, false⟩, { b with cache }, files)) := by
  cases hrecord : b.cache.record (b.recordOf r o.key (b.libraryPath r o.key) now) files with
  | mk answer after =>
    cases answer with
    | error fault =>
      exact ⟨.built (.error fault) o, rfl,
        h.take (.next now) (by simp only [Builder.takeStep, Builder.next, hrecord]) rfl rfl⟩
    | ok cache =>
      exact ⟨.built (.ok ⟨b.libraryPath r o.key, o.key, false⟩) o, rfl,
        h.take (.next now) (by simp only [Builder.takeStep, Builder.next, hrecord]) rfl rfl⟩

/-- The output of a compiler that succeeded is put in place, and that of another one is discarded. -/
theorem Comes.ended {o : BuildOutput} {code : Nat} {stdout stderr : List UInt8} (now : Nat)
    (h : s.Comes w r b (.ended o code stdout stderr) files) :
    s.Answers w r (
      if code = 0 then
        match files.rename (b.temporaryPath r o) (b.libraryPath r o.key) with
        | .error fault => (.error (.file (b.libraryPath r o.key) fault.message), b, files)
        | .ok files =>
          match b.cache.record (b.recordOf r o.key (b.libraryPath r o.key) now) files with
          | (.error fault, files) => (.error fault, b, files)
          | (.ok cache, files) => (.ok ⟨b.libraryPath r o.key, o.key, false⟩, { b with cache }, files)
      else (.error (.compile r.source (diagnosticOf stdout stderr)), b, discard (b.temporaryPath r o) files)) := by
  split
  · next hcode =>
    cases hrename : files.rename (b.temporaryPath r o) (b.libraryPath r o.key) with
    | error fault =>
      exact ⟨.failed (.file (b.libraryPath r o.key) fault.message) (some o), rfl,
        h.take (.next 0) (by simp only [Builder.takeStep, Builder.next, if_pos hcode, hrename]) rfl rfl⟩
    | ok renamed =>
      have hplaced : s.Comes w r b (.placed o) renamed :=
        h.take (.next 0) (by simp only [Builder.takeStep, Builder.next, if_pos hcode, hrename]) rfl rfl
      exact hplaced.placed now
  · next hcode =>
    exact ⟨.failed (.compile r.source (diagnosticOf stdout stderr)) (some o), rfl,
      h.take (.next 0) (by simp only [Builder.takeStep, Builder.next, if_neg hcode]) rfl rfl⟩

/-- A library that is not in the cache is made. -/
theorem Comes.make {key : String} (hwrites : s.WritesByActs r) (now : Nat)
    (h : s.Comes w r b (.making key) files) : s.Answers w r (b.make s.host now r key files) := by
  rw [Builder.make]
  cases hmade : files.makeFolders (b.cache.entryDir key) with
  | error fault =>
    exact ⟨.failed (.file (b.cache.entryDir key) fault.message) none, rfl,
      h.take (.next 0) (by simp only [Builder.takeStep, Builder.next, hmade]) rfl rfl⟩
  | ok made =>
    have hstarting : s.Comes w r b (.starting key) made :=
      h.take (.next 0) (by simp only [Builder.takeStep, Builder.next, hmade]) rfl rfl
    dsimp only [Toolchain.buildShared]
    cases hstarted : s.host.start b.toolchain.path (buildArguments r b.cflags
        (temporaryName ⟨b.process, b.builds⟩ (Path.join (b.cache.entryDir key) (sharedLibraryName r.stem))))
        made with
    | failed fault =>
      exact ⟨.failed (b.toolchain.startFault fault) none, rfl, hstarting.take (.start (some fault)) rfl rfl rfl⟩
    | finished code stdout stderr after =>
      have hrunning : s.Comes w r { b with builds := b.builds + 1 }
          (.running ⟨key, ⟨b.process, b.builds⟩, none⟩) made := hstarting.take (.start none) rfl rfl rfl
      rw [h.runs.toolchain, h.runs.cflags] at hstarted
      obtain ⟨written, hended⟩ := hrunning.compiler (o := ⟨key, ⟨b.process, b.builds⟩, none⟩) code stdout stderr
        (hwrites _ made code stdout stderr after hstarting.tidy hstarted)
      have hover := hended.ended now
      by_cases hcode : code = 0
      · rw [if_pos hcode] at hover
        simp only [if_pos hcode]
        cases hrename : after.rename (temporaryName ⟨b.process, b.builds⟩
            (Path.join (b.cache.entryDir key) (sharedLibraryName r.stem)))
            (Path.join (b.cache.entryDir key) (sharedLibraryName r.stem)) <;>
          simp only [Builder.temporaryPath, Builder.libraryPath, hrename] at hover <;> exact hover
      · rw [if_neg hcode] at hover
        simp only [if_neg hcode]
        exact hover

/-- The sources are read, and the key is looked for. -/
theorem Comes.compile (hwrites : s.WritesByActs r) (now : Nat)
    (h : s.Comes w r b (.reading [] r.sources) files) : s.Answers w r (b.compile s.host now r files) := by
  have hread := h.readSources
  rw [Builder.compile, Builder.cacheKey]
  cases hsources : Builder.readSources files r.sources with
  | error fault =>
    rw [hsources] at hread
    exact ⟨.failed fault none, rfl, hread⟩
  | ok sources =>
    rw [hsources] at hread
    have hlooking : s.Comes w r b (.looking (keyOf (Builder.keyParts sources b.toolchain.path b.toolchain.version
        (r.commandFlags b.cflags)))) files :=
      hread.take (.next 0) (by simp only [Builder.takeStep, Builder.next, List.nil_append]) rfl rfl
    dsimp only [Except.map]
    generalize keyOf _ = key at hlooking ⊢
    cases hlookup : b.cache.lookup now key (sharedLibraryName r.stem) files with
    | mk found rest =>
      obtain ⟨cache, after⟩ := rest
      cases found with
      | some library =>
        exact ⟨.found ⟨library, key, true⟩, rfl,
          hlooking.take (.next now) (by simp only [Builder.takeStep, Builder.next, hlookup]) rfl rfl⟩
      | none =>
        have hmaking : s.Comes w r { b with cache } (.making key) after :=
          hlooking.take (.next now) (by simp only [Builder.takeStep, Builder.next, hlookup]) rfl rfl
        exact hmaking.make hwrites now

/-- A call of a builder gives what its steps come to, one after the other, on any files. -/
theorem answers_compile (hb : s.Runs b) (hhome : files.home = s.home) (htidy : files.Tidy)
    (hwrites : s.WritesByActs r) (now : Nat) :
    s.Answers { files, builders := [b], numbers := fun _ => b.builds } r (b.compile s.host now r files) := by
  have hbegun : s.Comes { files, builders := [b], numbers := fun _ => b.builds } r b
      (.reading [] r.sources) files :=
    ⟨hb, hhome, htidy, nofun, _, _, Course.start.step (e := .begin 0 r) trivial rfl, rfl, rfl, rfl⟩
  exact hbegun.compile hwrites now

end Site

namespace Pasting

/-- The site of a compiler that writes its output in two pieces. -/
def inPieces : Site :=
  { site with
    host.start := fun _ arguments files =>
      match valueBehind? "-o" arguments with
      | some path => .finished 0 [] []
        (CompilerAct.performAll path none files [.opens, .appends [1, 2], .appends [3]]).2
      | none => .finished 1 [] [] files }

/-- What a builder gives with such a compiler is what its steps come to. -/
theorem answers_inPieces :
    inPieces.Answers { files := start, builders := [builder], numbers := fun _ => 0 } request
      (builder.compile inPieces.host 0 request start) := by
  refine Site.answers_compile ⟨rfl, rfl, rfl⟩ rfl ready_start.tidy
    (fun file files code stdout stderr after htidy hstarted => ?_) 0
  have hvalue : valueBehind? "-o" (buildArguments request inPieces.cflags file) = some file := by
    simp [valueBehind?, buildArguments, request, inPieces, site, BuildRequest.sources, BuildRequest.commandFlags]
  simp only [inPieces] at hvalue hstarted
  rw [hvalue] at hstarted
  cases hstarted
  exact ⟨files, _, ⟨htidy, Files.Agree.refl _ _⟩, rfl⟩

end Pasting

end CBind
