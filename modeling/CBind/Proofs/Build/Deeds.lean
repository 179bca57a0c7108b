import CBind.Build.SideBySide
import CBind.Proofs.Build.History
import CBind.Proofs.Build.Temporaries
import CBind.Proofs.Files.Tidy

/-!
# What a step of a build does to the cache

A step of a call, or of the compiler it has started, does one of five things. It leaves the files of the
cache alone, or it writes a record, or it takes a number, or it does something to the temporary file of
its own build, or it renames that file to the library. Everything about builds side by side is derived
from this.

What the compiler has written stays what its temporary file holds, provided that nobody else writes there.
-/

namespace CBind

open Toolchain

/-- The key of a call, as soon as it has one. -/
def BuildStage.key? : BuildStage → Option String
  | looking key => some key
  | making key => some key
  | starting key => some key
  | stage => stage.output?.map (·.key)

/-- At a place and below it stands at most a file of what was written, and nothing if nothing was. -/
def Files.HoldsAtMost (files : Files) (place : List (List Char)) (written : Option (List UInt8)) : Prop :=
  ∀ q body, place <+: q → files.bodyAt q = some body → q = place ∧ written = some body.bytes

/-- Nothing stands below a file. -/
theorem Files.eq_of_file_above {files : Files} {place q : List (List Char)} {above body : FileBody}
    (habove : files.bodyAt place = some above) (hq : place <+: q) (hbody : files.bodyAt q = some body) :
    q = place := by
  obtain ⟨below, rfl⟩ := hq
  by_cases hbelow : below = []
  · rw [hbelow, List.append_nil]
  · rw [Files.bodyAt_below_file habove hbelow] at hbody
    cases hbody

namespace Site

/-- The place of the library of a key. -/
def libraryPlace (s : Site) (key stem : String) : List (List Char) :=
  s.entryPlace key (sharedLibraryName stem)

/-- The place of the record of a key. -/
def recordPlace (s : Site) (key : String) : List (List Char) :=
  s.entryPlace key recordName

/-- The place of the temporary file of a build. -/
def temporaryPlace (s : Site) (o : BuildOutput) (stem : String) : List (List Char) :=
  s.entryPlace o.key (temporaryFile o.ticket stem)

/-- What a step of a call does. It leaves the cache alone, or writes a record, or takes a number, or does
something to the temporary file of the call, or puts the library into its place. -/
inductive Deed (s : Site) (b : Builder) (stem : String) (files files' : Files) :
    BuildStage → BuildStage → Prop
  | aside {stage stage' : BuildStage} (houtput : stage'.output? = stage.output?)
      (hplaced : stage'.placed? = stage.placed?) (hfiles : Files.Agree (s.cachePlace <+: ·) files files') :
      Deed s b stem files files' stage stage'
  | record {stage stage' : BuildStage} (houtput : stage'.output? = stage.output?)
      (hplaced : stage'.placed? = stage.placed?) (key : String)
      (hfiles : Files.ChangesOnly (s.recordPlace key) files files')
      (hrecord : files'.bodyAt (s.recordPlace key) ≠ none) : Deed s b stem files files' stage stage'
  | start {stage stage' : BuildStage} (key : String) (hbefore : stage = .starting key)
      (hbehind : stage' = .running ⟨key, ⟨b.process, b.builds⟩, none⟩) (hfiles : files' = files) :
      Deed s b stem files files' stage stage'
  | temporary {stage stage' : BuildStage} (o : BuildOutput) (written : Option (List UInt8))
      (hbefore : stage.output? = some o) (hbehind : stage'.output? = some { o with written })
      (hplaced : stage.placed? = none ∧ stage'.placed? = none)
      (hfiles : Files.Agree (¬ s.temporaryPlace o stem <+: ·) files files')
      (hholds : files.HoldsAtMost (s.temporaryPlace o stem) o.written →
        files'.HoldsAtMost (s.temporaryPlace o stem) written) : Deed s b stem files files' stage stage'
  | place {stage stage' : BuildStage} (o : BuildOutput) (stdout stderr : List UInt8)
      (hbefore : stage = .ended o 0 stdout stderr) (hbehind : stage' = .placed o)
      (hfiles : Files.Agree
        (fun q => ¬ s.temporaryPlace o stem <+: q ∧ ¬ s.libraryPlace o.key stem <+: q) files files')
      (hholds : files'.HoldsAtMost (s.temporaryPlace o stem) o.written)
      (hlibrary : ∃ body, files'.bodyAt (s.libraryPlace o.key stem) = some body ∧
        files.bodyAt (s.temporaryPlace o stem) = some body) : Deed s b stem files files' stage stage'

/-- What is known of a step that was taken. -/
structure Takes (s : Site) (b b' : Builder) (stem : String) (files files' : Files)
    (stage stage' : BuildStage) : Prop where
  deed : s.Deed b stem files files' stage stage'
  tidy : files'.Tidy
  root : b'.cache.root = b.cache.root
  process : b'.process = b.process
  builds : b.builds ≤ b'.builds
  counts : ∀ key, stage = .starting key → b'.builds = b.builds + 1
  named : ∀ key, stage'.key? = some key → Path.IsName key.toList

variable {s : Site}

/-! ## What compilers do to their files -/

/-- An act of a compiler changes its file and nothing else, and the file is what it has written. -/
theorem perform_spec {files : Files} (htidy : files.Tidy) {path : String} {place : List (List Char)}
    (hpath : ∀ q, files.resolve path = .ok q → q = place) (written : Option (List UInt8)) (act : CompilerAct) :
    Files.Agree (¬ place <+: ·) files (act.perform path written files).2 ∧
      (act.perform path written files).2.Tidy ∧
      (files.HoldsAtMost place written →
        (act.perform path written files).2.HoldsAtMost place (act.perform path written files).1) := by
  have hsame (written : Option (List UInt8)) : Files.Agree (¬ place <+: ·) files files ∧ files.Tidy ∧
      (files.HoldsAtMost place written → files.HoldsAtMost place written) :=
    ⟨Files.Agree.refl _ _, htidy, id⟩
  have hwrite {bytes : List UInt8} {files' : Files} (hw : files.write path bytes = .ok files') :
      Files.Agree (¬ place <+: ·) files files' ∧ files'.Tidy ∧ files'.HoldsAtMost place (some bytes) := by
    obtain ⟨q, hq, -, ⟨body, hbody, hbytes⟩, hc⟩ := Files.changesOnly_of_write hw
    obtain rfl := hpath q hq
    refine ⟨hc.agree, htidy.of_write hw, fun r other hr hother => ?_⟩
    obtain rfl := Files.eq_of_file_above hbody hr hother
    rw [← hbytes, Option.some.inj (hbody.symm.trans hother)]
    exact ⟨rfl, rfl⟩
  cases act with
  | opens =>
    simp only [CompilerAct.perform]
    split
    · next files' hw =>
      obtain ⟨hagree, htidy', hholds⟩ := hwrite hw
      exact ⟨hagree, htidy', fun _ => hholds⟩
    · exact hsame written
  | appends piece =>
    simp only [CompilerAct.perform]
    split
    · next sofar there hread =>
      split
      · next files' hw =>
        obtain ⟨hagree, htidy', hholds⟩ := hwrite hw
        refine ⟨hagree, htidy', fun hbefore => ?_⟩
        obtain ⟨body, hfind, hbytes⟩ := (Files.read_eq_ok_iff _ _ _).mp hread
        obtain ⟨q, hq, hbody, -⟩ := (Files.find_eq_ok_file_iff _ _ _).mp hfind
        obtain rfl := hpath q hq
        -- What stands in the file is what the compiler itself has written.
        have hsofar := (hbefore q body (List.prefix_refl q) hbody).2
        rw [hbytes, Option.some.injEq] at hsofar
        rwa [hsofar]
      · exact hsame (some sofar)
    · exact hsame _
  | removes =>
    simp only [CompilerAct.perform]
    split
    · next files' hr =>
      obtain ⟨q, hq, hc⟩ := Files.changesOnly_of_removeFile hr
      obtain rfl := hpath q hq
      refine ⟨hc.agree, htidy.of_removeFile hr, fun _ r body hr' hbody => ?_⟩
      rw [htidy.bodyAt_of_removeFile hr hq hr'] at hbody
      contradiction
    · exact hsame written

/-! ## What a step does -/

variable {b b' : Builder} {r : BuildRequest} {files files' : Files}

/-- The path of a library leads to its place. -/
theorem eq_libraryPlace (hroot : b.cache.root = s.cacheRoot) (hhome : files.home = s.home) {key : String}
    (hkey : Path.IsName key.toList) {q : List (List Char)}
    (hq : files.resolve (b.libraryPath r key) = .ok q) : q = s.libraryPlace key r.stem := by
  rw [Builder.libraryPath, entryPath_eq hroot] at hq
  exact eq_entryPlace hkey r.isName_library hhome hq

/-- The path of a temporary file leads to its place. -/
theorem eq_temporaryPlace (hroot : b.cache.root = s.cacheRoot) (hhome : files.home = s.home)
    {o : BuildOutput} (hkey : Path.IsName o.key.toList) {q : List (List Char)}
    (hq : files.resolve (b.temporaryPath r o) = .ok q) : q = s.temporaryPlace o r.stem := by
  rw [Builder.temporaryPath, Builder.libraryPath, temporaryName_library, entryPath_eq hroot] at hq
  exact eq_entryPlace hkey (isName_temporaryFile o.ticket r) hhome hq

/-- The temporary file and the library of a build stand at different places. -/
theorem temporaryPlace_ne_libraryPlace (s : Site) (o : BuildOutput) (key stem stem' : String) :
    ¬ s.temporaryPlace o stem <+: s.libraryPlace key stem' := fun h =>
  temporaryFile_ne_library o.ticket stem stem' (eq_of_prefix_entryPlace h).2

/-- A step that changes no file leaves the cache alone. -/
theorem takes_aside {stem : String} {stage stage' : BuildStage} (htidy : files.Tidy)
    (houtput : stage'.output? = stage.output?) (hplaced : stage'.placed? = stage.placed?)
    (hroot : b'.cache.root = b.cache.root) (hprocess : b'.process = b.process)
    (hbuilds : b'.builds = b.builds) (hstage : ∀ key, stage ≠ .starting key)
    (hnamed : ∀ key, stage'.key? = some key → Path.IsName key.toList) :
    s.Takes b b' stem files files stage stage' :=
  ⟨.aside houtput hplaced (Files.Agree.refl _ _), htidy, hroot, hprocess, Nat.le_of_eq hbuilds.symm,
    fun key h => absurd h (hstage key), hnamed⟩

/-- Looking for a key leaves the cache alone or writes the record of the key. -/
theorem takes_of_looking (hroot : b.cache.root = s.cacheRoot) (hhome : files.home = s.home)
    (htidy : files.Tidy) {key : String} (hkey : Path.IsName key.toList) {now : Nat} {stage' : BuildStage}
    (h : b.next now r files (.looking key) = some (stage', b', files')) :
    s.Takes b b' r.stem files files' (.looking key) stage' := by
  simp only [Builder.next] at h
  have hnamed : ∀ k, (BuildStage.making key).key? = some k → Path.IsName k.toList :=
    fun k hk => Option.some.inj hk ▸ hkey
  rcases Cache.lookup_cases now b.cache key (sharedLibraryName r.stem) files with
    ⟨path, -, -, hl⟩ | ⟨-, hl⟩ | ⟨-, hl⟩ <;> rw [hl] at h <;> cases h
  · exact takes_aside htidy rfl rfl rfl rfl rfl nofun nofun
  · rcases Cache.touch_cases now (b.cache.recordPath key) files with hsame | ⟨bytes, hw⟩
    · rw [hsame]
      exact takes_aside htidy rfl rfl rfl rfl rfl nofun nofun
    · obtain ⟨q, hq, -, ⟨body, hbody, -⟩, hc⟩ := Files.changesOnly_of_write hw
      rw [Cache.recordPath, entryPath_eq hroot] at hq
      obtain rfl := eq_entryPlace hkey isName_recordName hhome hq
      exact ⟨.record rfl rfl key hc (hbody ▸ Option.some_ne_none body), htidy.of_write hw, rfl, rfl,
        Nat.le_refl _, nofun, nofun⟩
  · exact takes_aside htidy rfl rfl rfl rfl rfl nofun hnamed

/-- When the compiler has ended with success its file is renamed to the library; when it has ended with a
failure its file is discarded. -/
theorem takes_of_ended (hroot : b.cache.root = s.cacheRoot) (hhome : files.home = s.home)
    (htidy : files.Tidy) {o : BuildOutput} (hkey : Path.IsName o.key.toList) {code : Nat}
    {stdout stderr : List UInt8} {now : Nat} {stage' : BuildStage}
    (h : b.next now r files (.ended o code stdout stderr) = some (stage', b', files')) :
    s.Takes b b' r.stem files files' (.ended o code stdout stderr) stage' := by
  have hnamed : ∀ key, some o.key = some key → Path.IsName key.toList := fun k hk => Option.some.inj hk ▸ hkey
  have hstage : ∀ key, BuildStage.ended o code stdout stderr ≠ .starting key := nofun
  simp only [Builder.next] at h
  split at h
  · next hcode =>
    subst hcode
    split at h
    · next renamed hrename =>
      cases h
      obtain ⟨start, goal, body, hfind, hstart, hgoal, -, hbody, hagree, -⟩ := Files.agree_of_rename hrename
      obtain ⟨found, hfound, hthere, -⟩ := (Files.find_eq_ok_file_iff _ _ _).mp hfind
      obtain rfl : found = start := Except.ok.inj (hfound.symm.trans hstart)
      obtain rfl := eq_temporaryPlace hroot hhome hkey hstart
      obtain rfl := eq_libraryPlace hroot hhome hkey hgoal
      have hne : s.temporaryPlace o r.stem ≠ s.libraryPlace o.key r.stem := fun heq =>
        s.temporaryPlace_ne_libraryPlace o o.key r.stem r.stem (heq ▸ List.prefix_refl _)
      refine ⟨.place o stdout stderr rfl rfl hagree (fun q other hq hother => ?_) ⟨body, hbody, hthere⟩,
        htidy.of_rename hrename, rfl, rfl, Nat.le_refl _, fun key h => absurd h (hstage key), hnamed⟩
      rw [htidy.bodyAt_of_rename hrename hstart hgoal hne hq] at hother
      cases hother
    · cases h
      exact takes_aside htidy rfl rfl rfl rfl rfl hstage hnamed
  · cases h
    unfold Toolchain.discard
    split
    · next removed hremove =>
      obtain ⟨q, hq, hc⟩ := Files.changesOnly_of_removeFile hremove
      obtain rfl := eq_temporaryPlace hroot hhome hkey hq
      refine ⟨.temporary o o.written rfl rfl ⟨rfl, rfl⟩ hc.agree (fun _ q' other hq' hother => ?_),
        htidy.of_removeFile hremove, rfl, rfl, Nat.le_refl _, fun key h => absurd h (hstage key), hnamed⟩
      rw [htidy.bodyAt_of_removeFile hremove hq hq'] at hother
      cases hother
    · exact takes_aside htidy rfl rfl rfl rfl rfl hstage hnamed

/-- Writing a record keeps a tree tidy. -/
theorem tidy_record (htidy : files.Tidy) (c : Cache) (entry : CacheRecord) : (c.record entry files).2.Tidy := by
  rcases c.record_cases entry files with ⟨fault, hrefused⟩ | ⟨bytes, written, hw, hdone⟩
  · rwa [hrefused]
  · rw [hdone]
    exact htidy.of_write hw

/-- Behind a library only its record is written. -/
theorem takes_of_placed (hroot : b.cache.root = s.cacheRoot) (hhome : files.home = s.home)
    (htidy : files.Tidy) {o : BuildOutput} (hkey : Path.IsName o.key.toList) {now : Nat} {stage' : BuildStage}
    (h : b.next now r files (.placed o) = some (stage', b', files')) :
    s.Takes b b' r.stem files files' (.placed o) stage' := by
  have hnamed : ∀ key, some o.key = some key → Path.IsName key.toList := fun k hk => Option.some.inj hk ▸ hkey
  simp only [Builder.next] at h
  split at h
  · next fault after hrecord =>
    cases h
    rcases record_cases hroot hkey hhome hrecord with ⟨_, -, rfl⟩ | ⟨hwrong, -⟩
    · exact takes_aside htidy rfl rfl rfl rfl rfl nofun hnamed
    · cases hwrong
  · next cache after hrecord =>
    cases h
    rcases record_cases hroot hkey hhome hrecord with ⟨_, hwrong, -⟩ | ⟨hcache, -, hc, hthere⟩
    · cases hwrong
    · have hafter := tidy_record htidy b.cache (b.recordOf r o.key (b.libraryPath r o.key) now)
      rw [hrecord] at hafter
      refine ⟨.record rfl rfl o.key hc hthere, hafter, ?_, rfl, Nat.le_refl _, nofun, hnamed⟩
      rw [Except.ok.inj hcache]
      rfl

/-- What a call does next. -/
theorem takes_of_next (hroot : b.cache.root = s.cacheRoot) (hhome : files.home = s.home)
    (htidy : files.Tidy) {stage stage' : BuildStage}
    (hkey : ∀ key, stage.key? = some key → Path.IsName key.toList)
    {now : Nat} (h : b.next now r files stage = some (stage', b', files')) :
    s.Takes b b' r.stem files files' stage stage' := by
  cases stage with
  | reading read left =>
    cases left with
    | nil =>
      cases h
      exact takes_aside htidy rfl rfl rfl rfl rfl nofun fun key hk =>
        Option.some.inj hk ▸ isName_keyOf _
    | cons path left =>
      simp only [Builder.next] at h
      split at h <;> cases h <;>
        exact takes_aside htidy rfl rfl rfl rfl rfl nofun nofun
  | looking key => exact takes_of_looking hroot hhome htidy (hkey key rfl) h
  | making key =>
    simp only [Builder.next] at h
    split at h
    · cases h
      exact takes_aside htidy rfl rfl rfl rfl rfl nofun nofun
    · next made hmade =>
      cases h
      exact ⟨.aside rfl rfl ((Files.agree_of_makeFolders hmade).1.mono fun _ _ => trivial),
        htidy.of_makeFolders hmade, rfl, rfl, Nat.le_refl _, nofun, hkey⟩
  | ended o code stdout stderr => exact takes_of_ended hroot hhome htidy (hkey o.key rfl) h
  | placed o => exact takes_of_placed hroot hhome htidy (hkey o.key rfl) h
  | _ => cases h

/-- What a step of a call or of its compiler does. -/
theorem takes_of_takeStep {c : BuildCall} {step : CallStep} {stage' : BuildStage}
    (hroot : b.cache.root = s.cacheRoot) (hhome : files.home = s.home) (htidy : files.Tidy)
    (hkey : ∀ key, c.stage.key? = some key → Path.IsName key.toList)
    (h : b.takeStep c files step = some (stage', b', files')) :
    s.Takes b b' c.request.stem files files' c.stage stage' := by
  cases step with
  | next now => exact takes_of_next hroot hhome htidy hkey h
  | start refused =>
    simp only [Builder.takeStep] at h
    split at h
    · next key hstage =>
      rw [hstage] at hkey ⊢
      cases refused with
      | some fault =>
        cases h
        exact ⟨.aside rfl rfl (Files.Agree.refl _ _), htidy, rfl, rfl, Nat.le_succ _, fun _ _ => rfl, nofun⟩
      | none =>
        cases h
        exact ⟨.start key rfl rfl rfl, htidy, rfl, rfl, Nat.le_succ _, fun _ _ => rfl, hkey⟩
    · cases h
  | act act =>
    simp only [Builder.takeStep] at h
    split at h
    · next o hstage =>
      rw [hstage] at hkey ⊢
      cases h
      obtain ⟨hagree, htidy', hholds⟩ := perform_spec htidy
        (fun q => eq_temporaryPlace hroot hhome (hkey o.key rfl)) o.written act
      exact ⟨.temporary o _ rfl rfl ⟨rfl, rfl⟩ hagree hholds, htidy', rfl, rfl, Nat.le_refl _, nofun, hkey⟩
    · cases h
  | exit code stdout stderr =>
    simp only [Builder.takeStep] at h
    split at h
    · next o hstage =>
      rw [hstage] at hkey ⊢
      cases h
      exact takes_aside htidy rfl rfl rfl rfl rfl nofun hkey
    · cases h

/-! ## What follows of a deed -/

variable {stem : String} {stage stage' : BuildStage}

/-- No step changes the working folder. -/
theorem Deed.home (h : s.Deed b stem files files' stage stage') : files'.home = files.home := by
  cases h with
  | aside _ _ hfiles => exact hfiles.home
  | record _ _ _ hfiles _ => exact hfiles.home
  | start _ _ _ hfiles => rw [hfiles]
  | temporary _ _ _ _ _ hfiles _ => exact hfiles.home
  | place _ _ _ _ _ hfiles _ _ => exact hfiles.home

/-- A build has the number that it had before, or the next one of its process. -/
theorem Deed.ticket (h : s.Deed b stem files files' stage stage') {o : BuildOutput}
    (ho : stage'.output? = some o) :
    (∃ p, stage.output? = some p ∧ p.ticket = o.ticket) ∨
      ((∃ key, stage = .starting key) ∧ o.ticket = ⟨b.process, b.builds⟩) := by
  cases h with
  | aside houtput _ _ => exact .inl ⟨o, houtput ▸ ho, rfl⟩
  | record houtput _ _ _ _ => exact .inl ⟨o, houtput ▸ ho, rfl⟩
  | start key hbefore hbehind _ =>
    subst hbehind
    exact .inr ⟨⟨key, hbefore⟩, by cases ho; rfl⟩
  | temporary p _ hbefore hbehind _ _ _ =>
    obtain rfl := Option.some.inj (hbehind.symm.trans ho)
    exact .inl ⟨p, hbefore, rfl⟩
  | place p _ _ hbefore hbehind _ _ _ =>
    subst hbefore hbehind
    exact .inl ⟨p, rfl, by cases ho; rfl⟩

/-- A library that was put in place is the output of its call from then on. -/
theorem Deed.placed (h : s.Deed b stem files files' stage stage') {o : BuildOutput}
    (ho : stage.placed? = some o) : stage'.placed? = some o := by
  cases h with
  | aside _ hplaced _ => exact hplaced.trans ho
  | record _ hplaced _ _ _ => exact hplaced.trans ho
  | start _ hbefore _ _ => subst hbefore; cases ho
  | temporary _ _ _ _ hplaced _ _ => rw [hplaced.1] at ho; cases ho
  | place _ _ _ hbefore _ _ _ _ => subst hbefore; cases ho

/-- A library that is put in place stands there then. -/
theorem Deed.library_ne_none (h : s.Deed b stem files files' stage stage') {o : BuildOutput}
    (ho : stage'.placed? = some o) :
    stage.placed? = some o ∨ files'.bodyAt (s.libraryPlace o.key stem) ≠ none := by
  cases h with
  | aside _ hplaced _ => exact .inl (hplaced.symm.trans ho)
  | record _ hplaced _ _ _ => exact .inl (hplaced.symm.trans ho)
  | start _ _ hbehind _ => subst hbehind; cases ho
  | temporary _ _ _ _ hplaced _ _ => rw [hplaced.2] at ho; cases ho
  | place p _ _ _ hbehind _ _ hlibrary =>
    subst hbehind
    cases ho
    obtain ⟨body, hbody, -⟩ := hlibrary
    exact .inr (hbody ▸ Option.some_ne_none body)

/-- Only putting it in place changes a library. -/
theorem Deed.library (h : s.Deed b stem files files' stage stage') (key stem' : String) :
    files'.bodyAt (s.libraryPlace key stem') = files.bodyAt (s.libraryPlace key stem') ∨
      files'.bodyAt (s.libraryPlace key stem') ≠ none ∧
        ∃ o, stage'.placed? = some o ∧ o.key = key ∧ stem = stem' := by
  have hcache : s.cachePlace <+: s.libraryPlace key stem' := s.cachePlace_prefix_entryPlace _ _
  cases h with
  | aside _ _ hfiles => exact .inl (hfiles.body _ hcache)
  | record _ _ other hfiles _ =>
    refine .inl (hfiles.agree.body _ fun hprefix => ?_)
    exact ne_recordName (head?_sharedLibraryName stem') (eq_of_prefix_entryPlace hprefix).2.symm
  | start _ _ _ hfiles => exact .inl (by rw [hfiles])
  | temporary o _ _ _ _ hfiles _ =>
    exact .inl (hfiles.body _ (s.temporaryPlace_ne_libraryPlace o key stem stem'))
  | place o _ _ _ hbehind hfiles _ hlibrary =>
    subst hbehind
    by_cases hprefix : s.libraryPlace o.key stem <+: s.libraryPlace key stem'
    · obtain ⟨hkey, hname⟩ := eq_of_prefix_entryPlace hprefix
      obtain rfl := String.toList_inj.mp hkey
      obtain rfl := sharedLibraryName_inj hname
      obtain ⟨body, hbody, -⟩ := hlibrary
      exact .inr ⟨hbody ▸ Option.some_ne_none body, o, rfl, rfl, rfl⟩
    · exact .inl (hfiles.body _ ⟨s.temporaryPlace_ne_libraryPlace o key stem stem', hprefix⟩)

/-- No step changes a file that is the temporary file of another build. -/
theorem Deed.temporary_kept (h : s.Deed b stem files files' stage stage') {p : BuildOutput} {stem' : String}
    (hother : ∀ o, stage.output? = some o → o.ticket ≠ p.ticket) :
    files'.bodyAt (s.temporaryPlace p stem') = files.bodyAt (s.temporaryPlace p stem') := by
  have hcache : s.cachePlace <+: s.temporaryPlace p stem' := s.cachePlace_prefix_entryPlace _ _
  have hapart {o : BuildOutput} (ho : stage.output? = some o) :
      ¬ s.temporaryPlace o stem <+: s.temporaryPlace p stem' := fun hprefix =>
    hother o ho (temporaryFile_inj (eq_of_prefix_entryPlace hprefix).2)
  cases h with
  | aside _ _ hfiles => exact hfiles.body _ hcache
  | record _ _ key hfiles _ =>
    refine hfiles.agree.body _ fun hprefix => ?_
    exact ne_recordName (head?_temporaryFile p.ticket stem') (eq_of_prefix_entryPlace hprefix).2.symm
  | start _ _ _ hfiles => rw [hfiles]
  | temporary o _ hbefore _ _ hfiles _ => exact hfiles.body _ (hapart hbefore)
  | place o _ _ hbefore _ hfiles _ _ =>
    subst hbefore
    refine hfiles.body _ ⟨hapart rfl, fun hprefix => ?_⟩
    exact temporaryFile_ne_library p.ticket stem' stem (eq_of_prefix_entryPlace hprefix).2.symm

end Site

end CBind
