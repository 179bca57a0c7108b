import CBind.Proofs.Build.History
import CBind.Proofs.Files.Tidy

/-!
# What a failed build leaves behind

A build makes the folder of its key before the compiler is started, and removes it on no way out. So a build
that fails leaves the cache as it was exactly if that folder was there before, and if the compiler did not
replace a file of an earlier build with the same temporary name. The file of a compiler that failed is
removed.

A build that fails here is one whose sources cannot be read, whose folder cannot be made, whose compiler cannot
be started or ends with a failure, or whose compiler ends with success and has written no output. Of the compiler
it is taken that it keeps to its output file.
-/

namespace CBind

open Digest Toolchain

/-- The file that the next build of a key tells the compiler to write. -/
def Builder.outputPath (b : Builder) (r : BuildRequest) (key : String) : String :=
  temporaryName ⟨b.process, b.builds⟩ (Path.join (b.cache.entryDir key) (sharedLibraryName r.stem))

namespace Site

/-- The cache holds the same files and folders. -/
def SameCache (s : Site) (files files' : Files) : Prop :=
  ∀ q, s.cachePlace <+: q → files'.nodeAt q = files.nodeAt q

/-- Every file of the cache was there before, as it is. -/
def NoNewFile (s : Site) (files files' : Files) : Prop :=
  ∀ q, s.cachePlace <+: q → files'.bodyAt q = none ∨ files'.bodyAt q = files.bodyAt q

/-- A program that was told to write a file changed nothing in the cache but this file. A folder in its place
was left alone, and no folder came there. -/
structure KeepsToFile (s : Site) (file : String) (files after : Files) : Prop where
  tidy : after.Tidy
  home : after.home = files.home
  leads : ∀ place, files.resolve file = .ok place → after.resolve file = .ok place
  others : ∀ q, s.cachePlace <+: q →
    (∀ place, files.resolve file = .ok place → place <+: q → files.nodeAt place = .folder) →
    after.nodeAt q = files.nodeAt q
  noFolder : ∀ place, files.resolve file = .ok place → files.nodeAt place ≠ .folder →
    after.nodeAt place ≠ .folder

/-- Building a request, the compiler changes nothing in the cache but the file it is told to write. -/
def WritesOutputOnly (s : Site) (r : BuildRequest) : Prop :=
  ∀ file files code stdout stderr after, files.Tidy →
    s.host.start s.toolchain.path (buildArguments r s.cflags file) files =
      .finished code stdout stderr after →
    s.KeepsToFile file files after

/-- What starting the compiler comes to, as a build of a key does it. -/
def started (s : Site) (b : Builder) (r : BuildRequest) (key : String) (files : Files) : Started :=
  s.host.start s.toolchain.path (buildArguments r s.cflags (b.outputPath r key)) files

/-- A call fails, and its compiler did not end with success behind an output. -/
structure Fails (s : Site) (now : Nat) (b : Builder) (r : BuildRequest) (files : Files) (fault : Fault)
    (b' : Builder) (files' : Files) : Prop where
  answers : b.compile s.host now r files = (.error fault, b', files')
  noOutput : ∀ key made stdout stderr after, b.cacheKey r files = .ok key →
    files.makeFolders (b.cache.entryDir key) = .ok made →
    s.started b r key made = .finished 0 stdout stderr after →
    after.isFile (b.outputPath r key) = false

/-- If a call comes to make the folder of its key, the folder is there already, and if it comes to run the
compiler, no file stands where the compiler is told to write. -/
def FindsItsFolder (s : Site) (b : Builder) (r : BuildRequest) (files : Files) : Prop :=
  ∀ key made, b.cacheKey r files = .ok key → files.makeFolders (b.cache.entryDir key) = .ok made →
    files.nodeAt (s.cachePlace ++ [key.toList]) = .folder ∧
      ∀ code stdout stderr after, s.started b r key made = .finished code stdout stderr after →
        files.isFile (b.outputPath r key) = false

variable {s : Site} {b b' : Builder} {r : BuildRequest} {files made after files' : Files} {key : String}

/-! ## The output file -/

/-- Below a place where nothing stands there is nothing. -/
theorem nodeAt_of_absent {place q : List (List Char)} (h : files.nodeAt place = .absent)
    (hq : place <+: q) : files.nodeAt q = .absent := by
  obtain ⟨below, rfl⟩ := hq
  by_cases hbelow : below = []
  · rwa [hbelow, List.append_nil]
  · refine Classical.byContradiction fun hpresent => ?_
    have hfolder := Listing.nodeAt_of_present hbelow hpresent
    rw [Files.nodeAt, hfolder] at h
    contradiction

/-- A cache that is the same has no new file. -/
theorem SameCache.noNewFile (h : s.SameCache files files') : s.NoNewFile files files' :=
  fun q hq => .inr (congrArg Node.body? (h q hq))

/-- A program that kept to its file and left none there has added no file to the cache, and has changed the
cache exactly if there was one. -/
theorem KeepsToFile.sameCache_iff {file : String} {place : List (List Char)}
    (h : s.KeepsToFile file made after) (hr : made.resolve file = .ok place)
    (hend : Path.endsAtFolder file = false) (hplace : s.cachePlace <+: place)
    (hnone : after.isFile file = false) :
    s.NoNewFile made after ∧ (s.SameCache made after ↔ made.isFile file = false) := by
  have hfile {tree : Files} (hr : tree.resolve file = .ok place) :
      tree.isFile file = true ↔ ∃ body, tree.nodeAt place = .file body := by
    simp only [Files.isFile_iff_bodyAt, hr, hend, Except.ok.injEq, exists_and_left, exists_eq_left', and_true,
      Files.bodyAt_eq_some_iff]
  have hafter : ∀ body, after.nodeAt place ≠ .file body := fun body hbody => by
    rw [(hfile (h.leads place hr)).mpr ⟨body, hbody⟩] at hnone
    contradiction
  -- Below the file something was changed only if no folder stands there, and then nothing is left.
  have hq (q : List (List Char)) (hq : s.cachePlace <+: q) : after.nodeAt q = made.nodeAt q ∨
      (place <+: q ∧ made.nodeAt place ≠ .folder) ∧ after.nodeAt q = .absent := by
    by_cases hkept : place <+: q → made.nodeAt place = .folder
    · exact .inl (h.others q hq fun other hother => Except.ok.inj (hr.symm.trans hother) ▸ hkept)
    · obtain ⟨hbelow, hfolder⟩ := Classical.not_imp.mp hkept
      have hgone : after.nodeAt place = .absent := by
        cases hnode : after.nodeAt place with
        | absent => rfl
        | folder => exact absurd hnode (h.noFolder place hr hfolder)
        | file body => exact absurd hnode (hafter body)
      exact .inr ⟨⟨hbelow, hfolder⟩, nodeAt_of_absent hgone hbelow⟩
  refine ⟨fun q hcache => ?_, ?_, ?_⟩
  · rcases hq q hcache with hsame | ⟨-, hgone⟩
    · exact .inr (congrArg Node.body? hsame)
    · exact .inl (congrArg Node.body? hgone)
  · intro hsame
    rw [← Bool.not_eq_true, hfile hr]
    rintro ⟨body, hbody⟩
    exact hafter body ((hsame place hplace).trans hbody)
  · intro hnot q hcache
    rcases hq q hcache with hsame | ⟨⟨hbelow, hfolder⟩, hgone⟩
    · exact hsame
    · have habsent : made.nodeAt place = .absent := by
        cases hnode : made.nodeAt place with
        | absent => rfl
        | folder => exact absurd hnode hfolder
        | file body =>
          rw [(hfile hr).mpr ⟨body, hnode⟩] at hnot
          contradiction
      rw [hgone, nodeAt_of_absent habsent hbelow]

/-- Discarding a file removes it, or changes nothing where it cannot be removed. -/
theorem discard_cases (file : String) (files : Files) :
    files.removeFile file = .ok (Toolchain.discard file files) ∨
      (∀ removed, files.removeFile file ≠ .ok removed) ∧ Toolchain.discard file files = files := by
  cases hremoved : files.removeFile file with
  | ok removed => exact .inl (by simp only [Toolchain.discard, hremoved])
  | error fault => exact .inr ⟨by simp, by simp only [Toolchain.discard, hremoved]⟩

/-- Discarding the file that a program was told to write keeps to the file, and leaves none there. -/
theorem KeepsToFile.discard {file : String} {place : List (List Char)} (h : s.KeepsToFile file made after)
    (hr : made.resolve file = .ok place) (hplace : s.cachePlace <+: place) :
    s.KeepsToFile file made (Toolchain.discard file after) ∧
      (Toolchain.discard file after).isFile file = false := by
  have hafter := h.leads place hr
  rw [← Bool.not_eq_true, Files.isFile_iff_bodyAt]
  rcases discard_cases file after with hremoved | ⟨hstays, hdiscard⟩
  · generalize Toolchain.discard file after = removed at *
    obtain ⟨found, hfound, hc⟩ := Files.changesOnly_of_removeFile hremoved
    obtain rfl : found = place := Except.ok.inj (hfound.symm.trans hafter)
    have hgone : removed.nodeAt found = .absent :=
      h.tidy.nodeAt_of_removeFile hremoved hafter (List.prefix_refl found)
    have hnoFolder : made.nodeAt found ≠ .folder := fun hfolder =>
      hc.noFolder ((h.others found hplace fun other hother _ =>
        Except.ok.inj (hr.symm.trans hother) ▸ hfolder).trans hfolder)
    refine ⟨⟨h.tidy.of_removeFile hremoved, hc.home.trans h.home,
      fun other hother => hc.resolve (h.leads other hother), fun q hq hkept => ?_,
      fun other hother _ => ?_⟩, ?_⟩
    · rw [hc.elsewhere q fun hbelow => hnoFolder (hkept found hr hbelow), h.others q hq hkept]
    · obtain rfl := Except.ok.inj (hr.symm.trans hother)
      rw [hgone]
      exact nofun
    · rintro ⟨other, body, hother, hbody, -⟩
      obtain rfl := Except.ok.inj ((hc.resolve hafter).symm.trans hother)
      rw [Files.bodyAt_eq_some_iff, hgone] at hbody
      contradiction
  · rw [hdiscard]
    refine ⟨h, ?_⟩
    rintro ⟨other, body, hother, hbody, -⟩
    obtain ⟨removed, hremoved⟩ := Files.exists_removeFile hother hbody
    exact hstays removed hremoved

/-- A program that was told to write a file that no path leads to changed nothing in the cache. -/
theorem KeepsToFile.sameCache {file : String} (h : s.KeepsToFile file made after)
    (hr : ∀ place, made.resolve file ≠ .ok place) : s.SameCache made after :=
  fun q hq => h.others q hq fun place hplace => absurd hplace (hr place)

/-! ## The folder of the key -/

/-- The folder of a key stands in the cache. -/
theorem resolve_entryDir (hb : s.Runs b) (hhome : files.home = s.home) (hkey : Path.IsName key.toList)
    (hmade : files.makeFolders (b.cache.entryDir key) = .ok made) :
    files.resolve (b.cache.entryDir key) = .ok (s.cachePlace ++ [key.toList]) := by
  have hne : b.cache.entryDir key ≠ "" := by
    intro hempty
    have hjoin := Path.toList_join b.cache.root hkey
    rw [← Cache.entryDir, hempty] at hjoin
    exact hkey.ne_nil (List.append_eq_nil_iff.mp hjoin.symm).2
  obtain ⟨place, hr⟩ := Files.resolve_of_makeFolders hmade hne
  rw [hr, Files.eq_placeFrom_of_resolve hr, hhome, Cache.entryDir, hb.root, Files.placeFrom_join _ _ hkey]
  rfl

/-- The output file of a build stands in the folder of the key, if a path leads to it at all. Whether one does
is decided by the name. -/
theorem outputPath_cases (hb : s.Runs b) (hkey : Path.IsName key.toList) (r : BuildRequest) :
    ∃ name : String, Path.endsAtFolder (b.outputPath r key) = false ∧
      ((∀ tree : Files, tree.home = s.home →
        tree.Reaches (b.cache.entryDir key) (s.cachePlace ++ [key.toList]) →
        tree.resolve (b.outputPath r key) = .ok (s.entryPlace key name)) ∨
      ∀ (tree : Files) (place : List (List Char)), tree.resolve (b.outputPath r key) ≠ .ok place) := by
  obtain ⟨name, hpath, hname, -⟩ :=
    temporaryName_join ⟨b.process, b.builds⟩ (b.cache.entryDir key) r
  change b.outputPath r key = _ at hpath
  refine ⟨name, by rw [hpath]; exact Path.endsAtFolder_join _ hname, ?_⟩
  rw [hpath, entryPath_eq hb.root]
  by_cases husable : Path.IsUsable (s.entryPath key name)
  · refine .inl fun tree htree hreaches => ?_
    rw [Cache.entryDir, hb.root] at hreaches
    exact resolve_entryPath hkey hname htree husable hreaches
  · exact .inr fun tree place hr => husable ((Files.resolve_eq_ok_iff _ _ _).mp hr).1

/-- A build of a key that keeps the folder of the key leaves the cache as it was exactly if the folder was there
and the cache is as it was behind making it. -/
theorem sameCache_iff_of_makeFolders (hb : s.Runs b) (hhome : files.home = s.home)
    (hkey : Path.IsName key.toList) (hmade : files.makeFolders (b.cache.entryDir key) = .ok made)
    (hkept : after.nodeAt (s.cachePlace ++ [key.toList]) = .folder) :
    s.SameCache files after ↔
      files.nodeAt (s.cachePlace ++ [key.toList]) = .folder ∧ s.SameCache made after := by
  have hthere (hfolder : files.nodeAt (s.cachePlace ++ [key.toList]) = .folder) : made = files :=
    Except.ok.inj (hmade.symm.trans
      (Files.makeFolders_of_nodeAt (resolve_entryDir hb hhome hkey hmade) hfolder))
  constructor
  · intro h
    have hfolder := (h _ (List.prefix_append _ _)).symm.trans hkept
    exact ⟨hfolder, hthere hfolder ▸ h⟩
  · rintro ⟨hfolder, h⟩
    exact hthere hfolder ▸ h

/-! ## Failed builds -/

/-- What building a library comes to: the compiler did not start, it ended with success behind an output, or the
build failed and left what the compiler left, with the output discarded or with none. -/
theorem buildShared_cases {host : Host} {t : Toolchain} {ticket : Ticket} {base : List String} {output : String}
    {result : Except Fault Unit} (h : t.buildShared host ticket r base output files = (result, files')) :
    (∃ cause fault,
      host.start t.path (buildArguments r base (temporaryName ticket output)) files = .failed cause ∧
      result = .error fault ∧ files' = files) ∨
    ∃ code stdout stderr after,
      host.start t.path (buildArguments r base (temporaryName ticket output)) files =
        .finished code stdout stderr after ∧
      (code = 0 ∧ after.isFile (temporaryName ticket output) = true ∨
        ∃ fault, result = .error fault ∧
          (files' = Toolchain.discard (temporaryName ticket output) after ∨ code = 0 ∧ files' = after)) := by
  unfold Toolchain.buildShared at h
  dsimp only at h
  split at h
  next cause hstart =>
    cases h
    exact .inl ⟨cause, _, hstart, rfl, rfl⟩
  next code stdout stderr after hstart =>
    refine .inr ⟨code, stdout, stderr, after, hstart, ?_⟩
    split at h
    next hcode =>
      split at h
      next renamed hrename =>
        obtain ⟨-, -, body, hfind, -⟩ := Files.agree_of_rename hrename
        exact .inl ⟨hcode, (Files.isFile_iff _ _).mpr ⟨body, hfind⟩⟩
      next fault hrename =>
        cases h
        exact .inr ⟨_, rfl, .inr ⟨hcode, rfl⟩⟩
    next hcode =>
      cases h
      exact .inr ⟨_, rfl, .inl rfl⟩

/-- What a failed build leaves behind when the folder of its key was made: that, if the compiler did not start,
and else what the compiler left, with the output discarded or with none, unless the compiler ended with success
behind an output. -/
theorem make_failed_cases (hb : s.Runs b) {now : Nat} {fault : Fault}
    (hmade : files.makeFolders (b.cache.entryDir key) = .ok made)
    (h : Builder.make s.host now b r key files = (.error fault, b', files')) :
    (∃ cause, s.started b r key made = .failed cause ∧ files' = made) ∨
      ∃ code stdout stderr after, s.started b r key made = .finished code stdout stderr after ∧
        (code = 0 ∧ after.isFile (b.outputPath r key) = true ∨
          files' = Toolchain.discard (b.outputPath r key) after ∨ code = 0 ∧ files' = after) := by
  have hstarted : s.started b r key made = s.host.start b.toolchain.path
      (buildArguments r b.cflags (b.outputPath r key)) made := by
    rw [started, hb.toolchain, hb.cflags]
  unfold Builder.make at h
  simp only [hmade] at h
  rw [hstarted]
  split at h
  next cause built hbuild =>
    cases h
    rcases buildShared_cases hbuild with
      ⟨cause, _, hstart, -, rfl⟩ | ⟨code, stdout, stderr, after, hstart, hleft⟩
    · exact .inl ⟨cause, hstart, rfl⟩
    · refine .inr ⟨code, stdout, stderr, after, hstart, hleft.imp_right ?_⟩
      rintro ⟨_, -, hleft⟩
      exact hleft
  next built hbuild =>
    rcases buildShared_cases hbuild with
      ⟨_, _, -, hresult, -⟩ | ⟨code, stdout, stderr, after, hstart, hleft⟩
    · contradiction
    · refine .inr ⟨code, stdout, stderr, after, hstart, .inl (hleft.resolve_right ?_)⟩
      rintro ⟨_, hresult, -⟩
      contradiction

/-- A run of the compiler that left no output, or whose output was discarded, leaves the folder of the key and no
new file, and the cache as it was exactly if no file stood in the place of the output. -/
theorem sameCache_iff_of_started (hr : s.WritesOutputOnly r) (hb : s.Runs b) (hhome : made.home = s.home)
    (htidy : made.Tidy) (hkey : Path.IsName key.toList)
    (hreaches : made.Reaches (b.cache.entryDir key) (s.cachePlace ++ [key.toList]))
    (hfolder : made.nodeAt (s.cachePlace ++ [key.toList]) = .folder)
    {code : Nat} {stdout stderr : List UInt8}
    (hstart : s.started b r key made = .finished code stdout stderr after)
    (hleft : files' = Toolchain.discard (b.outputPath r key) after ∨
      files' = after ∧ after.isFile (b.outputPath r key) = false) :
    files'.nodeAt (s.cachePlace ++ [key.toList]) = .folder ∧ s.NoNewFile made files' ∧
      (s.SameCache made files' ↔ made.isFile (b.outputPath r key) = false) := by
  have hkeeps : s.KeepsToFile (b.outputPath r key) made after :=
    hr (b.outputPath r key) made code stdout stderr after htidy hstart
  obtain ⟨name, hend, hcases⟩ := outputPath_cases hb hkey r
  clear hstart
  generalize b.outputPath r key = file at *
  rcases hcases with hleads | hnowhere
  · have hplace := hleads made hhome hreaches
    have hin : s.cachePlace <+: s.entryPlace key name := cachePlace_prefix_entryPlace s key name
    have hkept : s.KeepsToFile file made files' ∧ files'.isFile file = false := by
      rcases hleft with rfl | ⟨rfl, hnone⟩
      · exact hkeeps.discard hplace hin
      · exact ⟨hkeeps, hnone⟩
    refine ⟨?_, hkept.1.sameCache_iff hplace hend hin hkept.2⟩
    rw [hkept.1.others _ (List.prefix_append _ _) fun place hother habove => ?_, hfolder]
    obtain rfl := Except.ok.inj (hplace.symm.trans hother)
    have hlength := habove.length_le
    simp [entryPlace] at hlength
  · have hafter : files' = after := by
      rcases hleft with rfl | ⟨rfl, -⟩
      · rcases discard_cases file after with hremoved | ⟨-, hdiscard⟩
        · obtain ⟨place, hplace, -⟩ := Files.changesOnly_of_removeFile hremoved
          exact absurd hplace (hnowhere after place)
        · exact hdiscard
      · rfl
    subst hafter
    have hsame := hkeeps.sameCache (hnowhere made)
    refine ⟨(hsame _ (List.prefix_append _ _)).trans hfolder, hsame.noNewFile, iff_of_true hsame ?_⟩
    rw [← Bool.not_eq_true, Files.isFile_iff_bodyAt]
    rintro ⟨place, body, hplace, -, -⟩
    exact hnowhere made place hplace

/-- A build that fails behind making the folder of its key leaves no new file, and the cache as it was exactly if
the folder was there and, if the compiler ran, no file stood in the place of the output. -/
theorem sameCache_iff_of_make (hr : s.WritesOutputOnly r) (hb : s.Runs b) (hhome : files.home = s.home)
    (htidy : files.Tidy) (hkey : Path.IsName key.toList)
    (hmade : files.makeFolders (b.cache.entryDir key) = .ok made)
    (hnone : ∀ stdout stderr after, s.started b r key made = .finished 0 stdout stderr after →
      after.isFile (b.outputPath r key) = false)
    {now : Nat} {fault : Fault} (h : Builder.make s.host now b r key files = (.error fault, b', files')) :
    s.NoNewFile files files' ∧
      (s.SameCache files files' ↔ files.nodeAt (s.cachePlace ++ [key.toList]) = .folder ∧
        ∀ code stdout stderr after, s.started b r key made = .finished code stdout stderr after →
          files.isFile (b.outputPath r key) = false) := by
  have hplace := resolve_entryDir hb hhome hkey hmade
  have hfolder := Files.nodeAt_of_makeFolders hmade hplace
  obtain ⟨hagree, hfolders⟩ := Files.agree_of_makeFolders hmade
  have hreaches : made.Reaches (b.cache.entryDir key) (s.cachePlace ++ [key.toList]) :=
    ((Files.resolve_eq_ok_iff _ _ _).mp hplace).2.of_folders hagree.home hfolders
  have hthere (hbefore : files.nodeAt (s.cachePlace ++ [key.toList]) = .folder) : made = files :=
    Except.ok.inj (hmade.symm.trans (Files.makeFolders_of_nodeAt hplace hbefore))
  rcases make_failed_cases hb hmade h with
    ⟨cause, hstart, rfl⟩ | ⟨code, stdout, stderr, after, hstart, hleft⟩
  · refine ⟨fun q _ => .inr (hagree.body q trivial), ?_⟩
    rw [sameCache_iff_of_makeFolders hb hhome hkey hmade hfolder]
    refine and_congr_right fun _ => iff_of_true (fun _ _ => rfl) fun code stdout stderr after hother => ?_
    rw [hstart] at hother
    contradiction
  · have hleft : files' = Toolchain.discard (b.outputPath r key) after ∨
        files' = after ∧ after.isFile (b.outputPath r key) = false := by
      rcases hleft with ⟨rfl, hfile⟩ | hleft | ⟨rfl, hleft⟩
      · rw [hnone _ _ _ hstart] at hfile
        contradiction
      · exact .inl hleft
      · exact .inr ⟨hleft, hnone _ _ _ hstart⟩
    obtain ⟨hkept, hnew, hsame⟩ := sameCache_iff_of_started hr hb (hagree.home.trans hhome)
      (htidy.of_makeFolders hmade) hkey hreaches hfolder hstart hleft
    refine ⟨fun q hq => (hnew q hq).imp_right (·.trans (hagree.body q trivial)), ?_⟩
    rw [sameCache_iff_of_makeFolders hb hhome hkey hmade hkept, hsame]
    refine and_congr_right fun hbefore => ?_
    rw [hthere hbefore] at hstart ⊢
    exact ⟨fun h _ _ _ _ _ => h, fun h => h _ _ _ _ hstart⟩

/-- A call that fails could not read its sources, or fails to make the library. -/
theorem compile_failed_cases {now : Nat} {fault : Fault}
    (h : b.compile s.host now r files = (.error fault, b', files')) :
    (∃ cause, b.cacheKey r files = .error cause ∧ files' = files) ∨
      ∃ key, b.cacheKey r files = .ok key ∧ Path.IsName key.toList ∧
        Builder.make s.host now b r key files = (.error fault, b', files') := by
  cases hkey : b.cacheKey r files with
  | error cause =>
    rw [Builder.compile, hkey] at h
    cases h
    exact .inl ⟨_, rfl, rfl⟩
  | ok key =>
    have hname : Path.IsName key.toList := by
      obtain ⟨sources, -, rfl⟩ := exists_of_map_eq_ok hkey
      exact isName_keyOf _
    refine .inr ⟨key, rfl, hname, ?_⟩
    rcases b.cache.lookup_cases now key (sharedLibraryName r.stem) files with
      ⟨path, -, -, hfound⟩ | ⟨-, hfound⟩ | ⟨-, hmissing⟩
    · rw [compile_of_found hkey hfound] at h
      cases h
    · rw [compile_of_found hkey hfound] at h
      cases h
    · rwa [compile_of_missing hkey hmissing] at h

/-- A build that fails adds no file to the cache. It leaves the cache as it was exactly if it found the folder of
its key and, having run the compiler, no file in the place of the output. -/
theorem sameCache_iff_findsItsFolder (hr : s.WritesOutputOnly r) (hb : s.Runs b) (hhome : files.home = s.home)
    (htidy : files.Tidy) {now : Nat} {fault : Fault} (h : s.Fails now b r files fault b' files') :
    s.NoNewFile files files' ∧ (s.SameCache files files' ↔ s.FindsItsFolder b r files) := by
  have hsame : s.SameCache files files := fun _ _ => rfl
  rcases compile_failed_cases h.answers with ⟨cause, hkey, rfl⟩ | ⟨key, hkey, hname, hmake⟩
  · refine ⟨hsame.noNewFile, iff_of_true hsame fun key made hother => ?_⟩
    rw [hkey] at hother
    contradiction
  cases hmade : files.makeFolders (b.cache.entryDir key) with
  | error cause =>
    simp only [Builder.make, hmade] at hmake
    cases hmake
    refine ⟨hsame.noNewFile, iff_of_true hsame fun other made hother hmade' => ?_⟩
    obtain rfl := Except.ok.inj (hkey.symm.trans hother)
    rw [hmade] at hmade'
    contradiction
  | ok made =>
    obtain ⟨hnew, hiff⟩ :=
      sameCache_iff_of_make hr hb hhome htidy hname hmade (h.noOutput key made · · · hkey hmade) hmake
    refine ⟨hnew, hiff.trans ⟨fun hfinds other made' hother hmade' => ?_,
      fun hfinds => hfinds key made hkey hmade⟩⟩
    obtain rfl := Except.ok.inj (hkey.symm.trans hother)
    obtain rfl := Except.ok.inj (hmade.symm.trans hmade')
    exact hfinds

end Site

/-! ## A compiler that refuses -/

namespace Refusing

/-- A site whose compiler ends with a failure and leaves all files alone. -/
def site : Site where
  host := ⟨fun _ _ files => .finished 1 [] (Text.utf8 "k.c:1: error") files⟩
  toolchain := ⟨"cc", .gcc, "cc 1.0"⟩
  cflags := []
  cacheRoot := "cache"
  home := [['w']]

/-- The request. -/
def request : BuildRequest :=
  { source := "k.c" }

/-- The builder at the start. -/
def builder : Builder :=
  ⟨site.toolchain, ⟨site.cacheRoot, []⟩, site.cflags, 1, 0⟩

/-- The name of the source. -/
def sourceName : List Char := "k.c".toList

/-- The key of the request. -/
def key : String := "45e3d98b55e24a93"

/-- The place of the folder of the key. -/
def keyPlace : List (List Char) :=
  site.cachePlace ++ [key.toList]

/-- A source beside a cache that holds these entries. -/
def filesWith (entries : Listing) : Files where
  root := .folder ['w'] (.file sourceName ⟨Text.utf8 "int f(\n", .denied⟩
    (.folder site.cacheRoot.toList entries .done)) .done
  home := site.home

/-- An empty cache. -/
def start : Files :=
  filesWith .done

/-- A cache with an empty folder of the key. -/
def left : Files :=
  filesWith (.folder key.toList .done .done)

/-- What a call of the request comes to. -/
def call (b : Builder) (files : Files) : Except Fault Artifact × Builder × Files :=
  b.compile site.host 0 request files

/-- The compiler leaves the cache alone. -/
theorem writesOutputOnly : site.WritesOutputOnly request := by
  intro file files code stdout stderr after htidy h
  cases h
  exact ⟨htidy, rfl, fun _ h => h, fun _ _ _ => rfl, fun _ _ h => h⟩

/-- A call without an answer fails by the compiler. -/
theorem exists_fails {b b' : Builder} {files files' : Files} (h : (call b files).1.toOption = none)
    (hleft : (call b files).2 = (b', files')) : ∃ fault, site.Fails 0 b request files fault b' files' := by
  cases hanswer : (call b files).1 with
  | ok artifact =>
    rw [hanswer] at h
    contradiction
  | error fault => exact ⟨fault, Prod.ext hanswer hleft, fun key made stdout stderr after _ _ => nofun⟩

/-- The cache with the folder of the key is tidy. -/
theorem tidy_left : left.Tidy where
  root := ⟨⟨by decide, by decide⟩, rfl, ⟨⟨by decide, by decide⟩, rfl, ⟨by decide, by decide⟩, rfl,
    ⟨⟨by decide, by decide⟩, rfl, trivial, trivial⟩, trivial⟩, trivial⟩
  home := by
    intro name hname
    rw [List.mem_singleton.mp hname]
    exact ⟨by decide, by decide⟩

/-- A second call fails as well. It leaves the cache as it was, because it finds the folder of its key. -/
theorem sameCache_again : ∃ files', (∃ fault, site.Fails 0 { builder with builds := 1 } request left fault
    { builder with builds := 2 } files') ∧ site.SameCache left files' := by
  obtain ⟨fault, hfails⟩ := @exists_fails { builder with builds := 1 } { builder with builds := 2 } left left
    (by decide +kernel) (by decide +kernel)
  refine ⟨left, ⟨fault, hfails⟩,
    (Site.sameCache_iff_findsItsFolder writesOutputOnly ⟨rfl, rfl, rfl⟩ rfl tidy_left hfails).2.mpr ?_⟩
  intro other made hkey _
  have hcacheKey : (({ builder with builds := 1 } : Builder).cacheKey request left).toOption = some key := by
    decide +kernel
  rw [hkey] at hcacheKey
  obtain rfl := Option.some.inj hcacheKey
  exact ⟨by decide +kernel, fun _ _ _ _ _ => by decide +kernel⟩

/-- The first call leaves the folder of its key in the cache, which counts as no entry and is not cleaned away. -/
theorem folder_left : ∃ b' files', (∃ fault, site.Fails 0 builder request start fault b' files') ∧
    ¬ site.SameCache start files' ∧ start.nodeAt keyPlace = .absent ∧ files'.nodeAt keyPlace = .folder ∧
    (b'.cache.status files').toOption = some ⟨0, 0⟩ ∧
    (b'.cache.clean files').2.nodeAt keyPlace = .folder := by
  have habsent : start.nodeAt keyPlace = .absent := by decide +kernel
  have hleft : left.nodeAt keyPlace = .folder := by decide +kernel
  refine ⟨{ builder with builds := 1 }, left, exists_fails (by decide +kernel) (by decide +kernel),
    fun hsame => ?_, habsent, hleft, by decide +kernel, by decide +kernel⟩
  have hkept := hsame keyPlace (List.prefix_append _ _)
  rw [habsent, hleft] at hkept
  contradiction

end Refusing

end CBind
