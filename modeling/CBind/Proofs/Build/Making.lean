import CBind.Proofs.Build.Entries

/-!
# What making a library leaves behind

A site is a compiler on a host with a cache below a working folder. Of the compiler nothing is known
but what is asked of it: what it produces is decided by its command line and by the files, a run that
succeeds has written the file it was told to write, and no run touches another file of the cache.

Then making a library puts what the compiler produces at the place of the library, and changes no entry
of another key. A library that cannot be made leaves no record.
-/

namespace CBind

open Digest Toolchain

namespace Cache

/-- Recording an entry in whatever format writes its record and remembers its library, or is refused and
changes nothing. -/
theorem recordAs_cases (format : RecordFormat) (c : Cache) (entry : CacheRecord) (files : Files) :
    (∃ fault, c.recordAs format entry files = (.error fault, files)) ∨
      ∃ bytes written, files.write (c.recordPath entry.key) bytes = .ok written ∧
        c.recordAs format entry files = (.ok (c.remember entry.key entry.library), written) := by
  unfold recordAs
  split
  · exact .inl ⟨_, rfl⟩
  · split
    · exact .inl ⟨_, rfl⟩
    · next written hwrite => exact .inr ⟨_, written, hwrite, rfl⟩

/-- Recording an entry writes its record and remembers its library, or is refused and changes nothing. -/
theorem record_cases (c : Cache) (entry : CacheRecord) (files : Files) :
    (∃ fault, c.record entry files = (.error fault, files)) ∨
      ∃ bytes written, files.write (c.recordPath entry.key) bytes = .ok written ∧
        c.record entry files = (.ok (c.remember entry.key entry.library), written) :=
  recordAs_cases .settings c entry files

end Cache

/-- A compiler on a host, with its flags and the folder of its cache. -/
structure Site where
  host : Host
  toolchain : Toolchain
  cflags : List String
  cacheRoot : String
  home : List (List Char)

namespace Site

/-- The place of the cache. -/
def cachePlace (s : Site) : List (List Char) :=
  Files.placeFrom s.home s.cacheRoot

/-- The path of a file of the entry of a key. -/
def entryPath (s : Site) (key name : String) : String :=
  Path.join (Path.join s.cacheRoot key) name

/-- The place of a file of the entry of a key. -/
def entryPlace (s : Site) (key name : String) : List (List Char) :=
  s.cachePlace ++ [key.toList, name.toList]

/-- A builder of the site. -/
structure Runs (s : Site) (b : Builder) : Prop where
  toolchain : b.toolchain = s.toolchain
  cflags : b.cflags = s.cflags
  root : b.cache.root = s.cacheRoot

/-- A run of the compiler on these files, into whatever file, writes these bytes. Folders that hold no
file do not count. -/
def Produces (s : Site) (r : BuildRequest) (files : Files) (bytes : List UInt8) : Prop :=
  ∃ tree file stdout stderr after, Files.Agree (fun _ => True) files tree ∧
    s.host.start s.toolchain.path (buildArguments r s.cflags file) tree =
      .finished 0 stdout stderr after ∧
    after.read file = .ok bytes

/-- What is taken of the compiler as it builds requests of a kind. -/
structure Obeys (s : Site) (requests : BuildRequest → Prop) : Prop where
  deterministic : ∀ r files bytes bytes', requests r → s.Produces r files bytes →
    s.Produces r files bytes' → bytes = bytes'
  writes : ∀ r file files stdout stderr after, requests r →
    s.host.start s.toolchain.path (buildArguments r s.cflags file) files =
      .finished 0 stdout stderr after →
    ∃ bytes, after.read file = .ok bytes
  keeps : ∀ r file files code stdout stderr after, requests r →
    s.host.start s.toolchain.path (buildArguments r s.cflags file) files =
      .finished code stdout stderr after →
    Files.Agree (fun q => s.cachePlace <+: q ∧
      ∀ place, files.resolve file = .ok place → ¬ place <+: q) files after

/-- Building a request, the compiler changes no file of the cache but the one it is told to write. -/
def SparesCache (s : Site) (r : BuildRequest) : Prop :=
  ∀ file files code stdout stderr after,
    s.host.start s.toolchain.path (buildArguments r s.cflags file) files =
      .finished code stdout stderr after →
    Files.Agree (fun q => s.cachePlace <+: q ∧
      ∀ place, files.resolve file = .ok place → ¬ place <+: q) files after

variable {s : Site}

/-- What is taken of a compiler includes that it spares the cache. -/
theorem Obeys.sparesCache {requests : BuildRequest → Prop} (hs : s.Obeys requests) {r : BuildRequest}
    (hr : requests r) : s.SparesCache r :=
  fun file files code stdout stderr after => hs.keeps r file files code stdout stderr after hr

/-- Only the files decide what is produced. -/
theorem Produces.of_agree {r : BuildRequest} {files tree : Files} {bytes : List UInt8}
    (h : Files.Agree (fun _ => True) files tree) (hp : s.Produces r tree bytes) :
    s.Produces r files bytes := by
  obtain ⟨other, file, stdout, stderr, after, hagree, hstart, hread⟩ := hp
  exact ⟨other, file, stdout, stderr, after, h.trans hagree, hstart, hread⟩

/-! ## Places of entries -/

/-- A cache of the site joins the paths of entries. -/
theorem entryPath_eq {c : Cache} (hroot : c.root = s.cacheRoot) (key name : String) :
    Path.join (c.entryDir key) name = s.entryPath key name := by
  rw [Cache.entryDir, hroot, entryPath]

/-- A resolved path of an entry leads to its place. -/
theorem eq_entryPlace {files : Files} {key name : String} {q : List (List Char)}
    (hkey : Path.IsName key.toList) (hname : Path.IsName name.toList) (hhome : files.home = s.home)
    (h : files.resolve (s.entryPath key name) = .ok q) : q = s.entryPlace key name := by
  rw [Files.eq_placeFrom_of_resolve h, hhome, entryPath, Files.placeFrom_join _ _ hname,
    Files.placeFrom_join _ _ hkey, List.append_assoc]
  rfl

/-- The places of entries are places of the cache. -/
theorem cachePlace_prefix_entryPlace (s : Site) (key name : String) :
    s.cachePlace <+: s.entryPlace key name :=
  List.prefix_append _ _

/-- No file of an entry stands below another one. -/
theorem eq_of_prefix_entryPlace {key name key' name' : String}
    (h : s.entryPlace key name <+: s.entryPlace key' name') :
    key.toList = key'.toList ∧ name.toList = name'.toList := by
  have heq := h.eq_of_length (by simp [entryPlace])
  simpa [entryPlace] using heq

/-- A file of an entry can be resolved if the folder of the entry can. -/
theorem resolve_entryPath {files : Files} {key name : String} {folder : List (List Char)}
    (hkey : Path.IsName key.toList) (hname : Path.IsName name.toList) (hhome : files.home = s.home)
    (husable : Path.IsUsable (s.entryPath key name))
    (h : files.Reaches (Path.join s.cacheRoot key) folder) :
    files.resolve (s.entryPath key name) = .ok (s.entryPlace key name) := by
  have hr : files.resolve (s.entryPath key name) = .ok (folder ++ [name.toList]) :=
    (Files.resolve_eq_ok_iff _ _ _).mpr
      ⟨husable, (Files.reaches_join_iff _ _ hname _).mpr ⟨folder, h, rfl⟩⟩
  rw [hr, eq_entryPlace hkey hname hhome hr]

/-- A file of an entry is found at its place. -/
theorem find_entryPath {files : Files} {key name : String} {body : FileBody}
    (hname : Path.IsName name.toList)
    (hr : files.resolve (s.entryPath key name) = .ok (s.entryPlace key name))
    (hbody : files.bodyAt (s.entryPlace key name) = some body) :
    files.find (s.entryPath key name) = .ok (.file body) :=
  (Files.find_eq_ok_file_iff _ _ _).mpr ⟨_, hr, hbody, Path.endsAtFolder_join _ hname⟩

/-! ## Building into an entry -/

/-- What building into the entry of a key spares: all of the cache but files of the entry that are named
like a library. -/
def Spares (s : Site) (key : String) (q : List (List Char)) : Prop :=
  s.cachePlace <+: q ∧
    ∀ name : String, name.toList.head? = some 'l' → ¬ s.entryPlace key name <+: q

/-- Records are spared. -/
theorem spares_record (s : Site) (key key' : String) :
    s.Spares key (s.entryPlace key' recordName) :=
  ⟨s.cachePlace_prefix_entryPlace _ _,
    fun _ hname h => ne_recordName hname (eq_of_prefix_entryPlace h).2⟩

/-- Entries of other keys are spared. -/
theorem spares_of_ne {key key' : String} (hne : key' ≠ key) (name : String) :
    s.Spares key (s.entryPlace key' name) :=
  ⟨s.cachePlace_prefix_entryPlace _ _,
    fun _ _ h => hne (String.toList_inj.mp (eq_of_prefix_entryPlace h).1).symm⟩

/-- Discarding a file of an entry that is named like a library spares the rest. -/
theorem agree_discard {files : Files} {key name : String} (hkey : Path.IsName key.toList)
    (hname : Path.IsName name.toList) (hhead : name.toList.head? = some 'l')
    (hhome : files.home = s.home) :
    Files.Agree (s.Spares key) files (Toolchain.discard (s.entryPath key name) files) := by
  unfold Toolchain.discard
  split
  · rename_i removed hr
    obtain ⟨q, hq, hc⟩ := Files.changesOnly_of_removeFile hr
    rw [eq_entryPlace hkey hname hhome hq] at hc
    exact hc.agree.mono fun q hq => hq.2 name hhead
  · exact Files.Agree.refl _ _

/-- Building into an entry spares the rest of the cache, and if it succeeds what the compiler produces is
at the place of the library. -/
theorem agree_of_buildShared {r : BuildRequest} (hspares : s.SparesCache r) {ticket : Ticket}
    {key : String} (hkey : Path.IsName key.toList) {files files' : Files} (hhome : files.home = s.home)
    {result : Except Fault Unit}
    (h : s.toolchain.buildShared s.host ticket r s.cflags
      (s.entryPath key (sharedLibraryName r.stem)) files = (result, files')) :
    Files.Agree (s.Spares key) files files' ∧ (result = .ok () → ∃ body,
      files'.resolve (s.entryPath key (sharedLibraryName r.stem)) =
        .ok (s.entryPlace key (sharedLibraryName r.stem)) ∧
      files'.bodyAt (s.entryPlace key (sharedLibraryName r.stem)) = some body ∧
      s.Produces r files body.bytes) := by
  have hlib := r.isName_library
  have hhead := head?_sharedLibraryName r.stem
  obtain ⟨temporary, htemp, hname, hfirst⟩ :=
    Toolchain.temporaryName_join ticket (Path.join s.cacheRoot key) r
  change temporaryName ticket (s.entryPath key _) = s.entryPath key temporary at htemp
  simp only [Toolchain.buildShared, htemp] at h
  split at h
  · cases h
    exact ⟨Files.Agree.refl _ _, fun hok => nomatch hok⟩
  · rename_i code stdout stderr after hstart
    have hkeeps : Files.Agree (s.Spares key) files after := by
      refine (hspares _ files code stdout stderr after hstart).mono fun q hq => ⟨hq.1, ?_⟩
      intro place hres
      rw [eq_entryPlace hkey hname hhome hres]
      exact hq.2 temporary hfirst
    have hafter : after.home = s.home := hkeeps.home.trans hhome
    split at h
    · rename_i hcode
      subst hcode
      split at h
      · rename_i renamed hrename
        cases h
        obtain ⟨start, goal, body, hfind, hstart', hgoal, hgoal', hbody, hagree, -⟩ :=
          Files.agree_of_rename hrename
        rw [eq_entryPlace hkey hname hafter hstart'] at hagree
        rw [eq_entryPlace hkey hlib hafter hgoal] at hagree hbody hgoal'
        refine ⟨hkeeps.trans (hagree.mono fun q hq => ⟨hq.2 _ hfirst, hq.2 _ hhead⟩), fun _ => ?_⟩
        refine ⟨body, hgoal', hbody, files, _, stdout, stderr, after, Files.Agree.refl _ _,
          hstart, ?_⟩
        exact (Files.read_eq_ok_iff _ _ _).mpr ⟨body, hfind, rfl⟩
      · cases h
        exact ⟨hkeeps, fun hok => nomatch hok⟩
    · cases h
      exact ⟨hkeeps.trans (agree_discard hkey hname hfirst hafter), fun hok => nomatch hok⟩

/-- What making a library with a result leaves behind in the entry of its key: what the compiler
produced is there, and so is a record. -/
structure Makes (s : Site) (r : BuildRequest) (key : String) (files files' : Files) : Prop where
  others : ∀ key' name, key' ≠ key →
    files'.bodyAt (s.entryPlace key' name) = files.bodyAt (s.entryPlace key' name)
  library : ∃ body, files'.bodyAt (s.entryPlace key (sharedLibraryName r.stem)) = some body ∧
    s.Produces r files body.bytes
  resolves : files'.resolve (s.entryPath key (sharedLibraryName r.stem)) =
    .ok (s.entryPlace key (sharedLibraryName r.stem))
  record : files'.bodyAt (s.entryPlace key recordName) ≠ none
  usable : Path.IsUsable (s.entryPath key recordName)

/-- Recording changes what is at the place of the record, or nothing. -/
theorem record_cases {c : Cache} (hroot : c.root = s.cacheRoot) {record : CacheRecord}
    (hkey : Path.IsName record.key.toList) {files files' : Files} (hhome : files.home = s.home)
    {result : Except Fault Cache} (h : c.record record files = (result, files')) :
    (∃ fault, result = .error fault ∧ files' = files) ∨
      (result = .ok (c.remember record.key record.library) ∧
        Path.IsUsable (s.entryPath record.key recordName) ∧
        Files.ChangesOnly (s.entryPlace record.key recordName) files files' ∧
        files'.bodyAt (s.entryPlace record.key recordName) ≠ none) := by
  rcases c.record_cases record files with ⟨fault, hrefused⟩ | ⟨bytes, written, hwrite, hdone⟩
  · obtain ⟨rfl, rfl⟩ := Prod.mk.inj (hrefused.symm.trans h)
    exact .inl ⟨fault, rfl, rfl⟩
  · obtain ⟨rfl, rfl⟩ := Prod.mk.inj (hdone.symm.trans h)
    rw [Cache.recordPath, entryPath_eq hroot] at hwrite
    obtain ⟨place, hr, -, ⟨body, hbody, -⟩, hc⟩ := Files.changesOnly_of_write hwrite
    have hplace := eq_entryPlace hkey isName_recordName hhome hr
    subst hplace
    exact .inr ⟨rfl, ((Files.resolve_eq_ok_iff _ _ _).mp hr).1, hc, by simp [hbody]⟩

/-- Making a library that cannot be made spares all records and the entries of other keys, and what was
remembered stays. Making a library puts it into the cache and remembers it. -/
theorem make_cases {r : BuildRequest} (hspares : s.SparesCache r) {b b' : Builder} (hb : s.Runs b)
    {now : Nat} {key : String} (hkey : Path.IsName key.toList) {files files' : Files}
    (hhome : files.home = s.home) {answer : Except Fault Artifact}
    (h : Builder.make s.host now b r key files = (answer, b', files')) :
    s.Runs b' ∧ files'.home = s.home ∧
      ((∃ fault, answer = .error fault ∧ b'.cache = b.cache ∧
          Files.Agree (s.Spares key) files files') ∨
        (answer = .ok ⟨s.entryPath key (sharedLibraryName r.stem), key, false⟩ ∧
          b'.cache = b.cache.remember key (s.entryPath key (sharedLibraryName r.stem)) ∧
          s.Makes r key files files')) := by
  obtain ⟨toolchain, ⟨root, memo⟩, cflags, process, builds⟩ := b
  obtain ⟨rfl, rfl, rfl⟩ := hb
  have hlib := r.isName_library
  unfold Builder.make at h
  dsimp only [Cache.entryDir] at h
  split at h
  · simp only [Prod.mk.injEq] at h
    obtain ⟨rfl, rfl, rfl⟩ := h
    exact ⟨⟨rfl, rfl, rfl⟩, hhome, .inl ⟨_, rfl, rfl, Files.Agree.refl _ _⟩⟩
  rename_i made hmade
  obtain ⟨hagree, -⟩ := Files.agree_of_makeFolders hmade
  have hmadeHome : made.home = s.home := hagree.home.trans hhome
  split at h
  · rename_i fault built hbuild
    simp only [Prod.mk.injEq] at h
    obtain ⟨rfl, rfl, rfl⟩ := h
    obtain ⟨hkept, -⟩ := agree_of_buildShared hspares hkey hmadeHome hbuild
    exact ⟨⟨rfl, rfl, rfl⟩, hkept.home.trans hmadeHome,
      .inl ⟨_, rfl, rfl, (hagree.mono fun _ _ => trivial).trans hkept⟩⟩
  rename_i built hbuild
  obtain ⟨hkept, hok⟩ := agree_of_buildShared hspares hkey hmadeHome hbuild
  obtain ⟨body, hres, hbody, hproduces⟩ := hok rfl
  have hbuilt := (hagree.mono fun _ _ => trivial).trans hkept
  have hbuiltHome : built.home = s.home := hbuilt.home.trans hhome
  split at h
  · rename_i fault recorded hrecord
    simp only [Prod.mk.injEq] at h
    obtain ⟨rfl, rfl, rfl⟩ := h
    rcases record_cases rfl hkey hbuiltHome hrecord with ⟨_, -, rfl⟩ | ⟨hwrong, -⟩
    · exact ⟨⟨rfl, rfl, rfl⟩, hbuiltHome, .inl ⟨_, rfl, rfl, hbuilt⟩⟩
    · cases hwrong
  · rename_i cache recorded hrecord
    simp only [Prod.mk.injEq] at h
    obtain ⟨rfl, rfl, rfl⟩ := h
    rcases record_cases rfl hkey hbuiltHome hrecord with ⟨_, hwrong, -⟩ | ⟨hcache, husable, hc, hrec⟩
    · cases hwrong
    · have hcache := Except.ok.inj hcache
      refine ⟨⟨rfl, rfl, hcache ▸ rfl⟩, hc.home.trans hbuiltHome, .inr ⟨rfl, hcache, ?_⟩⟩
      have hapart {key' name : String} (hne : key' ≠ key ∨ name.toList ≠ recordName.toList) :
          ¬ s.entryPlace key recordName <+: s.entryPlace key' name := fun hp =>
        have heq := eq_of_prefix_entryPlace hp
        hne.elim (fun hk => hk (String.toList_inj.mp heq.1).symm) (fun hn => hn heq.2.symm)
      have hlibrary := ne_recordName (head?_sharedLibraryName r.stem)
      exact ⟨fun key' name hne => (hc.agree.body _ (hapart (.inl hne))).trans
          (hbuilt.body _ (spares_of_ne hne name)),
        ⟨body, (hc.agree.body _ (hapart (.inr hlibrary))).trans hbody,
          hproduces.of_agree hagree⟩,
        hc.resolve hres, hrec, husable⟩

end Site

end CBind
