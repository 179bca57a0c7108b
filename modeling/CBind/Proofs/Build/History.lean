import CBind.Proofs.Build.Making

/-!
# Histories of a cache

A history of a site interleaves calls of the builder with edits of files outside the cache and with
restarts of the process, from a cache without files. Nobody but the builder and its compiler changes
files of the cache, and different hashed inputs of the history have different digests.

In every history, the first library of a key is what the compiler produces, and every later one of that
key holds the same bytes.
-/

namespace CBind

open Digest

/-- A call of the builder: what was asked for, the files it found, and what came of it. -/
structure Call where
  request : BuildRequest
  files : Files
  answer : Except Fault Artifact
  after : Files

namespace Site

/-- What the key of a request covers, as the files are. -/
def hashed (s : Site) (r : BuildRequest) (files : Files) : Except Fault (List KeyPart) :=
  (Builder.readSources files r.sources).map fun sources =>
    Builder.keyParts sources s.toolchain.path s.toolchain.version (r.commandFlags s.cflags)

/-- The library of a call holds exactly what the compiler produces of the files the call found. -/
def Fresh (s : Site) (c : Call) (a : Artifact) : Prop :=
  ∃ bytes, c.after.read a.library = .ok bytes ∧ s.Produces c.request c.files bytes

/-- Histories of a site: a builder, the files, and the calls so far. -/
inductive History (s : Site) (requests : BuildRequest → Prop) :
    Builder → Files → List Call → Prop
  | start (b : Builder) (files : Files) (hb : s.Runs b) (hmemo : b.cache.memo = [])
      (hhome : files.home = s.home)
      (hempty : ∀ q, s.cachePlace <+: q → files.bodyAt q = none) : History s requests b files []
  | edit {b : Builder} {files : Files} {log : List Call} (h : History s requests b files log)
      (edited : Files) (hedit : Files.Agree (s.cachePlace <+: ·) files edited) :
      History s requests b edited log
  | restart {b : Builder} {files : Files} {log : List Call} (h : History s requests b files log)
      (again : Builder) (hb : s.Runs again) (hmemo : again.cache.memo = []) :
      History s requests again files log
  | call {b : Builder} {files : Files} {log : List Call} (h : History s requests b files log)
      (now : Nat) (r : BuildRequest) (hr : requests r) :
      History s requests (b.compile s.host now r files).2.1 (b.compile s.host now r files).2.2
        (log ++ [⟨r, files, (b.compile s.host now r files).1, (b.compile s.host now r files).2.2⟩])

/-- Different hashed inputs of the calls have different digests. -/
def DistinctDigests (s : Site) (log : List Call) : Prop :=
  ∀ c ∈ log, ∀ d ∈ log, ∀ parts parts', s.hashed c.request c.files = .ok parts →
    s.hashed d.request d.files = .ok parts' → keyOf parts = keyOf parts' → parts = parts'

/-- The library of a call stands in the entry of its key, with a record beside it. -/
structure Stored (s : Site) (files : Files) (c : Call) (a : Artifact) : Prop where
  hashed : ∃ parts, s.hashed c.request c.files = .ok parts ∧ a.key = keyOf parts
  library : a.library = s.entryPath a.key (sharedLibraryName c.request.stem)
  usable : Path.IsUsable a.library
  recordUsable : Path.IsUsable (s.entryPath a.key recordName)
  content : ∃ body, files.bodyAt (s.entryPlace a.key (sharedLibraryName c.request.stem)) = some body ∧
    c.after.read a.library = .ok body.bytes
  record : files.bodyAt (s.entryPlace a.key recordName) ≠ none

/-- What holds in every history: answered calls are stored, records and remembered libraries are those
of answered calls, and the bytes of each library were fresh once for its key. -/
structure Sound (s : Site) (b : Builder) (files : Files) (log : List Call) : Prop where
  runs : s.Runs b
  home : files.home = s.home
  stored : ∀ c ∈ log, ∀ a, c.answer = .ok a → s.Stored files c a
  recorded : ∀ key, files.bodyAt (s.entryPlace key recordName) ≠ none →
    ∃ c ∈ log, ∃ a, c.answer = .ok a ∧ a.key = key
  remembered : ∀ key library, b.cache.remembered? key = some library →
    ∃ c ∈ log, ∃ a, c.answer = .ok a ∧ a.key = key ∧ a.library = library
  origin : ∀ c ∈ log, ∀ a, c.answer = .ok a → ∃ d ∈ log, ∃ a', d.answer = .ok a' ∧
    a'.key = a.key ∧ s.Fresh d a' ∧ d.after.read a'.library = c.after.read a.library

variable {s : Site}

/-! ## Keys -/

/-- The key of a request is the digest of what it covers. -/
theorem cacheKey_eq {b : Builder} (hb : s.Runs b) (r : BuildRequest) (files : Files) :
    b.cacheKey r files = (s.hashed r files).map keyOf := by
  unfold Builder.cacheKey hashed
  rw [hb.toolchain, hb.cflags]
  cases Builder.readSources files r.sources <;> rfl

/-- What a key covers starts with the path of the first source. -/
theorem head?_hashed {r : BuildRequest} {files : Files} {parts : List KeyPart}
    (h : s.hashed r files = .ok parts) : parts.head? = some (.text r.source) := by
  obtain ⟨sources, hread, rfl⟩ := exists_of_map_eq_ok h
  rw [BuildRequest.sources, Builder.readSources] at hread
  split at hread
  · cases hread
  · obtain ⟨rest, -, rfl⟩ := exists_of_map_eq_ok hread
    rfl

/-- Requests whose keys cover the same name their libraries alike. -/
theorem stem_eq_of_hashed {r r' : BuildRequest} {files files' : Files} {parts : List KeyPart}
    (h : s.hashed r files = .ok parts) (h' : s.hashed r' files' = .ok parts) : r.stem = r'.stem := by
  have hsource : r.source = r'.source := by
    have := (head?_hashed h).symm.trans (head?_hashed h')
    simpa using this
  rw [BuildRequest.stem, BuildRequest.stem, hsource]

end Site

namespace Cache

/-- Remembering one key changes what is remembered of this key alone. -/
theorem remembered?_remember (c : Cache) (key library k : String) :
    (c.remember key library).remembered? k = if key = k then some library else c.remembered? k := by
  unfold remembered? remember
  by_cases hk : key = k
  · simp [hk]
  · rw [if_neg hk, List.find?_cons_of_neg (by simpa using hk), List.find?_filter]
    congr 2
    funext e
    by_cases he : e.1 = k
    · simp [he, Ne.symm hk]
    · simp [he]

/-- Touching a record of whatever format writes it, or does nothing. -/
theorem touchAs_cases (format : RecordFormat) (now : Nat) (path : String) (files : Files) :
    touchAs format now path files = files ∨
      ∃ bytes, files.write path bytes = .ok (touchAs format now path files) := by
  unfold touchAs
  split
  · exact .inl rfl
  · split
    · exact .inl rfl
    · split
      · rename_i written hw
        exact .inr ⟨_, hw⟩
      · exact .inl rfl

/-- Touching a record writes it, or does nothing. -/
theorem touch_cases (now : Nat) (path : String) (files : Files) :
    touch now path files = files ∨ ∃ bytes, files.write path bytes = .ok (touch now path files) :=
  touchAs_cases .settings now path files

/-- A lookup answers with what is remembered and present, or with what the folder of the key holds, and
else with nothing. -/
theorem lookup_cases (now : Nat) (c : Cache) (key libraryName : String) (files : Files) :
    (∃ path, c.remembered? key = some path ∧ files.isPresent path = true ∧
      c.lookup now key libraryName files = (some path, c, files)) ∨
    (c.holds key libraryName files = true ∧ c.lookup now key libraryName files =
      (some (Path.join (c.entryDir key) libraryName),
        c.remember key (Path.join (c.entryDir key) libraryName),
        touch now (c.recordPath key) files)) ∨
    (c.holds key libraryName files = false ∧
      c.lookup now key libraryName files = (none, c, files)) := by
  unfold lookup
  split
  · rename_i path hpath
    obtain ⟨hremembered, hpresent⟩ := Option.filter_eq_some_iff.mp hpath
    exact .inl ⟨path, hremembered, hpresent, rfl⟩
  · split_ifs with hholds
    · exact .inr (.inl ⟨hholds, rfl⟩)
    · exact .inr (.inr ⟨by simpa using hholds, rfl⟩)

end Cache

namespace Site

variable {s : Site}

/-- A folder of a key that holds a library and a record has both at their places. -/
theorem bodyAt_of_holds {c : Cache} (hroot : c.root = s.cacheRoot) {key name : String}
    (hkey : Path.IsName key.toList) (hname : Path.IsName name.toList) {files : Files}
    (hhome : files.home = s.home) (h : c.holds key name files = true) :
    files.resolve (s.entryPath key name) = .ok (s.entryPlace key name) ∧
      files.bodyAt (s.entryPlace key recordName) ≠ none := by
  simp only [Cache.holds, Cache.recordPath, entryPath_eq hroot, Bool.and_eq_true,
    Files.isFile_iff] at h
  obtain ⟨⟨library, hlibrary⟩, ⟨record, hrecord⟩⟩ := h
  obtain ⟨place, hres, -, -⟩ := (Files.find_eq_ok_file_iff _ _ _).mp hlibrary
  obtain ⟨place', hres', hbody, -⟩ := (Files.find_eq_ok_file_iff _ _ _).mp hrecord
  have hplace : place = s.entryPlace key name := eq_entryPlace hkey hname hhome hres
  have hplace' : place' = s.entryPlace key recordName :=
    eq_entryPlace hkey isName_recordName hhome hres'
  subst hplace hplace'
  exact ⟨hres, by simp [hbody]⟩

/-- Touching the record of an entry keeps all libraries, all records and all paths. -/
theorem touch_keeps {now : Nat} {key : String} (hkey : Path.IsName key.toList) {files : Files}
    (hhome : files.home = s.home) (hrecord : files.bodyAt (s.entryPlace key recordName) ≠ none) :
    (Cache.touch now (s.entryPath key recordName) files).home = s.home ∧
      (∀ key' name, name.toList ≠ recordName.toList →
        (Cache.touch now (s.entryPath key recordName) files).bodyAt (s.entryPlace key' name) =
          files.bodyAt (s.entryPlace key' name)) ∧
      (∀ key', (Cache.touch now (s.entryPath key recordName) files).bodyAt
          (s.entryPlace key' recordName) ≠ none ↔
        files.bodyAt (s.entryPlace key' recordName) ≠ none) ∧
      ∀ path q, files.resolve path = .ok q →
        (Cache.touch now (s.entryPath key recordName) files).resolve path = .ok q := by
  rcases Cache.touch_cases now (s.entryPath key recordName) files with h | ⟨bytes, h⟩
  · rw [h]
    exact ⟨hhome, fun _ _ _ => rfl, fun _ => Iff.rfl, fun _ _ hr => hr⟩
  · obtain ⟨place, hres, -, ⟨body, hbody, -⟩, hc⟩ := Files.changesOnly_of_write h
    have hplace : place = s.entryPlace key recordName :=
      eq_entryPlace hkey isName_recordName hhome hres
    subst hplace
    refine ⟨hc.home.trans hhome, ?_, ?_, ?_⟩
    · intro key' name hne
      apply hc.agree.body
      intro hp
      exact hne (eq_of_prefix_entryPlace hp).2.symm
    · intro key'
      by_cases hk : key' = key
      · subst hk
        simp [hbody, hrecord]
      · rw [hc.agree.body _ fun hp => hk (String.toList_inj.mp (eq_of_prefix_entryPlace hp).1).symm]
    · intro path q hr
      exact hc.resolve hr

/-- A library that is looked up is the answer. -/
theorem compile_of_found {host : Host} {now : Nat} {b : Builder} {r : BuildRequest}
    {files files' : Files} {key library : String} {cache : Cache}
    (hkey : b.cacheKey r files = .ok key)
    (h : b.cache.lookup now key (sharedLibraryName r.stem) files = (some library, cache, files')) :
    b.compile host now r files = (.ok ⟨library, key, true⟩, { b with cache }, files') := by
  rw [Builder.compile, hkey]
  dsimp only
  rw [h]

/-- A library that is not found is made. -/
theorem compile_of_missing {host : Host} {now : Nat} {b : Builder} {r : BuildRequest}
    {files : Files} {key : String} (hkey : b.cacheKey r files = .ok key)
    (h : b.cache.lookup now key (sharedLibraryName r.stem) files = (none, b.cache, files)) :
    b.compile host now r files = Builder.make host now b r key files := by
  rw [Builder.compile, hkey]
  dsimp only
  rw [h]

/-! ## One step of a history -/

/-- The key of a stored library is a name. -/
theorem Stored.isName_key {files : Files} {c : Call} {a : Artifact} (h : s.Stored files c a) :
    Path.IsName a.key.toList := by
  obtain ⟨parts, -, hkey⟩ := h.hashed
  rw [hkey]
  exact isName_keyOf parts

/-- A library stays stored while its file stays and a record is beside it. -/
theorem Stored.keep {files files' : Files} {c : Call} {a : Artifact} (h : s.Stored files c a)
    (hlibrary : files'.bodyAt (s.entryPlace a.key (sharedLibraryName c.request.stem)) =
      files.bodyAt (s.entryPlace a.key (sharedLibraryName c.request.stem)))
    (hrecord : files'.bodyAt (s.entryPlace a.key recordName) ≠ none) : s.Stored files' c a :=
  ⟨h.hashed, h.library, h.usable, h.recordUsable, hlibrary ▸ h.content, hrecord⟩

/-- What holds in a history holds behind further calls, if the libraries stay, records and memory grow by
those of the calls alone, and the libraries of the calls are stored and have an origin. -/
theorem Sound.extend {b b' : Builder} {files files' : Files} {log calls : List Call}
    (h : s.Sound b files log) (hb : s.Runs b') (hhome : files'.home = s.home)
    (hkept : ∀ c ∈ log, ∀ a, c.answer = .ok a → s.Stored files' c a)
    (hrecorded : ∀ key, files'.bodyAt (s.entryPlace key recordName) ≠ none →
      files.bodyAt (s.entryPlace key recordName) ≠ none ∨
        ∃ c ∈ calls, ∃ a, c.answer = .ok a ∧ a.key = key)
    (hremembered : ∀ key library, b'.cache.remembered? key = some library →
      b.cache.remembered? key = some library ∨
        ∃ c ∈ calls, ∃ a, c.answer = .ok a ∧ a.key = key ∧ a.library = library)
    (hnew : ∀ c ∈ calls, ∀ a, c.answer = .ok a → s.Stored files' c a ∧
      ∃ d ∈ log ++ calls, ∃ a', d.answer = .ok a' ∧ a'.key = a.key ∧ s.Fresh d a' ∧
        d.after.read a'.library = c.after.read a.library) :
    s.Sound b' files' (log ++ calls) where
  runs := hb
  home := hhome
  stored c hc a ha := (List.mem_append.mp hc).elim (fun hc => hkept c hc a ha)
    fun hc => (hnew c hc a ha).1
  recorded key hkey := by
    rcases hrecorded key hkey with hold | ⟨c, hc, a, ha⟩
    · obtain ⟨c, hc, a, ha⟩ := h.recorded key hold
      exact ⟨c, List.mem_append_left _ hc, a, ha⟩
    · exact ⟨c, List.mem_append_right _ hc, a, ha⟩
  remembered key library hkey := by
    rcases hremembered key library hkey with hold | ⟨c, hc, a, ha⟩
    · obtain ⟨c, hc, a, ha⟩ := h.remembered key library hold
      exact ⟨c, List.mem_append_left _ hc, a, ha⟩
    · exact ⟨c, List.mem_append_right _ hc, a, ha⟩
  origin c hc a ha := by
    rcases List.mem_append.mp hc with hc | hc
    · obtain ⟨d, hd, a', ha', hfresh⟩ := h.origin c hc a ha
      exact ⟨d, List.mem_append_left _ hd, a', ha', hfresh⟩
    · exact (hnew c hc a ha).2

/-- Answered calls whose key is the digest of these parts cover these parts. -/
def Covers (s : Site) (log : List Call) (parts : List KeyPart) : Prop :=
  ∀ d ∈ log, ∀ a, d.answer = .ok a → a.key = keyOf parts →
    s.hashed d.request d.files = .ok parts

/-- If digests are distinct, an answered call with the key of a new one covers the same. -/
theorem Sound.covers {b : Builder} {files : Files} {log : List Call} (h : s.Sound b files log)
    {c : Call} (hdistinct : s.DistinctDigests (log ++ [c])) {parts : List KeyPart}
    (hparts : s.hashed c.request c.files = .ok parts) : s.Covers log parts := by
  intro d hd a ha hk
  obtain ⟨parts', hparts', hkey⟩ := (h.stored d hd a ha).hashed
  have hlast : c ∈ log ++ [c] := List.mem_append_right _ (List.mem_singleton_self c)
  rw [hparts', hdistinct d (List.mem_append_left _ hd) c hlast parts' parts hparts' hparts
    (hkey.symm.trans hk)]

/-- A call that is answered with the library of an earlier call of its key. -/
theorem Sound.hit {b b' : Builder} {files files' : Files} {log : List Call}
    (h : s.Sound b files log) {d : Call} (hd : d ∈ log) {a : Artifact} (ha : d.answer = .ok a)
    {r : BuildRequest} {parts : List KeyPart} (hparts : s.hashed r files = .ok parts)
    (hsame : s.hashed d.request d.files = .ok parts) (hkey : a.key = keyOf parts)
    (hb : s.Runs b') (hhome : files'.home = s.home)
    (hlibraries : ∀ key name, name.toList ≠ recordName.toList →
      files'.bodyAt (s.entryPlace key name) = files.bodyAt (s.entryPlace key name))
    (hrecords : ∀ key, files'.bodyAt (s.entryPlace key recordName) ≠ none ↔
      files.bodyAt (s.entryPlace key recordName) ≠ none)
    (hres : files'.resolve a.library =
      .ok (s.entryPlace a.key (sharedLibraryName d.request.stem)))
    (hremembered : ∀ key library, b'.cache.remembered? key = some library →
      b.cache.remembered? key = some library ∨ a.key = key ∧ a.library = library) :
    s.Sound b' files' (log ++ [⟨r, files, .ok ⟨a.library, a.key, true⟩, files'⟩]) := by
  have hstored := h.stored d hd a ha
  have hstem : d.request.stem = r.stem := stem_eq_of_hashed hsame hparts
  have hkeep {c : Call} {a : Artifact} (hc : s.Stored files c a) : s.Stored files' c a :=
    hc.keep (hlibraries _ _ (ne_recordName (head?_sharedLibraryName _)))
      ((hrecords _).mpr hc.record)
  obtain ⟨body, hbody, hcontent⟩ := (hkeep hstored).content
  have hread : files'.read a.library = .ok body.bytes := by
    rw [hstored.library] at hres ⊢
    exact (Files.read_eq_ok_iff _ _ _).mpr
      ⟨body, find_entryPath d.request.isName_library hres hbody, rfl⟩
  refine h.extend hb hhome (fun c hc a ha => hkeep (h.stored c hc a ha))
    (fun key hk => .inl ((hrecords key).mp hk)) ?_ ?_
  · intro key library hk
    apply (hremembered key library hk).imp id
    intro hnew
    exact ⟨_, List.mem_singleton_self _, _, rfl, hnew.1, hnew.2⟩
  · intro c hc a' ha'
    obtain rfl := List.mem_singleton.mp hc
    obtain rfl := Except.ok.inj ha'
    refine ⟨⟨⟨parts, hparts, hkey⟩, hstem ▸ hstored.library, hstored.usable,
      hstored.recordUsable, ⟨body, hstem ▸ hbody, hread⟩, (hkeep hstored).record⟩, ?_⟩
    obtain ⟨first, hfirst, a₀, ha₀, hk, hfresh, hsame⟩ := h.origin d hd a ha
    exact ⟨first, List.mem_append_left _ hfirst, a₀, ha₀, hk, hfresh,
      hsame.trans (hcontent.trans hread.symm)⟩

/-- If the folder of a key can be made but holds nothing for a request, no call of this key was
answered. -/
theorem Sound.ne_key_of_miss {b : Builder} {files made : Files} {log : List Call}
    (h : s.Sound b files log) {key : String} (hkey : Path.IsName key.toList) {name : String}
    (hholds : b.cache.holds key name files = false)
    (hmade : files.makeFolders (b.cache.entryDir key) = .ok made) {d : Call} (hd : d ∈ log)
    {a : Artifact} (ha : d.answer = .ok a)
    (hname : a.key = key → name = sharedLibraryName d.request.stem) : a.key ≠ key := by
  rintro rfl
  have hroot := h.runs.root
  have hlib := d.request.isName_library
  have hstored := h.stored d hd a ha
  obtain ⟨body, hbody, -⟩ := hstored.content
  obtain ⟨record, hrecord⟩ := Option.ne_none_iff_exists'.mp hstored.record
  have hne : b.cache.entryDir a.key ≠ "" := by
    intro hempty
    have hj := Path.toList_join s.cacheRoot hkey
    rw [← hroot, ← Cache.entryDir, hempty] at hj
    exact hkey.ne_nil (List.append_eq_nil_iff.mp hj.symm).2
  obtain ⟨place, hres⟩ := Files.resolve_of_makeFolders hmade hne
  rw [Cache.entryDir, hroot, Files.resolve_eq_ok_iff] at hres
  have hlibrary := find_entryPath hlib (resolve_entryPath hkey hlib h.home
    (hstored.library ▸ hstored.usable) hres.2) hbody
  have hfound := find_entryPath isName_recordName (resolve_entryPath hkey isName_recordName h.home
    hstored.recordUsable hres.2) hrecord
  have hthere : b.cache.holds a.key name files = true := by
    rw [Cache.holds, Cache.recordPath, entryPath_eq hroot, entryPath_eq hroot, hname rfl,
      Bool.and_eq_true, Files.isFile_iff, Files.isFile_iff]
    exact ⟨⟨body, hlibrary⟩, ⟨record, hfound⟩⟩
  rw [hthere] at hholds
  cases hholds

/-- A call whose key no answered call had. -/
theorem Sound.make {requests : BuildRequest → Prop} (hs : s.Obeys requests) {b b' : Builder}
    {files files' : Files} {log : List Call} (h : s.Sound b files log) {now : Nat}
    {r : BuildRequest} (hr : requests r) {parts : List KeyPart}
    (hparts : s.hashed r files = .ok parts)
    (hunknown : ∀ d ∈ log, ∀ a, d.answer = .ok a → a.key ≠ keyOf parts)
    {answer : Except Fault Artifact}
    (hmake : Builder.make s.host now b r (keyOf parts) files = (answer, b', files')) :
    s.Sound b' files' (log ++ [⟨r, files, answer, files'⟩]) := by
  have hkey := isName_keyOf parts
  have hlib := r.isName_library
  obtain ⟨hb, hhome, ⟨fault, rfl, hcache, hagree⟩ | ⟨rfl, hcache, hmakes⟩⟩ :=
    make_cases (hs.sparesCache hr) h.runs hkey h.home hmake
  · refine h.extend hb hhome ?_ ?_ (fun key library hk => .inl (hcache ▸ hk)) ?_
    · intro d hd a ha
      have hne := hunknown d hd a ha
      refine (h.stored d hd a ha).keep (hagree.body _ (spares_of_ne hne _)) ?_
      rw [hagree.body _ (spares_of_ne hne _)]
      exact (h.stored d hd a ha).record
    · intro key hk
      rw [hagree.body _ (s.spares_record (keyOf parts) key)] at hk
      exact .inl hk
    · intro c hc a ha
      obtain rfl := List.mem_singleton.mp hc
      cases ha
  · obtain ⟨body, hbody, hproduces⟩ := hmakes.library
    have hread : files'.read (s.entryPath (keyOf parts) (sharedLibraryName r.stem)) =
        .ok body.bytes :=
      (Files.read_eq_ok_iff _ _ _).mpr ⟨body, find_entryPath hlib hmakes.resolves hbody, rfl⟩
    refine h.extend hb hhome ?_ ?_ ?_ ?_
    · intro d hd a ha
      have hne := hunknown d hd a ha
      refine (h.stored d hd a ha).keep (hmakes.others _ _ hne) ?_
      rw [hmakes.others _ _ hne]
      exact (h.stored d hd a ha).record
    · intro key hk
      by_cases heq : key = keyOf parts
      · exact .inr ⟨_, List.mem_singleton_self _, _, rfl, heq.symm⟩
      · exact .inl (hmakes.others key recordName heq ▸ hk)
    · intro key library hk
      rw [hcache, Cache.remembered?_remember] at hk
      split_ifs at hk with heq
      · exact .inr ⟨_, List.mem_singleton_self _, _, rfl, heq, Option.some.inj hk⟩
      · exact .inl hk
    · intro c hc a ha
      obtain rfl := List.mem_singleton.mp hc
      obtain rfl := Except.ok.inj ha
      refine ⟨⟨⟨parts, hparts, rfl⟩, rfl, ((Files.resolve_eq_ok_iff _ _ _).mp hmakes.resolves).1,
        hmakes.usable, ⟨body, hbody, hread⟩, hmakes.record⟩, ?_⟩
      exact ⟨_, List.mem_append_right _ (List.mem_singleton_self _), _, rfl, rfl,
        ⟨body.bytes, hread, hproduces⟩, rfl⟩

/-- A call that is answered from memory. -/
theorem Sound.call_remembered {b : Builder} {files : Files} {log : List Call}
    (h : s.Sound b files log) {r : BuildRequest} {parts : List KeyPart}
    (hparts : s.hashed r files = .ok parts) (hcovers : s.Covers log parts) {path : String}
    (hremembered : b.cache.remembered? (keyOf parts) = some path)
    (hpresent : files.isPresent path = true) :
    s.Sound b files (log ++ [⟨r, files, .ok ⟨path, keyOf parts, true⟩, files⟩]) := by
  obtain ⟨d, hd, a, ha, hk, rfl⟩ := h.remembered _ _ hremembered
  have hstored := h.stored d hd a ha
  obtain ⟨place, hres⟩ := Files.resolve_of_isPresent hpresent
  have hplace : place = s.entryPlace a.key (sharedLibraryName d.request.stem) :=
    eq_entryPlace hstored.isName_key d.request.isName_library h.home (hstored.library ▸ hres)
  rw [← hk]
  exact h.hit hd ha hparts (hcovers d hd a ha hk) hk h.runs h.home (fun _ _ _ => rfl)
    (fun _ => Iff.rfl) (hplace ▸ hres) (fun _ _ => .inl)

/-- A call that is answered from the folder of its key. -/
theorem Sound.call_held {b : Builder} {files : Files} {log : List Call} (h : s.Sound b files log)
    (now : Nat) {r : BuildRequest} {parts : List KeyPart} (hparts : s.hashed r files = .ok parts)
    (hcovers : s.Covers log parts)
    (hholds : b.cache.holds (keyOf parts) (sharedLibraryName r.stem) files = true) :
    s.Sound
      { b with
        cache := (b.cache.remember (keyOf parts)
          (s.entryPath (keyOf parts) (sharedLibraryName r.stem))) }
      (Cache.touch now (s.entryPath (keyOf parts) recordName) files)
      (log ++ [⟨r, files,
        .ok ⟨s.entryPath (keyOf parts) (sharedLibraryName r.stem), keyOf parts, true⟩,
        Cache.touch now (s.entryPath (keyOf parts) recordName) files⟩]) := by
  obtain ⟨hres, hrecord⟩ := bodyAt_of_holds h.runs.root (isName_keyOf parts) r.isName_library h.home
    hholds
  obtain ⟨d, hd, a, ha, hk⟩ := h.recorded _ hrecord
  have hstored := h.stored d hd a ha
  have hstem := stem_eq_of_hashed (hcovers d hd a ha hk) hparts
  have hlibrary : s.entryPath (keyOf parts) (sharedLibraryName r.stem) = a.library := by
    rw [hstored.library, hk, hstem]
  rw [hlibrary, ← hk]
  rw [hlibrary, ← hk] at hres
  rw [← hk] at hrecord
  obtain ⟨hhome, hlibraries, hrecords, hpaths⟩ :=
    @touch_keeps s now a.key hstored.isName_key files h.home hrecord
  refine h.hit hd ha hparts (hcovers d hd a ha hk) hk
    ⟨h.runs.toolchain, h.runs.cflags, h.runs.root⟩ hhome hlibraries hrecords
    (hpaths _ _ (hstem ▸ hres)) ?_
  intro key library hremembered
  rw [Cache.remembered?_remember] at hremembered
  split_ifs at hremembered with heq
  · exact .inr ⟨heq, Option.some.inj hremembered⟩
  · exact .inl hremembered

/-- A call that fails without changing a file. -/
theorem Sound.call_failed {b : Builder} {files : Files} {log : List Call} (h : s.Sound b files log)
    (r : BuildRequest) (fault : Fault) :
    s.Sound b files (log ++ [⟨r, files, .error fault, files⟩]) := by
  refine h.extend h.runs h.home h.stored (fun _ => .inl) (fun _ _ => .inl) ?_
  intro c hc a ha
  obtain rfl := List.mem_singleton.mp hc
  cases ha

/-- A call keeps what holds in every history. -/
theorem Sound.call {requests : BuildRequest → Prop} (hs : s.Obeys requests) {b b' : Builder}
    {files files' : Files} {log : List Call} (h : s.Sound b files log) {now : Nat}
    {r : BuildRequest} (hr : requests r) {answer : Except Fault Artifact}
    (hcompile : b.compile s.host now r files = (answer, b', files'))
    (hdistinct : s.DistinctDigests (log ++ [⟨r, files, answer, files'⟩])) :
    s.Sound b' files' (log ++ [⟨r, files, answer, files'⟩]) := by
  have hroot := h.runs.root
  cases hparts : s.hashed r files with
  | error fault =>
    have hfault : b.compile s.host now r files = (.error fault, b, files) := by
      rw [Builder.compile, cacheKey_eq h.runs, hparts]
      rfl
    rw [hfault, Prod.mk.injEq, Prod.mk.injEq] at hcompile
    obtain ⟨rfl, rfl, rfl⟩ := hcompile
    exact h.call_failed r fault
  | ok parts =>
    have hcovers := h.covers hdistinct hparts
    have hkey : b.cacheKey r files = .ok (keyOf parts) := by
      rw [cacheKey_eq h.runs, hparts]
      rfl
    rcases Cache.lookup_cases now b.cache (keyOf parts) (sharedLibraryName r.stem) files with
      ⟨path, hremembered, hpresent, hlookup⟩ | ⟨hholds, hlookup⟩ | ⟨hholds, hlookup⟩
    · rw [compile_of_found hkey hlookup, Prod.mk.injEq, Prod.mk.injEq] at hcompile
      obtain ⟨rfl, rfl, rfl⟩ := hcompile
      exact h.call_remembered hparts hcovers hremembered hpresent
    · rw [Cache.recordPath, entryPath_eq hroot, entryPath_eq hroot] at hlookup
      rw [compile_of_found hkey hlookup, Prod.mk.injEq, Prod.mk.injEq] at hcompile
      obtain ⟨rfl, rfl, rfl⟩ := hcompile
      exact h.call_held now hparts hcovers hholds
    · rw [compile_of_missing hkey hlookup] at hcompile
      cases hmade : files.makeFolders (b.cache.entryDir (keyOf parts)) with
      | error fault =>
        simp only [Builder.make, hmade, Prod.mk.injEq] at hcompile
        obtain ⟨rfl, rfl, rfl⟩ := hcompile
        exact h.call_failed r _
      | ok made =>
        refine h.make hs hr hparts ?_ hcompile
        intro d hd a ha
        apply h.ne_key_of_miss (isName_keyOf parts) hholds hmade hd ha
        intro hk
        rw [stem_eq_of_hashed (hcovers d hd a ha hk) hparts]

/-- What holds in every history. -/
theorem History.sound {requests : BuildRequest → Prop} (hs : s.Obeys requests) {b : Builder}
    {files : Files} {log : List Call} (h : s.History requests b files log)
    (hdistinct : s.DistinctDigests log) : s.Sound b files log := by
  induction h with
  | start b files hb hmemo hhome hempty =>
    refine ⟨hb, hhome, fun c hc => absurd hc List.not_mem_nil, ?_, ?_,
      fun c hc => absurd hc List.not_mem_nil⟩
    · intro key hk
      exact absurd (hempty _ (s.cachePlace_prefix_entryPlace key recordName)) hk
    · intro key library hk
      simp [Cache.remembered?, hmemo] at hk
  | edit h edited hedit ih =>
    have hsound := ih hdistinct
    have hbody (key name : String) := hedit.body _ (s.cachePlace_prefix_entryPlace key name)
    have hextended := @hsound.extend _ _ _ _ _ _ [] hsound.runs (hedit.home.trans hsound.home)
      (fun c hc a ha => (hsound.stored c hc a ha).keep (hbody _ _)
        (hbody a.key recordName ▸ (hsound.stored c hc a ha).record))
      (fun key hk => .inl (hbody key recordName ▸ hk)) (fun _ _ => .inl)
      (fun c hc => absurd hc List.not_mem_nil)
    rwa [List.append_nil] at hextended
  | restart h again hb hmemo ih =>
    have hsound := ih hdistinct
    have hforgets (key : String) : again.cache.remembered? key = none := by
      simp [Cache.remembered?, hmemo]
    have hextended := @hsound.extend _ _ _ _ _ _ [] hb hsound.home hsound.stored (fun _ => .inl)
      (fun key library hk => nomatch (hforgets key).symm.trans hk)
      (fun c hc => absurd hc List.not_mem_nil)
    rwa [List.append_nil] at hextended
  | call h now r hr ih =>
    have hearlier := fun c hc d hd => hdistinct c (List.mem_append_left _ hc) d
      (List.mem_append_left _ hd)
    exact (ih hearlier).call hs hr rfl hdistinct

/-- Every call of a history is of the kind that the history allows. -/
theorem History.requested {requests : BuildRequest → Prop} {b : Builder} {files : Files}
    {log : List Call} (h : s.History requests b files log) : ∀ c ∈ log, requests c.request := by
  induction h with
  | start => exact fun c hc => by cases hc
  | edit _ _ _ ih => exact ih
  | restart _ _ _ _ ih => exact ih
  | call _ _ r hr ih =>
    intro c hc
    rcases List.mem_append.mp hc with hc | hc
    · exact ih c hc
    · rw [List.mem_singleton.mp hc]
      exact hr

/-- Answered calls whose keys cover the same were answered with the same bytes. -/
theorem Sound.read_eq {b : Builder} {files : Files} {log : List Call} (h : s.Sound b files log)
    {c d : Call} (hc : c ∈ log) (hd : d ∈ log) {a a' : Artifact} (ha : c.answer = .ok a)
    (ha' : d.answer = .ok a')
    (hsame : s.hashed c.request c.files = s.hashed d.request d.files) :
    c.after.read a.library = d.after.read a'.library := by
  have hstored := h.stored c hc a ha
  have hstored' := h.stored d hd a' ha'
  obtain ⟨parts, hparts, hkey⟩ := hstored.hashed
  obtain ⟨parts', hparts', hkey'⟩ := hstored'.hashed
  have hcover : s.hashed d.request d.files = .ok parts := hsame.symm.trans hparts
  have heq : parts' = parts := Except.ok.inj (hparts'.symm.trans hcover)
  obtain ⟨body, hbody, hread⟩ := hstored.content
  obtain ⟨body', hbody', hread'⟩ := hstored'.content
  rw [hkey, stem_eq_of_hashed hparts hcover, ← heq, ← hkey', hbody'] at hbody
  rw [hread, hread', Option.some.inj hbody]

end Site

end CBind
