import CBind.Proofs.Build.Freshness
import CBind.Proofs.Build.Memo
import CBind.Proofs.Build.Ready

/-!
# A cache as a store of libraries

A session asks one cache for builds, for libraries, how full it is and to be cleaned, in any order, from a
cache without files. Builds succeed or fail as the compiler likes. Nobody else changes files of the cache,
and the file system does not fail: all trees are ready for the cache.

Then what is remembered, the libraries and the records agree all the time: they are those of the keys that
were built since the cache was cleaned. So the cache answers like a store that holds these keys.
-/

namespace CBind

open Digest Toolchain

/-- A build of a key succeeded, and the cache was not cleaned since. -/
def BuiltSinceClean (log : List CacheEvent) (key : String) : Prop :=
  ∃ before r a after, log = before ++ .compiled r (.ok a) :: after ∧ a.key = key ∧
    ∀ answer, .cleaned answer ∉ after

/-- No program is started: all hosts give the same. -/
def StartsNothing {α : Type} (f : Host → α) : Prop :=
  ∃ result, ∀ host, f host = result

/-- A program is started exactly once: one start of it, the same on all hosts, decides the result, and not
all outcomes of this start give the same. -/
def StartsOnce {α : Type} (program : String) (f : Host → α) : Prop :=
  ∃ (arguments : List String) (files : Files) (next : Started → α),
    (∀ host, f host = next (host.start program arguments files)) ∧ ∃ one other, next one ≠ next other

namespace Site

/-- What is asked in a session: builds of a kind, and nothing is recorded by hand. -/
def Allows (requests : BuildRequest → Prop) : CacheOp → Prop
  | .compile r => requests r
  | .record _ => False
  | _ => True

/-- Sessions of a site: a builder, the files, and what was asked and answered so far. -/
inductive Session (s : Site) (requests : BuildRequest → Prop) :
    Builder → Files → List CacheEvent → Prop
  | start (b : Builder) (files : Files) (hb : s.Runs b) (hmemo : b.cache.memo = [])
      (hready : s.Ready files) (hempty : ∀ q, s.cachePlace <+: q → files.bodyAt q = none) :
      Session s requests b files []
  | edit {b : Builder} {files : Files} {log : List CacheEvent} (h : Session s requests b files log)
      (edited : Files) (hedit : Files.Agree (s.cachePlace <+: ·) files edited)
      (hready : s.Ready edited) : Session s requests b edited log
  | ask {b : Builder} {files : Files} {log : List CacheEvent} (h : Session s requests b files log)
      (now : Nat) (op : CacheOp) (hop : Allows requests op) :
      Session s requests (op.run s.host now b files).2.1 (op.run s.host now b files).2.2
        (log ++ [(op.run s.host now b files).1])

/-- What holds in every session: the keys that were built since the cache was cleaned are those that have a
record, and those that are remembered, each with a library in its entry. -/
structure Stores (s : Site) (b : Builder) (files : Files) (log : List CacheEvent) : Prop where
  runs : s.Runs b
  ready : s.Ready files
  named : ∀ key, BuiltSinceClean log key → ∃ parts, key = keyOf parts
  recorded : ∀ key, files.bodyAt (s.entryPlace key recordName) ≠ none ↔ BuiltSinceClean log key
  remembered : ∀ key, Path.IsName key.toList →
    (b.cache.remembered? key ≠ none ↔ BuiltSinceClean log key)
  library : ∀ key path, Path.IsName key.toList → b.cache.remembered? key = some path →
    ∃ name, path = s.entryPath key name ∧ Path.IsName name.toList ∧ Path.IsUsable path ∧
      files.bodyAt (s.entryPlace key name) ≠ none

end Site

/-! ## What was built -/

/-- Nothing is built before anything is asked. -/
theorem not_builtSinceClean_nil (key : String) : ¬BuiltSinceClean [] key := by
  rintro ⟨before, r, a, after, hlog, -⟩
  exact absurd hlog.symm (List.append_ne_nil_of_right_ne_nil _ (List.cons_ne_nil _ _))

/-- One more event builds its key, or keeps what was built unless it cleans. -/
theorem builtSinceClean_concat (log : List CacheEvent) (e : CacheEvent) (key : String) :
    BuiltSinceClean (log ++ [e]) key ↔
      (∃ r a, e = .compiled r (.ok a) ∧ a.key = key) ∨
        (∀ answer, e ≠ .cleaned answer) ∧ BuiltSinceClean log key := by
  constructor
  -- The build that counts is the last event, or it stands in the log before it.
  · rintro ⟨before, r, a, after, hlog, hkey, hclean⟩
    rcases List.eq_nil_or_concat after with rfl | ⟨after, last, rfl⟩
    · obtain ⟨-, hlast⟩ := List.append_inj' hlog rfl
      exact .inl ⟨r, a, (List.cons.inj hlast).1, hkey⟩
    · rw [List.concat_eq_append] at hlog hclean
      have hsplit : log ++ [e] = (before ++ .compiled r (.ok a) :: after) ++ [last] := by
        rw [hlog, List.append_assoc, List.cons_append]
      obtain ⟨hinit, hlast⟩ := List.append_inj' hsplit rfl
      obtain rfl := (List.cons.inj hlast).1
      refine .inr ⟨fun answer he => hclean answer ?_, before, r, a, after, hinit, hkey, fun answer hmem =>
        hclean answer (List.mem_append_left _ hmem)⟩
      exact he ▸ List.mem_append_right _ (List.mem_singleton_self _)
  · rintro (⟨r, a, rfl, hkey⟩ | ⟨hevent, before, r, a, after, rfl, hkey, hclean⟩)
    · exact ⟨log, r, a, [], rfl, hkey, fun _ => List.not_mem_nil⟩
    · refine ⟨before, r, a, after ++ [e], by simp, hkey, fun answer hmem => ?_⟩
      rcases List.mem_append.mp hmem with hmem | hmem
      · exact hclean answer hmem
      · exact hevent answer (List.mem_singleton.mp hmem).symm

/-- A build that succeeds adds its key. -/
theorem builtSinceClean_concat_ok (log : List CacheEvent) (r : BuildRequest) (a : Artifact) (key : String) :
    BuiltSinceClean (log ++ [.compiled r (.ok a)]) key ↔ a.key = key ∨ BuiltSinceClean log key := by
  rw [builtSinceClean_concat]
  refine or_congr ⟨?_, fun hkey => ⟨r, a, rfl, hkey⟩⟩ (and_iff_right ?_)
  · rintro ⟨_, _, heq, hkey⟩
    cases heq
    exact hkey
  · intro answer heq
    cases heq

/-- What neither builds nor cleans changes nothing. -/
theorem builtSinceClean_concat_of_ne (log : List CacheEvent) (e : CacheEvent)
    (hbuilt : ∀ r a, e ≠ .compiled r (.ok a)) (hclean : ∀ answer, e ≠ .cleaned answer) (key : String) :
    BuiltSinceClean (log ++ [e]) key ↔ BuiltSinceClean log key := by
  rw [builtSinceClean_concat, or_iff_right fun ⟨r, a, he, _⟩ => hbuilt r a he]
  exact and_iff_right hclean

/-- Behind a cleaning nothing is built. -/
theorem not_builtSinceClean_concat_clean (log : List CacheEvent) (answer : Except Fault Nat) (key : String) :
    ¬BuiltSinceClean (log ++ [.cleaned answer]) key := by
  rw [builtSinceClean_concat]
  rintro (⟨_, _, heq, -⟩ | ⟨hevent, -⟩)
  · cases heq
  · exact hevent answer rfl

namespace Site

variable {s : Site} {b b' : Builder} {files files' : Files} {log log' : List CacheEvent}

/-- Noting an access in a record that is there keeps a tree ready. -/
theorem Ready.touch (h : s.Ready files) (now : Nat) {path : String} (hfile : files.isFile path = true) :
    s.Ready (Cache.touch now path files) := by
  rcases Cache.touch_cases now path files with hsame | ⟨bytes, hw⟩
  · rwa [hsame]
  · obtain ⟨place, -, -, -, hc⟩ := Files.changesOnly_of_write hw
    refine h.keep hc.home (h.tidy.of_write hw) (fun name above habove => ?_) fun q _ hf => hc.folder hf
    rw [h.free name above habove]
    by_contra hne
    exact (Files.bodyAt_of_rewrite hfile hw above).mp hne (h.free name above habove)

/-! ## What is in the store -/

/-- What was built stays in the store while the records, the libraries and what is remembered of keys
stay. -/
theorem Stores.keep (h : s.Stores b files log) (hb : s.Runs b') (hready : s.Ready files')
    (hremembered : ∀ key, Path.IsName key.toList → b'.cache.remembered? key = b.cache.remembered? key)
    (hrecorded : ∀ key, files'.bodyAt (s.entryPlace key recordName) ≠ none ↔
      files.bodyAt (s.entryPlace key recordName) ≠ none)
    (hlibrary : ∀ key name, BuiltSinceClean log key → files.bodyAt (s.entryPlace key name) ≠ none →
      files'.bodyAt (s.entryPlace key name) ≠ none)
    (hlog : ∀ key, BuiltSinceClean log' key ↔ BuiltSinceClean log key) : s.Stores b' files' log' where
  runs := hb
  ready := hready
  named key hkey := h.named key ((hlog key).mp hkey)
  recorded key := (hrecorded key).trans ((h.recorded key).trans (hlog key).symm)
  remembered key hkey := by
    rw [hremembered key hkey, hlog]
    exact h.remembered key hkey
  library key path hkey hpath := by
    rw [hremembered key hkey] at hpath
    obtain ⟨name, hname⟩ := h.library key path hkey hpath
    have hbuilt : BuiltSinceClean log key :=
      (h.remembered key hkey).mp (hpath ▸ Option.some_ne_none path)
    exact ⟨name, hname.1, hname.2.1, hname.2.2.1, hlibrary key name hbuilt hname.2.2.2⟩

/-- What changes neither the builder nor the files keeps the store, if it builds and cleans nothing. -/
theorem Stores.keep_log (h : s.Stores b files log)
    (hlog : ∀ key, BuiltSinceClean log' key ↔ BuiltSinceClean log key) : s.Stores b files log' :=
  h.keep h.runs h.ready (fun _ _ => rfl) (fun _ => Iff.rfl) (fun _ _ _ => id) hlog

/-- A key that was built is found in memory, whatever name its library is asked by. -/
theorem Stores.lookup_of_built (h : s.Stores b files log) {key : String} (hkey : Path.IsName key.toList)
    (hbuilt : BuiltSinceClean log key) :
    ∃ path, ∀ now name, b.cache.lookup now key name files = (some path, b.cache, files) := by
  obtain ⟨path, hpath⟩ := Option.ne_none_iff_exists'.mp ((h.remembered key hkey).mpr hbuilt)
  obtain ⟨name, rfl, hname, husable, hbody⟩ := h.library key path hkey hpath
  have hpresent : files.isPresent (s.entryPath key name) = true := by
    obtain ⟨body, hfind⟩ := (Files.isFile_iff _ _).mp (h.ready.isFile hkey hname husable hbody)
    rw [Files.isPresent, hfind]
  refine ⟨s.entryPath key name, fun now asked => ?_⟩
  rw [Cache.lookup, hpath, Option.filter_some, if_pos hpresent]

/-- A key that was not built is not found. -/
theorem Stores.lookup_of_not_built (h : s.Stores b files log) {key : String}
    (hkey : Path.IsName key.toList) (hbuilt : ¬BuiltSinceClean log key) (now : Nat) (name : String) :
    b.cache.lookup now key name files = (none, b.cache, files) := by
  have hforgotten : b.cache.remembered? key = none :=
    not_not.mp fun hne => hbuilt ((h.remembered key hkey).mp hne)
  have hrecord : files.isFile (b.cache.recordPath key) = false := by
    rw [Cache.recordPath, entryPath_eq h.runs.root, ← Bool.not_eq_true]
    intro hfile
    exact hbuilt ((h.recorded key).mp (bodyAt_of_isFile h.ready.home hkey isName_recordName hfile))
  have hholds : b.cache.holds key name files = false := by
    rw [Cache.holds, hrecord, Bool.and_false]
  rw [Cache.lookup, hforgotten, Option.filter_none]
  dsimp only
  rw [hholds]
  rfl

/-- Which keys a lookup finds. -/
theorem Stores.isSome_lookup_iff (h : s.Stores b files log) {key : String} (hkey : Path.IsName key.toList)
    (now : Nat) (name : String) :
    (b.cache.lookup now key name files).1.isSome = true ↔ BuiltSinceClean log key := by
  by_cases hbuilt : BuiltSinceClean log key
  · obtain ⟨path, hpath⟩ := h.lookup_of_built hkey hbuilt
    rw [hpath]
    exact iff_of_true rfl hbuilt
  · rw [h.lookup_of_not_built hkey hbuilt]
    exact iff_of_false Bool.false_ne_true hbuilt

/-- A build whose key was built is answered from the cache, on every host. -/
theorem Stores.compile_of_built (h : s.Stores b files log) {r : BuildRequest} {parts : List KeyPart}
    (hparts : s.hashed r files = .ok parts) (hbuilt : BuiltSinceClean log (keyOf parts)) :
    ∃ path, ∀ host now, b.compile host now r files = (.ok ⟨path, keyOf parts, true⟩, b, files) := by
  obtain ⟨path, hpath⟩ := h.lookup_of_built (isName_keyOf parts) hbuilt
  have hcacheKey := cacheKey_eq h.runs r files
  rw [hparts] at hcacheKey
  exact ⟨path, fun host now => compile_of_found hcacheKey (hpath now _)⟩

/-- A build whose key was not built makes the library. -/
theorem Stores.compile_of_not_built (h : s.Stores b files log) {r : BuildRequest} {parts : List KeyPart}
    (hparts : s.hashed r files = .ok parts) (hbuilt : ¬BuiltSinceClean log (keyOf parts)) (host : Host)
    (now : Nat) : b.compile host now r files = Builder.make host now b r (keyOf parts) files := by
  have hcacheKey := cacheKey_eq h.runs r files
  rw [hparts] at hcacheKey
  exact compile_of_missing hcacheKey (h.lookup_of_not_built (isName_keyOf parts) hbuilt now _)

/-! ## One more question -/

/-- A lookup by no proper key keeps the store. -/
theorem Stores.lookup_of_not_isName (h : s.Stores b files log) {asked : String}
    (hasked : ¬Path.IsName asked.toList) (now : Nat) (name : String) :
    s.Stores { b with cache := (b.cache.lookup now asked name files).2.1 }
      (b.cache.lookup now asked name files).2.2
      (log ++ [.lookedUp asked name (b.cache.lookup now asked name files).1]) := by
  have hlog (answer : Option String) :=
    builtSinceClean_concat_of_ne log (.lookedUp asked name answer) (by simp) (by simp)
  rcases Cache.lookup_cases now b.cache asked name files with ⟨path, -, -, h'⟩ | ⟨hholds, h'⟩ | ⟨-, h'⟩
  · rw [h']
    exact h.keep_log (hlog _)
  -- Such a key may lead anywhere. What is found there is remembered under a key that no build has.
  · rw [h']
    dsimp only
    have hrecord : files.isFile (b.cache.recordPath asked) = true := by
      rw [Cache.holds, Bool.and_eq_true] at hholds
      exact hholds.2
    have hpresent (q : List (List Char)) :
        (Cache.touch now (b.cache.recordPath asked) files).bodyAt q ≠ none ↔ files.bodyAt q ≠ none := by
      rcases Cache.touch_cases now (b.cache.recordPath asked) files with hsame | ⟨bytes, hw⟩
      · rw [hsame]
      · exact Files.bodyAt_of_rewrite hrecord hw q
    refine h.keep ⟨h.runs.toolchain, h.runs.cflags, h.runs.root⟩ (h.ready.touch now hrecord)
      (fun key hkey => ?_) (fun key => hpresent _) (fun key name _ => (hpresent _).mpr) (hlog _)
    refine (b.cache.remembered?_remember asked _ key).trans (if_neg ?_)
    rintro rfl
    exact hasked hkey
  · rw [h']
    exact h.keep_log (hlog _)

/-- A lookup keeps the store. -/
theorem Stores.lookup (h : s.Stores b files log) (now : Nat) (asked name : String) :
    s.Stores { b with cache := (b.cache.lookup now asked name files).2.1 }
      (b.cache.lookup now asked name files).2.2
      (log ++ [.lookedUp asked name (b.cache.lookup now asked name files).1]) := by
  by_cases hasked : Path.IsName asked.toList
  · have hsame : ∃ answer, b.cache.lookup now asked name files = (answer, b.cache, files) := by
      by_cases hbuilt : BuiltSinceClean log asked
      · obtain ⟨path, hpath⟩ := h.lookup_of_built hasked hbuilt
        exact ⟨some path, hpath now name⟩
      · exact ⟨none, h.lookup_of_not_built hasked hbuilt now name⟩
    obtain ⟨answer, hanswer⟩ := hsame
    rw [hanswer]
    exact h.keep_log (builtSinceClean_concat_of_ne log (.lookedUp asked name answer) (by simp) (by simp))
  · exact h.lookup_of_not_isName hasked now name

/-- A library that is made adds its key to the store. -/
theorem Stores.of_makes (h : s.Stores b files log) {r : BuildRequest} {parts : List KeyPart} {library : String}
    (hlibrary : library = s.entryPath (keyOf parts) (sharedLibraryName r.stem)) (hb : s.Runs b')
    (hready : s.Ready files') (hcache : b'.cache = b.cache.remember (keyOf parts) library)
    (hmakes : s.Makes r (keyOf parts) files files') :
    s.Stores b' files' (log ++ [.compiled r (.ok ⟨library, keyOf parts, false⟩)]) where
  runs := hb
  ready := hready
  named key hkey := by
    rcases (builtSinceClean_concat_ok _ _ _ _).mp hkey with heq | hold
    · exact ⟨parts, heq.symm⟩
    · exact h.named key hold
  recorded key := by
    rw [builtSinceClean_concat_ok]
    by_cases heq : key = keyOf parts
    · subst heq
      exact iff_of_true hmakes.record (.inl rfl)
    · rw [hmakes.others key recordName heq, h.recorded, or_iff_right (Ne.symm heq)]
  remembered key hname := by
    rw [builtSinceClean_concat_ok, hcache, Cache.remembered?_remember]
    by_cases heq : keyOf parts = key
    · rw [if_pos heq]
      exact iff_of_true (Option.some_ne_none _) (.inl heq)
    · rw [if_neg heq, h.remembered key hname, or_iff_right heq]
  library key path hname hpath := by
    rw [hcache, Cache.remembered?_remember] at hpath
    by_cases heq : keyOf parts = key
    · subst heq
      rw [if_pos rfl, hlibrary] at hpath
      obtain rfl := Option.some.inj hpath
      obtain ⟨body, hbody, -⟩ := hmakes.library
      exact ⟨_, rfl, r.isName_library, ((Files.resolve_eq_ok_iff _ _ _).mp hmakes.resolves).1,
        hbody ▸ Option.some_ne_none body⟩
    · rw [if_neg heq] at hpath
      obtain ⟨name, hplace, hproper, husable, hold⟩ := h.library key path hname hpath
      exact ⟨name, hplace, hproper, husable, hmakes.others key name (Ne.symm heq) ▸ hold⟩

/-- A build whose key was not built keeps the store if it fails, and adds its key if it succeeds. -/
theorem Stores.make {requests : BuildRequest → Prop} (hs : s.Careful requests) (h : s.Stores b files log)
    (now : Nat) {r : BuildRequest} (hr : requests r) (parts : List KeyPart)
    (hbuilt : ¬BuiltSinceClean log (keyOf parts)) :
    s.Stores (Builder.make s.host now b r (keyOf parts) files).2.1
      (Builder.make s.host now b r (keyOf parts) files).2.2
      (log ++ [.compiled r (Builder.make s.host now b r (keyOf parts) files).1]) := by
  have hkey := isName_keyOf parts
  have hready := h.ready.make hs h.runs hr now hkey
  cases hmake : Builder.make s.host now b r (keyOf parts) files with
  | mk answer rest =>
  obtain ⟨b', files'⟩ := rest
  rw [hmake] at hready
  obtain ⟨hb, -, ⟨fault, rfl, hcache, hagree⟩ | ⟨rfl, hcache, hmakes⟩⟩ :=
    make_cases (hs.spares r hr) h.runs hkey h.ready.home hmake
  · refine h.keep hb hready (fun key _ => by rw [hcache]) (fun key => ?_) (fun key name hother => ?_)
      (builtSinceClean_concat_of_ne log (.compiled r (.error fault)) (by simp) (by simp))
    · rw [hagree.body _ (s.spares_record _ key)]
    · have hne : key ≠ keyOf parts := fun heq => hbuilt (heq ▸ hother)
      rw [hagree.body _ (spares_of_ne hne name)]
      exact id
  · exact h.of_makes rfl hb hready hcache hmakes

/-- A build keeps the store, and adds its key if it succeeds. -/
theorem Stores.compile {requests : BuildRequest → Prop} (hs : s.Careful requests)
    (h : s.Stores b files log) (now : Nat) {r : BuildRequest} (hr : requests r) :
    s.Stores (b.compile s.host now r files).2.1 (b.compile s.host now r files).2.2
      (log ++ [.compiled r (b.compile s.host now r files).1]) := by
  cases hparts : s.hashed r files with
  | error fault =>
    have hcompile : b.compile s.host now r files = (.error fault, b, files) := by
      rw [Builder.compile, cacheKey_eq h.runs, hparts]
      rfl
    rw [hcompile]
    exact h.keep_log (builtSinceClean_concat_of_ne log (.compiled r (.error fault)) (by simp) (by simp))
  | ok parts =>
    by_cases hbuilt : BuiltSinceClean log (keyOf parts)
    · obtain ⟨path, hcompile⟩ := h.compile_of_built hparts hbuilt
      rw [hcompile]
      refine h.keep_log fun key => ?_
      rw [builtSinceClean_concat_ok]
      exact or_iff_right_of_imp fun heq => heq ▸ hbuilt
    · rw [h.compile_of_not_built hparts hbuilt]
      exact h.make hs now hr parts hbuilt

/-- The keys that were built are the entries of the cache, each of them once. -/
theorem Stores.entries (h : s.Stores b files log) :
    ∃ keys : List String, keys.Nodup ∧ (∀ key, key ∈ keys ↔ BuiltSinceClean log key) ∧
      b.cache.entries files = .ok (keys.map (Path.join s.cacheRoot)) := by
  obtain ⟨keys, hnodup, hkeys, hentries⟩ := h.ready.entries h.runs.root
  refine ⟨keys, hnodup, fun key => (hkeys key).trans ⟨?_, fun hbuilt => ?_⟩, hentries⟩
  · rintro ⟨hkey, hfile⟩
    exact (h.recorded key).mp (bodyAt_of_isFile h.ready.home hkey isName_recordName hfile)
  · obtain ⟨parts, rfl⟩ := h.named key hbuilt
    have husable : Path.IsUsable (s.entryPath (keyOf parts) recordName) :=
      (usable_join_keyOf h.ready.usable parts).join isName_recordName (by decide) (by decide)
    exact ⟨isName_keyOf parts, h.ready.isFile (isName_keyOf parts) isName_recordName husable
      ((h.recorded _).mpr hbuilt)⟩

/-- Cleaning removes the keys that were built and leaves a store of nothing. -/
theorem Stores.clean (h : s.Stores b files log) {keys : List String} (hnodup : keys.Nodup)
    (hkeys : ∀ key, key ∈ keys ↔ BuiltSinceClean log key)
    (hentries : b.cache.entries files = .ok (keys.map (Path.join s.cacheRoot))) :
    ∃ after, b.cache.clean files = (.ok (keys.length, ⟨b.cache.root, []⟩), after) ∧
      s.Stores { b with cache := ⟨b.cache.root, []⟩ } after (log ++ [.cleaned (.ok keys.length)]) := by
  obtain ⟨after, hremoved, hready, helse, hgone⟩ := h.ready.removeEntries hnodup fun key hkey => by
    have hbuilt := (hkeys key).mp hkey
    obtain ⟨parts, rfl⟩ := h.named key hbuilt
    exact ⟨isName_keyOf parts, usable_join_keyOf h.ready.usable parts,
      folder_of_bodyAt ((h.recorded _).mpr hbuilt)⟩
  have hnothing := not_builtSinceClean_concat_clean log (.ok keys.length)
  refine ⟨after, ?_, ⟨h.runs.toolchain, h.runs.cflags, h.runs.root⟩, hready,
    fun key hkey => (hnothing key hkey).elim, fun key => ?_,
    fun key _ => iff_of_false (fun hne => hne rfl) (hnothing key),
    fun key path _ hpath => (Option.some_ne_none path hpath.symm).elim⟩
  · rw [Cache.clean, hentries]
    dsimp only
    rw [hremoved]
    simp only [Except.map, List.length_map]
  · refine iff_of_false (fun hne => hne ?_) (hnothing key)
    by_cases hkey : key ∈ keys
    · exact congrArg Node.body? (hgone key hkey _ ((folder_prefix_entryPlace_iff key key recordName).mpr rfl))
    · have hkept := helse (s.entryPlace key recordName) fun other hother hp =>
        hkey ((folder_prefix_entryPlace_iff other key recordName).mp hp ▸ hother)
      rw [Files.bodyAt, hkept]
      exact not_not.mp fun hne => hkey ((hkeys key).mpr ((h.recorded key).mp hne))

/-- Whatever is asked in a session, the store is kept. -/
theorem Stores.ask {requests : BuildRequest → Prop} (hs : s.Careful requests) (h : s.Stores b files log)
    (now : Nat) {op : CacheOp} (hop : Allows requests op) :
    s.Stores (op.run s.host now b files).2.1 (op.run s.host now b files).2.2
      (log ++ [(op.run s.host now b files).1]) := by
  cases op with
  | compile r => exact h.compile hs now hop
  | lookup asked name => exact h.lookup now asked name
  | record entry => exact hop.elim
  | status =>
    exact h.keep_log
      (builtSinceClean_concat_of_ne log (.counted (b.cache.status files)) (by simp) (by simp))
  | clean =>
    obtain ⟨keys, hnodup, hkeys, hentries⟩ := h.entries
    obtain ⟨after, hclean, hstores⟩ := h.clean hnodup hkeys hentries
    simp only [CacheOp.run, hclean]
    exact hstores

/-- Every session keeps a store of what was built. -/
theorem Session.stores {requests : BuildRequest → Prop} (hs : s.Careful requests)
    (h : s.Session requests b files log) : s.Stores b files log := by
  induction h with
  | start b files hb hmemo hready hempty =>
    have hforgotten (key : String) : b.cache.remembered? key = none := by
      rw [Cache.remembered?, hmemo]
      rfl
    refine ⟨hb, hready, fun key hkey => (not_builtSinceClean_nil key hkey).elim, fun key => ?_,
      fun key _ => ?_, fun key path _ hpath => ?_⟩
    · exact iff_of_false (fun hne => hne (hempty _ (s.cachePlace_prefix_entryPlace key recordName)))
        (not_builtSinceClean_nil key)
    · exact iff_of_false (fun hne => hne (hforgotten key)) (not_builtSinceClean_nil key)
    · exact (Option.some_ne_none path (hpath.symm.trans (hforgotten key))).elim
  | edit h edited hedit hready ih =>
    have hbody (key name : String) := hedit.body _ (s.cachePlace_prefix_entryPlace key name)
    refine ih.keep ih.runs hready (fun _ _ => rfl) (fun key => ?_) (fun key name _ => ?_) fun _ => Iff.rfl
    · rw [hbody]
    · rw [hbody]
      exact id
  | ask h now op hop ih => exact ih.ask hs now hop

/-! ## How often the compiler starts -/

/-- Making a library looks at the host in one place: where it starts the compiler. -/
theorem make_eq (host : Host) (now : Nat) (b : Builder) (r : BuildRequest) (key : String)
    {made : Files} (hmade : files.makeFolders (b.cache.entryDir key) = .ok made) :
    Builder.make host now b r key files = Builder.make ⟨fun _ _ _ =>
      host.start b.toolchain.path (buildArguments r b.cflags (temporaryName ⟨b.process, b.builds⟩
        (Path.join (b.cache.entryDir key) (sharedLibraryName r.stem)))) made⟩ now b r key files := by
  simp only [Builder.make, hmade]
  rfl

/-- Making a library starts the compiler once. -/
theorem Stores.startsOnce_make (h : s.Stores b files log) (now : Nat) (r : BuildRequest)
    (parts : List KeyPart) :
    StartsOnce s.toolchain.path fun host => Builder.make host now b r (keyOf parts) files := by
  obtain ⟨made, hmade⟩ :=
    h.ready.exists_makeFolders (isName_keyOf parts) (usable_join_keyOf h.ready.usable parts)
  rw [← h.runs.root] at hmade
  rw [← h.runs.toolchain]
  -- A start that fails and a start that exits with an error give different faults.
  refine ⟨_, made, fun started => Builder.make ⟨fun _ _ _ => started⟩ now b r (keyOf parts) files,
    fun host => make_eq host now b r (keyOf parts) hmade, .failed .notFound, .finished 1 [] [] made,
    fun heq => ?_⟩
  have hanswer := congrArg Prod.fst heq
  simp only [Builder.make, Cache.entryDir, hmade, buildShared, Toolchain.startFault] at hanswer
  cases hanswer

/-- A library that is made was not cached. -/
theorem cached_of_make {host : Host} {now : Nat} {r : BuildRequest} {key : String} {a : Artifact}
    (h : (Builder.make host now b r key files).1 = .ok a) : a.cached = false := by
  unfold Builder.make at h
  dsimp only at h
  split at h
  · cases h
  split at h
  · cases h
  split at h
  · cases h
  · exact Except.ok.inj h ▸ rfl

/-! ## What the cache answers -/

/-- The cache is a store of the keys that were built since it was cleaned, at each moment of every session.
A lookup of a key hits exactly if the key was built. A build of sources that can be read is served from the
cache, without starting the compiler, exactly if its key was built; otherwise it starts the compiler once
and is not served from the cache. The status counts these keys, each of them once; a cleaning answers with
their number, and behind it the status is zero and every lookup misses. -/
theorem Session.answers_like_store {requests : BuildRequest → Prop} (hs : s.Careful requests)
    (h : s.Session requests b files log) :
    (∀ now key name, Path.IsName key.toList →
      ((b.cache.lookup now key name files).1.isSome = true ↔ BuiltSinceClean log key)) ∧
    (∀ now r parts, s.hashed r files = .ok parts →
      (BuiltSinceClean log (keyOf parts) →
        StartsNothing (fun host => b.compile host now r files) ∧
        ∀ host, ∃ library, (b.compile host now r files).1 = .ok ⟨library, keyOf parts, true⟩) ∧
      (¬BuiltSinceClean log (keyOf parts) →
        StartsOnce s.toolchain.path (fun host => b.compile host now r files) ∧
        ∀ host a, (b.compile host now r files).1 = .ok a → a.cached = false)) ∧
    ∃ keys : List String, keys.Nodup ∧ (∀ key, key ∈ keys ↔ BuiltSinceClean log key) ∧
      (∃ bytes, b.cache.status files = .ok ⟨keys.length, bytes⟩) ∧
      ∃ cache after, b.cache.clean files = (.ok (keys.length, cache), after) ∧
        cache.status after = .ok ⟨0, 0⟩ ∧
        ∀ now key name, Path.IsName key.toList → (cache.lookup now key name after).1 = none := by
  have hstores := h.stores hs
  refine ⟨fun now key name hkey => hstores.isSome_lookup_iff hkey now name,
    fun now r parts hparts => ⟨fun hbuilt => ?_, fun hbuilt => ?_⟩, ?_⟩
  · obtain ⟨path, hcompile⟩ := hstores.compile_of_built hparts hbuilt
    exact ⟨⟨_, fun host => hcompile host now⟩, fun host => ⟨path, congrArg Prod.fst (hcompile host now)⟩⟩
  · simp only [hstores.compile_of_not_built hparts hbuilt]
    exact ⟨hstores.startsOnce_make now r parts, fun host a hanswer => cached_of_make hanswer⟩
  · obtain ⟨keys, hnodup, hkeys, hentries⟩ := hstores.entries
    obtain ⟨after, hclean, hcleaned⟩ := hstores.clean hnodup hkeys hentries
    have hnothing := not_builtSinceClean_concat_clean log (.ok keys.length)
    have hstatus : ∃ bytes, b.cache.status files = .ok ⟨keys.length, bytes⟩ := by
      rw [Cache.status, hentries, Except.map, List.length_map]
      exact ⟨_, rfl⟩
    refine ⟨keys, hnodup, hkeys, hstatus, _, after, hclean, ?_, fun now key name hkey => ?_⟩
    · obtain ⟨none, -, hnone, hempty⟩ := hcleaned.entries
      obtain rfl := List.eq_nil_iff_forall_not_mem.mpr fun key hkey => hnothing key ((hnone key).mp hkey)
      rw [Cache.status, hempty]
      rfl
    · rw [hcleaned.lookup_of_not_built hkey (hnothing key)]

end Site

/-! ## A session of the pasting compiler -/

namespace Pasting

/-- The tree with the source and the header is ready for the cache. -/
theorem ready_start : site.Ready start where
  home := rfl
  tidy := by
    have hw : Path.IsName ['w'] := ⟨by decide, by decide⟩
    have hsource : Path.IsName "k.c".toList := ⟨by decide, by decide⟩
    have hheader : Path.IsName "k.h".toList := ⟨by decide, by decide⟩
    refine ⟨⟨hw, rfl, ⟨hsource, rfl, hheader, rfl, trivial⟩, trivial⟩, fun name hname => ?_⟩
    exact List.mem_singleton.mp hname ▸ hw
  usable := ⟨by decide, by decide, by decide⟩
  free name above habove := by
    change above <+: [['w'], "cache".toList, name] at habove
    match above, habove with
    | [], _ => rfl
    | [_], habove =>
      obtain ⟨rfl, -⟩ := List.cons_prefix_cons.mp habove
      rfl
    | _ :: _ :: below, habove =>
      obtain ⟨hfirst, hrest⟩ := List.cons_prefix_cons.mp habove
      obtain ⟨hsecond, -⟩ := List.cons_prefix_cons.mp hrest
      rw [hfirst, hsecond]
      rfl
  leads tree hhome _ := by
    unfold Files.Reaches
    rw [hhome]
    rfl

/-- The pasting compiler spares the cache and keeps trees ready. -/
theorem careful : site.Careful (· = request) where
  spares r hr := obeys.sparesCache hr
  ready r key name files code stdout stderr after hr hkey hname hready h := by
    subst hr
    rw [start_eq] at h
    split at h
    next written hwrite =>
      cases h
      exact hready.of_write hkey hname hwrite
    next =>
      cases h
      exact hready

/-- A session before anything is asked. -/
theorem session_start : site.Session (· = request) builder start [] := by
  refine .start builder start ⟨rfl, rfl, rfl⟩ rfl ready_start fun q hq => ?_
  obtain ⟨below, rfl⟩ := hq
  change start.bodyAt (['w'] :: "cache".toList :: below) = none
  rfl

/-- What building the library gives. -/
def built : CacheEvent × Builder × Files :=
  (CacheOp.compile request).run site.host 0 builder start

/-- A library that was built is found, and behind a cleaning it is not. -/
theorem answers_like_store_built : site.Careful (· = request) ∧
    site.Session (· = request) built.2.1 built.2.2 [built.1] ∧
    ∃ a, built.1 = .compiled request (.ok a) ∧
      (built.2.1.cache.lookup 1 a.key "libk.so" built.2.2).1.isSome = true ∧
      ∃ removed cache after, built.2.1.cache.clean built.2.2 = (.ok (removed, cache), after) ∧
        cache.status after = .ok ⟨0, 0⟩ ∧ (cache.lookup 1 a.key "libk.so" after).1 = none := by
  have hsession : site.Session (· = request) built.2.1 built.2.2 [built.1] :=
    session_start.ask 0 (.compile request) rfl
  have hsucceeds : (builder.compile site.host 0 request start).1.toOption.isSome = true := by
    decide +kernel
  cases hanswer : (builder.compile site.host 0 request start).1 with
  | error fault =>
    rw [hanswer] at hsucceeds
    contradiction
  | ok a =>
    have hevent : built.1 = .compiled request (.ok a) := congrArg (CacheEvent.compiled request) hanswer
    have hbuilt : BuiltSinceClean [built.1] a.key :=
      ⟨[], request, a, [], congrArg ([·]) hevent, rfl, fun _ => List.not_mem_nil⟩
    obtain ⟨parts, hparts⟩ := (hsession.stores careful).named a.key hbuilt
    have hkey : Path.IsName a.key.toList := hparts ▸ isName_keyOf parts
    obtain ⟨hlookup, -, keys, -, -, -, cache, after, hclean, hstatus, hmiss⟩ :=
      hsession.answers_like_store careful
    exact ⟨careful, hsession, a, hevent, (hlookup 1 a.key "libk.so" hkey).mpr hbuilt,
      keys.length, cache, after, hclean, hstatus, hmiss 1 a.key "libk.so" hkey⟩

end Pasting

end CBind
