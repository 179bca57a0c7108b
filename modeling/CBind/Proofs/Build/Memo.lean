import CBind.Proofs.Build.History

/-!
# What a cache remembers

A cache that lives for long is asked for libraries, told of new ones, cleaned and used for builds, while
others change the files under it. What it remembers for a key is the last library it gave, made or was told
of for that key since it was cleaned, and nothing else.

A remembered library is the answer to every lookup of its key as long as anything stands at its path. A
cache that was just opened looks for the library that is asked for and for a record. The two answer alike
exactly if the remembered path is that of the library that is asked for and its entry is complete.
-/

namespace CBind

/-- What is asked of a cache. -/
inductive CacheOp where
  | compile (request : BuildRequest)
  | lookup (key library : String)
  | record (entry : CacheRecord)
  | status
  | clean

/-- What was asked of a cache, and what it answered. -/
inductive CacheEvent where
  | compiled (request : BuildRequest) (answer : Except Fault Artifact)
  | lookedUp (key library : String) (answer : Option String)
  | recorded (entry : CacheRecord) (answer : Except Fault Unit)
  | counted (answer : Except Fault CacheStatus)
  | cleaned (answer : Except Fault Nat)

/-- Ask something of the cache of a builder. -/
def CacheOp.run (host : Host) (now : Nat) (b : Builder) (files : Files) :
    CacheOp → CacheEvent × Builder × Files
  | compile r =>
    let (answer, b, files) := b.compile host now r files
    (.compiled r answer, b, files)
  | lookup key library =>
    let (answer, cache, files) := b.cache.lookup now key library files
    (.lookedUp key library answer, { b with cache }, files)
  | record entry =>
    match b.cache.record entry files with
    | (.error fault, files) => (.recorded entry (.error fault), b, files)
    | (.ok cache, files) => (.recorded entry (.ok ()), { b with cache }, files)
  | status => (.counted (b.cache.status files), b, files)
  | clean =>
    match b.cache.clean files with
    | (.error fault, files) => (.cleaned (.error fault), b, files)
    | (.ok (removed, cache), files) => (.cleaned (.ok removed), { b with cache }, files)

/-- The life of a cache: it is opened with nothing remembered, and then it is asked again and again, while
others change files as they like. -/
inductive CacheLife : Builder → Files → List CacheEvent → Prop
  | opened (b : Builder) (files : Files) (hmemo : b.cache.memo = []) : CacheLife b files []
  | changed {b : Builder} {files : Files} {log : List CacheEvent} (h : CacheLife b files log)
      (others : Files) : CacheLife b others log
  | asked {b : Builder} {files : Files} {log : List CacheEvent} (h : CacheLife b files log)
      (host : Host) (now : Nat) (op : CacheOp) :
      CacheLife (op.run host now b files).2.1 (op.run host now b files).2.2
        (log ++ [(op.run host now b files).1])

/-- Where the library of a key is said to be behind an event, by the event or as before. -/
def givenBehind (key : String) (before : Option String) : CacheEvent → Option String
  | .compiled _ (.ok a) => if a.key = key then some a.library else before
  | .lookedUp asked _ (some library) => if asked = key then some library else before
  | .recorded entry (.ok _) => if entry.key = key then some entry.library else before
  | .cleaned (.ok _) => none
  | _ => before

/-- Where the library of a key was last said to be since the cache was cleaned. -/
def lastGiven (log : List CacheEvent) (key : String) : Option String :=
  log.foldl (givenBehind key) none

/-! ## What is remembered -/

namespace Cache

/-- A lookup remembers what it answers. -/
theorem remembered?_lookup (now : Nat) (c : Cache) (asked library key : String) (files : Files) :
    (c.lookup now asked library files).2.1.remembered? key =
      givenBehind key (c.remembered? key) (.lookedUp asked library (c.lookup now asked library files).1) := by
  rcases lookup_cases now c asked library files with ⟨path, hpath, -, h⟩ | ⟨-, h⟩ | ⟨-, h⟩
  · rw [h]
    change c.remembered? key = if asked = key then some path else c.remembered? key
    split
    next hasked => rw [← hasked, hpath]
    next => rfl
  · rw [h]
    exact remembered?_remember c asked _ key
  · rw [h]
    rfl

/-- What is recorded is remembered. -/
theorem remembered?_of_record {c cache : Cache} {entry : CacheRecord} {files after : Files}
    (h : c.record entry files = (.ok cache, after)) (key : String) :
    cache.remembered? key = if entry.key = key then some entry.library else c.remembered? key := by
  rcases c.record_cases entry files with ⟨fault, hrefused⟩ | ⟨bytes, written, -, hdone⟩
  · rw [hrefused] at h
    cases h
  · rw [hdone] at h
    obtain rfl := Except.ok.inj (Prod.mk.inj h).1
    exact remembered?_remember c entry.key entry.library key

/-- A cache that was cleaned remembers nothing. -/
theorem remembered?_of_clean {c cache : Cache} {removed : Nat} {files after : Files}
    (h : c.clean files = (.ok (removed, cache), after)) (key : String) : cache.remembered? key = none := by
  unfold clean at h
  split at h
  · cases h
  · obtain ⟨-, -, hcache⟩ := exists_of_map_eq_ok (Prod.mk.inj h).1
    rw [← (Prod.mk.inj hcache).2]
    rfl

end Cache

/-- A build remembers the library that it makes. -/
theorem Builder.remembered?_make (host : Host) (now : Nat) (b : Builder) (r : BuildRequest)
    (made key : String) (files : Files) :
    (make host now b r made files).2.1.cache.remembered? key =
      givenBehind key (b.cache.remembered? key) (.compiled r (make host now b r made files).1) := by
  unfold make
  dsimp only
  split
  · rfl
  split
  · rfl
  split
  · rfl
  next hrecord => exact Cache.remembered?_of_record hrecord key

/-- A build remembers the library that it answers with. -/
theorem Builder.remembered?_compile (host : Host) (now : Nat) (b : Builder) (r : BuildRequest)
    (key : String) (files : Files) :
    (b.compile host now r files).2.1.cache.remembered? key =
      givenBehind key (b.cache.remembered? key) (.compiled r (b.compile host now r files).1) := by
  unfold compile
  split
  · rfl
  next made hmade =>
  have hlookup := b.cache.remembered?_lookup now made (sharedLibraryName r.stem) key files
  rcases Cache.lookup_cases now b.cache made (sharedLibraryName r.stem) files with
    ⟨path, -, -, h⟩ | ⟨-, h⟩ | ⟨-, h⟩
  · rw [h] at hlookup ⊢
    exact hlookup
  · rw [h] at hlookup ⊢
    exact hlookup
  · rw [h]
    exact remembered?_make host now b r made key files

/-- Whatever is asked of a cache, it remembers what it answers. -/
theorem CacheOp.remembered?_run (host : Host) (now : Nat) (b : Builder) (files : Files) (op : CacheOp)
    (key : String) :
    (op.run host now b files).2.1.cache.remembered? key =
      givenBehind key (b.cache.remembered? key) (op.run host now b files).1 := by
  cases op with
  | compile r => exact b.remembered?_compile host now r key files
  | lookup asked library => exact b.cache.remembered?_lookup now asked library key files
  | record entry =>
    unfold run
    dsimp only
    split
    · rfl
    next hrecord => exact Cache.remembered?_of_record hrecord key
  | status => rfl
  | clean =>
    unfold run
    dsimp only
    split
    · rfl
    next hclean => exact Cache.remembered?_of_clean hclean key

/-- All through its life, a cache remembers for each key what was last said of it. -/
theorem CacheLife.remembered?_eq {b : Builder} {files : Files} {log : List CacheEvent}
    (h : CacheLife b files log) (key : String) : b.cache.remembered? key = lastGiven log key := by
  induction h with
  | opened b files hmemo => rw [Cache.remembered?, hmemo, lastGiven, List.find?_nil, List.foldl_nil]; rfl
  | changed h others ih => exact ih
  | asked h host now op ih =>
    rw [CacheOp.remembered?_run, ih, lastGiven, lastGiven, List.foldl_append]
    rfl

/-! ## Long-lived and new caches -/

/-- A cache that remembers nothing answers with what the folder of the key holds. -/
theorem Cache.lookup_opened (now : Nat) (root key library : String) (files : Files) :
    ((⟨root, []⟩ : Cache).lookup now key library files).1 =
      if (⟨root, []⟩ : Cache).holds key library files then some (Path.join (Path.join root key) library)
      else none := by
  unfold lookup
  change Prod.fst (if _ then _ else _) = _
  split <;> rfl

/-- The memory of a cache shows nowhere, exactly as long as what it remembers is complete. At each moment of
the life of a cache, for each key and library name, the cache answers like one that was just opened on the
same folder if and only if the library last given for the key is gone or is the library that is asked for,
with a record beside it. -/
theorem CacheLife.lookup_eq_opened_iff {b : Builder} {files : Files} {log : List CacheEvent}
    (h : CacheLife b files log) (now : Nat) (key library : String) :
    (b.cache.lookup now key library files).1 =
        ((⟨b.cache.root, []⟩ : Cache).lookup now key library files).1 ↔
      ∀ path, lastGiven log key = some path → files.isPresent path = true →
        path = Path.join (b.cache.entryDir key) library ∧ b.cache.holds key library files = true := by
  rw [Cache.lookup_opened, ← h.remembered?_eq key]
  change _ = (if b.cache.holds key library files then some (Path.join (b.cache.entryDir key) library)
    else none) ↔ _
  unfold Cache.lookup
  -- Only a library that is still there is answered from memory; without one both look at the folder.
  cases hkept : (b.cache.remembered? key).filter files.isPresent with
  | none =>
    have hgone (path : String) (hpath : b.cache.remembered? key = some path)
        (hpresent : files.isPresent path = true) : False := by
      rw [hpath, Option.filter_some, if_pos hpresent] at hkept
      contradiction
    refine iff_of_true ?_ fun path hpath hpresent => (hgone path hpath hpresent).elim
    dsimp only
    split <;> rfl
  | some path =>
    obtain ⟨hpath, hpresent⟩ := Option.filter_eq_some_iff.mp hkept
    dsimp only
    constructor
    · intro hanswer other hother _
      obtain rfl : path = other := Option.some.inj (hpath.symm.trans hother)
      split at hanswer
      next hholds => exact ⟨Option.some.inj hanswer, hholds⟩
      next => contradiction
    · intro hcomplete
      obtain ⟨rfl, hholds⟩ := hcomplete path hpath hpresent
      rw [if_pos hholds]

/-! ## A record that others remove -/

namespace RemovedRecord

/-- A library in the folder of a key. -/
def unrecorded : Files where
  root := .folder ['w'] (.folder "cache".toList (.folder "abc".toList
    (.file "libk.so".toList ⟨[120], .denied⟩ .done) .done) .done) .done
  home := [['w']]

/-- The record of the library. -/
def entry : CacheRecord :=
  { key := "abc", sourcePath := "k.c", library := "cache/abc/libk.so", compiler := "cc",
    compilerVersion := "cc 1.0", flags := [], platform := platformName, createdAt := 1, lastAccessAt := 1 }

/-- A builder that remembers nothing. -/
def builder : Builder :=
  ⟨⟨"cc", .gcc, "cc 1.0"⟩, ⟨"cache", []⟩, [], 1, 0⟩

/-- A host without programs. -/
def host : Host :=
  ⟨fun _ _ _ => .failed .notFound⟩

/-- What recording the library gives. -/
def recorded : CacheEvent × Builder × Files :=
  (CacheOp.record entry).run host 1 builder unrecorded

/-- A life in which the library is recorded. -/
theorem life_recorded : CacheLife recorded.2.1 recorded.2.2 [recorded.1] :=
  (CacheLife.opened builder unrecorded rfl).asked host 1 (.record entry)

/-- What is recorded is answered, as if the cache was just opened. -/
theorem lookup_recorded : CacheLife recorded.2.1 recorded.2.2 [recorded.1] ∧
    (recorded.2.1.cache.lookup 2 "abc" "libk.so" recorded.2.2).1 =
      ((⟨recorded.2.1.cache.root, []⟩ : Cache).lookup 2 "abc" "libk.so" recorded.2.2).1 := by
  have hgiven : lastGiven [recorded.1] "abc" = some "cache/abc/libk.so" := by decide +kernel
  have hholds : recorded.2.1.cache.holds "abc" "libk.so" recorded.2.2 = true := by decide +kernel
  have hplace : Path.join (recorded.2.1.cache.entryDir "abc") "libk.so" = "cache/abc/libk.so" := by
    decide +kernel
  refine ⟨life_recorded, (life_recorded.lookup_eq_opened_iff 2 "abc" "libk.so").mpr fun path hpath _ => ?_⟩
  exact ⟨(Option.some.inj (hpath.symm.trans hgiven)).trans hplace.symm, hholds⟩

/-- Others remove the record. The cache that has lived on still answers with the library, one that is just
opened does not. -/
theorem lookup_unrecorded : CacheLife recorded.2.1 unrecorded [recorded.1] ∧
    (recorded.2.2.removeFile "cache/abc/meta.toml").toOption = some unrecorded ∧
    (recorded.2.1.cache.lookup 2 "abc" "libk.so" unrecorded).1 = some "cache/abc/libk.so" ∧
    ((⟨recorded.2.1.cache.root, []⟩ : Cache).lookup 2 "abc" "libk.so" unrecorded).1 = none :=
  ⟨life_recorded.changed unrecorded, by decide +kernel, by decide +kernel, by decide +kernel⟩

end RemovedRecord

end CBind
