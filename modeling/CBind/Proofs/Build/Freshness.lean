import CBind.Proofs.Build.History

/-!
# When the cache serves what the compiler would produce

In a history all libraries are fresh exactly if calls with the same hashed inputs find files of which
the compiler produces the same. The key covers the sources but not the files they include, so the
condition fails as soon as an included file is edited between two calls, and the library of the second
call is stale.
-/

namespace CBind

open Digest Toolchain

namespace Site

/-- No call was answered with a stale library. -/
def NeverStale (s : Site) (log : List Call) : Prop :=
  ∀ c ∈ log, ∀ a, c.answer = .ok a → s.Fresh c a

/-- What the key covers decides what the compiler produces, as far as the answered calls show. -/
def Determined (s : Site) (log : List Call) : Prop :=
  ∀ c ∈ log, ∀ d ∈ log, ∀ a a', c.answer = .ok a → d.answer = .ok a' →
    s.hashed c.request c.files = s.hashed d.request d.files →
    ∀ bytes, s.Produces c.request c.files bytes ↔ s.Produces d.request d.files bytes

variable {s : Site}

/-- In a history, no call is answered with a stale library exactly if what the keys cover decides what
the compiler produces. -/
theorem neverStale_iff_determined {requests : BuildRequest → Prop} (hs : s.Obeys requests)
    {b : Builder} {files : Files} {log : List Call} (h : s.History requests b files log)
    (hdistinct : s.DistinctDigests log) : s.NeverStale log ↔ s.Determined log := by
  have hsound := h.sound hs hdistinct
  constructor
  · intro hfresh c hc d hd a a' ha ha' hsame bytes
    obtain ⟨one, hone, hproduces⟩ := hfresh c hc a ha
    obtain ⟨other, hother, hproduces'⟩ := hfresh d hd a' ha'
    have heq : one = other := by
      have := hsound.read_eq hc hd ha ha' hsame
      rw [hone, hother] at this
      exact Except.ok.inj this
    subst heq
    constructor
    · intro hp
      rwa [hs.deterministic _ _ _ _ (h.requested c hc) hp hproduces]
    · intro hp
      rwa [hs.deterministic _ _ _ _ (h.requested d hd) hp hproduces']
  · intro hdetermined c hc a ha
    obtain ⟨d, hd, a', ha', hkey, ⟨bytes, hread, hproduces⟩, hsame⟩ := hsound.origin c hc a ha
    obtain ⟨parts, hparts, hk⟩ := (hsound.stored c hc a ha).hashed
    obtain ⟨parts', hparts', hk'⟩ := (hsound.stored d hd a' ha').hashed
    have hcovers : s.hashed d.request d.files = s.hashed c.request c.files := by
      rw [hparts, hparts', hdistinct d hd c hc parts' parts hparts' hparts
        (hk'.symm.trans (hkey.trans hk))]
    refine ⟨bytes, hsame ▸ hread, ?_⟩
    exact (hdetermined d hd c hc a' a ha' ha hcovers bytes).mp hproduces

end Site

/-! ## A source that includes a header -/

namespace Pasting

/-- The place of a file of the working folder. -/
def placeOf (name : String) : List (List Char) :=
  [['w'], name.toList]

/-- The header and the source behind it. -/
def pasted (files : Files) : List UInt8 :=
  ["k.h", "k.c"].flatMap fun name => ((files.bodyAt (placeOf name)).map (·.bytes)).getD []

/-- A site whose compiler pastes the header in front of the source and writes both. -/
def site : Site where
  host := ⟨fun _ arguments files =>
    match (valueBehind? "-o" arguments).map fun file => files.write file (pasted files) with
    | some (.ok after) => .finished 0 [] [] after
    | _ => .finished 1 [] [] files⟩
  toolchain := ⟨"cc", .gcc, "cc 1.0"⟩
  cflags := []
  cacheRoot := "cache"
  home := [['w']]

/-- The request that is made again and again. -/
def request : BuildRequest :=
  { source := "k.c" }

/-- The builder at the start. -/
def builder : Builder :=
  ⟨site.toolchain, ⟨site.cacheRoot, []⟩, site.cflags, 1, 0⟩

/-- A source and the header that it includes. -/
def start : Files where
  root := .folder ['w']
    (.file "k.c".toList ⟨Text.utf8 "#include \"k.h\"\nint f(void) \x7b return N; \x7d\n", .denied⟩
      (.file "k.h".toList ⟨Text.utf8 "#define N 1\n", .denied⟩ .done)) .done
  home := [['w']]

/-- Another content of the header. -/
def editHeader (files : Files) : Files :=
  match files.write "k.h" (Text.utf8 "#define N 2\n") with
  | .ok edited => edited
  | .error _ => files

/-- The builder and the files behind a call. -/
def behind (b : Builder) (files : Files) : Builder × Files :=
  (b.compile site.host 0 request files).2

/-- A call of the request. -/
def callOf (b : Builder) (files : Files) : Call :=
  ⟨request, files, (b.compile site.host 0 request files).1, (behind b files).2⟩

/-- The compiler writes the pasted text into the file it is told to write, or nothing. -/
theorem start_eq (file : String) (files : Files) :
    site.host.start site.toolchain.path (buildArguments request site.cflags file) files =
      match files.write file (pasted files) with
      | .ok after => .finished 0 [] [] after
      | .error _ => .finished 1 [] [] files := by
  have hvalue : valueBehind? "-o" (buildArguments request site.cflags file) = some file := by
    simp [valueBehind?, buildArguments, request, site, BuildRequest.sources,
      BuildRequest.commandFlags]
  simp only [site] at hvalue ⊢
  rw [hvalue, Option.map_some]
  cases files.write file (pasted files) <;> rfl

/-- What is pasted is decided by the files. -/
theorem pasted_congr {files tree : Files} (h : Files.Agree (fun _ => True) files tree) :
    pasted tree = pasted files := by
  simp only [pasted, h.body _ trivial]

/-- The compiler produces the pasted text and nothing else. -/
theorem eq_of_produces {files : Files} {bytes : List UInt8}
    (h : site.Produces request files bytes) : bytes = pasted files := by
  obtain ⟨tree, file, stdout, stderr, after, hagree, hstart, hread⟩ := h
  rw [start_eq] at hstart
  split at hstart
  · rename_i written hwrite
    cases hstart
    rw [Files.read_of_write hwrite] at hread
    rw [← Except.ok.inj hread, pasted_congr hagree]
  · cases hstart

/-- Where it can write a file the compiler produces the pasted text. -/
theorem produces_iff {file : String} {files : Files} (bytes : List UInt8)
    (h : (files.write file (pasted files)).toOption.isSome = true) :
    site.Produces request files bytes ↔ bytes = pasted files := by
  refine ⟨eq_of_produces, ?_⟩
  rintro rfl
  cases hwrite : files.write file (pasted files) with
  | error fault =>
    rw [hwrite] at h
    cases h
  | ok after =>
    exact ⟨files, file, [], [], after, Files.Agree.refl _ _, by rw [start_eq, hwrite],
      Files.read_of_write hwrite⟩

/-- The pasting compiler does what is asked of a compiler. -/
theorem obeys : site.Obeys (· = request) where
  deterministic r files bytes bytes' hr h h' := by
    subst hr
    rw [eq_of_produces h, eq_of_produces h']
  writes r file files stdout stderr after hr h := by
    subst hr
    rw [start_eq] at h
    split at h
    · rename_i written hwrite
      cases h
      exact ⟨_, Files.read_of_write hwrite⟩
    · cases h
  keeps r file files code stdout stderr after hr h := by
    subst hr
    rw [start_eq] at h
    split at h
    · rename_i written hwrite
      cases h
      obtain ⟨place, hres, -, -, hc⟩ := Files.changesOnly_of_write hwrite
      exact hc.agree.mono fun q hq => hq.2 place hres
    · cases h
      exact Files.Agree.refl _ _

/-- Editing the header changes no file of the cache. -/
theorem agree_editHeader {files : Files} (hhome : files.home = site.home) :
    Files.Agree (site.cachePlace <+: ·) files (editHeader files) := by
  unfold editHeader
  split
  · rename_i edited hwrite
    obtain ⟨place, hres, -, -, hc⟩ := Files.changesOnly_of_write hwrite
    have hplace : place = placeOf "k.h" := by
      rw [Files.eq_placeFrom_of_resolve hres, hhome]
      decide
    apply hc.agree.mono
    intro q hq hp
    have heq := List.prefix_of_prefix_length_le hq (hplace ▸ hp) (by decide)
    revert heq
    decide
  · exact Files.Agree.refl _ _

/-- The history before any call. -/
theorem history_start : site.History (· = request) builder start [] := by
  apply Site.History.start builder start ⟨rfl, rfl, rfl⟩ rfl rfl
  intro q hq
  obtain ⟨below, rfl⟩ := hq
  change start.bodyAt (['w'] :: "cache".toList :: below) = none
  rfl

/-- One more call. -/
theorem history_call {b : Builder} {files : Files} {log : List Call}
    (h : site.History (· = request) b files log) :
    site.History (· = request) (behind b files).1 (behind b files).2 (log ++ [callOf b files]) :=
  h.call 0 request rfl

/-- The first call. -/
def first : Call :=
  callOf builder start

/-- A second call with nothing edited in between. -/
def again : Call :=
  callOf (behind builder start).1 (behind builder start).2

/-- A second call behind an edit of the header. -/
def later : Call :=
  callOf (behind builder start).1 (editHeader (behind builder start).2)

/-- What the keys of these calls cover: the source, and nothing of the header. -/
def covered : List KeyPart :=
  Builder.keyParts [("k.c", Text.utf8 "#include \"k.h\"\nint f(void) \x7b return N; \x7d\n")] "cc"
    "cc 1.0" []

/-- The keys of all three calls cover the same. -/
theorem hashed_eq : ∀ c ∈ [first, again, later],
    (site.hashed c.request c.files).toOption = some covered := by
  decide +kernel

/-- Among these calls there is one hashed input, so different ones have different digests. -/
theorem distinctDigests {log : List Call} (h : log ⊆ [first, again, later]) :
    site.DistinctDigests log := by
  have hcovered {c : Call} (hc : c ∈ log) {parts : List KeyPart}
      (hparts : site.hashed c.request c.files = .ok parts) : parts = covered := by
    have := hashed_eq c (h hc)
    rw [hparts] at this
    exact Option.some.inj this
  intro c hc d hd parts parts' hparts hparts' _
  rw [hcovered hc hparts, hcovered hd hparts']

/-- Without an edit in between both libraries are what the compiler produces. -/
theorem neverStale_first_again : site.Obeys (· = request) ∧
    site.History (· = request) (behind (behind builder start).1 (behind builder start).2).1
      (behind (behind builder start).1 (behind builder start).2).2 [first, again] ∧
    site.DistinctDigests [first, again] ∧ site.NeverStale [first, again] := by
  have hhistory := history_call (history_call history_start)
  have hdistinct : site.DistinctDigests [first, again] := distinctDigests (by simp)
  refine ⟨obeys, hhistory, hdistinct,
    (Site.neverStale_iff_determined obeys hhistory hdistinct).mpr ?_⟩
  have hproduces : ∀ c ∈ [first, again], c.request = request ∧
      (c.files.write "out" (pasted c.files)).toOption.isSome = true ∧
      pasted c.files = pasted start := by
    decide +kernel
  intro c hc d hd _ _ _ _ _ bytes
  obtain ⟨hrequest, hwrite, hpasted⟩ := hproduces c hc
  obtain ⟨hrequest', hwrite', hpasted'⟩ := hproduces d hd
  rw [hrequest, hrequest', produces_iff bytes hwrite, produces_iff bytes hwrite', hpasted, hpasted']

/-- Behind an edit of the header the second call is answered with the library of the first, which is not
what the compiler produces any more. -/
theorem stale_first_later : site.Obeys (· = request) ∧
    (∃ b files, site.History (· = request) b files [first, later]) ∧
    site.DistinctDigests [first, later] ∧ ¬ site.NeverStale [first, later] := by
  have hedit := (history_call history_start).edit _ (agree_editHeader (by decide +kernel))
  refine ⟨obeys, ⟨_, _, history_call hedit⟩, distinctDigests (by simp), ?_⟩
  intro hfresh
  have hserved : (later.answer.toOption.map fun a => (later.after.read a.library).toOption) =
      some (some (pasted start)) := by
    decide +kernel
  have hedited : pasted start ≠ pasted later.files := by
    decide +kernel
  cases hanswer : later.answer with
  | error fault =>
    rw [hanswer] at hserved
    cases hserved
  | ok a =>
    obtain ⟨bytes, hread, hproduces⟩ := hfresh later (by simp) a hanswer
    rw [hanswer] at hserved
    change some (later.after.read a.library).toOption = _ at hserved
    rw [hread] at hserved
    have hbytes : bytes = pasted start := Option.some.inj (Option.some.inj hserved)
    exact hedited (hbytes.symm.trans (eq_of_produces hproduces))

end Pasting

end CBind
