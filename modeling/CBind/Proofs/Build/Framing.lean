import CBind.Build.Builder
import CBind.Proofs.Files.Frames
import CBind.Proofs.Text.Encoding
import Mathlib.Algebra.GroupWithZero.Nat

/-!
# What a key covers can be read off its stream

The stream of a key frames each of its parts, so parts of one kind can be taken off its front one after
the other. It does not say how many sources there are. Behind the last source stand the compiler and its
version, where a further source would have its path and the length of its content. They cannot be taken
for that: content is shorter than `2^56` bytes, so the last byte of its length is zero, and neither a
version nor the platform behind it has a byte that is zero.

So different sources, compilers, versions or flags never give the same stream. Different streams may still
have the same digest.
-/

namespace CBind

open Digest CBind.Text

/-! ## Frames -/

/-- What stands in front of a mark can be split off. -/
theorem append_mark_inj {α : Type} {mark : α} {a b x y : List α} (ha : mark ∉ a) (hb : mark ∉ b)
    (h : a ++ mark :: x = b ++ mark :: y) : a = b ∧ x = y := by
  induction a generalizing b with
  | nil =>
    cases b with
    | nil => exact ⟨rfl, (List.cons.inj h).2⟩
    | cons c b => exact absurd ((List.cons.inj h).1 ▸ List.mem_cons_self) hb
  | cons c a ih =>
    cases b with
    | nil => exact absurd ((List.cons.inj h).1.symm ▸ List.mem_cons_self) ha
    | cons d b =>
      obtain ⟨rfl, hrest⟩ := List.cons.inj h
      obtain ⟨rfl, hxy⟩ := ih (fun hm => ha (.tail _ hm)) (fun hm => hb (.tail _ hm)) hrest
      exact ⟨rfl, hxy⟩

namespace Digest

/-- A text can be split off the front of a stream. -/
theorem frame_text_inj {s t : String} {x y : List UInt8}
    (h : (KeyPart.text s).frame ++ x = (KeyPart.text t).frame ++ y) : s = t ∧ x = y := by
  simp only [KeyPart.frame, List.append_assoc, List.singleton_append] at h
  obtain ⟨hutf8, hxy⟩ := append_mark_inj (mark_not_mem_utf8 s) (mark_not_mem_utf8 t) h
  exact ⟨utf8_injective hutf8, hxy⟩

/-- Content that is short enough can be split off the front of a stream. -/
theorem frame_content_inj {a b x y : List UInt8} (ha : a.length < 2 ^ 56) (hb : b.length < 2 ^ 56)
    (h : (KeyPart.content a).frame ++ x = (KeyPart.content b).frame ++ y) : a = b ∧ x = y := by
  simp only [KeyPart.frame, List.append_assoc] at h
  obtain ⟨hlength, h⟩ := List.append_inj h (by simp)
  have hword := congrArg loadWord hlength
  rw [loadWord_storeWord, loadWord_storeWord, show twoTo (8 * 8) = 2 ^ 64 from rfl,
    Nat.mod_eq_of_lt (by omega), Nat.mod_eq_of_lt (by omega)] at hword
  exact List.append_inj h hword

/-- Texts in front of nothing can be told apart. -/
theorem keyStream_texts_inj {ss ts : List String}
    (h : keyStream (ss.map .text) = keyStream (ts.map .text)) : ss = ts := by
  induction ss generalizing ts with
  | nil =>
    cases ts with
    | nil => rfl
    | cons t ts => simp [keyStream, KeyPart.frame] at h
  | cons s ss ih =>
    cases ts with
    | nil => simp [keyStream, KeyPart.frame] at h
    | cons t ts =>
      simp only [keyStream, List.map_cons, List.flatMap_cons] at h
      obtain ⟨rfl, hrest⟩ := frame_text_inj h
      rw [ih hrest]

/-- The eighth byte of the frame of content that is short enough is zero. -/
theorem eighth_frame_content {bytes rest : List UInt8} (h : bytes.length < 2 ^ 56) :
    ((KeyPart.content bytes).frame ++ rest)[7]? = some 0 := by
  have hzero : bytes.length / 256 / 256 / 256 / 256 / 256 / 256 / 256 = 0 := by omega
  simp [KeyPart.frame, storeWord, hzero]

end Digest

namespace Builder

/-- The bytes that the key of a request digests. -/
def keyBytes (b : Builder) (r : BuildRequest) (files : Files) : Except Fault (List UInt8) :=
  (readSources files r.sources).map fun sources =>
    keyStream (keyParts sources b.toolchain.path b.toolchain.version (r.commandFlags b.cflags))

/-- Sources and a version that a key can cover: contents that are short enough, and no zero character in
the version. -/
structure Coverable (sources : List (String × List UInt8)) (version : String) : Prop where
  contents : ∀ s ∈ sources, s.2.length < 2 ^ 56
  version : '\x00' ∉ version.toList

/-- The key of a request is the digest of its bytes. -/
theorem cacheKey_eq_keyBytes (b : Builder) (r : BuildRequest) (files : Files) :
    b.cacheKey r files = (b.keyBytes r files).map fun bytes => keyText (sipHash bytes) := by
  unfold cacheKey keyBytes
  cases readSources files r.sources <;> rfl

/-- The sources that were read are those that were named, in their order. -/
theorem paths_readSources {files : Files} {paths : List String} {sources : List (String × List UInt8)}
    (h : readSources files paths = .ok sources) : sources.map (·.1) = paths := by
  induction paths generalizing sources with
  | nil =>
    cases h
    rfl
  | cons path paths ih =>
    rw [readSources] at h
    split at h
    · contradiction
    · obtain ⟨rest, hrest, rfl⟩ := exists_of_map_eq_ok h
      rw [List.map_cons, ih hrest]

/-- The eighth byte of the version and the platform, one behind the other, is not zero. -/
theorem eighth_version_platform {version : String} (h : '\x00' ∉ version.toList) (rest : List UInt8) :
    ((KeyPart.text version).frame ++ ((KeyPart.text platformName).frame ++ rest))[7]? ≠ some 0 := by
  have hnone : 0 ∉ (KeyPart.text version).frame ++ (KeyPart.text platformName).frame := by
    simp only [KeyPart.frame, List.mem_append, List.mem_singleton, not_or]
    exact ⟨⟨zero_not_mem_utf8 h, by decide⟩, zero_not_mem_utf8 (by decide), by decide⟩
  have hlength : 7 < ((KeyPart.text version).frame ++ (KeyPart.text platformName).frame).length := by
    have : (KeyPart.text platformName).frame.length = 13 := by decide
    rw [List.length_append]
    omega
  rw [← List.append_assoc, List.getElem?_append_left hlength]
  exact fun heq => hnone (List.mem_of_getElem? heq)

/-- The stream of a build: that of its sources, and that of what follows them. -/
theorem keyStream_keyParts (sources : List (String × List UInt8)) (compiler version : String)
    (flags : List String) :
    keyStream (keyParts sources compiler version flags) =
      sources.flatMap (fun s => (KeyPart.text s.1).frame ++ (KeyPart.content s.2).frame) ++
        ((KeyPart.text compiler).frame ++ ((KeyPart.text version).frame ++
          ((KeyPart.text platformName).frame ++ keyStream (flags.map .text)))) := by
  simp [keyStream, keyParts, List.flatMap_assoc]

/-- Compilers and versions are no further source. -/
theorem keyStream_ne_of_more {compiler compiler' version version' : String} {flags flags' : List String}
    {first : String × List UInt8} {more : List (String × List UInt8)}
    (hfirst : first.2.length < 2 ^ 56) (hversion : '\x00' ∉ version.toList) :
    keyStream (keyParts [] compiler version flags) ≠
      keyStream (keyParts (first :: more) compiler' version' flags') := by
  intro h
  simp only [keyStream_keyParts, List.flatMap_nil, List.nil_append, List.flatMap_cons,
    List.append_assoc] at h
  obtain ⟨-, h⟩ := frame_text_inj h
  have heighth := eighth_version_platform hversion (keyStream (flags.map .text))
  rw [h, eighth_frame_content hfirst] at heighth
  exact heighth rfl

/-- What a key covers can be read off its stream. -/
theorem keyParts_inj {compiler compiler' version version' : String} {flags flags' : List String}
    {sources sources' : List (String × List UInt8)} (hs : Coverable sources version)
    (hs' : Coverable sources' version')
    (h : keyStream (keyParts sources compiler version flags) =
      keyStream (keyParts sources' compiler' version' flags')) :
    sources = sources' ∧ compiler = compiler' ∧ version = version' ∧ flags = flags' := by
  induction sources generalizing sources' with
  | nil =>
    cases sources' with
    | nil =>
      simp only [keyStream_keyParts, List.flatMap_nil, List.nil_append] at h
      obtain ⟨hcompiler, h⟩ := frame_text_inj h
      obtain ⟨hsame, h⟩ := frame_text_inj h
      exact ⟨rfl, hcompiler, hsame, keyStream_texts_inj (frame_text_inj h).2⟩
    | cons first more =>
      exact absurd h (keyStream_ne_of_more (hs'.contents _ List.mem_cons_self) hs.version)
  | cons source rest ih =>
    cases sources' with
    | nil => exact absurd h.symm (keyStream_ne_of_more (hs.contents _ List.mem_cons_self) hs'.version)
    | cons source' rest' =>
      rw [keyStream_keyParts, keyStream_keyParts, List.flatMap_cons, List.flatMap_cons] at h
      simp only [List.append_assoc] at h
      obtain ⟨hpath, h⟩ := frame_text_inj h
      obtain ⟨hcontent, h⟩ := frame_content_inj (hs.contents _ List.mem_cons_self)
        (hs'.contents _ List.mem_cons_self) h
      rw [← keyStream_keyParts, ← keyStream_keyParts] at h
      obtain ⟨hrest, hothers⟩ := ih ⟨fun s hmem => hs.contents s (.tail _ hmem), hs.version⟩
        ⟨fun s hmem => hs'.contents s (.tail _ hmem), hs'.version⟩ h
      exact ⟨by rw [Prod.ext hpath hcontent, hrest], hothers⟩

/-- Sources with their contents, the compiler, its version and the flags can be read off the stream of a
key. So requests that differ in one of them, or in the order of their sources, never give the same bytes
to the digest, and the key of a request is the digest of just these bytes. -/
theorem keyStream_unambiguous {sources sources' : List (String × List UInt8)}
    {compiler compiler' version version' : String} {flags flags' : List String}
    (hs : Coverable sources version) (hs' : Coverable sources' version') :
    (keyStream (keyParts sources compiler version flags) =
        keyStream (keyParts sources' compiler' version' flags') ↔
      sources = sources' ∧ compiler = compiler' ∧ version = version' ∧ flags = flags') ∧
    (∀ (b b' : Builder) (r r' : BuildRequest) (files files' : Files),
      readSources files r.sources = .ok sources → b.toolchain.version = version →
      readSources files' r'.sources = .ok sources' → b'.toolchain.version = version' →
      (b.keyBytes r files = b'.keyBytes r' files' ↔
        r.sources = r'.sources ∧ sources = sources' ∧ b.toolchain.path = b'.toolchain.path ∧
          version = version' ∧ r.commandFlags b.cflags = r'.commandFlags b'.cflags)) ∧
    ∀ (b : Builder) (r : BuildRequest) (files : Files),
      b.cacheKey r files = (b.keyBytes r files).map fun bytes => keyText (sipHash bytes) := by
  refine ⟨⟨keyParts_inj hs hs', ?_⟩, ?_, cacheKey_eq_keyBytes⟩
  · rintro ⟨rfl, rfl, rfl, rfl⟩
    rfl
  · rintro b b' r r' files files' hread rfl hread' rfl
    rw [keyBytes, hread, keyBytes, hread']
    constructor
    · intro h
      obtain ⟨hsame, hcompiler, hversion, hflags⟩ := keyParts_inj hs hs' (Except.ok.inj h)
      refine ⟨?_, hsame, hcompiler, hversion, hflags⟩
      rw [← paths_readSources hread, ← paths_readSources hread', hsame]
    · rintro ⟨-, rfl, hcompiler, hversion, hflags⟩
      rw [hcompiler, hversion, hflags]

/-- A compiler and a version in place of a second source, the version as long as the length of its
content would be. -/
theorem keyStream_source_or_version :
    Coverable [("k.c", utf8 "int f(void);")] "1234567" ∧
      Coverable [("k.c", utf8 "int f(void);"), ("cc", utf8 "x")] "1.0" ∧
      keyStream (keyParts [("k.c", utf8 "int f(void);")] "cc" "1234567" ["-O2"]) ≠
        keyStream (keyParts [("k.c", utf8 "int f(void);"), ("cc", utf8 "x")] "-O2" "1.0" []) := by
  have hone : Coverable [("k.c", utf8 "int f(void);")] "1234567" := ⟨by decide, by decide⟩
  have htwo : Coverable [("k.c", utf8 "int f(void);"), ("cc", utf8 "x")] "1.0" := ⟨by decide, by decide⟩
  exact ⟨hone, htwo, fun h => absurd ((keyStream_unambiguous hone htwo).1.mp h).1 (by decide)⟩

end Builder

end CBind
