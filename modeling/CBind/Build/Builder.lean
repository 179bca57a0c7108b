import CBind.Build.Cache
import CBind.Build.Toolchain

/-!
# Building through the cache

The key of a build covers the path and the content of each source, the compiler and its version, the
platform and the flags, in this order. Files that sources include are not part of it. A build whose
key is in the cache is served from there; any other is made and recorded.

A build that fails leaves no library and no record, but it does leave the folder of its key.
-/

namespace CBind

open Digest

/-- The platform that libraries are built for. -/
def platformName : String := "linux-x86_64"

/-- A compiler with a cache and the flags of every build, in one process. -/
structure Builder where
  toolchain : Toolchain
  cache : Cache
  cflags : List String
  process : Nat := 1
  builds : Nat := 0
deriving DecidableEq, Repr

/-- A library that was built or found. -/
structure Artifact where
  library : String
  key : String
  cached : Bool
deriving DecidableEq, Repr

namespace Builder

/-- Read the sources of a build, up to the first that cannot be read. -/
def readSources (files : Files) : List String → Except Fault (List (String × List UInt8))
  | [] => .ok []
  | path :: paths =>
    match files.read path with
    | .error fault => .error (.file path fault.message)
    | .ok bytes => (readSources files paths).map ((path, bytes) :: ·)

/-- The parts of the key of a build. -/
def keyParts (sources : List (String × List UInt8)) (compiler version : String)
    (flags : List String) : List KeyPart :=
  sources.flatMap (fun (path, bytes) => [.text path, .content bytes]) ++
    [.text compiler, .text version, .text platformName] ++ flags.map .text

/-- The key of a build. -/
def cacheKey (b : Builder) (r : BuildRequest) (files : Files) : Except Fault String :=
  (readSources files r.sources).map fun sources =>
    keyOf (keyParts sources b.toolchain.path b.toolchain.version (r.commandFlags b.cflags))

/-- The record of a build. -/
def recordOf (b : Builder) (r : BuildRequest) (key library : String) (now : Nat) : CacheRecord :=
  { key
    sourcePath := r.source
    library
    compiler := b.toolchain.path
    compilerVersion := b.toolchain.version
    flags := r.commandFlags b.cflags
    platform := platformName
    createdAt := now
    lastAccessAt := now }

/-- Make a library that is not in the cache. -/
def make (host : Host) (now : Nat) (b : Builder) (r : BuildRequest) (key : String) (files : Files) :
    Except Fault Artifact × Builder × Files :=
  let folder := b.cache.entryDir key
  match files.makeFolders folder with
  | .error fault => (.error (.file folder fault.message), b, files)
  | .ok files =>
    let library := Path.join folder (sharedLibraryName r.stem)
    let next : Builder := { b with builds := b.builds + 1 }
    match b.toolchain.buildShared host ⟨b.process, b.builds⟩ r b.cflags library files with
    | (.error fault, files) => (.error fault, next, files)
    | (.ok _, files) =>
      match b.cache.record (b.recordOf r key library now) files with
      | (.error fault, files) => (.error fault, next, files)
      | (.ok cache, files) => (.ok ⟨library, key, false⟩, { next with cache }, files)

/-- Build a library, or find it in the cache. -/
def compile (host : Host) (now : Nat) (b : Builder) (r : BuildRequest) (files : Files) :
    Except Fault Artifact × Builder × Files :=
  match b.cacheKey r files with
  | .error fault => (.error fault, b, files)
  | .ok key =>
    match b.cache.lookup now key (sharedLibraryName r.stem) files with
    | (some library, cache, files) => (.ok ⟨library, key, true⟩, { b with cache }, files)
    | (none, cache, files) => make host now { b with cache } r key files

end Builder

end CBind
