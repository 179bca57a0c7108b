import CBind.Build.Builder
import CBind.Config
import CBind.Library.Module
import CBind.Source.OfFile

/-!
# The bridge

A bridge takes a C source to callable functions: it reads the source, builds a library from the sources of
a request, loads it, and binds what the library exports. Faults of single functions go into the report of
the module; a fault of the file gives the whole request up.

The reader sees the first source of a request only, so functions of further sources are not bound.
-/

namespace CBind

/-- What a bridge needs of the machine: how programs are started and libraries opened, the time, how long
its clock says that a call lasts, and the number of the process. -/
structure Machine where
  host : Host
  opener : Opener
  now : Nat
  callTime : Span
  process : Nat

/-- What a bridge works on: the files, and its own process. -/
structure World where
  files : Files
  process : Process

/-- Settings with a compiler that answered and the cache it builds into. -/
structure Bridge where
  config : Config
  builder : Builder

namespace Bridge

/-- A bridge with the compiler of the settings. -/
def new (m : Machine) (config : Config) (files : Files) : Except Fault Bridge :=
  (Toolchain.detect m.host files config.compiler).map fun toolchain =>
    { config
      builder :=
        { toolchain
          cache := { root := config.cacheDir }
          cflags := config.cflags
          process := m.process } }

/-- The number of workers of a bridge. -/
def workers (b : Bridge) : Nat :=
  max b.config.workerThreads 1

/-- Load a built library and bind what it exports of a source. -/
def loadArtifact (m : Machine) (source : String) (r : Source.Reading) (a : Artifact) (w : World) :
    Except Fault Module × World :=
  let (loaded, process) :=
    Library.load m.opener a.library (r.descriptors.map (·.name)) w.files w.process
  (loaded.map fun (library, unresolved) => .ofReading source a.cached r library unresolved,
    { w with process })

/-- Read, build, load and bind the sources of a request. -/
def loadRequest (m : Machine) (b : Bridge) (request : BuildRequest) (w : World) :
    Except Fault Module × Bridge × World :=
  match Source.readSourceFile w.files request.source with
  | .error fault => (.error fault, b, w)
  | .ok reading =>
    match b.builder.compile m.host m.now request w.files with
    | (.error fault, builder, files) => (.error fault, { b with builder }, { w with files })
    | (.ok artifact, builder, files) =>
      let (result, w) := loadArtifact m request.source reading artifact { w with files }
      (result, { b with builder }, w)

/-- Read, build, load and bind a single source. -/
def load (m : Machine) (b : Bridge) (source : String) (w : World) :
    Except Fault Module × Bridge × World :=
  b.loadRequest m { source } w

end Bridge

end CBind
