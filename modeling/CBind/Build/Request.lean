import CBind.Files.Path

/-!
# Build requests

What to build into one shared library: a source that names the library, further sources, and what goes
onto the command line behind them.
-/

namespace CBind

/-- A request to build a shared library. -/
structure BuildRequest where
  source : String
  extraSources : List String := []
  includeDirs : List String := []
  libraryDirs : List String := []
  libraries : List String := []
  flags : List String := []
deriving DecidableEq, Repr

namespace BuildRequest

/-- The sources, the one that names the library first. -/
def sources (r : BuildRequest) : List String :=
  r.source :: r.extraSources

/-- What follows the sources and the output on the command line: include folders, the flags of every
build, the flags of this one, library folders, libraries. -/
def commandFlags (r : BuildRequest) (base : List String) : List String :=
  r.includeDirs.map ("-I" ++ ·) ++ base ++ r.flags ++ r.libraryDirs.map ("-L" ++ ·) ++
    r.libraries.map ("-l" ++ ·)

/-- The name that the first source gives the library. -/
def stem (r : BuildRequest) : String :=
  match Path.stem? r.source with
  | some s => String.ofList s
  | none => "module"

end BuildRequest

/-- The file name of the shared library of a stem. -/
def sharedLibraryName (stem : String) : String :=
  "lib" ++ stem ++ ".so"

end CBind
