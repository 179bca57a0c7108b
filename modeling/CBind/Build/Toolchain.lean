import CBind.Build.Host
import CBind.Build.Request
import CBind.Fault
import CBind.Text.Trim

/-!
# C compilers

A compiler is a program that answers a request for its version. It is the configured one, or the first
of a few candidates that answers.

A shared library is written under a temporary name beside its place and renamed into it, so the place
never holds a library that is not complete. The temporary name carries the number of the process and
the number of the build in it, so no two builds share one.
-/

namespace CBind

open CBind.Text

/-- The makers of compilers. -/
inductive Vendor where
  | gcc
  | clang
  | unknown
deriving DecidableEq, Repr

/-- Name a vendor in reports. -/
def Vendor.spelling : Vendor → String
  | gcc => "gcc"
  | clang => "clang"
  | unknown => "unknown"

/-- Decide whether a text occurs in another. -/
def occursIn (piece : List Char) : List Char → Bool
  | [] => piece.isEmpty
  | c :: rest => piece.isPrefixOf (c :: rest) || occursIn piece rest

/-- Tell the vendor from what a compiler says about itself, letters of either case counting alike. -/
def Vendor.ofVersionText (text : String) : Vendor :=
  let lower := text.toList.map Char.toLower
  if occursIn "clang".toList lower then .clang
  else if occursIn "gcc".toList lower || occursIn "free software foundation".toList lower then .gcc
  else .unknown

/-- A compiler that answered. -/
structure Toolchain where
  path : String
  vendor : Vendor
  version : String
deriving DecidableEq, Repr

namespace Toolchain

/-- The compilers that are tried if none is configured. -/
def candidates : List String := ["cc", "clang", "gcc"]

/-- Ask a program for its version; a program that does not answer is no compiler. -/
def probe (host : Host) (files : Files) (path : String) : Option Toolchain :=
  match host.start path ["--version"] files with
  | .failed _ => none
  | .finished code stdout _ _ =>
    if code = 0 then
      let text := textOfUtf8Lossy stdout
      some ⟨path, Vendor.ofVersionText text, trimText ((firstLine? text).getD "")⟩
    else none

/-- Find the compiler to use. -/
def detect (host : Host) (files : Files) (configured : Option String) : Except Fault Toolchain :=
  match configured with
  | some path =>
    match probe host files path with
    | some t => .ok t
    | none =>
      .error (.toolchain ("configured C compiler '" ++ path ++ "' did not respond to --version"))
  | none =>
    match candidates.findSome? (probe host files) with
    | some t => .ok t
    | none =>
      .error (.toolchain ("no C compiler found (tried " ++ joinWith ", " candidates ++
        "); set CC or \x60compiler\x60 in the config"))

/-- The fault of a compiler that could not be started. -/
def startFault (t : Toolchain) (fault : FileFault) : Fault :=
  .toolchain ("failed to run " ++ t.path ++ ": " ++
    match fault with
    | .nulInName => "nul byte found in provided data"
    | _ => fault.message)

/-- Remove a file if it is there. -/
def discard (path : String) (files : Files) : Files :=
  match files.removeFile path with
  | .ok files => files
  | .error _ => files

/-- A program that does nothing. -/
def trivialProgram : String := "int main(void) \x7b return 0; \x7d\n"

/-- Build a trivial program in a scratch folder, to see whether the compiler works at all. Source and
program are removed again. -/
def sanityCheck (host : Host) (t : Toolchain) (process : Nat) (scratch : String) (files : Files) :
    Except Fault Unit × Files :=
  match files.makeFolders scratch with
  | .error fault => (.error (.file scratch fault.message), files)
  | .ok made =>
    let source := Path.join scratch ("sanity-" ++ decimal process ++ ".c")
    let binary := Path.join scratch ("sanity-" ++ decimal process ++ ".out")
    match made.write source (utf8 trivialProgram) with
    | .error fault => (.error (.file source fault.message), made)
    | .ok written =>
      let cleanUp (files : Files) : Files := discard binary (discard source files)
      match host.start t.path [source, "-o", binary] written with
      | .failed fault => (.error (t.startFault fault), cleanUp written)
      | .finished code _ stderr files =>
        (if code = 0 then .ok ()
          else .error (.toolchain (t.path ++ " cannot build a trivial program:\n" ++
            textOfUtf8Lossy stderr)), cleanUp files)

/-- A build among all builds: the number of its process, and its number in the process. -/
structure Ticket where
  process : Nat
  number : Nat
deriving DecidableEq, Repr

/-- The temporary name beside the place of a library. -/
def temporaryName (ticket : Ticket) (output : String) : String :=
  Path.withExtension output ("tmp-" ++ decimal ticket.process ++ "-" ++ decimal ticket.number)

/-- The command line of a build into a file. -/
def buildArguments (r : BuildRequest) (base : List String) (file : String) : List String :=
  r.sources ++ ["-shared", "-fPIC", "-o", file] ++ r.commandFlags base

/-- What a compiler that failed has to say: its error output, or its standard output if the first is
blank. -/
def diagnosticOf (stdout stderr : List UInt8) : String :=
  let text := textOfUtf8Lossy stderr
  if isBlankText text then textOfUtf8Lossy stdout else text

/-- Build a shared library. -/
def buildShared (host : Host) (t : Toolchain) (ticket : Ticket) (r : BuildRequest)
    (base : List String) (output : String) (files : Files) : Except Fault Unit × Files :=
  let temporary := temporaryName ticket output
  match host.start t.path (buildArguments r base temporary) files with
  | .failed fault => (.error (t.startFault fault), files)
  | .finished code stdout stderr files =>
    if code = 0 then
      match files.rename temporary output with
      | .ok files => (.ok (), files)
      | .error fault => (.error (.file output fault.message), files)
    else (.error (.compile r.source (diagnosticOf stdout stderr)), discard temporary files)

end Toolchain

end CBind
