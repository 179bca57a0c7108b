import CBind.Files.Tree

/-!
# Starting programs

A host starts a program by name with arguments and says what came of it: the program could not be
started, or it ended with a code, printed texts, and left the files changed. Nothing else of a
program can be seen, so a host is a function.

The script host starts the programs that a file tree keeps. A name without a slash is looked up in the
folders of the search path; programs that the tree does not keep may be given beside it.
-/

namespace CBind

/-- What came of starting a program. -/
inductive Started where
  | failed (fault : FileFault)
  | finished (code : Nat) (stdout stderr : List UInt8) (files : Files)

/-- How programs are started: by name, with arguments, on a file tree. -/
structure Host where
  start : String → List String → Files → Started

/-- The value behind an option among arguments, the last one if the option is repeated. -/
def valueBehind? (option : String) : List String → Option String
  | [] => none
  | [_] => none
  | a :: b :: rest =>
    match valueBehind? option (b :: rest) with
    | some value => some value
    | none => if a == option then some b else none

/-- The log of the programs that a tree keeps. -/
def scriptLog : String := "cc.log"

namespace Script

/-- Add arguments to the log, one on a line. -/
def logArguments (arguments : List String) (files : Files) : Files :=
  let old := match files.read scriptLog with
    | .ok bytes => bytes
    | .error _ => []
  let added := CBind.Text.utf8 (String.join (arguments.map (· ++ "\n")))
  match files.write scriptLog (old ++ added) with
  | .ok files => files
  | .error _ => files

/-- Write the output of a successful run. -/
def writeOutput (s : Script) (arguments : List String) (files : Files) : Files :=
  match valueBehind? "-o" arguments with
  | none => files
  | some path =>
    match files.write path (CBind.Text.utf8 s.output) with
    | .ok files => files
    | .error _ => files

/-- Run a script. -/
def run (s : Script) (arguments : List String) (files : Files) : Started :=
  if arguments == ["--version"] then
    .finished s.versionCode (CBind.Text.utf8 s.version) [] files
  else
    let logged := logArguments arguments files
    .finished s.code (CBind.Text.utf8 s.stdout) (CBind.Text.utf8 s.stderr)
      (if s.code = 0 then s.writeOutput arguments logged else logged)

end Script

/-- Start a file of the tree. -/
def Files.startFile (files : Files) (path : String) (arguments : List String) : Started :=
  match files.find path with
  | .error fault => .failed fault
  | .ok (.folder _) => .failed .denied
  | .ok (.file body) =>
    match body.runnable with
    | .denied => .failed .denied
    | .wrongFormat => .failed .wrongFormat
    | .script s => s.run arguments files

/-- Start the first file of a name in the folders of a search path that may be started. -/
def Files.startNamed (files : Files) (name : String) (arguments : List String) :
    List String → Started
  | [] => .failed .notFound
  | folder :: folders =>
    match files.startFile (Path.join folder name) arguments with
    | .finished code stdout stderr files => .finished code stdout stderr files
    | .failed .notFound => files.startNamed name arguments folders
    | .failed .notFolder => files.startNamed name arguments folders
    | .failed .denied =>
      match files.startNamed name arguments folders with
      | .failed .notFound => .failed .denied
      | started => started
    | .failed fault => .failed fault

/-- The host of a file tree, with a search path and programs that the tree does not keep. -/
def Host.ofTree (searchPath : List String)
    (installed : String → Option (List String → Files → Started) := fun _ => none) : Host where
  start program arguments files :=
    if (program :: arguments).any (·.toList.contains '\x00') then .failed .nulInName
    else if program.isEmpty then .failed .notFound
    else if program.toList.contains '/' then files.startFile program arguments
    else
      match installed program with
      | some run => run arguments files
      | none => files.startNamed program arguments searchPath

end CBind
