import CBind.CommandLine.Run
import CBind.Sample.Compiler

/-!
# The command line as a program

The program reads the settings file and the files that its words name, runs the words on them, and prints.

It starts no other program and opens no libraries: the compiler is the one for samples, and the samples lie
at their paths unless the disk has a file there. Folders are not read, so a folder of tests is one of the
samples. What a command writes is gone when the program ends.
-/

namespace CBind.CommandLine

/-- The variables that a run looks at. -/
def variableNames : List String :=
  ["XDG_CACHE_HOME", "HOME", "TMPDIR", "CC", "NATIVEBRIDGE_CACHE_DIR", "NATIVEBRIDGE_CFLAGS",
    "NATIVEBRIDGE_WORKERS"]

/-- The machine of the program. -/
def sampleMachine : Machine where
  host := .ofTree [] Sample.installed
  opener := Sample.opener
  now := 0
  callTime := ⟨1000⟩
  process := 1

/-- The process code that stands for an end: a signal counts from 128 on. -/
def exitCode : ProcessEnd → UInt32
  | .exited n => UInt32.ofNat n
  | .killed signal => UInt32.ofNat (128 + signal.toNat)

/-- Read the variables that are set. -/
def readVariables : IO (List (String × String)) :=
  variableNames.filterMapM fun name => return (← IO.getEnv name).map (name, ·)

/-- Read a file of the disk into a tree, if there is one. -/
def readInto (files : Files) (path : String) : IO Files := do
  try
    let bytes ← IO.FS.readBinFile path
    return (files.place path bytes.toList).toOption.getD files
  catch _ => return files

end CBind.CommandLine

open CBind CBind.CommandLine

/-- Run the words of the command line. -/
def main (words : List String) : IO UInt32 := do
  let values ← readVariables
  let files ← (settingsFile :: words).foldlM readInto (Sample.install (.emptyAt "work"))
  let (how, shell) := run sampleMachine { values } words files
  IO.print shell.stdout
  IO.eprint shell.stderr
  return exitCode how
