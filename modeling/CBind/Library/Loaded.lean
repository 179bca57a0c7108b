import CBind.BindReport
import CBind.Files.Tree
import CBind.Native.Process
import CBind.Text.Quoted

/-!
# Loaded libraries

Loading a library maps it into the process and resolves the names it is asked for, once and for all. A
name that does not resolve fails nothing: it is a fault of its own, and the library does without it.

A name may end in a zero character, which is the end mark of names and no part of them. A name with a
zero character elsewhere names nothing.
-/

namespace CBind

open CBind.Text

/-- How files are opened as libraries: the image of a library, or nothing if the file is none. -/
structure Opener where
  image? : String → Files → Option LibraryImage

/-- A loaded library with the names that resolved. -/
structure Library where
  path : String
  symbols : List (String × UInt64)
deriving DecidableEq, Repr

/-- The name that a text asks the loader for. -/
def exportedName? (asked : String) : Option String :=
  let cs := asked.toList
  let name := if cs.getLast? == some '\x00' then cs.dropLast else cs
  if name.isEmpty || name.contains '\x00' then none else some (String.ofList name)

/-- The address of a name among exported ones. -/
def resolve? (exported : List (String × UInt64)) (asked : String) : Option UInt64 :=
  (exportedName? asked).bind fun name => (exported.find? (·.1 == name)).map (·.2)

namespace Library

/-- The address of a name that resolved. -/
def address? (l : Library) (name : String) : Option UInt64 :=
  (l.symbols.find? (·.1 == name)).map (·.2)

/-- Whether a name resolved. -/
def contains (l : Library) (name : String) : Bool :=
  (l.address? name).isSome

/-- The fault of a name that did not resolve. -/
def missing (l : Library) (name : String) : Fault :=
  .symbolNotFound name none l.path

/-- The address of a name, or the fault that it did not resolve. -/
def address (l : Library) (name : String) : Except Fault UInt64 :=
  match l.address? name with
  | some a => .ok a
  | none => .error (l.missing name)

/-- Resolve one more name. -/
def resolve (exported : List (String × UInt64)) (l : Library) (name : String) : Library :=
  if l.contains name then l
  else
    match resolve? exported name with
    | some a => { l with symbols := l.symbols ++ [(name, a)] }
    | none => l

/-- The library at a path with the names among `names` that an export list resolves. -/
def ofExports (path : String) (exported : List (String × UInt64)) (names : List String) : Library :=
  names.foldl (resolve exported) ⟨path, []⟩

/-- The names that resolved, in alphabetical order. -/
def names (l : Library) : List String :=
  (l.symbols.map (·.1)).mergeSort fun a b => !decide (b < a)

/-- Describe a library by its path and the number of its names. -/
def describe (l : Library) : String :=
  "LibraryHandle \x7b path: " ++ quoted l.path ++ ", symbols: " ++ decimal l.symbols.length ++ " \x7d"

/-- Load the library at a path and resolve names. The faults are those of the names that did not
resolve. -/
def load (opener : Opener) (path : String) (names : List String) (files : Files) (p : Process) :
    Except Fault (Library × List Fault) × Process :=
  match opener.image? path files with
  | none => (.error (.load path "the file is no library"), p)
  | some image =>
    let (exported, p) := p.map image
    let library := ofExports path exported names
    let unresolved := names.filter (!library.contains ·)
    (.ok (library, unresolved.map library.missing), p)

end Library

end CBind
