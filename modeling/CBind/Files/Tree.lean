import CBind.Files.Path
import CBind.Number.Numeral
import CBind.Text.Utf8

/-!
# File trees

A folder is a listing of names, each with a file or a folder behind it, in the order in which the
folder lists them. A file has bytes, and it may be a program: the tree keeps what starting it does.

Operations take paths as texts, resolve them from the root or from the working folder, and answer
with the fault the operating system would name. There are no links, no permissions besides the one to
start a program, and no limits on space. A path that leads up again from a missing folder leads nowhere,
even where folders are made along it.
-/

namespace CBind

/-- Why an operation on files fails. -/
inductive FileFault where
  | notFound
  | denied
  | wrongFormat
  | exists
  | notFolder
  | isFolder
  | nameTooLong
  | nulInName
  | notText
deriving DecidableEq, Repr

/-- Word a file fault. -/
def FileFault.message : FileFault → String
  | notFound => "No such file or directory (os error 2)"
  | wrongFormat => "Exec format error (os error 8)"
  | denied => "Permission denied (os error 13)"
  | .exists => "File exists (os error 17)"
  | notFolder => "Not a directory (os error 20)"
  | isFolder => "Is a directory (os error 21)"
  | nameTooLong => "File name too long (os error 36)"
  | nulInName => "file name contained an unexpected NUL byte"
  | notText => "stream did not contain valid UTF-8"

/-- A program that answers a request for its version, and otherwise logs its arguments, prints, and
writes a fixed text to the file named behind `-o` if it succeeds. -/
structure Script where
  version : String := ""
  versionCode : Nat := 0
  stdout : String := ""
  stderr : String := ""
  code : Nat := 0
  output : String := ""
deriving DecidableEq, Repr

/-- What starting a file does. -/
inductive Runnable where
  | denied
  | wrongFormat
  | script (s : Script)
deriving DecidableEq, Repr

/-- What a file holds. -/
structure FileBody where
  bytes : List UInt8
  runnable : Runnable := .denied
deriving DecidableEq, Repr

/-- The content of a folder: names with files and folders behind them. -/
inductive Listing where
  | done
  | file (name : List Char) (body : FileBody) (rest : Listing)
  | folder (name : List Char) (inside : Listing) (rest : Listing)
deriving DecidableEq, Repr

/-- What stands behind a name. -/
inductive Entry where
  | file (body : FileBody)
  | folder (inside : Listing)
deriving DecidableEq, Repr

namespace Listing

/-- The names of a folder with what stands behind them, in order. -/
def entries : Listing → List (List Char × Entry)
  | done => []
  | file name body rest => (name, .file body) :: rest.entries
  | folder name inside rest => (name, .folder inside) :: rest.entries

/-- What stands behind a name. -/
def get? : Listing → List Char → Option Entry
  | done, _ => none
  | file n body rest, name => if n = name then some (.file body) else rest.get? name
  | folder n inside rest, name => if n = name then some (.folder inside) else rest.get? name

/-- Put an entry in front of a listing. -/
def cons (name : List Char) (e : Entry) (rest : Listing) : Listing :=
  match e with
  | .file body => file name body rest
  | .folder inside => folder name inside rest

/-- Put an entry behind a name, in place of the one that is there or at the end. -/
def put : Listing → List Char → Entry → Listing
  | done, name, e => cons name e done
  | file n body rest, name, e =>
    if n = name then cons name e rest else file n body (rest.put name e)
  | folder n inside rest, name, e =>
    if n = name then cons name e rest else folder n inside (rest.put name e)

/-- Take a name out of a listing. -/
def erase : Listing → List Char → Listing
  | done, _ => done
  | file n body rest, name => if n = name then rest else file n body (rest.erase name)
  | folder n inside rest, name => if n = name then rest else folder n inside (rest.erase name)

/-- Follow names downwards from a folder. -/
def find : Listing → List (List Char) → Except FileFault Entry
  | here, [] => .ok (.folder here)
  | here, name :: names =>
    match here.get? name with
    | none => .error .notFound
    | some (.folder inside) => inside.find names
    | some (.file body) => if names.isEmpty then .ok (.file body) else .error .notFolder

/-- Change the folder that names lead to. -/
def update (change : Listing → Except FileFault Listing) :
    Listing → List (List Char) → Except FileFault Listing
  | here, [] => change here
  | here, name :: names =>
    match here.get? name with
    | none => .error .notFound
    | some (.file _) => .error .notFolder
    | some (.folder inside) =>
      (inside.update change names).map fun changed => here.put name (.folder changed)

/-- Make the folders that names lead through. -/
def makeFolders : Listing → List (List Char) → Except FileFault Listing
  | here, [] => .ok here
  | here, name :: names =>
    match here.get? name with
    | none => (done.makeFolders names).map fun inside => here.put name (.folder inside)
    | some (.folder inside) =>
      (inside.makeFolders names).map fun changed => here.put name (.folder changed)
    | some (.file _) => .error (if names.isEmpty then .exists else .notFolder)

/-- An entry is found under the name it was put behind. -/
@[simp]
theorem get?_cons (name : List Char) (e : Entry) (rest : Listing) (n : List Char) :
    (cons name e rest).get? n = if name = n then some e else rest.get? n := by
  cases e <;> rfl

/-- Putting an entry behind a name changes that name only. -/
@[simp]
theorem get?_put (l : Listing) (name : List Char) (e : Entry) (n : List Char) :
    (l.put name e).get? n = if name = n then some e else l.get? n := by
  induction l with
  | done => simp [put, get?]
  | file m body rest ih =>
    by_cases hm : m = name
    · subst hm
      by_cases hn : m = n <;> simp [put, get?, hn]
    · by_cases hn : m = n
      · subst hn
        simp [put, get?, hm, Ne.symm hm]
      · simp [put, get?, hm, hn, ih]
  | folder m inside rest _ ih =>
    by_cases hm : m = name
    · subst hm
      by_cases hn : m = n <;> simp [put, get?, hn]
    · by_cases hn : m = n
      · subst hn
        simp [put, get?, hm, Ne.symm hm]
      · simp [put, get?, hm, hn, ih]

end Listing

/-- A file tree with a working folder. -/
structure Files where
  root : Listing := .done
  home : List (List Char) := []
deriving DecidableEq, Repr

namespace Files

/-- Follow one step of a path. -/
def follow (fs : Files) (place : List (List Char)) : PathStep → Except FileFault (List (List Char))
  | .root => .ok []
  | .here => .ok place
  | .name s => .ok (place ++ [s])
  | .up =>
    match fs.root.find place with
    | .ok (.folder _) => .ok place.dropLast
    | .ok (.file _) => .error .notFolder
    | .error fault => .error fault

/-- The bytes of the longest name the system takes. -/
def longestName : Nat := 255

/-- The names from the root that a path leads through. -/
def resolve (fs : Files) (path : String) : Except FileFault (List (List Char)) :=
  if path.toList.contains '\x00' then .error .nulInName
  else if path.isEmpty then .error .notFound
  else if (Path.pieces path.toList).any
      fun piece => longestName < (CBind.Text.utf8 (String.ofList piece)).length then
    .error .nameTooLong
  else (Path.steps path).foldlM fs.follow fs.home

/-- What a path leads to. -/
def find (fs : Files) (path : String) : Except FileFault Entry := do
  match ← fs.root.find (← fs.resolve path) with
  | .folder inside => return .folder inside
  | .file body => if Path.endsAtFolder path then throw .notFolder else return .file body

/-- The bytes of a file. -/
def read (fs : Files) (path : String) : Except FileFault (List UInt8) := do
  match ← fs.find path with
  | .folder _ => throw .isFolder
  | .file body => return body.bytes

/-- The text of a file. -/
def readText (fs : Files) (path : String) : Except FileFault String := do
  match CBind.Text.textOfUtf8? (← fs.read path) with
  | some text => return text
  | none => throw .notText

/-- Whether a path leads to a file. -/
def isFile (fs : Files) (path : String) : Bool :=
  match fs.find path with
  | .ok (.file _) => true
  | _ => false

/-- Whether a path leads anywhere. -/
def isPresent (fs : Files) (path : String) : Bool :=
  match fs.find path with
  | .ok _ => true
  | .error _ => false

/-- The entries of a folder, in the order of its listing. -/
def list (fs : Files) (path : String) : Except FileFault (List (List Char × Entry)) := do
  match ← fs.find path with
  | .folder inside => return inside.entries
  | .file _ => throw .notFolder

/-- Change what stands behind the last name of a path. -/
def change (fs : Files) (path : String)
    (f : Listing → List Char → Except FileFault Listing) : Except FileFault Files := do
  let names ← fs.resolve path
  match names.getLast? with
  | none => throw .isFolder
  | some name =>
    let root ← fs.root.update (fun here => f here name) names.dropLast
    return { fs with root }

/-- Put bytes into a file, a new one or the one that is there; a program that is overwritten is no
program any more. -/
def write (fs : Files) (path : String) (bytes : List UInt8) : Except FileFault Files :=
  fs.change path fun here name =>
    match here.get? name with
    | some (.folder _) => .error .isFolder
    | some (.file body) =>
      if Path.endsAtFolder path then .error .notFolder
      else .ok (here.put name (.file ⟨bytes, match body.runnable with
        | .denied => .denied
        | _ => .wrongFormat⟩))
    | none =>
      if Path.endsAtFolder path then .error .isFolder else .ok (here.put name (.file ⟨bytes, .denied⟩))

/-- Make the folder of a path and the folders above it. The path is followed before any folder is made. -/
def makeFolders (fs : Files) (path : String) : Except FileFault Files :=
  if path.isEmpty then .ok fs
  else do
    let root ← fs.root.makeFolders (← fs.resolve path)
    return { fs with root }

/-- Put a program at a path. -/
def install (fs : Files) (path : String) (runnable : Runnable) : Except FileFault Files :=
  fs.change path fun here name => .ok (here.put name (.file ⟨[], runnable⟩))

/-- Remove a file. -/
def removeFile (fs : Files) (path : String) : Except FileFault Files :=
  fs.change path fun here name =>
    match here.get? name with
    | none => .error .notFound
    | some (.folder _) => .error .isFolder
    | some (.file _) => .ok (here.erase name)

/-- Remove a folder with everything in it. -/
def removeFolder (fs : Files) (path : String) : Except FileFault Files :=
  fs.change path fun here name =>
    match here.get? name with
    | none => .error .notFound
    | some (.file _) => .error .notFolder
    | some (.folder _) => .ok (here.erase name)

/-- Remove whatever a path leads to. -/
def remove (fs : Files) (path : String) : Except FileFault Files :=
  match fs.removeFile path with
  | .ok removed => .ok removed
  | .error _ => fs.removeFolder path

/-- Put bytes into a file and make the folders above it. -/
def place (fs : Files) (path : String) (bytes : List UInt8) : Except FileFault Files := do
  (← fs.makeFolders (Path.parent path)).write path bytes

/-- Put a program at a path and make the folders above it. -/
def placeProgram (fs : Files) (path : String) (runnable : Runnable) : Except FileFault Files := do
  (← fs.makeFolders (Path.parent path)).install path runnable

/-- An empty tree with a working folder below the root. -/
def emptyAt (home : String) : Files :=
  ⟨.folder home.toList .done .done, [home.toList]⟩

/-- Rename a file, replacing a file of the new name. -/
def rename (fs : Files) (source target : String) : Except FileFault Files := do
  match ← fs.find source with
  | .folder _ => throw .isFolder
  | .file body =>
    let moved ← fs.change target fun here name =>
      match here.get? name with
      | some (.folder _) => .error .isFolder
      | _ => .ok (here.put name (.file body))
    if (← fs.resolve source) = (← fs.resolve target) then return fs else moved.removeFile source

end Files

end CBind
