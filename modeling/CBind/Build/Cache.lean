import CBind.Build.CacheRecord
import CBind.Digest.KeyStream
import CBind.Fault
import CBind.Files.Tree

/-!
# The artifact cache

A cache is a folder with one folder for each key, in which the library and its record stand. An entry
counts once it has a record. A process remembers where it found the library of a key, and trusts that
as long as something is there.

Nothing here decides what goes into a key.
-/

namespace CBind

/-- A cache as one process sees it: its folder, and where libraries were found before. -/
structure Cache where
  root : String
  memo : List (String × String) := []
deriving DecidableEq, Repr

/-- How full a cache is. -/
structure CacheStatus where
  entries : Nat
  bytes : Nat
deriving DecidableEq, Repr

/-- The name of the record of an entry. -/
def recordName : String := "meta.toml"

namespace Cache

/-- The folder of a key. -/
def entryDir (c : Cache) (key : String) : String :=
  Path.join c.root key

/-- The record of a key. -/
def recordPath (c : Cache) (key : String) : String :=
  Path.join (c.entryDir key) recordName

/-- Where the library of a key was found before. -/
def remembered? (c : Cache) (key : String) : Option String :=
  (c.memo.find? (·.1 == key)).map (·.2)

/-- Remember where the library of a key is. -/
def remember (c : Cache) (key library : String) : Cache :=
  { c with memo := (key, library) :: c.memo.filter (·.1 != key) }

/-- Note the time of an access in a record of a format, if the record can be read and written. -/
def touchAs (format : RecordFormat) (now : Nat) (recordPath : String) (files : Files) : Files :=
  match files.readText recordPath with
  | .error _ => files
  | .ok text =>
    match (format.read? text).bind fun r => format.write? { r with lastAccessAt := now } with
    | none => files
    | some text =>
      match files.write recordPath (CBind.Text.utf8 text) with
      | .ok files => files
      | .error _ => files

/-- Note the time of an access in a record, if the record can be read and written. -/
def touch (now : Nat) (recordPath : String) (files : Files) : Files :=
  touchAs .settings now recordPath files

/-- Whether the folder of a key holds a library of a name and a record. -/
def holds (c : Cache) (key libraryName : String) (files : Files) : Bool :=
  files.isFile (Path.join (c.entryDir key) libraryName) && files.isFile (c.recordPath key)

/-- Look for the library of a key. A remembered place that is still there is the answer, whatever
library is asked for. -/
def lookup (now : Nat) (c : Cache) (key libraryName : String) (files : Files) :
    Option String × Cache × Files :=
  match (c.remembered? key).filter files.isPresent with
  | some path => (some path, c, files)
  | none =>
    if c.holds key libraryName files then
      let library := Path.join (c.entryDir key) libraryName
      (some library, c.remember key library, touch now (c.recordPath key) files)
    else (none, c, files)

/-- Write the record of an entry in a format and remember its library. -/
def recordAs (format : RecordFormat) (c : Cache) (r : CacheRecord) (files : Files) :
    Except Fault Cache × Files :=
  match format.write? r with
  | none => (.error (.config "a time does not fit"), files)
  | some text =>
    match files.write (c.recordPath r.key) (CBind.Text.utf8 text) with
    | .error fault => (.error (.file (c.recordPath r.key) fault.message), files)
    | .ok files => (.ok (c.remember r.key r.library), files)

/-- Write the record of an entry and remember its library. -/
def record (c : Cache) (r : CacheRecord) (files : Files) : Except Fault Cache × Files :=
  recordAs .settings c r files

/-- Read the record of a key. -/
def readRecord? (c : Cache) (key : String) (files : Files) : Option CacheRecord :=
  match files.readText (c.recordPath key) with
  | .ok text => CacheRecord.read? text
  | .error _ => none

/-- The folders of the entries that have a record. A cache without a folder has none. -/
def entries (c : Cache) (files : Files) : Except Fault (List String) :=
  match files.list c.root with
  | .error .notFound => .ok []
  | .error fault => .error (.file c.root fault.message)
  | .ok found =>
    .ok ((found.map fun (name, _) => Path.join c.root (String.ofList name)).filter fun folder =>
      files.isFile (Path.join folder recordName))

/-- The bytes of the files that stand directly in a folder. -/
def folderBytes (files : Files) (folder : String) : Nat :=
  match files.list folder with
  | .error _ => 0
  | .ok found => found.foldl (fun total (_, e) =>
      match e with
      | .file body => total + body.bytes.length
      | .folder _ => total) 0

/-- Count the entries and their bytes. -/
def status (c : Cache) (files : Files) : Except Fault CacheStatus :=
  (c.entries files).map fun folders =>
    ⟨folders.length, folders.foldl (fun total folder => total + folderBytes files folder) 0⟩

/-- Remove entries one after the other; the first that cannot be removed ends the work. -/
def removeEntries : List String → Files → Except Fault Unit × Files
  | [], files => (.ok (), files)
  | folder :: folders, files =>
    match files.removeFolder folder with
    | .error fault => (.error (.file folder fault.message), files)
    | .ok files => removeEntries folders files

/-- Remove all entries and forget where libraries were; the answer is how many were removed. -/
def clean (c : Cache) (files : Files) : Except Fault (Nat × Cache) × Files :=
  match c.entries files with
  | .error fault => (.error fault, files)
  | .ok folders =>
    let (result, files) := removeEntries folders files
    (result.map fun _ => (folders.length, { c with memo := [] }), files)

end Cache

end CBind
