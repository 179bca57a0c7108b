import CBind.Files.Tree

/-!
# What a search meets in a folder

The system lists a folder by names that are bytes and need be no texts, and what stands behind a name may be
neither a folder nor a regular file. The trees that builds work in have texts for names and regular files only;
a folder of such a tree is seen as one of the general kind.

An entry is looked at by its path, and a path that is too long for the system leads nowhere: a folder behind
one is not seen to be a folder. There are no links, and all other entries can be looked at.
-/

namespace CBind

/-- The name of an entry. -/
abbrev FileName := List UInt8

/-- What an entry can be that is not seen to be a folder. -/
inductive FileKind where
  | regular
  | pipe
  | socket
  | device
  | unseen
deriving DecidableEq, Repr

/-- What a folder lists, in order, and what stands behind the names. -/
inductive Contents where
  | done
  | file (name : FileName) (kind : FileKind) (rest : Contents)
  | folder (name : FileName) (inside : Contents) (rest : Contents)
deriving DecidableEq, Repr

/-- What is seen at a path or behind a name. -/
inductive Sight where
  | file (kind : FileKind)
  | folder (inside : Contents)
deriving DecidableEq, Repr

/-- The path of an entry: the path that a folder was given by, and the names that lead on from there. -/
structure EntryPath where
  start : String
  names : List FileName := []
deriving DecidableEq, Repr

namespace EntryPath

/-- The path of an entry in a folder. -/
def below (p : EntryPath) (name : FileName) : EntryPath :=
  { p with names := p.names ++ [name] }

/-- What stands in front of a name that is put behind a path: the path, and a slash if it does not end in
one. -/
def front (start : List UInt8) : List UInt8 :=
  if start.isEmpty || start.getLast? == some 0x2f then start else start ++ [0x2f]

/-- The bytes of a path, its names with slashes between them. -/
def bytes (p : EntryPath) : List UInt8 :=
  let start := CBind.Text.utf8 p.start
  if p.names.isEmpty then start else front start ++ [0x2f].intercalate p.names

/-- How a path is shown; what is no text in it is replaced. -/
def display (p : EntryPath) : String :=
  CBind.Text.textOfUtf8Lossy p.bytes

end EntryPath

/-- The bytes of the longest path the system takes. -/
def longestPath : Nat := 4095

namespace Contents

/-- The number of folders in a folder, however deep they lie. -/
def folders : Contents → Nat
  | done => 0
  | file _ _ rest => rest.folders
  | folder _ inside rest => inside.folders + rest.folders + 1

/-- What is seen of a folder by its path: what is behind a path that is too long is not seen to be a folder. -/
def seenFrom : Contents → EntryPath → Contents
  | done, _ => done
  | file name kind rest, p => file name kind (rest.seenFrom p)
  | folder name inside rest, p =>
    if (p.below name).bytes.length ≤ longestPath then
      folder name (inside.seenFrom (p.below name)) (rest.seenFrom p)
    else file name .unseen (rest.seenFrom p)

end Contents

/-- A listing with texts for names and regular files only, as what a folder lists. -/
def Listing.contents : Listing → Contents
  | done => .done
  | file name _ rest => .file (CBind.Text.encodeChars name) .regular rest.contents
  | folder name inside rest => .folder (CBind.Text.encodeChars name) inside.contents rest.contents

/-- What is seen of an entry. -/
def Entry.sight : Entry → Sight
  | file _ => .file .regular
  | folder inside => .folder inside.contents

/-- What is seen at a path. -/
def Files.sight (fs : Files) (path : String) : Except FileFault Sight :=
  if longestPath < (CBind.Text.utf8 path).length then .error .nameTooLong
  else (fs.find path).map Entry.sight

end CBind
