import CBind.Files.Contents
import CBind.Source.OfFile
import CBind.Testing.Outcome

/-!
# Collecting test sources

A path names one source, or a folder whose C files are the sources, however deep they lie. What is no folder
and has the extension of a C file is taken for a C file, whatever it is. Folders are looked through one after
the other, the one met last first. The files made for tests come first, and within each group the paths stand
in their order, so the order in which a folder lists its entries shows nowhere.

All paths that a search finds begin with the path of the folder, so they stand in the order of the names behind
it, and these are compared byte by byte.
-/

namespace CBind

/-- Recognize the name of a file made for tests: a text with a certain end. -/
def isTestFileName (name : FileName) : Bool :=
  (CBind.Text.textOfUtf8? name).any fun text => "_test.c".toList.isSuffixOf text.toList

/-- Recognize the name of a C file: its extension is `c`. -/
def isSourceName (name : FileName) : Bool :=
  (Path.splitAtLast 0x2e name).2 == some [0x63]

/-- Whether names lead to a file made for tests. -/
def isTestPlace (names : List FileName) : Bool :=
  names.getLast?.any isTestFileName

/-- The order of sources below one folder: files made for tests first, then by names. -/
def placeLE (a b : List FileName) : Bool :=
  if isTestPlace a = isTestPlace b then decide (a ≤ b) else isTestPlace a

/-- A search through a folder: the folders that still have to be looked through, each with the names that lead
to it, the last one first, and the places of the C files that were found so far. -/
structure Search where
  pending : List (List FileName × Contents)
  found : List (List FileName) := []

namespace Search

/-- Look through the entries of a folder: folders have to be looked through later, and of all others the C
files are found. -/
def look (s : Search) (above : List FileName) : Contents → Search
  | .done => s
  | .file name _ rest =>
    if isSourceName name then look { s with found := s.found ++ [above ++ [name]] } above rest
    else look s above rest
  | .folder name inside rest => look { s with pending := (above ++ [name], inside) :: s.pending } above rest

/-- The number of folders that are left, those inside of others included. -/
def left (s : Search) : Nat :=
  s.pending.foldr (fun waiting n => waiting.2.folders + 1 + n) 0

/-- One turn of a search: look through the folder that waits last. -/
def turn (s : Search) : Search :=
  match s.pending with
  | [] => s
  | (above, inside) :: pending => look { s with pending } above inside

/-- Looking through a folder leaves the folders in it. -/
theorem left_look (s : Search) (above : List FileName) (l : Contents) :
    (s.look above l).left = s.left + l.folders := by
  induction l generalizing s with
  | done => rfl
  | file name kind rest ih =>
    rw [look]
    split
    · exact ih _
    · exact ih _
  | folder name inside rest _ ih =>
    rw [look, ih]
    simp only [left, Contents.folders, List.foldr_cons]
    omega

/-- A turn leaves one folder less. -/
theorem left_turn {s : Search} (h : s.pending ≠ []) : s.turn.left + 1 = s.left := by
  obtain ⟨⟨above, inside⟩, pending, hpending⟩ := List.exists_cons_of_ne_nil h
  rw [turn, hpending, left_look]
  simp only [left, hpending, List.foldr_cons]
  omega

/-- Search as long as a folder waits. -/
def run (s : Search) : List (List FileName) :=
  if s.pending = [] then s.found else s.turn.run
termination_by s.left
decreasing_by
  have := left_turn ‹s.pending ≠ []›
  omega

end Search

/-- The sources that a path stands for, by what stands there. -/
def sourcesAt (path : String) : Except FileFault Sight → Except Fault (List EntryPath)
  | .error fault => .error (.file path fault.message)
  | .ok (.file .regular) => .ok [⟨path, []⟩]
  | .ok (.file _) => .error (.file path FileFault.notFolder.message)
  | .ok (.folder inside) =>
    let places := Search.run { pending := [([], inside.seenFrom ⟨path, []⟩)] }
    .ok ((places.mergeSort placeLE).map (EntryPath.mk path))

/-- The sources that a path stands for in a tree. -/
def collectSources (files : Files) (path : String) : Except Fault (List String) :=
  (sourcesAt path (files.sight path)).map (·.map EntryPath.display)

namespace Source

/-- Whether a finding has the name of a test. -/
def Finding.namesTest : Finding → Bool
  | .ok d => isTestName d.name
  | .error (.unsupportedType function _ _) => isTestName function
  | .error (.parse (some function) _ _) => isTestName function
  | .error _ => false

end Source

/-- Whether a source may hold tests: something in it is named like one, or it cannot be read. -/
def declaresTests (files : Files) (path : String) : Bool :=
  match Source.readSourceFile files path with
  | .ok reading => reading.findings.any Source.Finding.namesTest
  | .error _ => true

end CBind
