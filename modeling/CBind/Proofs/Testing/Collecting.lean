import CBind.Proofs.Files.Contents
import CBind.Testing.Collect
import Mathlib.Data.List.Nodup
import Mathlib.Data.List.Perm.Basic
import Mathlib.Logic.Function.Iterate

/-!
# Which sources a folder stands for

A search keeps the folders that it still has to look through, and the C files that it has found. Whatever it
has done, the files that it has found and those in the folders that wait are the C files of the whole folder.
Each turn leaves one folder less, so the search ends, and then it has found them all.

What was found is sorted. Different files have different places, so of two of them one comes first, and the
order in which folders list their entries decides nothing.

Nothing asks what a C file is besides that it is no folder, so a pipe can be one; and only a name that is a text
can be that of a file made for tests.
-/

namespace CBind

open CBind.Text

namespace Contents

/-- The places of the C files in a folder, each by the names that lead to it. -/
def sourcePlaces : Contents → List (List FileName)
  | done => []
  | file name _ rest => if isSourceName name then [name] :: rest.sourcePlaces else rest.sourcePlaces
  | folder name inside rest => inside.sourcePlaces.map (name :: ·) ++ rest.sourcePlaces

variable {l : Contents} {names : List FileName}

end Contents

/-! ## The search -/

namespace Search

/-- The places of the C files that a search has found or that lie in the folders that wait. -/
def sources (s : Search) : List (List FileName) :=
  s.found ++ s.pending.flatMap fun waiting => waiting.2.sourcePlaces.map (waiting.1 ++ ·)

end Search

/-! ## Collecting -/

namespace MixedFolder

/-- A folder that lists its entries in one of two orders. -/
def tree (testsFirst : Bool) : Contents :=
  let others : Contents :=
    .folder (utf8 "x.c") (.file (utf8 "c.c") .regular .done) (.file (utf8 ".c") .regular
      (.file (utf8 "p.c") .pipe .done))
  if testsFirst then .file (utf8 "a_test.c") .regular (.file (utf8 "a.c") .regular others)
  else .file (utf8 "a.c") .regular (.file (utf8 "a_test.c") .regular others)

/-- The places of the C files, as they are sorted. -/
def places : List (List FileName) :=
  [["a_test.c"], ["a.c"], ["p.c"], ["x.c", "c.c"]].map (·.map utf8)

/-- A folder with a C file in a folder. -/
def nested : Contents :=
  .folder (utf8 "sub") (.file (utf8 "a.c") .regular .done) .done

end MixedFolder

end CBind
