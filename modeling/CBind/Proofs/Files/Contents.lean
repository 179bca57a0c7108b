import CBind.Files.Contents
import CBind.Proofs.Files.Places
import CBind.Proofs.Text.Encoding
import Mathlib.Data.List.Basic

/-!
# What stands in a folder, and in which order

What a folder holds is told by the names that lead to it, however deep it lies. A folder lists its entries in
some order, and folders that differ in these orders only hold the same.
-/

namespace CBind

open CBind.Text

namespace Contents

/-- The names that a folder lists. -/
def names : Contents → List FileName
  | done => []
  | file name _ rest => name :: rest.names
  | folder name _ rest => name :: rest.names

/-- Put an entry in front of others. -/
def cons (name : FileName) (e : Sight) (rest : Contents) : Contents :=
  match e with
  | .file kind => file name kind rest
  | .folder inside => folder name inside rest

/-- The same entries in another order, all the way down. -/
inductive Reordered : Contents → Contents → Prop
  | done : Reordered done done
  | file {name : FileName} {kind : FileKind} {rest rest' : Contents} (hrest : Reordered rest rest') :
      Reordered (file name kind rest) (file name kind rest')
  | folder {name : FileName} {inside inside' rest rest' : Contents} (hinside : Reordered inside inside')
      (hrest : Reordered rest rest') : Reordered (folder name inside rest) (folder name inside' rest')
  | swap (first second : FileName) (e f : Sight) (rest : Contents) :
      Reordered (cons first e (cons second f rest)) (cons second f (cons first e rest))
  | trans {a b c : Contents} (hab : Reordered a b) (hbc : Reordered b c) : Reordered a c

/-- In another order a folder is seen in another order. -/
theorem Reordered.seenFrom {a b : Contents} (h : a.Reordered b) (p : EntryPath) :
    (a.seenFrom p).Reordered (b.seenFrom p) := by
  have hcons (p : EntryPath) (name : FileName) (e : Sight) : ∃ seen : Sight, ∀ rest : Contents,
      (cons name e rest).seenFrom p = cons name seen (rest.seenFrom p) := by
    cases e with
    | file kind => exact ⟨.file kind, fun rest => rfl⟩
    | folder inside =>
      by_cases hfits : (p.below name).bytes.length ≤ longestPath
      · exact ⟨.folder (inside.seenFrom (p.below name)), fun rest => if_pos hfits⟩
      · exact ⟨.file .unseen, fun rest => if_neg hfits⟩
  induction h generalizing p with
  | done => exact .done
  | file _ ih => exact .file (ih p)
  | folder _ _ ihinside ih =>
    rw [Contents.seenFrom, Contents.seenFrom]
    split
    · exact .folder (ihinside _) (ih p)
    · exact .file (ih p)
  | swap first second e f rest =>
    obtain ⟨seen, hseen⟩ := hcons p first e
    obtain ⟨seen', hseen'⟩ := hcons p second f
    rw [hseen, hseen', hseen', hseen]
    exact .swap first second seen seen' _
  | trans _ _ ihab ihbc => exact (ihab p).trans (ihbc p)

end Contents

/-! ## Paths of entries -/

namespace EntryPath

end EntryPath

namespace Path

/-- The path that texts as names lead to from another path. -/
def below (path : String) (texts : List String) : String :=
  texts.foldl join path

end Path

end CBind
