/-!
# Paths as texts

A path is kept as the text it was written as, because reports show that text. Its steps are what the
text means: empty pieces and pieces that are a single dot lead nowhere, except for a dot at the very
beginning, which is kept so that a path and the same path behind a dot stay different texts.

Everything here looks at the text alone. What a path leads to is the matter of a file tree.
-/

namespace CBind

/-- One step of a path. -/
inductive PathStep where
  | root
  | here
  | up
  | name (s : List Char)
deriving DecidableEq, Repr

namespace Path

/-- Split a text at its slashes, keeping the empty pieces. -/
def pieces : List Char → List (List Char)
  | [] => [[]]
  | c :: rest =>
    if c == '/' then [] :: pieces rest
    else
      match pieces rest with
      | [] => [[c]]
      | piece :: others => (c :: piece) :: others

/-- The step of a piece that is neither the first nor leads nowhere. -/
def stepOf (piece : List Char) : Option PathStep :=
  if piece == [] || piece == ['.'] then none
  else if piece == ['.', '.'] then some .up
  else some (.name piece)

/-- Whether a path starts at the root. -/
def isAbsolute (path : String) : Bool :=
  path.toList.head? == some '/'

/-- The steps of a path. -/
def steps (path : String) : List PathStep :=
  let all := pieces path.toList
  let first : List PathStep :=
    if isAbsolute path then [.root]
    else if all.head? == some ['.'] then [.here]
    else []
  first ++ all.filterMap stepOf

/-- Whether the end of a path says that it leads to a folder: the last piece leads nowhere or up. -/
def endsAtFolder (path : String) : Bool :=
  match (pieces path.toList).getLast? with
  | some piece => piece == [] || piece == ['.'] || piece == ['.', '.']
  | none => true

/-- Follow a second path from where the first leads. An absolute path leads away from it. -/
def join (base path : String) : String :=
  if isAbsolute path || base.isEmpty then path
  else if base.toList.getLast? == some '/' then base ++ path
  else base ++ "/" ++ path

/-- What a path says in front of its last slash. -/
def parent (path : String) : String :=
  String.ofList ((path.toList.reverse.dropWhile (· != '/')).drop 1).reverse

/-- The name a path ends in, if its last step is a name. -/
def fileName? (path : String) : Option (List Char) :=
  match (steps path).getLast? with
  | some (.name s) => some s
  | _ => none

/-- Split a name in front of the last dot. A dot at the beginning does not count. -/
def splitAtLast {α : Type} [BEq α] (dot : α) (name : List α) : List α × Option (List α) :=
  let tail := (name.reverse.takeWhile (· != dot)).reverse
  if tail.length = name.length then (name, none)
  else
    let stem := name.take (name.length - tail.length - 1)
    if stem.isEmpty then (name, none) else (stem, some tail)

/-- Split a name that is a text in front of its last dot. -/
def splitExtension (name : List Char) : List Char × Option (List Char) :=
  splitAtLast '.' name

/-- The name a path ends in without its extension. -/
def stem? (path : String) : Option (List Char) :=
  (fileName? path).map fun name => (splitExtension name).1

/-- Drop what stands behind the last name of a path: slashes and single dots. -/
def dropTrailing (path : List Char) : List Char :=
  let all := pieces path
  let kept := (all.reverse.dropWhile fun piece => piece == [] || piece == ['.']).reverse
  path.take (kept.foldl (fun total piece => total + piece.length) (kept.length - 1))

/-- Give the name a path ends in another extension. -/
def withExtension (path : String) (extension : String) : String :=
  match fileName? path with
  | none => path
  | some name =>
    let bare := dropTrailing path.toList
    String.ofList (bare.take (bare.length - name.length) ++ (splitExtension name).1) ++ "." ++
      extension

/-- A text has one piece more than slashes. -/
theorem length_pieces (cs : List Char) : (pieces cs).length = cs.count '/' + 1 := by
  induction cs with
  | nil => rfl
  | cons c rest ih =>
    by_cases hc : c = '/'
    · simp [pieces, hc, ih]
    · have hne : pieces rest ≠ [] := by
        intro h
        simp [h] at ih
      obtain ⟨piece, others, hl⟩ := List.exists_cons_of_ne_nil hne
      simp only [hl, List.length_cons] at ih
      simp [pieces, hc, hl, ih]

end Path

end CBind
