import CBind.Text.Trim

/-!
# Lines of a text

Two ways to cut a text at line feeds. `splitLines` keeps one piece more than there are line feeds,
so the pieces joined by line feeds are the text. `firstLine?` drops a carriage return before the
line feed and has no answer for the empty text.
-/

namespace CBind.Text

/-- Split a text at its line feeds, keeping the empty pieces. -/
def splitLines : List Char → List (List Char)
  | [] => [[]]
  | c :: rest =>
    if c == '\n' then [] :: splitLines rest
    else
      match splitLines rest with
      | [] => [[c]]
      | line :: lines => (c :: line) :: lines

/-- Drop one carriage return at the end of a line. -/
def dropReturn (line : List Char) : List Char :=
  if line.getLast? == some '\r' then line.dropLast else line

/-- The first line of a text without its line end, if the text holds a character at all. -/
def firstLine? (s : String) : Option String :=
  match s.toList with
  | [] => none
  | cs =>
    let line := cs.takeWhile (· != '\n')
    some (String.ofList (if line.length < cs.length then dropReturn line else line))

/-- Join texts with a separator between neighbours. -/
def joinWith (separator : String) : List String → String
  | [] => ""
  | [s] => s
  | s :: rest => s ++ separator ++ joinWith separator rest

/-- A text has one piece more than line feeds. -/
theorem length_splitLines (cs : List Char) :
    (splitLines cs).length = cs.count '\n' + 1 := by
  induction cs with
  | nil => rfl
  | cons c rest ih =>
    by_cases hc : c = '\n'
    · simp [splitLines, hc, ih]
    · have hne : splitLines rest ≠ [] := by
        intro h
        simp [h] at ih
      obtain ⟨line, lines, hl⟩ := List.exists_cons_of_ne_nil hne
      simp only [hl, List.length_cons] at ih
      simp [splitLines, hc, hl, ih]

end CBind.Text
