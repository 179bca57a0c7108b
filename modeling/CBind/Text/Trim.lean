import CBind.Text.CharClass

/-!
# Trimming and splitting at blanks

Trimming removes the blanks at both ends of a text and nothing else. Splitting at blanks gives the
maximal runs of other characters, so no piece is empty and no piece holds a blank.
-/

namespace CBind.Text

/-- Drop the leading blanks. -/
def trimStart (cs : List Char) : List Char :=
  cs.dropWhile isBlank

/-- Drop the trailing blanks. -/
def trimEnd (cs : List Char) : List Char :=
  (cs.reverse.dropWhile isBlank).reverse

/-- Drop the blanks at both ends. -/
def trim (cs : List Char) : List Char :=
  trimEnd (trimStart cs)

/-- Trim a string at both ends. -/
def trimText (s : String) : String :=
  String.ofList (trim s.toList)

/-- Decide whether a string holds nothing but blanks. -/
def isBlankText (s : String) : Bool :=
  s.toList.all isBlank

/-- Collect the maximal runs of non-blank characters, given the run that is being read. -/
def wordsFrom (run : List Char) : List Char → List (List Char)
  | [] => if run.isEmpty then [] else [run.reverse]
  | c :: rest =>
    if isBlank c then
      if run.isEmpty then wordsFrom [] rest else run.reverse :: wordsFrom [] rest
    else wordsFrom (c :: run) rest

/-- Split a string into its maximal runs of non-blank characters. -/
def splitBlank (s : String) : List String :=
  (wordsFrom [] s.toList).map String.ofList

/-- Trimming the empty text changes nothing. -/
@[simp]
theorem trim_nil : trim [] = [] := rfl

end CBind.Text
