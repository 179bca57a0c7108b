import CBind.Number.Numeral
import CBind.Text.Lines
import CBind.Toml.Scalar

/-!
# Writing TOML texts

A text is written in the plainest of the four styles that can hold it: on one line in quotation marks,
on one line in apostrophes, over several lines in quotation marks, over several lines in apostrophes.
The first and the third are taken only if no backslash has to be written, and a text that fits none
of these is written in quotation marks with backslashes.
-/

namespace CBind.Toml

open CBind.Text

/-- The styles of a text. -/
inductive TextStyle where
  | basic
  | literal
  | blockBasic
  | blockLiteral
deriving DecidableEq, Repr

/-- The length of the longest run of a character, given the length of the run that was just read. -/
def longestRun (mark : Char) (run : Nat) : List Char → Nat
  | [] => run
  | c :: rest => if c == mark then longestRun mark (run + 1) rest else max run (longestRun mark 0 rest)

/-- Recognize the control characters that only an escape can write. -/
def needsEscape (c : Char) : Bool :=
  c != '\n' && !isPlain c

/-- Choose the style of a text. -/
def styleOf (cs : List Char) : TextStyle :=
  let controls := cs.any needsEscape
  let backslash := cs.contains '\\'
  let lines := cs.contains '\n'
  let quotes := longestRun '"' 0 cs
  let apostrophes := longestRun '\'' 0 cs
  if !controls && !backslash && quotes = 0 && !lines then .basic
  else if !controls && apostrophes = 0 && !lines then .literal
  else if !controls && !backslash && quotes ≤ 2 then .blockBasic
  else if !controls && apostrophes ≤ 2 then .blockLiteral
  else if lines then .blockBasic
  else .basic

/-- Write a character as an escape. -/
def escapeOf (c : Char) : List Char :=
  if c == '\x08' then ['\\', 'b']
  else if c == '\t' then ['\\', 't']
  else if c == '\n' then ['\\', 'n']
  else if c == '\x0c' then ['\\', 'f']
  else if c == '\r' then ['\\', 'r']
  else if c == '"' then ['\\', '"']
  else if c == '\\' then ['\\', '\\']
  else ['\\', 'u'] ++ (padZeros 4 (digits 16 c.toNat)).map Char.toUpper

/-- Write the characters of a text in quotation marks. In a block, line feeds stand for themselves,
and so do quotation marks up to two in a row; `run` counts those before the first character. -/
def escapeText (block : Bool) (run : Nat) : List Char → List Char
  | [] => []
  | c :: rest =>
    if c == '"' then
      if block && run < 2 then c :: escapeText block (run + 1) rest
      else escapeOf c ++ escapeText block 0 rest
    else if c == '\n' && block then c :: escapeText block 0 rest
    else if c == '\t' || c == '\\' || c == '\n' || needsEscape c then
      escapeOf c ++ escapeText block 0 rest
    else c :: escapeText block 0 rest

/-- Write a text. A block that holds a line feed starts on a line of its own. -/
def writeText (s : String) : String :=
  let cs := s.toList
  let start := if cs.contains '\n' then "\n" else ""
  match styleOf cs with
  | .basic => "\"" ++ String.ofList (escapeText false 0 cs) ++ "\""
  | .literal => "'" ++ s ++ "'"
  | .blockBasic => "\"\"\"" ++ start ++ String.ofList (escapeText true 0 cs) ++ "\"\"\""
  | .blockLiteral => "'''" ++ start ++ s ++ "'''"

/-- Write a list of texts. -/
def writeTexts (texts : List String) : String :=
  "[" ++ joinWith ", " (texts.map writeText) ++ "]"

/-- Write the assignment of a written value to a key. -/
def writeAssignment (key written : String) : String :=
  key ++ " = " ++ written ++ "\n"

end CBind.Toml
