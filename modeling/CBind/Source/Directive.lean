import CBind.Function.Annotations
import CBind.Text.Trim

/-!
# Directives in comment lines

A comment line is a directive when it starts with `@sync`, `@async` or `@cost` and the word ends
there. `@sync` and `@async` stand alone; `@cost` is followed by `low` or `high`. Every other line is
prose and is passed over, other `@` words included.

Reading a block of lines goes from top to bottom and stops at the first fault: a malformed
directive, or one that contradicts an earlier one.
-/

namespace CBind.Source

open CBind.Text

/-- What is wrong with the directives of a block. -/
inductive DirectiveFault where
  | unexpectedArgument (argument : String) (policy : Policy)
  | conflictingPolicy
  | missingCost
  | invalidCost (value : String)
  | conflictingCost
deriving DecidableEq, Repr

/-- Word a fault for a report. -/
def DirectiveFault.message : DirectiveFault → String
  | unexpectedArgument argument policy =>
    "unexpected argument '" ++ argument ++ "' to @" ++ policy.spelling
  | conflictingPolicy => "conflicting @sync and @async directives"
  | missingCost => "@cost requires 'low' or 'high'"
  | invalidCost value => "invalid @cost value '" ++ value ++ "' (expected low or high)"
  | conflictingCost => "conflicting @cost directives"

/-- The word of a directive. -/
inductive DirectiveWord where
  | policy (p : Policy)
  | cost
deriving DecidableEq, Repr

/-- A directive word with the text that follows it. -/
structure RawDirective where
  word : DirectiveWord
  argument : String
deriving DecidableEq, Repr

/-- The spellings of the directive words. -/
def directiveWords : List (List Char × DirectiveWord) :=
  [("@sync".toList, .policy .sync), ("@async".toList, .policy .async), ("@cost".toList, .cost)]

/-- What follows a leading word in a line, if the line starts with the word and the word ends
there. -/
def afterWord? (word line : List Char) : Option (List Char) :=
  if word.isPrefixOf line then
    let rest := line.drop word.length
    match rest with
    | [] => some []
    | c :: _ => if isWordConstituent c then none else some rest
  else none

/-- Read a comment line as a directive. The argument is all that follows the word, trimmed; a line
whose argument holds a line feed is prose. -/
def rawDirective? (line : String) : Option RawDirective :=
  directiveWords.findSome? fun w =>
    (afterWord? w.1 (trim line.toList)).bind fun rest =>
      let argument := trim rest
      if argument.contains '\n' then none else some ⟨w.2, String.ofList argument⟩

/-- A well-formed directive. -/
inductive Directive where
  | policy (p : Policy)
  | cost (c : Cost)
deriving DecidableEq, Repr

/-- Check the argument of a directive. -/
def RawDirective.check (d : RawDirective) : Except DirectiveFault Directive :=
  match d.word with
  | .policy p => if d.argument == "" then .ok (.policy p) else .error (.unexpectedArgument d.argument p)
  | .cost =>
    if d.argument == "low" then .ok (.cost .low)
    else if d.argument == "high" then .ok (.cost .high)
    else if d.argument == "" then .error .missingCost
    else .error (.invalidCost d.argument)

/-- The directives met so far: at most one policy and one cost. -/
structure Settings where
  policy : Option Policy := none
  cost : Option Cost := none
deriving DecidableEq, Repr

/-- Add a directive to the settings, unless it contradicts them. -/
def Settings.add (s : Settings) : Directive → Except DirectiveFault Settings
  | .policy p =>
    if s.policy.any (· != p) then .error .conflictingPolicy else .ok { s with policy := some p }
  | .cost c =>
    if s.cost.any (· != c) then .error .conflictingCost else .ok { s with cost := some c }

/-- Read the directives of consecutive comment lines into settings. -/
def collectSettings (s : Settings) : List String → Except DirectiveFault Settings
  | [] => .ok s
  | line :: rest =>
    match rawDirective? line with
    | none => collectSettings s rest
    | some raw =>
      match raw.check with
      | .error fault => .error fault
      | .ok directive =>
        match s.add directive with
        | .error fault => .error fault
        | .ok s' => collectSettings s' rest

/-- The annotations that settings stand for, defaults filled in. -/
def Settings.annotations (s : Settings) : Annotations :=
  ⟨s.policy.getD .sync, s.cost.getD .unspecified⟩

/-- Read the annotations off the comment lines above a function, from top to bottom. -/
def readAnnotations (lines : List String) : Except DirectiveFault Annotations :=
  (collectSettings {} lines).map Settings.annotations

end CBind.Source
