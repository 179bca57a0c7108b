import CBind.Source.Lexer

/-!
# The top-level scan for bodies

Outside all braces the scan collects the tokens of a header until something ends it: a semicolon
outside parentheses, a stray closing brace, a preprocessor line, or the opening brace of a body.
Only the last one lets the header be looked at; the body is then skipped to its closing brace. An
opening brace directly behind `extern "C"` opens no body, so what it holds is scanned too.

The scan keeps a count of open parentheses beside the header. Discarding a header at a stray brace or
at a preprocessor line does not reset the count.
-/

namespace CBind.Source

/-- The state between two tokens of the scan. -/
structure Scan where
  depth : Nat := 0
  parens : Nat := 0
  header : List Placed := []
  headers : List (List Placed) := []
deriving DecidableEq, Repr

/-- Recognize the header of a linkage block: `extern` and a literal. -/
def isLinkageHeader : List Placed → Bool
  | [word, language] => word.token == .ident "extern" && language.token.isLiteral
  | _ => false

namespace Scan

/-- Add a token to the header. -/
def keep (s : Scan) (t : Placed) : Scan :=
  { s with header := s.header ++ [t] }

/-- Drop the header, keeping the counts. -/
def clear (s : Scan) : Scan :=
  { s with header := [] }

/-- Enter a body, handing over the header in front of it. -/
def enterBody (s : Scan) : Scan :=
  { s with depth := 1, header := [], headers := s.headers ++ [s.header] }

/-- Take one token that is not a comment outside all braces. -/
def stepOutside (s : Scan) (t : Placed) : Scan :=
  match t.token with
  | .preprocessor => s.clear
  | .closeBrace => s.clear
  | .semicolon => if s.parens = 0 then s.clear else s.keep t
  | .openBrace =>
    if s.parens = 0 then
      if isLinkageHeader s.header then s.clear else s.enterBody
    else s.keep t
  | .openParen => { s.keep t with parens := s.parens + 1 }
  | .closeParen => { s.keep t with parens := s.parens - 1 }
  | _ => s.keep t

/-- Take one token that is not a comment inside a body: only braces count. -/
def stepInside (s : Scan) (t : Placed) : Scan :=
  match t.token with
  | .openBrace => { s with depth := s.depth + 1 }
  | .closeBrace => { s with depth := s.depth - 1 }
  | _ => s

/-- Take one token; comments are passed over. -/
def step (s : Scan) (t : Placed) : Scan :=
  if t.token.isComment then s
  else if s.depth = 0 then s.stepOutside t
  else s.stepInside t

/-- Take tokens from left to right. -/
def run (s : Scan) (tokens : List Placed) : Scan :=
  tokens.foldl step s

/-- Running over consecutive tokens is running twice. -/
theorem run_append (s : Scan) (a b : List Placed) : s.run (a ++ b) = (s.run a).run b := by
  simp [run]

end Scan

/-- The headers of all top-level brace blocks of a token sequence, in source order. -/
def blockHeaders (tokens : List Placed) : List (List Placed) :=
  (Scan.run {} tokens).headers

end CBind.Source
