import CBind.Source.Lexeme
import CBind.Text.Lines

/-!
# From lexemes to placed tokens

Each lexeme other than a blank gives tokens on the line it starts on. A block comment gives one
comment token for every physical line it spans, so that a reader can tell which lines stand directly
above a header.
-/

namespace CBind.Source

open CBind.Text

/-- The text of one line of a block comment, without the blanks and the star that decorate it. -/
def blockLineText (line : List Char) : String :=
  match trim line with
  | '*' :: rest => String.ofList (trim rest)
  | bare => String.ofList bare

/-- Place the lines of a comment one below the other. -/
def placeLines (line : Nat) : List (List Char) → List Placed
  | [] => []
  | text :: rest => ⟨.comment (blockLineText text), line⟩ :: placeLines (line + 1) rest

/-- The tokens of a lexeme that starts on the given line. -/
def Lexeme.tokens (line : Nat) : Lexeme → List Placed
  | blank _ => []
  | lineComment body => [⟨.comment (String.ofList (trim body)), line⟩]
  | blockComment body _ => placeLines line (splitLines body)
  | preprocessor _ => [⟨.preprocessor, line⟩]
  | quoted text => [⟨.literal (String.ofList text), line⟩]
  | name text => [⟨.ident (String.ofList text), line⟩]
  | number text => [⟨.literal (String.ofList text), line⟩]
  | ellipsis => [⟨.ellipsis, line⟩]
  | mark c => [⟨Token.ofChar c, line⟩]

/-- The number of line feeds a lexeme runs over. -/
def Lexeme.lineFeeds (l : Lexeme) : Nat :=
  l.text.count '\n'

/-- The tokens of consecutive lexemes, the first of which starts on the given line. -/
def tokensFrom (line : Nat) : List Lexeme → List Placed
  | [] => []
  | l :: rest => l.tokens line ++ tokensFrom (line + l.lineFeeds) rest

/-- Cut a source text into placed tokens. -/
def tokenize (text : String) : List Placed :=
  tokensFrom 1 (lexemes text.toList)

end CBind.Source
