/-!
# Tokens of a C source

A token keeps only what finding function definitions needs: identifiers by name, literals by their
opaque spelling, the punctuation that shapes a header, and any other character on its own. Comments
keep their text without delimiters, one token for each physical line; a preprocessor line is one
token without text.
-/

namespace CBind.Source

/-- A token of the restricted view of C that the header scan works on. -/
inductive Token where
  | ident (name : String)
  | literal (text : String)
  | openParen
  | closeParen
  | openBrace
  | closeBrace
  | openBracket
  | closeBracket
  | star
  | comma
  | semicolon
  | equals
  | ellipsis
  | mark (c : Char)
  | comment (text : String)
  | preprocessor
deriving DecidableEq, Repr

namespace Token

/-- Spell a token the way reports show it. -/
def spelling : Token → String
  | ident name => name
  | literal text => text
  | openParen => "("
  | closeParen => ")"
  | openBrace => "\x7b"
  | closeBrace => "\x7d"
  | openBracket => "["
  | closeBracket => "]"
  | star => "*"
  | comma => ","
  | semicolon => ";"
  | equals => "="
  | ellipsis => "..."
  | mark c => String.singleton c
  | comment text => "// " ++ text
  | preprocessor => "#"

/-- The name of an identifier, and nothing for any other token. -/
def name? : Token → Option String
  | ident name => some name
  | _ => none

/-- Recognize a comment line. -/
def isComment : Token → Bool
  | comment _ => true
  | _ => false

/-- Recognize the tokens that are not code: comments and preprocessor lines. -/
def isTrivia : Token → Bool
  | comment _ => true
  | preprocessor => true
  | _ => false

/-- Recognize a number, string or character literal. -/
def isLiteral : Token → Bool
  | literal _ => true
  | _ => false

/-- The token that a single character stands for when it starts no longer token. -/
def ofChar : Char → Token
  | '(' => openParen
  | ')' => closeParen
  | '\x7b' => openBrace
  | '\x7d' => closeBrace
  | '[' => openBracket
  | ']' => closeBracket
  | '*' => star
  | ',' => comma
  | ';' => semicolon
  | '=' => equals
  | c => mark c

/-- A one-character token is spelled as its character. -/
theorem spelling_ofChar (c : Char) : (ofChar c).spelling = String.singleton c := by
  unfold ofChar
  split <;> rfl

/-- A one-character token is code. -/
theorem isTrivia_ofChar (c : Char) : (ofChar c).isTrivia = false := by
  unfold ofChar
  split <;> rfl

end Token

/-- A token and the line it starts on, counted from one. -/
structure Placed where
  token : Token
  line : Nat
deriving DecidableEq, Repr

end CBind.Source
