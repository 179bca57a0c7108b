import CBind.Source.Token
import CBind.Text.Trim

/-!
# Lexemes: the pieces a source text falls into

A text is cut into lexemes from left to right: blanks, line comments, block comments, preprocessor
runs, quoted literals, words, the ellipsis and single marks. Every lexeme keeps the characters it
took, so the lexemes of a text spell the text again, and tokens are read off the lexemes.

Cutting never fails. A block comment without an end runs to the end of the text, and a literal
without its closing quote ends before the line feed.

A preprocessor run starts at a `#` with nothing but blanks between it and the last line feed; that
line feed may also stand in a block comment or an escaped literal. The run ends before the first
line feed that no backslash directly precedes; what it contains is not looked at, so a comment that
starts in it does not continue behind it.
-/

namespace CBind.Source

open CBind.Text

/-- A maximal piece of source text of one kind. -/
inductive Lexeme where
  | blank (c : Char)
  | lineComment (body : List Char)
  | blockComment (body : List Char) (closed : Bool)
  | preprocessor (text : List Char)
  | quoted (text : List Char)
  | name (text : List Char)
  | number (text : List Char)
  | ellipsis
  | mark (c : Char)
deriving DecidableEq, Repr

/-- The characters that end a block comment, or none for a comment the text's end cut short. -/
def commentEnd : Bool → List Char
  | true => ['*', '/']
  | false => []

/-- The characters a lexeme took from the text. -/
def Lexeme.text : Lexeme → List Char
  | blank c => [c]
  | lineComment body => '/' :: '/' :: body
  | blockComment body closed => '/' :: '*' :: (body ++ commentEnd closed)
  | preprocessor text => text
  | quoted text => text
  | name text => text
  | number text => text
  | ellipsis => ['.', '.', '.']
  | mark c => [c]

/-- Decide whether a character continues a number or a name; only numbers hold points. -/
def continuesWord (inNumber : Bool) (c : Char) : Bool :=
  isLetterOrNumber c || c == '_' || (inNumber && c == '.')

/-- Split off a comment body up to its end mark, and say whether the mark was found. -/
def splitBlockComment : List Char → List Char × Bool × List Char
  | [] => ([], false, [])
  | '*' :: '/' :: rest => ([], true, rest)
  | c :: rest =>
    let r := splitBlockComment rest
    (c :: r.1, r.2.1, r.2.2)

/-- Split off the rest of a preprocessor run, continued lines included. -/
def splitPreprocessor : List Char → List Char × List Char
  | [] => ([], [])
  | '\\' :: '\n' :: rest =>
    let r := splitPreprocessor rest
    ('\\' :: '\n' :: r.1, r.2)
  | '\n' :: rest => ([], '\n' :: rest)
  | c :: rest =>
    let r := splitPreprocessor rest
    (c :: r.1, r.2)

/-- Split off a literal behind its opening quote: up to the closing quote or the line's end, where
a backslash takes the next character with it, a line feed too. -/
def splitQuoted (quote : Char) : List Char → List Char × List Char
  | [] => ([], [])
  | ['\\'] => (['\\'], [])
  | '\\' :: c :: rest =>
    let r := splitQuoted quote rest
    ('\\' :: c :: r.1, r.2)
  | c :: rest =>
    if c == '\n' then ([], c :: rest)
    else if c == quote then ([c], rest)
    else
      let r := splitQuoted quote rest
      (c :: r.1, r.2)

/-- Cut one lexeme off a text that starts with `c`, given whether only blanks came before it since
the last line feed. -/
def nextLexeme (lineStart : Bool) (c : Char) (rest : List Char) : Lexeme × List Char :=
  if isBlank c then (.blank c, rest)
  else if c == '/' && rest.head? == some '/' then
    (.lineComment (rest.tail.takeWhile (· != '\n')), rest.tail.dropWhile (· != '\n'))
  else if c == '/' && rest.head? == some '*' then
    let r := splitBlockComment rest.tail
    (.blockComment r.1 r.2.1, r.2.2)
  else if c == '#' && lineStart then
    let r := splitPreprocessor rest
    (.preprocessor (c :: r.1), r.2)
  else if c == '"' || c == '\'' then
    let r := splitQuoted c rest
    (.quoted (c :: r.1), r.2)
  else if c == '.' && rest.take 2 == ['.', '.'] then (.ellipsis, rest.drop 2)
  else if isLetter c || c == '_' then
    (.name (c :: rest.takeWhile (continuesWord false)), rest.dropWhile (continuesWord false))
  else if isAsciiDigit c then
    (.number (c :: rest.takeWhile (continuesWord true)), rest.dropWhile (continuesWord true))
  else (.mark c, rest)

/-- Whether the text behind a lexeme still is at the start of its line. A blank other than a line
feed keeps what was true before it; any other lexeme ends the start of the line unless it runs
over a line feed itself. -/
def Lexeme.lineStartAfter (lineStart : Bool) : Lexeme → Bool
  | blank c => c == '\n' || lineStart
  | l => l.text.contains '\n'

/-- A block comment body and the text behind it make up the text it was split from. -/
theorem splitBlockComment_append (cs : List Char) :
    (splitBlockComment cs).1 ++ commentEnd (splitBlockComment cs).2.1 ++
      (splitBlockComment cs).2.2 = cs := by
  fun_induction splitBlockComment cs with
  | case1 => rfl
  | case2 rest => rfl
  | case3 c rest h r ih => simpa [r] using ih

/-- A preprocessor run and the text behind it make up the text it was split from. -/
theorem splitPreprocessor_append (cs : List Char) :
    (splitPreprocessor cs).1 ++ (splitPreprocessor cs).2 = cs := by
  fun_induction splitPreprocessor cs with
  | case1 => rfl
  | case2 rest r ih => simpa [r] using ih
  | case3 rest => rfl
  | case4 c rest h1 h2 r ih => simpa [r] using ih

/-- A literal and the text behind it make up the text it was split from. -/
theorem splitQuoted_append (quote : Char) (cs : List Char) :
    (splitQuoted quote cs).1 ++ (splitQuoted quote cs).2 = cs := by
  fun_induction splitQuoted quote cs with
  | case1 => rfl
  | case2 => rfl
  | case3 c rest r ih => simpa [r] using ih
  | case4 c rest h1 h2 h3 => simp
  | case5 c rest h1 h2 h3 h4 => simp
  | case6 c rest h1 h2 h3 h4 r ih => simpa [r] using ih

/-- Cutting a lexeme off loses no character. -/
theorem nextLexeme_append (lineStart : Bool) (c : Char) (rest : List Char) :
    (nextLexeme lineStart c rest).1.text ++ (nextLexeme lineStart c rest).2 = c :: rest := by
  unfold nextLexeme
  split
  · rfl
  split
  · rename_i h
    simp only [Bool.and_eq_true, beq_iff_eq] at h
    obtain ⟨rfl, hr⟩ := h
    cases rest with
    | nil => simp at hr
    | cons d rest => simp at hr; simp [Lexeme.text, hr]
  split
  · rename_i h
    simp only [Bool.and_eq_true, beq_iff_eq] at h
    obtain ⟨rfl, hr⟩ := h
    cases rest with
    | nil => simp at hr
    | cons d rest =>
      simp only [List.head?_cons, Option.some.injEq] at hr
      subst hr
      simpa [Lexeme.text] using splitBlockComment_append rest
  split
  · simpa [Lexeme.text] using splitPreprocessor_append rest
  split
  · simpa [Lexeme.text] using splitQuoted_append c rest
  split
  · rename_i h
    simp only [Bool.and_eq_true, beq_iff_eq] at h
    obtain ⟨rfl, hr⟩ := h
    have := List.take_append_drop 2 rest
    rw [hr] at this
    simpa [Lexeme.text] using this
  split
  · simp [Lexeme.text]
  split
  · simp [Lexeme.text]
  · rfl

/-- A lexeme takes at least one character. -/
theorem text_nextLexeme_ne_nil (lineStart : Bool) (c : Char) (rest : List Char) :
    (nextLexeme lineStart c rest).1.text ≠ [] := by
  unfold nextLexeme
  repeat' split
  all_goals simp [Lexeme.text]

/-- What is left behind a lexeme is shorter. -/
theorem length_nextLexeme_lt (lineStart : Bool) (c : Char) (rest : List Char) :
    (nextLexeme lineStart c rest).2.length < (c :: rest).length := by
  have h := congrArg List.length (nextLexeme_append lineStart c rest)
  have hne := text_nextLexeme_ne_nil lineStart c rest
  have hpos : 0 < (nextLexeme lineStart c rest).1.text.length := List.length_pos_iff.2 hne
  simp only [List.length_append] at h
  omega

/-- Cut a text into its lexemes. -/
def lexemesFrom (lineStart : Bool) : List Char → List Lexeme
  | [] => []
  | c :: rest =>
    let cut := nextLexeme lineStart c rest
    cut.1 :: lexemesFrom (cut.1.lineStartAfter lineStart) cut.2
termination_by cs => cs.length
decreasing_by exact length_nextLexeme_lt lineStart c rest

/-- The lexemes of a whole text. -/
def lexemes (cs : List Char) : List Lexeme :=
  lexemesFrom true cs

/-- The lexemes of a text spell the text. -/
theorem flatMap_text_lexemesFrom (lineStart : Bool) (cs : List Char) :
    (lexemesFrom lineStart cs).flatMap Lexeme.text = cs := by
  fun_induction lexemesFrom lineStart cs with
  | case1 => rfl
  | case2 lineStart c rest cut ih =>
    rw [List.flatMap_cons, ih]
    exact nextLexeme_append lineStart c rest

end CBind.Source
