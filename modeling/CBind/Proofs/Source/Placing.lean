import CBind.Source.Lexer

/-!
# On which lines tokens stand

The tokens of consecutive lexemes stand on the lines between the one the first lexeme starts on and
the one the last lexeme ends on. Where counting starts moves all of them alike, and the lexemes of a
text run over as many line feeds as the text has.
-/

namespace CBind.Source

open CBind.Text

/-- A token a number of lines further down. -/
def Placed.below (n : Nat) (t : Placed) : Placed :=
  { t with line := t.line + n }

/-- The number of line feeds that lexemes run over. -/
def lineFeedsOf (ls : List Lexeme) : Nat :=
  (ls.flatMap Lexeme.text).count '\n'

/-- Line feeds of a lexeme in front of others. -/
theorem lineFeedsOf_cons (l : Lexeme) (ls : List Lexeme) :
    lineFeedsOf (l :: ls) = l.lineFeeds + lineFeedsOf ls := by
  simp [lineFeedsOf, Lexeme.lineFeeds]

/-- The lexemes of a text run over the line feeds of the text. -/
theorem lineFeedsOf_lexemesFrom (lineStart : Bool) (cs : List Char) :
    lineFeedsOf (lexemesFrom lineStart cs) = cs.count '\n' := by
  rw [lineFeedsOf, flatMap_text_lexemesFrom]

/-- The tokens of lexemes in front of others. -/
theorem tokensFrom_append (line : Nat) (a b : List Lexeme) :
    tokensFrom line (a ++ b) = tokensFrom line a ++ tokensFrom (line + lineFeedsOf a) b := by
  induction a generalizing line with
  | nil => simp [tokensFrom, lineFeedsOf]
  | cons l a ih =>
    rw [List.cons_append, tokensFrom, ih, tokensFrom, lineFeedsOf_cons, List.append_assoc,
      Nat.add_assoc]

/-- Lines of a comment that start further down. -/
theorem placeLines_add (line n : Nat) (texts : List (List Char)) :
    placeLines (line + n) texts = (placeLines line texts).map (Placed.below n) := by
  induction texts generalizing line with
  | nil => rfl
  | cons text texts ih =>
    have h := ih (line + 1)
    rw [show line + 1 + n = line + n + 1 by omega] at h
    simp [placeLines, h, Placed.below]

/-- The tokens of a lexeme that starts further down stand further down. -/
theorem Lexeme.tokens_add (line n : Nat) (l : Lexeme) :
    l.tokens (line + n) = (l.tokens line).map (Placed.below n) := by
  cases l with
  | blockComment body closed => exact placeLines_add line n _
  | _ => rfl

/-- The tokens of lexemes that start further down stand further down. -/
theorem tokensFrom_add (line n : Nat) (ls : List Lexeme) :
    tokensFrom (line + n) ls = (tokensFrom line ls).map (Placed.below n) := by
  induction ls generalizing line with
  | nil => rfl
  | cons l ls ih =>
    have h := ih (line + l.lineFeeds)
    rw [show line + l.lineFeeds + n = line + n + l.lineFeeds by omega] at h
    rw [tokensFrom, tokensFrom, List.map_append, h, Lexeme.tokens_add]

/-- The lines of a comment stand one below the other. -/
theorem line_of_mem_placeLines {line : Nat} {texts : List (List Char)} {t : Placed}
    (h : t ∈ placeLines line texts) : line ≤ t.line ∧ t.line < line + texts.length := by
  induction texts generalizing line with
  | nil => simp [placeLines] at h
  | cons text texts ih =>
    rcases List.mem_cons.mp h with rfl | h
    · simp
    · have := ih h
      simp only [List.length_cons]
      omega

/-- The tokens of a lexeme stand on the lines it spans. -/
theorem Lexeme.line_of_mem_tokens {line : Nat} {l : Lexeme} {t : Placed} (h : t ∈ l.tokens line) :
    line ≤ t.line ∧ t.line ≤ line + l.lineFeeds := by
  cases l with
  | blank c => simp [tokens] at h
  | blockComment body closed =>
    have hline := line_of_mem_placeLines h
    rw [length_splitLines] at hline
    have hcount : body.count '\n' ≤ (blockComment body closed).lineFeeds := by
      simp [lineFeeds, text, List.count_append]
    omega
  | _ =>
    simp only [tokens, List.mem_singleton] at h
    subst h
    exact ⟨Nat.le_refl _, Nat.le_add_right _ _⟩

/-- Tokens stand on the lines that their lexemes span. -/
theorem line_of_mem_tokensFrom {line : Nat} {ls : List Lexeme} {t : Placed}
    (h : t ∈ tokensFrom line ls) : line ≤ t.line ∧ t.line ≤ line + lineFeedsOf ls := by
  induction ls generalizing line with
  | nil => simp [tokensFrom] at h
  | cons l ls ih =>
    rw [lineFeedsOf_cons]
    rcases List.mem_append.mp h with h | h
    · have := Lexeme.line_of_mem_tokens h
      omega
    · have := ih h
      omega

/-- Tokens of a text are counted from line one. -/
theorem one_le_line_of_mem_tokenize {text : String} {t : Placed} (h : t ∈ tokenize text) :
    1 ≤ t.line :=
  (line_of_mem_tokensFrom h).1

end CBind.Source
