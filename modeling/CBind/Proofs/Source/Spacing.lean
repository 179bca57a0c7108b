import CBind.Proofs.Source.Grammar
import CBind.Proofs.Source.Placing

/-!
# Cutting what was written

Blanks give no tokens and only move the line. A word that ends where it was written to end, and each
of the marks of a header, is cut off as the token it was written for. So the tokens of a written
header are the tokens it was written from, and what stands behind it is cut as it would be alone.
-/

namespace CBind.Source

open CBind.Text

/-- The code points of the blanks. -/
def blankCodes : List Nat :=
  [9, 10, 11, 12, 13, 0x20, 0x85, 0xa0, 0x1680, 0x2000, 0x2001, 0x2002, 0x2003, 0x2004, 0x2005, 0x2006,
    0x2007, 0x2008, 0x2009, 0x200a, 0x2028, 0x2029, 0x202f, 0x205f, 0x3000]

/-- What holds for every blank code point holds for every blank. -/
theorem forall_isBlank {P : Char → Prop} (h : ∀ n ∈ blankCodes, P (Char.ofNat n)) {c : Char}
    (hc : isBlank c = true) : P c := by
  have hmem : c.toNat ∈ blankCodes := by
    simp only [isBlank, Bool.or_eq_true, Bool.and_eq_true, decide_eq_true_eq, beq_iff_eq] at hc
    simp only [blankCodes, List.mem_cons, List.not_mem_nil, or_false]
    omega
  have := h _ hmem
  rwa [Char.ofNat_toNat] at this

/-- A blank starts no word. -/
theorem not_isBlank_of_starts_word {c : Char} (h : (isLetter c || c == '_') = true) :
    isBlank c = false := by
  by_contra hblank
  have hnone : (isLetter c || c == '_') = false :=
    forall_isBlank (P := fun c => (isLetter c || c == '_') = false) (by decide +kernel)
      (by simpa using hblank)
  rw [hnone] at h
  contradiction

/-- A blank continues no word. -/
theorem isWordConstituent_of_isBlank {c : Char} (h : isBlank c = true) :
    isWordConstituent c = false :=
  forall_isBlank (P := fun c => isWordConstituent c = false) (by decide +kernel) h

/-- A lexeme other than a blank leaves the start of a line exactly if it runs over a line feed. -/
theorem Lexeme.lineStartAfter_eq {l : Lexeme} (h : ∀ c, l ≠ .blank c) (lineStart : Bool) :
    l.lineStartAfter lineStart = decide (0 < l.lineFeeds) := by
  have hcontains : l.text.contains '\n' = decide (0 < l.lineFeeds) := by
    rw [Bool.eq_iff_iff, List.contains_iff_mem, decide_eq_true_iff, lineFeeds, List.count_pos_iff]
  cases l with
  | blank c => exact absurd rfl (h c)
  | _ => exact hcontains

section

variable (line : Nat) (lineStart : Bool) (more : List Char)

/-- Blanks are cut off one by one; behind a line feed among them a line starts. -/
theorem lexemesFrom_blanks {gap : List Char} (h : Blank gap) :
    lexemesFrom lineStart (gap ++ more) =
      gap.map .blank ++ lexemesFrom (gap.contains '\n' || lineStart) more := by
  induction gap generalizing lineStart with
  | nil => rfl
  | cons c gap ih =>
    have hc : isBlank c = true := h c List.mem_cons_self
    rw [List.cons_append, lexemesFrom_cons, nextLexeme_of_isBlank hc,
      ih (Lexeme.lineStartAfter lineStart (.blank c)) fun d hd => h d (List.mem_cons_of_mem c hd),
      Lexeme.lineStartAfter, List.contains_cons, Bool.beq_comm (a := '\n'), ← Bool.or_assoc,
      Bool.or_comm (gap.contains '\n')]
    rfl

/-- Blank lexemes give no tokens. -/
theorem tokensFrom_map_blank (gap : List Char) (ls : List Lexeme) :
    tokensFrom line (gap.map .blank ++ ls) = tokensFrom (line + gap.count '\n') ls := by
  induction gap generalizing line with
  | nil => rfl
  | cons c gap ih =>
    rw [List.map_cons, List.cons_append, tokensFrom, ih, Lexeme.tokens, List.nil_append,
      Lexeme.lineFeeds, Lexeme.text, Nat.add_assoc, ← List.count_append]
    rfl

/-- Blanks give no tokens. -/
theorem tokensFrom_blanks {gap : List Char} (h : Blank gap) :
    ∃ start, tokensFrom line (lexemesFrom lineStart (gap ++ more)) =
      tokensFrom (line + gap.count '\n') (lexemesFrom start more) :=
  ⟨_, by rw [lexemesFrom_blanks lineStart more h, tokensFrom_map_blank]⟩

/-- A line feed gives no tokens and moves one line down. -/
theorem tokensFrom_newline : tokensFrom line (lexemesFrom lineStart ('\n' :: more)) =
    tokensFrom (line + 1) (lexemesFrom true more) := by
  rw [lexemesFrom_cons, nextLexeme_of_isBlank (by decide), tokensFrom]
  rfl

/-- The marks of a header are cut off one by one. -/
theorem nextLexeme_mark {c : Char} (h : c ∈ ['(', ')', '\x7b', '\x7d', ',', '*']) :
    nextLexeme lineStart c more = (.mark c, more) := by
  simp only [List.mem_cons, List.not_mem_nil, or_false] at h
  rcases h with rfl | rfl | rfl | rfl | rfl | rfl <;> rfl

/-- A mark of a header gives its token. -/
theorem tokensFrom_mark {c : Char} (h : c ∈ ['(', ')', '\x7b', '\x7d', ',', '*']) :
    tokensFrom line (lexemesFrom lineStart (c :: more)) =
      ⟨Token.ofChar c, line⟩ :: tokensFrom line (lexemesFrom false more) := by
  have hc : c ≠ '\n' := by
    rintro rfl
    simp at h
  rw [lexemesFrom_cons, nextLexeme_mark lineStart more h, tokensFrom]
  simp [Lexeme.tokens, Lexeme.lineFeeds, Lexeme.text, Lexeme.lineStartAfter, hc, hc.symm]

/-- A word stands on one line. -/
theorem count_newline_of_isWord {text : List Char} (h : isWord text = true) :
    text.count '\n' = 0 := by
  refine List.count_eq_zero.mpr fun hmem => ?_
  cases text with
  | nil => contradiction
  | cons c rest =>
    simp only [isWord, Bool.and_eq_true, List.all_eq_true] at h
    rcases List.mem_cons.mp hmem with rfl | hrest
    · exact absurd h.1 (by decide)
    · exact absurd (h.2 '\n' hrest) (by decide)

/-- A word is cut off where it was written to end. -/
theorem nextLexeme_word {more : List Char} {c : Char} {rest : List Char} (h : isWord (c :: rest) = true)
    (hmore : ∀ d, more.head? = some d → continuesWord false d = false) :
    nextLexeme lineStart c (rest ++ more) = (.name (c :: rest), more) := by
  simp only [isWord, Bool.and_eq_true] at h
  have hall : ∀ d ∈ rest, continuesWord false d = true := by simpa using h.2
  have htake : (rest ++ more).takeWhile (continuesWord false) = rest := by
    rw [List.takeWhile_append_of_pos hall]
    cases more with
    | nil => simp
    | cons d more => simp [hmore d rfl]
  have hdrop : (rest ++ more).dropWhile (continuesWord false) = more := by
    rw [List.dropWhile_append_of_pos hall]
    cases more with
    | nil => rfl
    | cons d more => simp [hmore d rfl]
  have hblank := not_isBlank_of_starts_word h.1
  have hmarks : c ≠ '/' ∧ c ≠ '#' ∧ c ≠ '"' ∧ c ≠ '\'' ∧ c ≠ '.' := by
    refine ⟨?_, ?_, ?_, ?_, ?_⟩ <;> rintro rfl <;> simp [isLetter, isAsciiLetter] at h
  simp [nextLexeme, hblank, hmarks, h.1, htake, hdrop]

/-- A word gives its token. -/
theorem tokensFrom_word {more : List Char} {name : String} (h : isWord name.toList = true)
    (hmore : ∀ d, more.head? = some d → continuesWord false d = false) :
    ∃ start, tokensFrom line (lexemesFrom lineStart (name.toList ++ more)) =
      ⟨.ident name, line⟩ :: tokensFrom line (lexemesFrom start more) := by
  cases htext : name.toList with
  | nil => simp [htext, isWord] at h
  | cons c rest =>
    rw [htext] at h
    have hfeeds : (Lexeme.name (c :: rest)).lineFeeds = 0 := count_newline_of_isWord h
    refine ⟨(Lexeme.name (c :: rest)).lineStartAfter lineStart, ?_⟩
    rw [List.cons_append, lexemesFrom_cons, nextLexeme_word lineStart h hmore, tokensFrom, hfeeds]
    simp [Lexeme.tokens, ← htext]

end

/-- Recognize the tokens that headers are written with. -/
def Token.isLoose : Token → Bool
  | ident name => isWord name.toList
  | openParen => true
  | closeParen => true
  | comma => true
  | star => true
  | _ => false

/-- The tokens of headers stand on one line each. -/
theorem count_newline_of_isLoose {t : Token} (h : t.isLoose = true) :
    t.spelling.toList.count '\n' = 0 := by
  cases t with
  | ident name => exact count_newline_of_isWord h
  | openParen => decide
  | closeParen => decide
  | comma => decide
  | star => decide
  | _ => contradiction

/-- A written token is cut off, and nothing of what follows. -/
theorem tokensFrom_token (line : Nat) (lineStart : Bool) {t : Token} (ht : t.isLoose = true)
    {more : List Char}
    (hmore : t.name?.isSome → ∀ c, more.head? = some c → continuesWord false c = false) :
    ∃ start, tokensFrom line (lexemesFrom lineStart (t.spelling.toList ++ more)) =
      ⟨t, line⟩ :: tokensFrom line (lexemesFrom start more) := by
  have hmark : ∀ c, t = Token.ofChar c → t.spelling.toList = [c] →
      c ∈ ['(', ')', '\x7b', '\x7d', ',', '*'] →
      ∃ start, tokensFrom line (lexemesFrom lineStart (t.spelling.toList ++ more)) =
        ⟨t, line⟩ :: tokensFrom line (lexemesFrom start more) := by
    intro c hof hspell hc
    rw [hspell, hof]
    exact ⟨false, tokensFrom_mark line lineStart more hc⟩
  cases t with
  | ident name => exact tokensFrom_word line lineStart ht (hmore rfl)
  | openParen => exact hmark '(' rfl (by decide) (by simp)
  | closeParen => exact hmark ')' rfl (by decide) (by simp)
  | comma => exact hmark ',' rfl (by decide) (by simp)
  | star => exact hmark '*' rfl (by decide) (by simp)
  | _ => contradiction

/-- The tokens of a written header are the tokens it was written from, if no word follows it; they
stand on its lines, the first one on the first. -/
theorem WritesTokens.cut {ts : List Token} {text : List Char} (h : WritesTokens ts text)
    (hloose : ∀ t ∈ ts, t.isLoose = true) {more : List Char}
    (hmore : ∀ c, more.head? = some c → continuesWord false c = false) (line : Nat)
    (lineStart : Bool) :
    ∃ (tokens : List Placed) (start : Bool), tokens.map (·.token) = ts ∧
      (∀ t, tokens.head? = some t → t.line = line) ∧
      (∀ t ∈ tokens, line ≤ t.line ∧ t.line ≤ line + text.count '\n') ∧
      tokensFrom line (lexemesFrom lineStart (text ++ more)) =
        tokens ++ tokensFrom (line + text.count '\n') (lexemesFrom start more) := by
  induction h generalizing line lineStart with
  | nil => exact ⟨[], lineStart, rfl, by simp, by simp, rfl⟩
  | @cons t ts gap text hgap hword htext ih =>
    have hfollow : t.name?.isSome →
        ∀ c, (gap ++ (text ++ more)).head? = some c → continuesWord false c = false := by
      intro hname c hc
      rw [← List.append_assoc, List.head?_append] at hc
      cases hboth : (gap ++ text).head? with
      | none =>
        rw [hboth] at hc
        exact hmore c hc
      | some d =>
        rw [hboth] at hc
        exact hword hname c (hboth.trans hc)
    have hfeeds := count_newline_of_isLoose (hloose t List.mem_cons_self)
    obtain ⟨start, hcut⟩ := tokensFrom_token line lineStart (hloose t List.mem_cons_self) hfollow
    obtain ⟨start', hblank⟩ := tokensFrom_blanks line start (text ++ more) hgap
    obtain ⟨tokens, start'', htokens, -, hlines, hrest⟩ :=
      ih (fun u hu => hloose u (List.mem_cons_of_mem t hu)) (line + gap.count '\n') start'
    have hcount : line + (t.spelling.toList ++ gap ++ text).count '\n' =
        line + gap.count '\n' + text.count '\n' := by
      rw [List.count_append, List.count_append, hfeeds]
      omega
    refine ⟨⟨t, line⟩ :: tokens, start'', by simp [htokens], by simp, ?_, ?_⟩
    · rintro u (_ | ⟨_, hu⟩)
      · exact ⟨Nat.le_refl _, Nat.le_add_right _ _⟩
      · have := hlines u hu
        omega
    · rw [List.append_assoc, List.append_assoc, hcut, hblank, hrest, hcount, List.cons_append]

end CBind.Source
