import CBind.Proofs.Source.Blanking
import CBind.Proofs.Source.WellFormed
import Mathlib.Data.List.Chain

/-!
# Every character of a text is accounted for

What a lexeme may look like, and what may follow it, is said here without cutting anything: a line comment
reaches to the end of its line, a block comment to its closing mark, a preprocessor run goes on behind a
line feed only if a backslash stands directly in front of it, a literal ends at its quote or at the end of
its line, words are as long as they can be, and a mark starts nothing longer. A text can be split into such
lexemes in one way only, and that is how it is cut.

The tokens of a text are then those of its lexemes, each on the line it starts on. Code is spelled by the
text without blanks, comments and preprocessor runs.
-/

namespace CBind.Source

open CBind.Text

/-- A text in front of which a line ends. -/
def StartsFeed (text : List Char) : Prop :=
  ∀ c, text.head? = some c → c = '\n'

/-- A literal with this text behind its opening quote ends in front of `more`: at its quote, at the end of
its line, or at a backslash that nothing follows. A backslash takes the next character with it. -/
inductive LiteralEnds (quote : Char) : List Char → List Char → Prop
  | closed (more : List Char) : LiteralEnds quote [quote] more
  | lineEnd {more : List Char} (hmore : StartsFeed more) : LiteralEnds quote [] more
  | cutShort : LiteralEnds quote ['\\'] []
  | plain {c : Char} {text more : List Char} (hescape : c ≠ '\\') (hquote : c ≠ quote) (hfeed : c ≠ '\n')
      (h : LiteralEnds quote text more) : LiteralEnds quote (c :: text) more
  | escape (c : Char) {text more : List Char} (h : LiteralEnds quote text more) :
      LiteralEnds quote ('\\' :: c :: text) more

/-- A word of a kind: its first character is of one class, all others continue it, and what follows does
not. -/
structure WordEnds (starts continues : Char → Bool) (text more : List Char) : Prop where
  first : ∃ c, text.head? = some c ∧ starts c = true
  others : ∀ c ∈ text.tail, continues c = true
  ends : ∀ c, more.head? = some c → continues c = false

/-- A character that starts nothing longer in front of `more`. -/
structure MarkStands (lineStart : Bool) (c : Char) (more : List Char) : Prop where
  notBlank : isBlank c = false
  notQuote : c ≠ '"' ∧ c ≠ '\''
  notWord : isLetter c = false ∧ c ≠ '_' ∧ isAsciiDigit c = false
  notComment : c = '/' → more.head? ≠ some '/' ∧ more.head? ≠ some '*'
  notEllipsis : c = '.' → more.take 2 ≠ ['.', '.']
  notDirective : c = '#' → lineStart = false

/-- A lexeme may stand in front of `more`, where its line has held nothing but blanks or has held more. -/
def Lexeme.Stands (lineStart : Bool) (more : List Char) : Lexeme → Prop
  | blank c => isBlank c = true
  | lineComment body => '\n' ∉ body ∧ StartsFeed more
  | blockComment body closed => ¬ ['*', '/'] <:+: body ∧ (closed = false → more = [])
  | preprocessor text => lineStart = true ∧ text.head? = some '#' ∧
      text.IsChain (fun before c => c = '\n' → before = '\\') ∧ StartsFeed more ∧
      (more ≠ [] → text.getLast? ≠ some '\\')
  | quoted text => ∃ quote rest, (quote = '"' ∨ quote = '\'') ∧ text = quote :: rest ∧
      LiteralEnds quote rest more
  | name text => WordEnds (fun c => isLetter c || c == '_') (continuesWord false) text more
  | number text => WordEnds isAsciiDigit (continuesWord true) text more
  | ellipsis => True
  | mark c => MarkStands lineStart c more

/-- The lexemes spell the text one behind the other, and each stands where it may. -/
inductive Splits : Bool → List Char → List Lexeme → Prop
  | nil (lineStart : Bool) : Splits lineStart [] []
  | cons {lineStart : Bool} {l : Lexeme} {more : List Char} {ls : List Lexeme}
      (hl : l.Stands lineStart more) (h : Splits (l.lineStartAfter lineStart) more ls) :
      Splits lineStart (l.text ++ more) (l :: ls)

/-- Recognize the lexemes that are neither blanks nor comments nor preprocessor runs. -/
def Lexeme.isCode : Lexeme → Bool
  | blank _ => false
  | lineComment _ => false
  | blockComment _ _ => false
  | preprocessor _ => false
  | _ => true

/-- What tokens a lexeme gives that starts on a line: a line comment or a run one on this line, a block
comment one on each line it spans, and code one on this line that is spelled like the lexeme. -/
def Lexeme.Gives (line : Nat) (tokens : List Placed) (l : Lexeme) : Prop :=
  match l with
  | blank _ => tokens = []
  | lineComment _ => ∃ note, tokens = [⟨.comment note, line⟩]
  | blockComment _ _ => (∀ t ∈ tokens, t.token.isComment = true) ∧
      tokens.map (·.line) = List.range' line (l.text.count '\n' + 1)
  | preprocessor _ => tokens = [⟨.preprocessor, line⟩]
  | _ => ∃ t : Token, tokens = [⟨t, line⟩] ∧ t.isTrivia = false ∧ t.spelling.toList = l.text

section Stands

variable {lineStart : Bool} {c quote : Char} {cs rest text more : List Char}

/-! ## What is cut off stands where it is cut off -/

/-- What is left behind a run of other characters starts with a line feed. -/
theorem startsFeed_dropWhile (cs : List Char) : StartsFeed (cs.dropWhile (· != '\n')) := by
  intro c hc
  have h := List.head?_dropWhile_not (· != '\n') cs
  simp only [hc] at h
  simpa using h

/-- A block comment is cut off in front of its closing mark. -/
theorem not_infix_splitBlockComment (cs : List Char) : ¬ ['*', '/'] <:+: (splitBlockComment cs).1 := by
  fun_induction splitBlockComment cs with
  | case1 => simp
  | case2 rest => simp
  | case3 c rest hc r ih =>
    rw [List.infix_cons_iff, not_or]
    refine ⟨fun hprefix => ?_, ih⟩
    obtain ⟨hstar, hslash⟩ := List.cons_prefix_cons.mp hprefix
    obtain ⟨inner, hinner⟩ := hslash
    have htext : r.1 ++ commentEnd r.2.1 ++ r.2.2 = rest := splitBlockComment_append rest
    rw [← hinner] at htext
    exact hc _ hstar.symm htext.symm

/-- Line feeds in a preprocessor run follow backslashes. -/
theorem isChain_splitPreprocessor (cs : List Char) :
    ∀ before : Char, (before = '\\' → cs.head? ≠ some '\n') →
      (before :: (splitPreprocessor cs).1).IsChain fun a b => b = '\n' → a = '\\' := by
  fun_induction splitPreprocessor cs with
  | case1 => exact fun before _ => .singleton before
  | case2 rest r ih =>
    exact fun before _ => .cons_cons (by simp) (.cons_cons (by simp) (ih '\n' (by simp)))
  | case3 rest => exact fun before _ => .singleton before
  | case4 c rest hescape hfeed r ih =>
    exact fun before _ => .cons_cons (fun hc => absurd hc hfeed)
      (ih c fun hc => head?_ne_of_forall_ne fun more => hescape more hc)

/-- A literal is cut off where it ends. -/
theorem literalEnds_splitQuoted (quote : Char) (cs : List Char) :
    LiteralEnds quote (splitQuoted quote cs).1 (splitQuoted quote cs).2 := by
  fun_induction splitQuoted quote cs with
  | case1 => exact .lineEnd (by simp [StartsFeed])
  | case2 => exact .cutShort
  | case3 c rest r ih => exact .escape c ih
  | case4 c rest h1 h2 h3 => exact .lineEnd (by simpa [StartsFeed] using h3)
  | case5 c rest h1 h2 h3 h4 =>
    rw [show c = quote by simpa using h4]
    exact .closed rest
  | case6 c rest h1 h2 h3 h4 r ih =>
    exact .plain (ne_backslash_of_not_escape h1 h2) (by simpa using h4) (by simpa using h3) ih

/-- A word is cut off where it ends. -/
theorem wordEnds_takeWhile {starts continues : Char → Bool} (hc : starts c = true) (rest : List Char) :
    WordEnds starts continues (c :: rest.takeWhile continues) (rest.dropWhile continues) where
  first := ⟨c, rfl, hc⟩
  others _ hd := List.mem_takeWhile_imp hd
  ends d hd := by
    have h := List.head?_dropWhile_not continues rest
    simp only [hd] at h
    simpa using h

/-- What is cut off stands in front of what is left. -/
theorem stands_nextLexeme (lineStart : Bool) (c : Char) (rest : List Char) :
    (nextLexeme lineStart c rest).1.Stands lineStart (nextLexeme lineStart c rest).2 := by
  unfold nextLexeme
  split_ifs with hblank hline hcomment hrun hquote hellipsis hname hnumber
  · exact hblank
  · exact ⟨fun hmem => by simpa using List.mem_takeWhile_imp hmem, startsFeed_dropWhile _⟩
  · exact ⟨not_infix_splitBlockComment _, behind_of_not_closed⟩
  · simp only [Bool.and_eq_true, beq_iff_eq] at hrun
    obtain ⟨rfl, hstart⟩ := hrun
    refine ⟨hstart, rfl, isChain_splitPreprocessor rest '#' (by simp), fun d => head?_splitPreprocessor, fun hne => ?_⟩
    cases hsplit : (splitPreprocessor rest).1 with
    | nil => simp
    | cons d text =>
      rw [List.getLast?_cons_cons, ← hsplit]
      exact getLast?_splitPreprocessor hne
  · exact ⟨c, _, by simpa using hquote, rfl, literalEnds_splitQuoted c rest⟩
  · trivial
  · exact wordEnds_takeWhile hname rest
  · exact wordEnds_takeWhile hnumber rest
  · simp only [Bool.or_eq_true, beq_iff_eq, not_or, Bool.not_eq_true] at hname
    exact {
      notBlank := by simpa using hblank
      notQuote := by simpa using hquote
      notWord := ⟨hname.1, hname.2, by simpa using hnumber⟩
      notComment := by rintro rfl; exact ⟨by simpa using hline, by simpa using hcomment⟩
      notEllipsis := by rintro rfl; simpa using hellipsis
      notDirective := by rintro rfl; simpa using hrun }

/-! ## What stands somewhere is what is cut off there -/

/-- A text that starts at a line feed is where a run of other characters ends. -/
theorem StartsFeed.append_eq {body : List Char} (hmore : StartsFeed more) (hbody : '\n' ∉ body) :
    (body ++ more).takeWhile (· != '\n') = body ∧ (body ++ more).dropWhile (· != '\n') = more := by
  have hall : ∀ d ∈ body, (d != '\n') = true := fun d hd => by
    have : d ≠ '\n' := by rintro rfl; exact hbody hd
    simpa using this
  have hrun := @takeWhile_append_of_head? (· != '\n') body more (.inr fun d hd => by simp [hmore d hd])
  rw [hrun.1, hrun.2, List.takeWhile_eq_self_iff.mpr hall, List.dropWhile_eq_nil_iff.mpr hall]
  exact ⟨rfl, rfl⟩

/-- A comment without its closing mark is cut off up to the end of the text. -/
theorem splitBlockComment_unclosed {body : List Char} (h : ¬ ['*', '/'] <:+: body) :
    splitBlockComment body = (body, false, []) := by
  induction body with
  | nil => rfl
  | cons c body ih =>
    rw [List.infix_cons_iff, not_or] at h
    have hend (hstar : c = '*') : body.head? ≠ some '/' := fun hslash => by
      obtain ⟨rest, rfl⟩ := List.head?_eq_some_iff.mp hslash
      exact h.1 (hstar ▸ List.prefix_append ['*', '/'] rest)
    rw [splitBlockComment_cons hend, ih h.2]

/-- A preprocessor run in which only backslashes stand in front of line feeds is cut off where it ends. -/
theorem splitPreprocessor_run (hmore : StartsFeed more) (cs : List Char) :
    ∀ before : Char, (before :: cs).IsChain (fun a b => b = '\n' → a = '\\') →
      (more ≠ [] → (before :: cs).getLast? ≠ some '\\') →
      (before = '\\' → (cs ++ more).head? ≠ some '\n') → splitPreprocessor (cs ++ more) = (cs, more) := by
  fun_induction splitPreprocessor cs with
  | case1 =>
    intro before hrun hlast hbefore
    cases more with
    | nil => rfl
    | cons d more =>
      rw [hmore d rfl]
      rfl
  | case2 rest r ih =>
    intro before hrun hlast hbefore
    have hnext := ih '\n' hrun.of_cons.of_cons (by simpa using hlast) (by simp)
    simp [splitPreprocessor, hnext]
  | case3 rest => exact fun before hrun hlast hbefore => absurd rfl (hbefore (hrun.rel rfl))
  | case4 c rest hescape hfeed r ih =>
    intro before hrun hlast hbefore
    have hnext (hc : c = '\\') : (rest ++ more).head? ≠ some '\n' := by
      cases rest with
      | cons d rest => exact fun hd => hescape rest hc (by rw [Option.some.inj hd])
      | nil =>
        cases more with
        | nil => simp
        | cons d more => exact absurd (by simp [hc]) (hlast (by simp))
    rw [List.cons_append, splitPreprocessor_cons hfeed hnext,
      ih c hrun.of_cons (by simpa using hlast) hnext]

/-- A literal is cut off where it ends. -/
theorem splitQuoted_of_literalEnds (hescape : quote ≠ '\\') (hfeed : quote ≠ '\n')
    (h : LiteralEnds quote text more) : splitQuoted quote (text ++ more) = (text, more) := by
  induction h with
  | closed more => simp [splitQuoted_cons hescape, hfeed]
  | @lineEnd more hmore =>
    cases more with
    | nil => rfl
    | cons d more =>
      rw [hmore d rfl, List.nil_append, splitQuoted_cons (by decide)]
      rfl
  | cutShort => rfl
  | plain hc hquote hline _ ih => simp [splitQuoted_cons hc, hquote, hline, ih]
  | escape c _ ih => simp [splitQuoted, ih]

/-- A word ends where none of its characters follows. -/
theorem WordEnds.append_eq {starts continues : Char → Bool} (h : WordEnds starts continues text more) :
    ∃ c rest, text = c :: rest ∧ starts c = true ∧
      (rest ++ more).takeWhile continues = rest ∧ (rest ++ more).dropWhile continues = more := by
  obtain ⟨c, hhead, hc⟩ := h.first
  obtain ⟨rest, rfl⟩ := List.head?_eq_some_iff.mp hhead
  have hall : ∀ d ∈ rest, continues d = true := h.others
  have hrun := @takeWhile_append_of_head? continues rest more (.inr h.ends)
  refine ⟨c, rest, rfl, hc, ?_, ?_⟩
  · rw [hrun.1, List.takeWhile_eq_self_iff.mpr hall]
  · rw [hrun.2, List.dropWhile_eq_nil_iff.mpr hall, List.nil_append]

/-- A character that starts a number starts nothing else. -/
theorem not_isBlank_of_isAsciiDigit (h : isAsciiDigit c = true) :
    isBlank c = false ∧ (isLetter c || c == '_') = false ∧
      c ≠ '/' ∧ c ≠ '#' ∧ c ≠ '"' ∧ c ≠ '\'' ∧ c ≠ '.' := by
  have hrange : 48 ≤ c.toNat ∧ c.toNat ≤ 57 := by
    simpa [isAsciiDigit, Char.le_def, UInt32.le_iff_toNat_le] using h
  have hall : ∀ n ∈ List.range' 48 10, isBlank (Char.ofNat n) = false ∧
      (isLetter (Char.ofNat n) || Char.ofNat n == '_') = false ∧ Char.ofNat n ≠ '/' ∧
      Char.ofNat n ≠ '#' ∧ Char.ofNat n ≠ '"' ∧ Char.ofNat n ≠ '\'' ∧ Char.ofNat n ≠ '.' := by decide
  have := hall c.toNat (List.mem_range'_1.mpr (by omega))
  rwa [Char.ofNat_toNat] at this

/-- What stands in front of a text is cut off there. -/
theorem nextLexeme_of_stands {l : Lexeme} (h : l.Stands lineStart more) :
    ∃ c rest, l.text = c :: rest ∧ nextLexeme lineStart c (rest ++ more) = (l, more) := by
  cases l with
  | blank c => exact ⟨c, [], rfl, nextLexeme_of_isBlank h⟩
  | lineComment body =>
    obtain ⟨hbody, hmore⟩ := h
    have hcut : nextLexeme lineStart '/' ('/' :: (body ++ more)) =
        (.lineComment ((body ++ more).takeWhile (· != '\n')), (body ++ more).dropWhile (· != '\n')) := rfl
    rw [(hmore.append_eq hbody).1, (hmore.append_eq hbody).2] at hcut
    exact ⟨'/', _, rfl, hcut⟩
  | blockComment body closed =>
    obtain ⟨hbody, hclosed⟩ := h
    have hcut (cs : List Char) : nextLexeme lineStart '/' ('*' :: cs) =
        (.blockComment (splitBlockComment cs).1 (splitBlockComment cs).2.1, (splitBlockComment cs).2.2) := rfl
    refine ⟨'/', _, rfl, ?_⟩
    cases closed with
    | true => simp [hcut, commentEnd, splitBlockComment_body hbody]
    | false =>
      obtain rfl := hclosed rfl
      simp [hcut, commentEnd, splitBlockComment_unclosed hbody]
  | preprocessor text =>
    obtain ⟨rfl, hhead, hrun, hmore, hlast⟩ := h
    obtain ⟨rest, rfl⟩ := List.head?_eq_some_iff.mp hhead
    refine ⟨'#', rest, rfl, ?_⟩
    rw [nextLexeme_run, splitPreprocessor_run hmore rest '#' hrun hlast (by simp)]
  | quoted text =>
    obtain ⟨quote, rest, hquote, rfl, hends⟩ := h
    refine ⟨quote, rest, rfl, ?_⟩
    have hcut : nextLexeme lineStart quote (rest ++ more) =
        (.quoted (quote :: (splitQuoted quote (rest ++ more)).1), (splitQuoted quote (rest ++ more)).2) := by
      rcases hquote with rfl | rfl <;> rfl
    have hescape : quote ≠ '\\' := by rcases hquote with rfl | rfl <;> decide
    have hfeed : quote ≠ '\n' := by rcases hquote with rfl | rfl <;> decide
    rw [hcut, splitQuoted_of_literalEnds hescape hfeed hends]
  | name text =>
    obtain ⟨c, rest, rfl, hc, htake, hdrop⟩ := h.append_eq
    have hblank := not_isBlank_of_starts_word hc
    have hmarks : c ≠ '/' ∧ c ≠ '#' ∧ c ≠ '"' ∧ c ≠ '\'' ∧ c ≠ '.' := by
      refine ⟨?_, ?_, ?_, ?_, ?_⟩ <;> rintro rfl <;> simp [isLetter, isAsciiLetter] at hc
    exact ⟨c, rest, rfl, by simp [nextLexeme, hblank, hmarks, hc, htake, hdrop]⟩
  | number text =>
    obtain ⟨c, rest, rfl, hc, htake, hdrop⟩ := h.append_eq
    obtain ⟨hblank, hname, hmarks⟩ := not_isBlank_of_isAsciiDigit hc
    exact ⟨c, rest, rfl, by simp [nextLexeme, hblank, hmarks, hname, hc, htake, hdrop]⟩
  | ellipsis => exact ⟨'.', ['.', '.'], rfl, rfl⟩
  | mark c =>
    refine ⟨c, [], rfl, ?_⟩
    have hline : (c == '/' && more.head? == some '/') = false := by
      simpa using fun hc => (h.notComment hc).1
    have hcomment : (c == '/' && more.head? == some '*') = false := by
      simpa using fun hc => (h.notComment hc).2
    have hrun : (c == '#' && lineStart) = false := by simpa using h.notDirective
    have hellipsis : (c == '.' && more.take 2 == ['.', '.']) = false := by simpa using h.notEllipsis
    simp [nextLexeme, h.notBlank, hline, hcomment, hrun, hellipsis, h.notQuote, h.notWord]

/-- A text splits into the lexemes it is cut into, and in no other way. -/
theorem splits_iff {ls : List Lexeme} : Splits lineStart cs ls ↔ ls = lexemesFrom lineStart cs := by
  constructor
  · intro h
    induction h with
    | nil lineStart => rw [lexemesFrom]
    | cons hl h ih =>
      obtain ⟨c, rest, htext, hcut⟩ := nextLexeme_of_stands hl
      rw [htext, List.cons_append, lexemesFrom_cons, hcut, ih]
  · rintro rfl
    fun_induction lexemesFrom lineStart cs with
    | case1 lineStart => exact .nil lineStart
    | case2 lineStart c rest cut ih =>
      rw [← nextLexeme_append lineStart c rest]
      exact .cons (stands_nextLexeme lineStart c rest) ih

end Stands

section Tokens

/-- Lines of a comment are placed one below the other. -/
theorem map_line_placeLines (line : Nat) (texts : List (List Char)) :
    (placeLines line texts).map (·.line) = List.range' line texts.length := by
  induction texts generalizing line with
  | nil => rfl
  | cons text texts ih => simp [placeLines, ih, List.range'_succ]

/-- A lexeme has the tokens it should give. -/
theorem Lexeme.gives_tokens (l : Lexeme) (line : Nat) : l.Gives line (l.tokens line) := by
  cases l with
  | blank c => rfl
  | lineComment body => exact ⟨_, rfl⟩
  | blockComment body closed =>
    refine ⟨fun t ht => ?_, ?_⟩
    · obtain ⟨note, -, htoken⟩ := exists_of_mem_placeLines ht
      rw [htoken, Token.isComment]
    · have hfeeds : (commentEnd closed).count '\n' = 0 := by cases closed <;> rfl
      simp [tokens, map_line_placeLines, length_splitLines, text, hfeeds]
  | preprocessor text => rfl
  | quoted text => exact ⟨_, rfl, rfl, String.toList_ofList⟩
  | name text => exact ⟨_, rfl, rfl, String.toList_ofList⟩
  | number text => exact ⟨_, rfl, rfl, String.toList_ofList⟩
  | ellipsis => exact ⟨_, rfl, rfl, rfl⟩
  | mark c => exact ⟨_, rfl, Token.isTrivia_ofChar c, by rw [Token.spelling_ofChar]; simp [text]⟩

/-- Code is spelled by the tokens that a lexeme gives, and trivia by none. -/
theorem Lexeme.Gives.spelled {l : Lexeme} {line : Nat} {tokens : List Placed} (h : l.Gives line tokens) :
    (tokens.filter (!·.token.isTrivia)).flatMap (·.token.spelling.toList) =
      if l.isCode then l.text else [] := by
  cases l with
  | blank c =>
    obtain rfl := h
    rfl
  | lineComment body =>
    obtain ⟨note, rfl⟩ := h
    rfl
  | blockComment body closed =>
    have hnone : tokens.filter (!·.token.isTrivia) = [] := by
      refine List.filter_eq_nil_iff.mpr fun t ht => ?_
      have hcomment := h.1 t ht
      cases htoken : t.token <;> simp_all [Token.isComment, Token.isTrivia]
    rw [hnone]
    rfl
  | preprocessor text =>
    obtain rfl := h
    rfl
  | _ =>
    obtain ⟨t, rfl, hcode, hspelling⟩ := h
    simp [hcode, hspelling, isCode]

/-- The lexemes of a text with the tokens of each, the first of which starts on the given line. -/
def piecesFrom (line : Nat) : List Lexeme → List (Lexeme × List Placed)
  | [] => []
  | l :: rest => (l, l.tokens line) :: piecesFrom (line + l.lineFeeds) rest

theorem map_fst_piecesFrom (line : Nat) (ls : List Lexeme) : (piecesFrom line ls).map (·.1) = ls := by
  induction ls generalizing line with
  | nil => rfl
  | cons l ls ih => simp [piecesFrom, ih]

theorem flatMap_snd_piecesFrom (line : Nat) (ls : List Lexeme) :
    (piecesFrom line ls).flatMap (·.2) = tokensFrom line ls := by
  induction ls generalizing line with
  | nil => rfl
  | cons l ls ih => simp [piecesFrom, tokensFrom, ih]

/-- Each piece has the tokens that its lexeme gives on the line it starts on. -/
theorem gives_piecesFrom {line : Nat} {ls : List Lexeme} {front back : List (Lexeme × List Placed)}
    {piece : Lexeme × List Placed} (h : piecesFrom line ls = front ++ piece :: back) :
    piece.1.Gives (line + (front.flatMap (·.1.text)).count '\n') piece.2 := by
  induction ls generalizing line front with
  | nil => simp [piecesFrom] at h
  | cons l ls ih =>
    cases front with
    | nil =>
      obtain ⟨rfl, -⟩ := List.cons.inj h
      exact l.gives_tokens line
    | cons first front =>
      obtain ⟨rfl, hback⟩ := List.cons.inj h
      have := ih hback
      rwa [Nat.add_assoc, Lexeme.lineFeeds, ← List.count_append] at this

/-- The code of a text is spelled by its tokens of code. -/
theorem spelled_piecesFrom (line : Nat) (ls : List Lexeme) :
    ((tokensFrom line ls).filter (!·.token.isTrivia)).flatMap (·.token.spelling.toList) =
      ((piecesFrom line ls).filter (·.1.isCode)).flatMap (·.1.text) := by
  induction ls generalizing line with
  | nil => rfl
  | cons l ls ih =>
    rw [tokensFrom, List.filter_append, List.flatMap_append, (l.gives_tokens line).spelled, ih,
      piecesFrom, List.filter_cons]
    cases l.isCode <;> rfl

end Tokens

/-- A text splits in one way only into blanks, comments, preprocessor runs and code, and its tokens are
those that the pieces give, each on the line it starts on: code one token that is spelled like it, a block
comment one for each line it spans. So tokens of code spell the text without the rest, and lines never
decrease. -/
theorem tokenize_accounts (text : String) : ∃ pieces : List (Lexeme × List Placed),
    (∀ ls, Splits true text.toList ls ↔ ls = pieces.map (·.1)) ∧
    pieces.flatMap (·.1.text) = text.toList ∧
    pieces.flatMap (·.2) = tokenize text ∧
    (∀ front piece back, pieces = front ++ piece :: back →
      piece.1.Gives (1 + (front.flatMap (·.1.text)).count '\n') piece.2) ∧
    ((tokenize text).filter (!·.token.isTrivia)).flatMap (·.token.spelling.toList) =
      (pieces.filter (·.1.isCode)).flatMap (·.1.text) ∧
    (tokenize text).Pairwise (·.line ≤ ·.line) := by
  refine ⟨piecesFrom 1 (lexemes text.toList), fun ls => ?_, ?_, ?_, ?_, ?_, ?_⟩
  · rw [map_fst_piecesFrom]
    exact splits_iff
  · rw [← List.flatMap_map, map_fst_piecesFrom]
    exact flatMap_text_lexemesFrom true text.toList
  · exact flatMap_snd_piecesFrom 1 _
  · exact fun front piece back h => gives_piecesFrom h
  · exact spelled_piecesFrom 1 _
  · exact pairwise_tokensFrom 1 _

end CBind.Source
