import CBind.Proofs.Source.Spacing
import CBind.Source.Reading
import Mathlib.Data.List.Forall2
import Mathlib.Data.List.TakeWhile
import Mathlib.Tactic.ByContra

/-!
# Line ends with a carriage return

A text may end its lines with a carriage return in front of each line feed. Blanks, comments, words
and marks are read the same either way: the carriage return is a blank, and comment lines are trimmed.

Two kinds of lexemes look at a line feed itself. A backslash carries a preprocessor run over the line
feed directly behind it, and a literal over its next character, so a carriage return in between ends
both at the line they start on. A literal that a line feed cuts short takes the carriage return into
its text. The tokens are the same exactly if no literal reaches a line feed and every preprocessor run
has only blanks on the lines it is continued to.
-/

namespace CBind.Source

open CBind.Text

/-- The text with a carriage return in front of each line feed. -/
def withReturns : List Char → List Char
  | [] => []
  | c :: rest => if c = '\n' then '\r' :: '\n' :: withReturns rest else c :: withReturns rest

/-- Whether a lexeme is read the same with carriage returns; `last` tells whether the text ends with
it. -/
def Lexeme.isUnbroken (last : Bool) : Lexeme → Bool
  | quoted text => !text.contains '\n' && ((quoted text).isFinished || last)
  | preprocessor text => (text.dropWhile (· != '\n')).all isBlank
  | _ => true

/-- Whether all lexemes of a text are read the same with carriage returns. -/
def unbroken : List Lexeme → Bool
  | [] => true
  | l :: rest => l.isUnbroken rest.isEmpty && unbroken rest

/-- A lexeme of a text and that of the text with carriage returns give the same tokens, and the same
text is left behind them, less a carriage return that the lexeme may have taken. -/
structure SameCut (lineStart : Bool) (cut cut' : Lexeme × List Char) : Prop where
  tokens (line : Nat) : cut'.1.tokens line = cut.1.tokens line
  lineFeeds : cut'.1.lineFeeds = cut.1.lineFeeds
  lineStartAfter : cut'.1.lineStartAfter lineStart = cut.1.lineStartAfter lineStart
  behind : cut'.2 = withReturns cut.2 ∨ '\r' :: cut'.2 = withReturns cut.2

section Text

variable {cs rest : List Char}

/-- A character other than a line feed stays as it is. -/
theorem withReturns_cons {c : Char} (h : c ≠ '\n') :
    withReturns (c :: rest) = c :: withReturns rest := by
  rw [withReturns, if_neg h]

/-- Carriage returns of consecutive texts. -/
theorem withReturns_append (a b : List Char) :
    withReturns (a ++ b) = withReturns a ++ withReturns b := by
  induction a with
  | nil => rfl
  | cons c a ih =>
    by_cases hc : c = '\n'
    · simp [withReturns, hc, ih]
    · simp [withReturns_cons hc, ih]

/-- The characters of a text without line feeds, as the lexer tests them. -/
theorem bne_newline_of_not_mem (h : '\n' ∉ cs) : ∀ c ∈ cs, (c != '\n') = true := fun c hc => by
  simpa using ne_of_mem_of_not_mem hc h

/-- A text without a line feed stays as it is. -/
theorem withReturns_of_not_mem {cs : List Char} (h : '\n' ∉ cs) : withReturns cs = cs := by
  induction cs with
  | nil => rfl
  | cons c cs ih =>
    rw [List.mem_cons, not_or] at h
    rw [withReturns_cons (Ne.symm h.1), ih h.2]

/-- Carriage returns are blanks. -/
theorem blank_withReturns : Blank (withReturns cs) ↔ Blank cs := by
  induction cs with
  | nil => rfl
  | cons c cs ih =>
    by_cases hc : c = '\n'
    · simp only [withReturns, hc, ↓reduceIte, Blank, List.forall_mem_cons]
      exact (and_iff_right (by decide)).trans (and_congr_right fun _ => ih)
    · simp only [withReturns_cons hc, Blank, List.forall_mem_cons]
      exact and_congr_right fun _ => ih

/-- Carriage returns add no line feeds. -/
theorem count_withReturns (cs : List Char) : (withReturns cs).count '\n' = cs.count '\n' := by
  induction cs with
  | nil => rfl
  | cons c cs ih =>
    by_cases hc : c = '\n'
    · simp [withReturns, hc, ih]
    · simp [withReturns_cons hc, hc, ih]

/-- A character that is no line end is found at the start of both texts alike. -/
theorem beq_head?_withReturns {x : Char} (hr : x ≠ '\r') (hn : x ≠ '\n') (cs : List Char) :
    ((withReturns cs).head? == some x) = (cs.head? == some x) := by
  cases cs with
  | nil => rfl
  | cons c cs =>
    by_cases hc : c = '\n'
    · simp [withReturns, hc, hr.symm, hn.symm]
    · simp [withReturns_cons hc]

/-- With carriage returns no text starts with a line feed. -/
theorem head?_withReturns_ne (cs : List Char) : (withReturns cs).head? ≠ some '\n' := by
  cases cs with
  | nil => simp [withReturns]
  | cons c cs =>
    by_cases hc : c = '\n'
    · simp [withReturns, hc]
    · simp [withReturns_cons hc, hc]

/-- Two points are found at the start of both texts alike. -/
theorem beq_take_two_withReturns (cs : List Char) :
    ((withReturns cs).take 2 == ['.', '.']) = (cs.take 2 == ['.', '.']) := by
  have hhead := beq_head?_withReturns (x := '.') (by decide) (by decide)
  have htwo (ds : List Char) : (ds.take 2 == ['.', '.']) =
      (ds.head? == some '.' && ds.tail.head? == some '.') := by
    match ds with
    | [] => rfl
    | [d] => simp
    | d :: e :: _ => simp
  rw [htwo, htwo, hhead]
  cases cs with
  | nil => rfl
  | cons c cs =>
    by_cases hc : c = '.'
    · rw [hc, withReturns_cons (by decide), List.tail_cons, List.tail_cons, hhead]
    · have hne : ((c :: cs).head? == some '.') = false := by simpa using hc
      rw [hne, Bool.false_and, Bool.false_and]

/-- A run that no line end belongs to is the same in both texts. -/
theorem takeWhile_withReturns {p : Char → Bool} (hr : p '\r' = false) (hn : p '\n' = false)
    (cs : List Char) : (withReturns cs).takeWhile p = cs.takeWhile p ∧
      (withReturns cs).dropWhile p = withReturns (cs.dropWhile p) := by
  induction cs with
  | nil => exact ⟨rfl, rfl⟩
  | cons c cs ih =>
    by_cases hc : c = '\n'
    · simp [withReturns, hc, hr, hn]
    · rw [withReturns_cons hc]
      by_cases hp : p c = true
      · simp [hp, ih]
      · simp [hp, withReturns_cons hc]

/-- The first line takes the carriage return in front of its line feed. -/
theorem takeWhile_line_withReturns (cs : List Char) :
    ∃ taken, (taken = [] ∨ taken = ['\r']) ∧
      (withReturns cs).takeWhile (· != '\n') = cs.takeWhile (· != '\n') ++ taken ∧
      taken ++ (withReturns cs).dropWhile (· != '\n') = withReturns (cs.dropWhile (· != '\n')) := by
  induction cs with
  | nil => exact ⟨[], .inl rfl, rfl, rfl⟩
  | cons c cs ih =>
    by_cases hc : c = '\n'
    · exact ⟨['\r'], .inr rfl, by simp [withReturns, hc], by simp [withReturns, hc]⟩
    · obtain ⟨taken, htaken, hline, hbehind⟩ := ih
      exact ⟨taken, htaken, by simp [withReturns_cons hc, hc, hline],
        by simpa [withReturns_cons hc, hc] using hbehind⟩

/-- What is left behind a carriage return that was or was not taken. -/
theorem behind_of_taken {taken : List Char} (htaken : taken = [] ∨ taken = ['\r'])
    (h : taken ++ rest = withReturns cs) : rest = withReturns cs ∨ '\r' :: rest = withReturns cs := by
  rcases htaken with rfl | rfl
  · exact .inl h
  · exact .inr h

/-- A carriage return that was or was not taken is no line feed. -/
theorem count_newline_of_taken {taken : List Char} (htaken : taken = [] ∨ taken = ['\r']) :
    taken.count '\n' = 0 := by
  rcases htaken with rfl | rfl <;> rfl

/-- A blank at the end of a text is trimmed. -/
theorem trim_concat {c : Char} (h : isBlank c = true) (cs : List Char) :
    trim (cs ++ [c]) = trim cs := by
  rw [trim, trim, trimStart, trimStart, List.dropWhile_append]
  split
  · next hempty =>
    rw [List.isEmpty_iff.mp hempty]
    simp [h]
  · simp [trimEnd, h]

/-- A carriage return that was taken is trimmed. -/
theorem trim_taken {taken : List Char} (htaken : taken = [] ∨ taken = ['\r']) (cs : List Char) :
    trim (cs ++ taken) = trim cs := by
  rcases htaken with rfl | rfl
  · rw [List.append_nil]
  · exact trim_concat (by decide) cs

end Text

section Comments

/-- Each line of a comment is the line, perhaps with a carriage return at its end. -/
theorem splitLines_withReturns (cs : List Char) :
    List.Forall₂ (fun line' line => ∃ taken, (taken = [] ∨ taken = ['\r']) ∧ line' = line ++ taken)
      (splitLines (withReturns cs)) (splitLines cs) := by
  induction cs with
  | nil => exact .cons ⟨[], .inl rfl, rfl⟩ .nil
  | cons c cs ih =>
    by_cases hc : c = '\n'
    · have hlines : splitLines (withReturns (c :: cs)) = ['\r'] :: splitLines (withReturns cs) := by
        simp [withReturns, hc, splitLines]
      rw [hlines, show splitLines (c :: cs) = [] :: splitLines cs by simp [splitLines, hc]]
      exact .cons ⟨['\r'], .inr rfl, rfl⟩ ih
    · rw [withReturns_cons hc]
      simp only [splitLines, beq_iff_eq, if_neg hc]
      generalize splitLines (withReturns cs) = lines', splitLines cs = lines at ih
      cases ih with
      | nil => exact .cons ⟨[], .inl rfl, rfl⟩ .nil
      | cons hfirst hrest =>
        obtain ⟨taken, htaken, rfl⟩ := hfirst
        exact .cons ⟨taken, htaken, rfl⟩ hrest

/-- The tokens of a comment do not show carriage returns. -/
theorem placeLines_withReturns (line : Nat) (body : List Char) :
    placeLines line (splitLines (withReturns body)) = placeLines line (splitLines body) := by
  have hlines := splitLines_withReturns body
  generalize splitLines (withReturns body) = lines', splitLines body = lines at hlines
  induction hlines generalizing line with
  | nil => rfl
  | cons hfirst _ ih =>
    obtain ⟨taken, htaken, rfl⟩ := hfirst
    rw [placeLines, placeLines, ih, blockLineText, blockLineText, trim_taken htaken]

/-- A comment ends where it did. -/
theorem splitBlockComment_withReturns (cs : List Char) :
    splitBlockComment (withReturns cs) = (withReturns (splitBlockComment cs).1,
      (splitBlockComment cs).2.1, withReturns (splitBlockComment cs).2.2) := by
  fun_induction splitBlockComment cs with
  | case1 => rfl
  | case2 rest => simp [withReturns, splitBlockComment]
  | case3 c rest hc r ih =>
    by_cases hnew : c = '\n'
    · simp [withReturns, hnew, splitBlockComment, ih, r]
    · have hhead := beq_head?_withReturns (x := '/') (by decide) (by decide) rest
      have hend (hstar : c = '*') : (withReturns rest).head? ≠ some '/' := by
        rw [← beq_eq_false_iff_ne, hhead, beq_eq_false_iff_ne]
        exact head?_ne_of_forall_ne fun more => hc more hstar
      rw [withReturns_cons hnew, splitBlockComment_cons hend, ih, withReturns_cons hnew]

end Comments

section Runs

/-- With carriage returns a preprocessor run ends with its line. -/
theorem splitPreprocessor_withReturns (cs : List Char) :
    splitPreprocessor (withReturns cs) =
      ((withReturns cs).takeWhile (· != '\n'), (withReturns cs).dropWhile (· != '\n')) := by
  induction cs with
  | nil => rfl
  | cons c cs ih =>
    by_cases hc : c = '\n'
    · simp [withReturns, hc, splitPreprocessor]
    · rw [withReturns_cons hc, splitPreprocessor_cons hc fun _ => head?_withReturns_ne cs, ih]
      simp [hc]

/-- A preprocessor run without a line feed is the rest of its line. -/
theorem splitPreprocessor_of_oneLine {cs : List Char} (h : '\n' ∉ (splitPreprocessor cs).1) :
    splitPreprocessor cs = (cs.takeWhile (· != '\n'), cs.dropWhile (· != '\n')) := by
  fun_induction splitPreprocessor cs with
  | case1 => rfl
  | case2 rest r ih => simp at h
  | case3 rest => simp
  | case4 c rest h1 h2 r ih =>
    have hc : c ≠ '\n' := fun hc => h2 hc
    have hr : '\n' ∉ r.1 := fun hr => h (List.mem_cons_of_mem c hr)
    have hrest := ih hr
    simp only [r]
    rw [hrest]
    simp [hc]

/-- A literal that reaches no line feed is the same in both texts; any other takes a carriage
return. -/
theorem splitQuoted_withReturns {quote : Char} (hquote : quote ≠ '\r') (cs : List Char) :
    ('\n' ∉ (splitQuoted quote cs).1 ∧
      (reachesQuote quote cs = true ∨ (splitQuoted quote cs).2 = []) ∧
      splitQuoted quote (withReturns cs) =
        ((splitQuoted quote cs).1, withReturns (splitQuoted quote cs).2)) ∨
    (¬ ('\n' ∉ (splitQuoted quote cs).1 ∧
      (reachesQuote quote cs = true ∨ (splitQuoted quote cs).2 = [])) ∧
      '\r' ∈ (splitQuoted quote (withReturns cs)).1) := by
  fun_induction splitQuoted quote cs with
  | case1 => exact .inl ⟨by simp, by simp, rfl⟩
  | case2 => exact .inl ⟨by decide, by simp, rfl⟩
  | case3 c rest r ih =>
    by_cases hc : c = '\n'
    · refine .inr ⟨by simp [hc], ?_⟩
      simp [withReturns, hc, splitQuoted]
    · rw [withReturns_cons (by decide), withReturns_cons hc]
      simp only [splitQuoted, reachesQuote]
      rcases ih with ⟨hnone, hreach, hsame⟩ | ⟨hbroken, hreturn⟩
      · exact .inl ⟨by simp [r, hnone, Ne.symm hc], hreach, by rw [hsame]⟩
      · refine .inr ⟨fun hboth => hbroken ⟨fun hmem => hboth.1 ?_, hboth.2⟩, by simp [hreturn]⟩
        exact List.mem_cons_of_mem _ (List.mem_cons_of_mem _ hmem)
  | case4 c rest h1 h2 h3 =>
    have hc : c = '\n' := by simpa using h3
    refine .inr ⟨by simp [hc, reachesQuote], ?_⟩
    simp [withReturns, hc, splitQuoted, hquote.symm]
  | case5 c rest h1 h2 h3 h4 =>
    have hback := ne_backslash_of_not_escape h1 h2
    have hc : c ≠ '\n' := by simpa using h3
    have hq : c = quote := by simpa using h4
    rw [withReturns_cons hc, splitQuoted_cons hback, reachesQuote_cons hback, if_neg h3, if_neg h3,
      if_pos h4, if_pos h4]
    exact .inl ⟨by simp [Ne.symm hc], .inl rfl, rfl⟩
  | case6 c rest h1 h2 h3 h4 r ih =>
    have hback := ne_backslash_of_not_escape h1 h2
    have hc : c ≠ '\n' := by simpa using h3
    rw [withReturns_cons hc, splitQuoted_cons hback, reachesQuote_cons hback, if_neg h3, if_neg h3,
      if_neg h4, if_neg h4]
    rcases ih with ⟨hnone, hreach, hsame⟩ | ⟨hbroken, hreturn⟩
    · exact .inl ⟨by simp [r, hnone, Ne.symm hc], hreach, by rw [hsame]⟩
    · refine .inr ⟨fun hboth => hbroken ⟨fun hmem => hboth.1 ?_, hboth.2⟩, by simp [hreturn]⟩
      exact List.mem_cons_of_mem _ hmem

end Runs

section Lexemes

variable {lineStart : Bool} {c : Char} {rest : List Char}

/-- The same lexeme in front of the same text with carriage returns is the same cut. -/
theorem SameCut.of_eq {cut cut' : Lexeme × List Char} (h : cut' = (cut.1, withReturns cut.2)) :
    SameCut lineStart cut cut' := by
  subst h
  exact ⟨fun _ => rfl, rfl, rfl, .inl rfl⟩

/-- Two lexemes other than blanks with the same tokens and line feeds are the same cut. -/
theorem SameCut.of_not_blank {cut cut' : Lexeme × List Char} (hcut : ∀ c, cut.1 ≠ .blank c)
    (hcut' : ∀ c, cut'.1 ≠ .blank c) (htokens : ∀ line, cut'.1.tokens line = cut.1.tokens line)
    (hfeeds : cut'.1.lineFeeds = cut.1.lineFeeds)
    (hbehind : cut'.2 = withReturns cut.2 ∨ '\r' :: cut'.2 = withReturns cut.2) :
    SameCut lineStart cut cut' :=
  ⟨htokens, hfeeds, by rw [Lexeme.lineStartAfter_eq hcut, Lexeme.lineStartAfter_eq hcut', hfeeds],
    hbehind⟩

/-- A line comment is the same cut with carriage returns. -/
theorem sameCut_lineComment (cs : List Char) :
    SameCut lineStart (.lineComment (cs.takeWhile (· != '\n')), cs.dropWhile (· != '\n'))
      (.lineComment ((withReturns cs).takeWhile (· != '\n')),
        (withReturns cs).dropWhile (· != '\n')) := by
  obtain ⟨taken, htaken, hline, hbehind⟩ := takeWhile_line_withReturns cs
  refine .of_not_blank (by simp) (by simp) (fun line => ?_) ?_ (behind_of_taken htaken hbehind)
  · simp only [Lexeme.tokens, hline, trim_taken htaken]
  · simp [Lexeme.lineFeeds, Lexeme.text, hline, count_newline_of_taken htaken]

/-- A block comment is the same cut with carriage returns. -/
theorem sameCut_blockComment (cs : List Char) :
    SameCut lineStart
      (.blockComment (splitBlockComment cs).1 (splitBlockComment cs).2.1, (splitBlockComment cs).2.2)
      (.blockComment (splitBlockComment (withReturns cs)).1 (splitBlockComment (withReturns cs)).2.1,
        (splitBlockComment (withReturns cs)).2.2) := by
  rw [splitBlockComment_withReturns]
  refine .of_not_blank (by simp) (by simp) (fun line => ?_) ?_ (.inl rfl)
  · exact placeLines_withReturns line _
  · simp [Lexeme.lineFeeds, Lexeme.text, count_withReturns]

/-- A preprocessor run on one line is the same cut with carriage returns. -/
theorem sameCut_preprocessor {cs : List Char} (h : '\n' ∉ (splitPreprocessor cs).1) :
    SameCut lineStart (.preprocessor ('#' :: (splitPreprocessor cs).1), (splitPreprocessor cs).2)
      (.preprocessor ('#' :: (splitPreprocessor (withReturns cs)).1),
        (splitPreprocessor (withReturns cs)).2) := by
  obtain ⟨taken, htaken, hline, hbehind⟩ := takeWhile_line_withReturns cs
  rw [splitPreprocessor_withReturns, splitPreprocessor_of_oneLine h, hline]
  refine .of_not_blank (by simp) (by simp) (fun _ => rfl) ?_ (behind_of_taken htaken hbehind)
  simp [Lexeme.lineFeeds, Lexeme.text, count_newline_of_taken htaken]

/-- A continued preprocessor run ends behind its first line with carriage returns, and leaves the
lines it was continued to. -/
theorem splitPreprocessor_withReturns_of_continued {cs : List Char}
    (h : '\n' ∈ (splitPreprocessor cs).1) : ∃ first further,
      '\n' ∉ first ∧ (splitPreprocessor cs).1 = first ++ '\n' :: further ∧
      splitPreprocessor (withReturns cs) =
        (first ++ ['\r'], '\n' :: withReturns (further ++ (splitPreprocessor cs).2)) := by
  obtain ⟨first, further, hrun, hfirst⟩ := List.eq_append_cons_of_mem h
  refine ⟨first, further, hfirst, hrun, ?_⟩
  have htext : withReturns cs =
      first ++ '\r' :: '\n' :: withReturns (further ++ (splitPreprocessor cs).2) := by
    conv_lhs => rw [← splitPreprocessor_append cs, hrun]
    rw [List.append_assoc, withReturns_append, withReturns_of_not_mem hfirst]
    simp [withReturns]
  rw [splitPreprocessor_withReturns, htext,
    List.takeWhile_append_of_pos (bne_newline_of_not_mem hfirst),
    List.dropWhile_append_of_pos (bne_newline_of_not_mem hfirst)]
  simp

/-- A preprocessor run on one line is read the same with carriage returns. -/
theorem isUnbroken_preprocessor {text : List Char} {last : Bool} (h : '\n' ∉ text) :
    (Lexeme.preprocessor text).isUnbroken last = true := by
  have hnil : text.dropWhile (· != '\n') = [] :=
    List.dropWhile_eq_nil_iff.mpr (bne_newline_of_not_mem h)
  simp [Lexeme.isUnbroken, hnil]

/-- The line feeds of a continued preprocessor run. -/
theorem lineFeeds_continued {first further : List Char} (h : '\n' ∉ first) :
    (Lexeme.preprocessor (first ++ '\n' :: further)).lineFeeds = 1 + further.count '\n' := by
  rw [Lexeme.lineFeeds, Lexeme.text, List.count_append, List.count_eq_zero.mpr h,
    List.count_cons_self]
  omega

/-- A continued preprocessor run is read the same with carriage returns if it goes on with blanks. -/
theorem isUnbroken_continued {first further : List Char} {last : Bool} (h : '\n' ∉ first) :
    (Lexeme.preprocessor (first ++ '\n' :: further)).isUnbroken last = true ↔ Blank further := by
  simp only [Lexeme.isUnbroken, List.dropWhile_append_of_pos (bne_newline_of_not_mem h)]
  have hnewline : isBlank '\n' = true := by decide
  simp [Blank, hnewline]

/-- A literal is read the same with carriage returns if it reaches no line feed. -/
theorem isUnbroken_quoted (hc : c ≠ '\n') :
    (Lexeme.quoted (c :: (splitQuoted c rest).1)).isUnbroken (splitQuoted c rest).2.isEmpty = true ↔
      '\n' ∉ (splitQuoted c rest).1 ∧
        (reachesQuote c rest = true ∨ (splitQuoted c rest).2 = []) := by
  simp [Lexeme.isUnbroken, Lexeme.isFinished, reachesQuote_splitQuoted, Ne.symm hc]

/-- A lexeme is the same cut with carriage returns, or it is a literal that then holds a carriage
return, or a continued preprocessor run that then ends behind its first line. -/
theorem nextLexeme_withReturns (lineStart : Bool) {c : Char} (hc : c ≠ '\n') (rest : List Char) :
    let cut := nextLexeme lineStart c rest
    let cut' := nextLexeme lineStart c (withReturns rest)
    (cut.1.isUnbroken cut.2.isEmpty = true ∧ SameCut lineStart cut cut') ∨
    (cut.1.isUnbroken cut.2.isEmpty = false ∧
      ∃ text text', cut.1 = .quoted text ∧ cut'.1 = .quoted text' ∧ '\r' ∈ text') ∨
    (∃ first further, '\n' ∉ first ∧ cut.1 = .preprocessor (first ++ '\n' :: further) ∧
      cut' = (.preprocessor (first ++ ['\r']), '\n' :: withReturns (further ++ cut.2))) := by
  have hslash := beq_head?_withReturns (x := '/') (by decide) (by decide) rest
  have hstar := beq_head?_withReturns (x := '*') (by decide) (by decide) rest
  have htwo := beq_take_two_withReturns rest
  unfold nextLexeme
  rw [hslash, hstar, htwo]
  by_cases hblank : isBlank c = true
  · simp only [hblank, ↓reduceIte]
    exact .inl ⟨rfl, .of_eq rfl⟩
  simp only [hblank, Bool.false_eq_true, ↓reduceIte]
  by_cases hline : (c == '/' && rest.head? == some '/') = true
  · simp only [hline, ↓reduceIte]
    simp only [Bool.and_eq_true, beq_iff_eq] at hline
    obtain ⟨body, rfl⟩ := List.head?_eq_some_iff.mp hline.2
    rw [withReturns_cons (by decide)]
    exact .inl ⟨rfl, sameCut_lineComment body⟩
  simp only [hline, Bool.false_eq_true, ↓reduceIte]
  by_cases hcomment : (c == '/' && rest.head? == some '*') = true
  · simp only [hcomment, ↓reduceIte]
    simp only [Bool.and_eq_true, beq_iff_eq] at hcomment
    obtain ⟨body, rfl⟩ := List.head?_eq_some_iff.mp hcomment.2
    rw [withReturns_cons (by decide)]
    exact .inl ⟨rfl, sameCut_blockComment body⟩
  simp only [hcomment, Bool.false_eq_true, ↓reduceIte]
  by_cases hrun : (c == '#' && lineStart) = true
  · simp only [hrun, ↓reduceIte]
    simp only [Bool.and_eq_true, beq_iff_eq] at hrun
    obtain ⟨rfl, rfl⟩ := hrun
    by_cases hfeed : '\n' ∈ (splitPreprocessor rest).1
    · obtain ⟨first, further, hfirst, hsplit, hsplit'⟩ :=
        splitPreprocessor_withReturns_of_continued hfeed
      refine .inr (.inr ⟨'#' :: first, further, by simpa using hfirst, by rw [hsplit]; rfl, ?_⟩)
      rw [hsplit']
      rfl
    · refine .inl ⟨isUnbroken_preprocessor ?_, sameCut_preprocessor hfeed⟩
      simpa using hfeed
  simp only [hrun, Bool.false_eq_true, ↓reduceIte]
  by_cases hquote : (c == '"' || c == '\'') = true
  · simp only [hquote, ↓reduceIte]
    have hreturn : c ≠ '\r' := by
      rintro rfl
      exact hblank (by decide)
    rcases splitQuoted_withReturns hreturn rest with ⟨hnone, hends, hsame⟩ | ⟨hbroken, hmem⟩
    · exact .inl ⟨(isUnbroken_quoted hc).mpr ⟨hnone, hends⟩, .of_eq (by rw [hsame])⟩
    · refine .inr (.inl ⟨?_, _, _, rfl, rfl, List.mem_cons_of_mem c hmem⟩)
      rw [Bool.eq_false_iff]
      exact fun h => hbroken ((isUnbroken_quoted hc).mp h)
  simp only [hquote, Bool.false_eq_true, ↓reduceIte]
  by_cases hellipsis : (c == '.' && rest.take 2 == ['.', '.']) = true
  · simp only [hellipsis, ↓reduceIte]
    simp only [Bool.and_eq_true, beq_iff_eq] at hellipsis
    have hrest := List.take_append_drop 2 rest
    rw [hellipsis.2] at hrest
    refine .inl ⟨rfl, .of_eq ?_⟩
    conv_lhs => rw [← hrest]
    rw [withReturns_append]
    rfl
  simp only [hellipsis, Bool.false_eq_true, ↓reduceIte]
  have hword (inNumber : Bool) := takeWhile_withReturns (p := continuesWord inNumber)
    (by cases inNumber <;> decide +kernel) (by cases inNumber <;> decide +kernel) rest
  by_cases hname : (isLetter c || c == '_') = true
  · simp only [hname, ↓reduceIte, hword]
    exact .inl ⟨rfl, .of_eq rfl⟩
  simp only [hname, Bool.false_eq_true, ↓reduceIte]
  by_cases hnumber : isAsciiDigit c = true
  · simp only [hnumber, ↓reduceIte, hword]
    exact .inl ⟨rfl, .of_eq rfl⟩
  · simp only [hnumber, Bool.false_eq_true, ↓reduceIte]
    exact .inl ⟨rfl, .of_eq rfl⟩

/-- A lexeme other than a blank gives a token on the line it starts on. -/
theorem Lexeme.exists_mem_tokens {l : Lexeme} (h : ∀ c, l ≠ .blank c) (line : Nat) :
    ∃ t ∈ l.tokens line, t.line = line := by
  cases l with
  | blank c => exact absurd rfl (h c)
  | blockComment body closed =>
    cases hlines : splitLines body with
    | nil =>
      have := length_splitLines body
      simp [hlines] at this
    | cons first more =>
      rw [tokens, hlines, placeLines]
      exact ⟨_, List.mem_cons_self, rfl⟩
  | _ => exact ⟨_, List.mem_cons_self, rfl⟩

/-- A text that is not blank gives a token on one of its lines, whatever follows it. -/
theorem exists_mem_tokensFrom {cs : List Char} (h : ¬ Blank cs) (line : Nat) (lineStart : Bool)
    (more : List Char) :
    ∃ t ∈ tokensFrom line (lexemesFrom lineStart (cs ++ more)), t.line ≤ line + cs.count '\n' := by
  induction cs generalizing line lineStart with
  | nil => exact absurd (by simp [Blank]) h
  | cons c cs ih =>
    rw [List.cons_append, lexemesFrom_cons, tokensFrom]
    by_cases hc : isBlank c = true
    · have hcs : ¬ Blank cs := fun hcs => h (List.forall_mem_cons.mpr ⟨hc, hcs⟩)
      rw [nextLexeme_of_isBlank hc]
      obtain ⟨t, ht, hline⟩ := ih hcs (line + (Lexeme.blank c).lineFeeds) (c == '\n' || lineStart)
      refine ⟨t, List.mem_append_right _ ht, ?_⟩
      rw [Lexeme.lineFeeds, Lexeme.text, List.count_singleton] at hline
      rw [List.count_cons]
      omega
    · obtain ⟨t, ht, hline⟩ := Lexeme.exists_mem_tokens
        (fun d hd => hc (isBlank_of_nextLexeme hd)) line
      exact ⟨t, List.mem_append_left _ ht, by omega⟩

/-- A carriage return gives no tokens. -/
theorem tokensFrom_return (line : Nat) (lineStart : Bool) (cs : List Char) :
    tokensFrom line (lexemesFrom lineStart ('\r' :: cs)) =
      tokensFrom line (lexemesFrom lineStart cs) := by
  rw [lexemesFrom_cons, nextLexeme_of_isBlank (by decide), tokensFrom]
  rfl

/-- Only the empty text has no lexemes, as a test. -/
theorem isEmpty_lexemesFrom (lineStart : Bool) (cs : List Char) :
    (lexemesFrom lineStart cs).isEmpty = cs.isEmpty := by
  rw [Bool.eq_iff_iff, List.isEmpty_iff, List.isEmpty_iff, lexemesFrom_eq_nil]

/-- Behind a preprocessor run the text is at its end or goes on with a line feed. -/
theorem head?_nextLexeme_preprocessor {text : List Char}
    (h : (nextLexeme lineStart c rest).1 = .preprocessor text) {d : Char}
    (hd : (nextLexeme lineStart c rest).2.head? = some d) : d = '\n' := by
  unfold nextLexeme at h hd
  repeat' split at h
  all_goals simp_all
  exact head?_splitPreprocessor hd

/-- The lines a preprocessor run is continued to are read behind it with carriage returns. They give
the tokens of the text behind the run exactly if they are blank. -/
theorem tokensFrom_further {further behind : List Char}
    (hbehind : ∀ d, behind.head? = some d → d = '\n') (line : Nat) :
    tokensFrom (line + 1) (lexemesFrom true (withReturns (further ++ behind))) =
        tokensFrom (line + 1 + further.count '\n') (lexemesFrom true behind) ↔
      Blank further ∧ tokensFrom (line + 1 + further.count '\n')
        (lexemesFrom true (withReturns behind)) =
          tokensFrom (line + 1 + further.count '\n') (lexemesFrom true behind) := by
  rw [withReturns_append]
  by_cases hblank : Blank further
  · rw [lexemesFrom_blanks true _ (blank_withReturns.mpr hblank), tokensFrom_map_blank,
      count_withReturns, Bool.or_true]
    exact (and_iff_right hblank).symm
  · refine iff_of_false (fun h => ?_) (fun h => hblank h.1)
    obtain ⟨t, ht, hline⟩ := exists_mem_tokensFrom
      (mt blank_withReturns.mp hblank) (line + 1) true (withReturns behind)
    rw [h] at ht
    rw [count_withReturns] at hline
    cases behind with
    | nil => simp [lexemesFrom, tokensFrom] at ht
    | cons d behind =>
      rw [hbehind d rfl, tokensFrom_newline] at ht
      have := (line_of_mem_tokensFrom ht).1
      omega

/-- A continued preprocessor run gives the same tokens with carriage returns exactly if it goes on with
blanks and what stands behind it gives the same tokens. -/
theorem tokensFrom_continued {first further behind : List Char} (hfirst : '\n' ∉ first)
    (hbehind : ∀ d, behind.head? = some d → d = '\n') (line : Nat) (lineStart last : Bool) :
    let l := Lexeme.preprocessor (first ++ '\n' :: further)
    let l' := Lexeme.preprocessor (first ++ ['\r'])
    l'.tokens line ++ tokensFrom (line + l'.lineFeeds)
          (lexemesFrom (l'.lineStartAfter lineStart) ('\n' :: withReturns (further ++ behind))) =
        l.tokens line ++ tokensFrom (line + l.lineFeeds)
          (lexemesFrom (l.lineStartAfter lineStart) behind) ↔
      l.isUnbroken last = true ∧
        tokensFrom (line + l.lineFeeds) (lexemesFrom (l.lineStartAfter lineStart) (withReturns behind)) =
          tokensFrom (line + l.lineFeeds) (lexemesFrom (l.lineStartAfter lineStart) behind) := by
  intro l l'
  have hfeeds : l.lineFeeds = 1 + further.count '\n' := lineFeeds_continued hfirst
  have hfeeds' : l'.lineFeeds = 0 := by
    simp [l', Lexeme.lineFeeds, Lexeme.text, List.count_eq_zero.mpr hfirst]
  have hstart : l.lineStartAfter lineStart = true := by
    rw [Lexeme.lineStartAfter_eq (by simp [l]), hfeeds, decide_eq_true_iff]
    omega
  rw [isUnbroken_continued hfirst, hfeeds', hfeeds, hstart, ← Nat.add_assoc, tokensFrom_newline,
    Lexeme.tokens, Lexeme.tokens, List.append_cancel_left_eq]
  exact tokensFrom_further hbehind line

end Lexemes

/-- A text without carriage returns has the same tokens with them exactly if every lexeme of it is
read the same. -/
theorem tokensFrom_withReturns {cs : List Char} (hreturn : '\r' ∉ cs) (line : Nat)
    (lineStart : Bool) :
    tokensFrom line (lexemesFrom lineStart (withReturns cs)) =
        tokensFrom line (lexemesFrom lineStart cs) ↔
      unbroken (lexemesFrom lineStart cs) = true := by
  fun_induction lexemesFrom lineStart cs generalizing line with
  | case1 => simp [withReturns, lexemesFrom, unbroken]
  | case2 lineStart c rest cut ih =>
    have htext : cut.1.text ++ cut.2 = c :: rest := nextLexeme_append lineStart c rest
    rw [← htext, List.mem_append, not_or] at hreturn
    have ih := ih hreturn.2
    rw [unbroken, isEmpty_lexemesFrom, Bool.and_eq_true, ← ih (line + cut.1.lineFeeds)]
    by_cases hc : c = '\n'
    · subst hc
      have hcut : cut = (.blank '\n', rest) := nextLexeme_of_isBlank (by decide)
      rw [withReturns, if_pos rfl, tokensFrom_return, tokensFrom_newline, hcut]
      simp [tokensFrom, Lexeme.tokens, Lexeme.lineFeeds, Lexeme.text, Lexeme.lineStartAfter,
        Lexeme.isUnbroken]
    rw [withReturns_cons hc, lexemesFrom_cons, tokensFrom, tokensFrom]
    rcases nextLexeme_withReturns lineStart hc rest with
      ⟨hsame, hcut⟩ | ⟨hbroken, text, text', hquoted, hquoted', hmem⟩ |
      ⟨first, further, hfirst, hcut, hcut'⟩
    · rw [hcut.tokens, hcut.lineFeeds, hcut.lineStartAfter, List.append_cancel_left_eq]
      simp only [cut, hsame, true_and]
      rcases hcut.behind with hbehind | hbehind
      · rw [hbehind]
      · rw [← tokensFrom_return, hbehind]
    · refine iff_of_false (fun h => ?_) (fun h => by simp [cut, hbroken] at h)
      have hsame : text' = text := by
        rw [hquoted, hquoted'] at h
        simpa [Lexeme.tokens, String.ofList_inj] using congrArg List.head? h
      refine hreturn.1 ?_
      rw [show cut.1 = .quoted text from hquoted]
      exact hsame ▸ hmem
    · rw [show cut.1 = _ from hcut, hcut']
      exact tokensFrom_continued hfirst (fun d hd => head?_nextLexeme_preprocessor hcut hd) line
        lineStart cut.2.isEmpty

/-- With carriage returns a text has the same tokens exactly if no literal of it reaches a line feed
and its preprocessor runs are continued by blanks only; then it is read the same. -/
theorem readSource_withReturns (text : String) (hreturn : '\r' ∉ text.toList) :
    (tokenize (String.ofList (withReturns text.toList)) = tokenize text ↔
      unbroken (lexemes text.toList) = true) ∧
    (unbroken (lexemes text.toList) = true → ∀ file,
      readSource file (String.ofList (withReturns text.toList)) = readSource file text) := by
  have htokens : tokenize (String.ofList (withReturns text.toList)) = tokenize text ↔
      unbroken (lexemes text.toList) = true := by
    rw [tokenize, String.toList_ofList]
    exact tokensFrom_withReturns hreturn 1 true
  refine ⟨htokens, fun hunbroken file => ?_⟩
  rw [readSource, readSource, htokens.mpr hunbroken]

/-- A function with a directive in a block comment over several lines, behind a macro of one line. -/
theorem readSource_withReturns_block_comment :
    let text := "#define LIMIT \"a\\\"b\"\n/* Adds.\n * @cost low\n */\n" ++
      "int f(int x) \x7b return '\\n'; \x7d\n"
    '\r' ∉ text.toList ∧ unbroken (lexemes text.toList) = true ∧
      tokenize (String.ofList (withReturns text.toList)) = tokenize text ∧
      readSource "x.c" (String.ofList (withReturns text.toList)) = readSource "x.c" text ∧
      (readSource "x.c" text).descriptors.map (·.name) = ["f"] := by
  intro text
  have hreturn : '\r' ∉ text.toList := by decide +kernel
  have hunbroken : unbroken (lexemes text.toList) = true := by decide +kernel
  have h := readSource_withReturns text hreturn
  exact ⟨hreturn, hunbroken, h.1.mpr hunbroken, h.2 hunbroken "x.c", by decide +kernel⟩

/-- With carriage returns the second line of a macro is read as code, and hides the function behind
it. -/
theorem continued_macro_read_with_returns :
    let text := "#define SUM(a, b) \\\n  ((a) + (b))\nint f(int x) \x7b return x; \x7d\n"
    let returned := String.ofList (withReturns text.toList)
    '\r' ∉ text.toList ∧ (readSource "x.c" text).descriptors.map (·.name) = ["f"] ∧
      (readSource "x.c" text).diagnostics = [] ∧ (readSource "x.c" returned).descriptors = [] ∧
      (readSource "x.c" returned).diagnostics =
        [.parse none ⟨"x.c", 2⟩ "unrecognized function declarator"] := by
  decide +kernel

end CBind.Source
