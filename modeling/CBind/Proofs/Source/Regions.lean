import CBind.Proofs.Source.Cutting
import Mathlib.Data.List.TakeWhile

/-!
# Comments and literals, character by character

Reading a text one character at a time, and no line of it differently from another, tells for each
place whether it stands in code, in a comment or in a literal. Cutting a text into lexemes agrees with
this reading wherever a lexeme ends, with one exception: a preprocessor run is cut off as one lexeme
whatever it contains, so behind a run that leaves a comment open the two readings differ.
-/

namespace CBind.Source

open CBind.Text

/-- Where a place of a text stands. In code, the slash in front of it is remembered; in a comment, the
star; in a literal, its quote and whether the next character is escaped. -/
inductive Region where
  | code
  | slash
  | line
  | block
  | star
  | literal (quote : Char)
  | escape (quote : Char)
deriving DecidableEq, Repr

namespace Region

/-- The region that a character of code opens. -/
def opened (c : Char) : Region :=
  if c = '/' then slash else if c = '"' ∨ c = '\'' then literal c else code

/-- The region behind one more character. -/
def step : Region → Char → Region
  | code, c => opened c
  | slash, c => if c = '/' then line else if c = '*' then block else opened c
  | line, c => if c = '\n' then code else line
  | block, c => if c = '*' then star else block
  | star, c => if c = '/' then code else if c = '*' then star else block
  | literal quote, c =>
    if c = '\\' then escape quote else if c = '\n' ∨ c = quote then code else literal quote
  | escape quote, _ => literal quote

/-- The region behind a text that starts in a region. -/
def run (r : Region) (cs : List Char) : Region :=
  cs.foldl step r

/-- Recognize the inside of a block comment. -/
def inComment : Region → Bool
  | block => true
  | star => true
  | _ => false

/-- A character behind a region opens what it would open in code. -/
def Joins (r : Region) (c : Char) : Prop :=
  r.step c = opened c

end Region

/-- The region behind a text. -/
def regionOf (cs : List Char) : Region :=
  Region.run .code cs

section Region

variable {cs rest : List Char} {c quote : Char}

/-- The region behind consecutive texts. -/
theorem Region.run_append (r : Region) (a b : List Char) : r.run (a ++ b) = (r.run a).run b := by
  simp [run]

/-- The region behind a text with a character in front. -/
theorem Region.run_cons (r : Region) (c : Char) (cs : List Char) :
    r.run (c :: cs) = (r.step c).run cs := rfl

/-- What follows a text that a character joins is read as if it stood alone. -/
theorem regionOf_append {a b : List Char} (h : ∀ c, b.head? = some c → (regionOf a).Joins c)
    (hne : b ≠ []) : regionOf (a ++ b) = regionOf b := by
  cases b with
  | nil => contradiction
  | cons c b =>
    rw [regionOf, Region.run_append, Region.run_cons]
    show ((regionOf a).step c).run b = _
    rw [h c rfl]
    rfl

/-- A character that opens nothing leaves code behind it. -/
theorem opened_of_plain (h : c ≠ '/' ∧ c ≠ '"' ∧ c ≠ '\'') : Region.opened c = .code := by
  simp [Region.opened, h]

/-- A text that opens nothing is code. -/
theorem regionOf_of_plain (h : ∀ c ∈ cs, Region.opened c = .code) : regionOf cs = .code := by
  induction cs with
  | nil => rfl
  | cons c cs ih =>
    rw [regionOf, Region.run_cons]
    show (Region.opened c).run cs = _
    rw [h c List.mem_cons_self]
    exact ih fun d hd => h d (List.mem_cons_of_mem c hd)

/-- What continues a word opens nothing. -/
theorem opened_of_continuesWord {inNumber : Bool} (h : continuesWord inNumber c = true) :
    Region.opened c = .code := by
  refine opened_of_plain ⟨?_, ?_, ?_⟩ <;> rintro rfl <;> revert h <;> cases inNumber <;> decide +kernel

/-- A line comment stays one up to its line feed. -/
theorem run_line (h : '\n' ∉ cs) : Region.line.run cs = .line := by
  induction cs with
  | nil => rfl
  | cons c cs ih =>
    rw [List.mem_cons, not_or] at h
    rw [Region.run_cons, Region.step, if_neg (Ne.symm h.1)]
    exact ih h.2

/-- A block comment ends with its closing mark, and not before. -/
theorem run_block (cs : List Char) :
    let r := Region.block.run ((splitBlockComment cs).1 ++ commentEnd (splitBlockComment cs).2.1)
    if (splitBlockComment cs).2.1 = true then r = .code else r.inComment = true := by
  fun_induction splitBlockComment cs with
  | case1 => rfl
  | case2 rest => rfl
  | case3 c rest hc r ih =>
    have htext : r.1 ++ commentEnd r.2.1 ++ r.2.2 = rest := splitBlockComment_append rest
    rw [List.cons_append, Region.run_cons]
    by_cases hstar : c = '*'
    · cases hsplit : r.1 ++ commentEnd r.2.1 with
      | nil =>
        have hopen : r.2.1 = false := by
          cases hclosed : r.2.1 with
          | false => rfl
          | true => simp [hclosed, commentEnd] at hsplit
        simp [hopen, hstar, Region.step, Region.run, Region.inComment]
      | cons d text =>
        -- The star is the first half of no closing mark.
        have hslash : d ≠ '/' := by
          rintro rfl
          rw [hsplit] at htext
          exact hc _ hstar htext.symm
        have hstep : (Region.block.step c).run (d :: text) = Region.block.run (d :: text) := by
          simp [Region.run_cons, hstar, Region.step, hslash]
        rw [hstep, ← hsplit]
        exact ih
    · rw [Region.step, if_neg hstar]
      exact ih

/-- A literal ends with its closing quote, and not before. -/
theorem run_literal (quote : Char) (cs : List Char) :
    let r := (Region.literal quote).run (splitQuoted quote cs).1
    if reachesQuote quote cs = true then r = .code
    else r = .literal quote ∨ r = .escape quote ∧ (splitQuoted quote cs).2 = [] := by
  fun_induction splitQuoted quote cs with
  | case1 => exact .inl rfl
  | case2 => exact .inr ⟨by simp [Region.run, Region.step], rfl⟩
  | case3 c rest r ih => simpa [Region.run_cons, Region.step, reachesQuote] using ih
  | case4 c rest h1 h2 h3 =>
    have hback := ne_backslash_of_not_escape h1 h2
    rw [reachesQuote_cons hback, if_pos h3]
    exact .inl rfl
  | case5 c rest h1 h2 h3 h4 =>
    have hback := ne_backslash_of_not_escape h1 h2
    have hquote : c = quote := by simpa using h4
    rw [reachesQuote_cons hback, if_neg h3, if_pos h4]
    simp [Region.run, Region.step, ← hquote, hback]
  | case6 c rest h1 h2 h3 h4 r ih =>
    have hback := ne_backslash_of_not_escape h1 h2
    have hstep : (Region.literal quote).step c = .literal quote := by
      simpa [Region.step, hback] using And.intro h3 h4
    rw [reachesQuote_cons hback, if_neg h3, if_neg h4, Region.run_cons, hstep]
    exact ih

end Region

section Lexemes

variable {cs rest : List Char} {c : Char} {lineStart : Bool}

/-- A character is escaped only behind a backslash. -/
theorem eq_backslash_of_step {r : Region} {quote : Char} (h : r.step c = .escape quote) : c = '\\' := by
  have hopened : Region.opened c ≠ .escape quote := by
    unfold Region.opened
    split_ifs <;> simp
  cases r with
  | code => exact absurd h hopened
  | literal q =>
    by_contra hc
    simp only [Region.step, if_neg hc] at h
    split_ifs at h
  | escape q => simp [Region.step] at h
  | _ =>
    simp only [Region.step] at h
    split_ifs at h
    all_goals exact absurd h hopened

/-- The next character is escaped only behind a backslash. -/
theorem getLast?_of_regionOf {quote : Char} (h : regionOf cs = .escape quote) :
    cs.getLast? = some '\\' := by
  cases hlast : cs.getLast? with
  | none =>
    rw [List.getLast?_eq_none_iff.mp hlast] at h
    simp [regionOf, Region.run] at h
  | some c =>
    obtain ⟨front, rfl⟩ := List.getLast?_eq_some_iff.mp hlast
    rw [regionOf, Region.run_append] at h
    rw [eq_backslash_of_step h]

/-- A preprocessor run that a line feed ends does not end with a backslash. -/
theorem getLast?_splitPreprocessor (h : (splitPreprocessor cs).2 ≠ []) :
    (splitPreprocessor cs).1.getLast? ≠ some '\\' := by
  fun_induction splitPreprocessor cs with
  | case1 => simp
  | case2 rest r ih =>
    cases hr : r.1 with
    | nil => simp
    | cons d text =>
      rw [List.getLast?_cons_cons, List.getLast?_cons_cons, ← hr]
      exact ih h
  | case3 rest => simp
  | case4 c rest h1 h2 r ih =>
    cases hr : r.1 with
    | nil =>
      have htext : r.1 ++ r.2 = rest := splitPreprocessor_append rest
      rw [hr, List.nil_append] at htext
      rw [List.getLast?_singleton, ne_eq, Option.some.injEq]
      intro hback
      cases hrest : rest with
      | nil => exact h (htext.trans hrest)
      | cons d more =>
        -- The run ends here only in front of a line feed, which the backslash would escape.
        have hd : d = '\n' :=
          head?_splitPreprocessor (show r.2.head? = some d by rw [htext, hrest]; rfl)
        exact h1 more hback (by rw [hrest, hd])
    | cons d text =>
      rw [List.getLast?_cons_cons, ← hr]
      exact ih h

/-- A comment that is not closed goes on to the end of the text. -/
theorem behind_of_not_closed (h : (splitBlockComment cs).2.1 = false) :
    (splitBlockComment cs).2.2 = [] := by
  fun_induction splitBlockComment cs with
  | case1 => rfl
  | case2 => contradiction
  | case3 c rest hc r ih => exact ih h

/-- A literal that does not reach its quote goes on to the end of the line or of the text. -/
theorem head?_splitQuoted {quote : Char} (h : reachesQuote quote cs ≠ true) {d : Char}
    (hd : (splitQuoted quote cs).2.head? = some d) : d = '\n' := by
  fun_induction splitQuoted quote cs with
  | case1 => simp at hd
  | case2 => simp at hd
  | case3 c rest r ih => exact ih h hd
  | case4 c rest h1 h2 h3 =>
    have hc : c = '\n' := by simpa using h3
    rw [List.head?_cons, Option.some.injEq] at hd
    rw [← hd, hc]
  | case5 c rest h1 h2 h3 h4 =>
    have hback := ne_backslash_of_not_escape h1 h2
    simp [reachesQuote_cons hback, h3, h4] at h
  | case6 c rest h1 h2 h3 h4 r ih =>
    have hback := ne_backslash_of_not_escape h1 h2
    rw [reachesQuote_cons hback, if_neg h3, if_neg h4] at h
    exact ih h hd

/-- A region other than a comment or an escape ends with its line. -/
theorem joins_newline {r : Region} (hcomment : r.inComment = false)
    (hescape : ∀ quote, r ≠ .escape quote) : r.Joins '\n' := by
  cases r with
  | escape quote => exact absurd rfl (hescape quote)
  | block => contradiction
  | star => contradiction
  | literal quote => simp [Region.Joins, Region.step, Region.opened]
  | _ => rfl

/-- Whether a lexeme is a preprocessor run that leaves a comment open. -/
def Lexeme.leavesOpen : Lexeme → Bool
  | preprocessor run => (regionOf run).inComment
  | _ => false

/-- Reading by characters agrees with a cut: behind a lexeme that leaves no comment open, what follows
is read as if it stood alone, and a lexeme with code behind it is finished. -/
structure Agrees (cut : Lexeme × List Char) : Prop where
  joins (hwhole : cut.1.leavesOpen = false) {d : Char} (hd : cut.2.head? = some d) :
    (regionOf cut.1.text).Joins d
  isFinished (hcode : regionOf cut.1.text = .code)
    (hrun : ∀ text, cut.1 ≠ .preprocessor text) : cut.1.isFinished = true ∧ cut.1 ≠ .mark '/'

/-- A finished lexeme of code agrees. -/
theorem agrees_of_code {l : Lexeme} (hcode : regionOf l.text = .code) (hfinished : l.isFinished = true)
    (hslash : l ≠ .mark '/') : Agrees (l, rest) where
  joins _ d _ := by rw [hcode]; rfl
  isFinished _ _ := ⟨hfinished, hslash⟩

/-- A line comment agrees: its line feed ends both. -/
theorem agrees_lineComment (cs : List Char) :
    Agrees (.lineComment (cs.takeWhile (· != '\n')), cs.dropWhile (· != '\n')) := by
  have hline : regionOf ('/' :: '/' :: cs.takeWhile (· != '\n')) = .line := by
    refine run_line fun hmem => ?_
    simpa using List.mem_takeWhile_imp hmem
  refine ⟨fun _ d hd => ?_, fun hcode _ => ?_⟩
  · have hfeed := List.head?_dropWhile_not (· != '\n') cs
    simp only [show (cs.dropWhile (· != '\n')).head? = some d from hd] at hfeed
    rw [show d = '\n' by simpa using hfeed, Lexeme.text, hline]
    rfl
  · rw [Lexeme.text, hline] at hcode
    contradiction

/-- A block comment agrees. -/
theorem agrees_blockComment (cs : List Char) :
    Agrees (.blockComment (splitBlockComment cs).1 (splitBlockComment cs).2.1,
      (splitBlockComment cs).2.2) := by
  have hblock := run_block cs
  cases hclosed : (splitBlockComment cs).2.1 with
  | true =>
    rw [hclosed, if_pos rfl] at hblock
    exact agrees_of_code hblock rfl (by simp)
  | false =>
    rw [hclosed, if_neg (by simp)] at hblock
    refine ⟨fun _ d hd => ?_, fun hcode _ => ?_⟩
    · rw [behind_of_not_closed hclosed] at hd
      contradiction
    · rw [show Region.block.run _ = .code from hcode] at hblock
      contradiction

/-- A preprocessor run agrees if it leaves no comment open. -/
theorem agrees_preprocessor (cs : List Char) :
    Agrees (.preprocessor ('#' :: (splitPreprocessor cs).1), (splitPreprocessor cs).2) := by
  refine ⟨fun hwhole d hd => ?_, fun _ hrun => absurd rfl (hrun _)⟩
  rw [head?_splitPreprocessor hd]
  refine joins_newline hwhole fun quote hescape => ?_
  have hlast : ('#' :: (splitPreprocessor cs).1).getLast? = some '\\' := getLast?_of_regionOf hescape
  have hne : (splitPreprocessor cs).2 ≠ [] := by
    intro hnil
    simp [hnil] at hd
  refine getLast?_splitPreprocessor hne ?_
  cases hrun : (splitPreprocessor cs).1 with
  | nil => simp [hrun] at hlast
  | cons e text => rwa [hrun, List.getLast?_cons_cons] at hlast

/-- A literal agrees. -/
theorem agrees_quoted {quote : Char} (hquote : quote = '"' ∨ quote = '\'') (cs : List Char) :
    Agrees (.quoted (quote :: (splitQuoted quote cs).1), (splitQuoted quote cs).2) := by
  have hliteral := run_literal quote cs
  have hopened : regionOf (quote :: (splitQuoted quote cs).1) =
      (Region.literal quote).run (splitQuoted quote cs).1 := by
    rcases hquote with rfl | rfl <;> rfl
  by_cases hreach : reachesQuote quote cs = true
  · rw [if_pos hreach, ← hopened] at hliteral
    refine agrees_of_code hliteral ?_ (by simp)
    rw [Lexeme.isFinished, reachesQuote_splitQuoted, hreach]
  · rw [if_neg hreach, ← hopened] at hliteral
    refine ⟨fun _ d hd => ?_, fun hcode _ => ?_⟩
    · rcases hliteral with hliteral | ⟨-, hnil⟩
      · rw [Lexeme.text, hliteral, head?_splitQuoted hreach hd]
        exact joins_newline rfl (by simp)
      · simp [hnil] at hd
    · rw [show regionOf (quote :: _) = .code from hcode] at hliteral
      simp at hliteral

/-- A slash that opens no comment agrees. -/
theorem agrees_slash (hline : rest.head? ≠ some '/') (hcomment : rest.head? ≠ some '*') :
    Agrees (.mark '/', rest) where
  joins _ d hd := by
    have hslash : d ≠ '/' := fun h => hline (h ▸ hd)
    have hstar : d ≠ '*' := fun h => hcomment (h ▸ hd)
    show Region.slash.step d = Region.opened d
    rw [Region.step, if_neg hslash, if_neg hstar]
  isFinished hcode _ := by
    rw [show regionOf (Lexeme.mark '/').text = .slash from rfl] at hcode
    contradiction

/-- Reading by characters agrees with every cut. -/
theorem agrees_nextLexeme (lineStart : Bool) (c : Char) (rest : List Char) :
    Agrees (nextLexeme lineStart c rest) := by
  have hword (inNumber : Bool) (hc : Region.opened c = .code) :
      regionOf (c :: rest.takeWhile (continuesWord inNumber)) = .code := by
    refine regionOf_of_plain (List.forall_mem_cons.mpr ⟨hc, fun d hd => ?_⟩)
    exact opened_of_continuesWord (List.mem_takeWhile_imp hd)
  unfold nextLexeme
  split_ifs with hblank hline hcomment hrun hquote hellipsis hname hnumber
  · refine agrees_of_code (show Region.opened c = .code from opened_of_plain ?_) rfl (by simp)
    refine ⟨?_, ?_, ?_⟩ <;> rintro rfl <;> revert hblank <;> decide
  · exact agrees_lineComment _
  · exact agrees_blockComment _
  · simp only [Bool.and_eq_true, beq_iff_eq] at hrun
    rw [hrun.1]
    exact agrees_preprocessor rest
  · exact agrees_quoted (by simpa using hquote) rest
  · exact agrees_of_code (by decide) rfl (by simp)
  · have hletter : continuesWord false c = true := by
      simp only [Bool.or_eq_true] at hname
      rcases hname with hname | hname
      · simp [continuesWord, isLetterOrNumber_of_isLetter hname]
      · simp [continuesWord, hname]
    exact agrees_of_code (hword false (opened_of_continuesWord hletter)) rfl (by simp)
  · have hdigit : continuesWord true c = true := by
      simp [continuesWord, isLetterOrNumber_of_isAsciiDigit hnumber]
    exact agrees_of_code (hword true (opened_of_continuesWord hdigit)) rfl (by simp)
  · by_cases hslash : c = '/'
    · subst hslash
      exact agrees_slash (by simpa using hline) (by simpa using hcomment)
    · refine agrees_of_code (show Region.opened c = .code from ?_) rfl (by simpa using hslash)
      exact opened_of_plain ⟨hslash, by simpa using hquote⟩

/-- The region behind a text is that behind its last lexeme, if no preprocessor run in front of it
leaves a comment open. -/
theorem regionOf_eq_last {front : List Lexeme} {l : Lexeme} (hcs : lexemesFrom lineStart cs = front ++ [l])
    (hwhole : ∀ first ∈ front, first.leavesOpen = false) :
    regionOf cs = regionOf l.text ∧ ∃ behind, Agrees (l, behind) := by
  induction front generalizing lineStart cs with
  | nil =>
    cases cs with
    | nil => simp [lexemesFrom] at hcs
    | cons c rest =>
      have htext := nextLexeme_append lineStart c rest
      rw [lexemesFrom_cons, List.nil_append, List.cons.injEq, lexemesFrom_eq_nil] at hcs
      obtain ⟨rfl, hbehind⟩ := hcs
      rw [hbehind, List.append_nil] at htext
      exact ⟨by rw [htext], _, agrees_nextLexeme lineStart c rest⟩
  | cons first front ih =>
    cases cs with
    | nil => simp [lexemesFrom] at hcs
    | cons c rest =>
      have htext := nextLexeme_append lineStart c rest
      rw [lexemesFrom_cons, List.cons_append, List.cons.injEq] at hcs
      obtain ⟨hfirst, hbehind⟩ := hcs
      rw [List.forall_mem_cons] at hwhole
      obtain ⟨hregion, hagrees⟩ := ih hbehind hwhole.2
      refine ⟨?_, hagrees⟩
      have hne : (nextLexeme lineStart c rest).2 ≠ [] := by
        intro hnil
        simp [hnil, lexemesFrom] at hbehind
      rw [← htext, regionOf_append (fun d hd => ?_) hne, hregion]
      exact (agrees_nextLexeme lineStart c rest).joins (hfirst ▸ hwhole.1) hd

end Lexemes

end CBind.Source
