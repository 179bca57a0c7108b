import CBind.Proofs.Source.Prose
import CBind.Proofs.Source.Regions
import CBind.Proofs.Source.Spacing

/-!
# Blanking a block comment

A block comment stands for blanks: with its characters replaced by spaces, line feeds apart, a text
has the same tokens of code on the same lines. Preprocessor lines bring three exceptions. A comment
that starts its line and ends on it hides a directive behind it, where blanks do not. A comment opened
in a preprocessor run does not go on behind the run, so the rest of it is read as code. And an escaped
line feed in it is one that continues the run.

So the tokens of code are the same exactly if the comment hides no directive, provided that no
preprocessor run leaves a comment open and that a comment in a run stands on one line.
-/

namespace CBind.Source

open CBind.Text

/-- A text with a block comment: the comment opens in code, and its body does not hold the mark that
closes it. -/
structure CommentedText where
  front : List Char
  body : List Char
  back : List Char
  opens : regionOf front = .code
  closes : ¬ ['*', '/'] <:+: body

/-- A space for every character of a comment; line feeds stay. -/
def blankOut (c : Char) : Char :=
  if c = '\n' then '\n' else ' '

/-- Recognize a blank that does not end its line. -/
def isBlankInLine (c : Char) : Bool :=
  isBlank c && c != '\n'

/-- Whether a text starts with a number sign, blanks of its first line aside. -/
def startsDirective (cs : List Char) : Bool :=
  (cs.dropWhile isBlankInLine).head? == some '#'

/-- Whether a text ends in a preprocessor run. -/
def endsInRun (cs : List Char) : Bool :=
  match (lexemes cs).getLast? with
  | some (.preprocessor _) => true
  | _ => false

/-- Whether a line starts behind a text, blanks aside. -/
def startsLine (cs : List Char) : Bool :=
  (lexemes cs).foldl Lexeme.lineStartAfter true

namespace CommentedText

/-- The characters of the comment. -/
def comment (c : CommentedText) : List Char :=
  (Lexeme.blockComment c.body true).text

/-- The whole text. -/
def text (c : CommentedText) : List Char :=
  c.front ++ (c.comment ++ c.back)

/-- The text with the comment blanked out. -/
def blanked (c : CommentedText) : List Char :=
  c.front ++ (c.comment.map blankOut ++ c.back)

/-- No preprocessor run in front of the comment leaves a comment open, and the comment stands on one
line if it opens in a run. -/
structure RunsWhole (c : CommentedText) : Prop where
  front : ∀ l ∈ lexemes c.front, l.leavesOpen = false
  comment : endsInRun c.front = true → '\n' ∉ c.body

/-- The comment starts its line and ends on it, and a number sign follows it there. -/
def HidesDirective (c : CommentedText) : Prop :=
  endsInRun c.front = false ∧ startsLine c.front = true ∧ '\n' ∉ c.body ∧
    startsDirective c.back = true

instance (c : CommentedText) : Decidable c.HidesDirective :=
  inferInstanceAs (Decidable (_ ∧ _ ∧ _ ∧ _))

end CommentedText

section Blanks

/-- What was blanked out is blank. -/
theorem blank_map_blankOut (cs : List Char) : Blank (cs.map blankOut) := by
  intro c hc
  obtain ⟨d, -, rfl⟩ := List.mem_map.mp hc
  unfold blankOut
  split_ifs <;> decide

/-- Blanking out keeps line feeds. -/
theorem count_map_blankOut (cs : List Char) : (cs.map blankOut).count '\n' = cs.count '\n' := by
  induction cs with
  | nil => rfl
  | cons c cs ih =>
    have hc : (blankOut c == '\n') = (c == '\n') := by
      unfold blankOut
      split_ifs with h <;> simp [h]
    rw [List.map_cons, List.count_cons, List.count_cons, ih, hc]

/-- Nothing but spaces and line feeds is left. -/
theorem not_mem_map_blankOut {d : Char} (hspace : d ≠ ' ') (hnewline : d ≠ '\n') (cs : List Char) :
    d ∉ cs.map blankOut := by
  intro hmem
  obtain ⟨c, -, rfl⟩ := List.mem_map.mp hmem
  unfold blankOut at hspace hnewline
  split_ifs at hspace hnewline <;> contradiction

/-- Blanking out keeps line feeds, as a test. -/
theorem contains_map_blankOut (cs : List Char) :
    (cs.map blankOut).contains '\n' = cs.contains '\n' := by
  rw [Bool.eq_iff_iff, List.contains_iff_mem, List.contains_iff_mem, ← List.count_pos_iff,
    ← List.count_pos_iff, count_map_blankOut]

end Blanks

section Tokens

/-- Tokens of code of consecutive sequences. -/
theorem code_append (a b : List Placed) : code (a ++ b) = code a ++ code b :=
  List.filter_append ..

/-- Comment lines are no code. -/
theorem code_placeLines (line : Nat) (texts : List (List Char)) : code (placeLines line texts) = [] := by
  induction texts generalizing line with
  | nil => rfl
  | cons text texts ih => exact ih (line + 1)

/-- A character other than a number sign is cut off alike at the start of a line and elsewhere. -/
theorem nextLexeme_lineStart {c : Char} (h : c ≠ '#') (rest : List Char) (lineStart : Bool) :
    nextLexeme lineStart c rest = nextLexeme false c rest := by
  have hhash : (c == '#') = false := by simpa using h
  simp only [nextLexeme, hhash, Bool.false_and]

/-- Only in front of a number sign it matters for the code whether a line starts. -/
theorem code_lexemesFrom_lineStart (line : Nat) (cs : List Char) :
    code (tokensFrom line (lexemesFrom true cs)) = code (tokensFrom line (lexemesFrom false cs)) ↔
      startsDirective cs = false := by
  have hgap : Blank (cs.takeWhile isBlankInLine) := fun c hc => by
    have := List.mem_takeWhile_imp hc
    simp only [isBlankInLine, Bool.and_eq_true] at this
    exact this.1
  have hfeeds : '\n' ∉ cs.takeWhile isBlankInLine := fun hmem =>
    absurd (List.mem_takeWhile_imp hmem) (by decide)
  have hfirst := List.head?_dropWhile_not isBlankInLine cs
  rw [startsDirective]
  conv_lhs => rw [← List.takeWhile_append_dropWhile (p := isBlankInLine) (l := cs)]
  rw [lexemesFrom_blanks _ _ hgap, lexemesFrom_blanks _ _ hgap, tokensFrom_map_blank,
    tokensFrom_map_blank, List.contains_eq_mem, decide_eq_false hfeeds, Bool.false_or, Bool.false_or]
  generalize cs.dropWhile isBlankInLine = more at hfirst
  cases more with
  | nil => simp [lexemesFrom]
  | cons c rest =>
    by_cases hnewline : c = '\n'
    · subst hnewline
      simp [tokensFrom_newline]
    have hblank : isBlank c = false := by simpa [isBlankInLine, hnewline] using hfirst
    by_cases hhash : c = '#'
    · subst hhash
      have hrun : (nextLexeme true '#' rest).1 = .preprocessor ('#' :: (splitPreprocessor rest).1) := rfl
      have hmark : (nextLexeme false '#' rest).1 = .mark '#' := rfl
      rw [lexemesFrom_cons, lexemesFrom_cons, tokensFrom, tokensFrom, hrun, hmark]
      simp [Lexeme.tokens, code, Token.isComment, Token.ofChar]
    · have hlexeme (d : Char) : (nextLexeme false c rest).1 ≠ .blank d := fun hd => by
        rw [isBlank_of_nextLexeme hd] at hblank
        contradiction
      rw [lexemesFrom_cons, lexemesFrom_cons, nextLexeme_lineStart hhash,
        Lexeme.lineStartAfter_eq hlexeme, Lexeme.lineStartAfter_eq hlexeme]
      simp [hhash]

end Tokens

section Runs

variable {front back x : List Char}

/-- A preprocessor run goes on behind a text that it takes whole, unless a line feed follows. -/
theorem splitPreprocessor_append_left (h : (splitPreprocessor front).2 = [])
    (hback : back.head? ≠ some '\n') :
    splitPreprocessor (front ++ back) =
      (front ++ (splitPreprocessor back).1, (splitPreprocessor back).2) := by
  fun_induction splitPreprocessor front with
  | case1 => rfl
  | case2 rest r ih =>
    rw [List.cons_append, List.cons_append, splitPreprocessor, ih h]
    rfl
  | case3 rest => simp at h
  | case4 c rest h1 h2 r ih =>
    have hnext (hslash : c = '\\') : (rest ++ back).head? ≠ some '\n' :=
      head?_append_ne (head?_ne_of_forall_ne fun rest' => h1 rest' hslash) (.inr hback)
    rw [List.cons_append, splitPreprocessor_cons h2 hnext, ih h]
    rfl

/-- A preprocessor run goes over a text without line feeds that leaves the next one unescaped. -/
theorem splitPreprocessor_line (hx : '\n' ∉ x) (hlast : x.getLast? ≠ some '\\') :
    splitPreprocessor (x ++ back) = (x ++ (splitPreprocessor back).1, (splitPreprocessor back).2) := by
  induction x with
  | nil => rfl
  | cons c x ih =>
    rw [List.mem_cons, not_or] at hx
    have hnext (hslash : c = '\\') : (x ++ back).head? ≠ some '\n' := by
      cases x with
      | nil => exact absurd (by rw [hslash]; rfl) hlast
      | cons d x => exact fun hd => hx.2 (Option.some.inj hd ▸ List.mem_cons_self)
    have hlast' : x.getLast? ≠ some '\\' := fun h => hlast (by
      rw [List.getLast?_cons, h]
      rfl)
    rw [List.cons_append, splitPreprocessor_cons (Ne.symm hx.1) hnext, ih hx.2 hlast']
    rfl

/-- A number sign at the start of a line is cut off as a preprocessor run. -/
theorem nextLexeme_run (rest : List Char) : nextLexeme true '#' rest =
    (.preprocessor ('#' :: (splitPreprocessor rest).1), (splitPreprocessor rest).2) := rfl

/-- Only a number sign at the start of a line is cut off as a preprocessor run. -/
theorem nextLexeme_eq_preprocessor {lineStart : Bool} {c : Char} {rest run : List Char}
    (h : (nextLexeme lineStart c rest).1 = .preprocessor run) : c = '#' ∧ lineStart = true := by
  unfold nextLexeme at h
  split_ifs at h with hblank hline hcomment hrun
  simpa using hrun

/-- A text that a preprocessor run goes over: it is not empty, holds no line feed, and does not escape
the next one. -/
structure StaysOnLine (x : List Char) : Prop where
  ne_nil : x ≠ []
  oneLine : '\n' ∉ x
  unescaped : x.getLast? ≠ some '\\'

/-- A preprocessor run at the end of a text goes on over what is put behind it. -/
theorem lexemes_append_of_endsInRun (h : endsInRun front = true) : ∃ ls run, ∀ x back, StaysOnLine x →
    lexemes (front ++ (x ++ back)) = ls ++ .preprocessor (run ++ x ++ (splitPreprocessor back).1) ::
      lexemesFrom ((run ++ (splitPreprocessor back).1).contains '\n') (splitPreprocessor back).2 := by
  unfold endsInRun at h
  split at h
  · next run hlast =>
    obtain ⟨ls, hfront⟩ := List.getLast?_eq_some_iff.mp hlast
    refine ⟨ls, run, fun x back hx => ?_⟩
    have hhead : (x ++ back).head? ≠ some '\n' := by
      cases x with
      | nil => exact absurd rfl hx.ne_nil
      | cons c x => exact fun hc => hx.oneLine (Option.some.inj hc ▸ List.mem_cons_self)
    obtain ⟨halone, hmore⟩ := lexemesFrom_append_last hfront (x ++ back) (by simp)
    rw [lexemes, hmore]
    cases run with
    | nil => simp [Lexeme.text, lexemesFrom] at halone
    | cons c rest =>
      rw [Lexeme.text, lexemesFrom_cons, List.cons.injEq, lexemesFrom_eq_nil] at halone
      obtain ⟨rfl, hstart⟩ := nextLexeme_eq_preprocessor halone.1
      rw [hstart, nextLexeme_run] at halone
      rw [hstart, Lexeme.text, List.cons_append, lexemesFrom_cons, nextLexeme_run,
        splitPreprocessor_append_left halone.2 hhead, splitPreprocessor_line hx.oneLine hx.unescaped]
      have hstart' : ('#' :: (rest ++ (x ++ (splitPreprocessor back).1))).contains '\n' =
          ('#' :: rest ++ (splitPreprocessor back).1).contains '\n' := by
        have hmem := hx.oneLine
        simp [List.contains_eq_mem, hmem]
      simp only [Lexeme.lineStartAfter, Lexeme.text, hstart', List.cons_append, List.append_assoc]
  · contradiction

/-- What is put into a preprocessor run in front of a text does not matter for the tokens. -/
theorem tokensFrom_of_endsInRun {x' : List Char} (h : endsInRun front = true) (hx : StaysOnLine x)
    (hx' : StaysOnLine x') (line : Nat) (back : List Char) :
    tokensFrom line (lexemes (front ++ (x ++ back))) =
      tokensFrom line (lexemes (front ++ (x' ++ back))) := by
  obtain ⟨ls, run, hcut⟩ := lexemes_append_of_endsInRun h
  have hfeeds {y : List Char} (hy : StaysOnLine y) :
      (Lexeme.preprocessor (run ++ y ++ (splitPreprocessor back).1)).lineFeeds =
        (Lexeme.preprocessor (run ++ (splitPreprocessor back).1)).lineFeeds := by
    simp [Lexeme.lineFeeds, Lexeme.text, List.count_eq_zero.mpr hy.oneLine]
  rw [hcut x back hx, hcut x' back hx', tokensFrom_append, tokensFrom_append, tokensFrom, tokensFrom,
    hfeeds hx, hfeeds hx']
  rfl

end Runs

section Code

/-- A text that ends in code, and not in a run, is cut apart from a text that ends words. -/
theorem lexemes_append_of_code {front more : List Char} (hcode : regionOf front = .code)
    (hwhole : ∀ l ∈ lexemes front, l.leavesOpen = false)
    (hrun : endsInRun front = false) (hword : EndsWords more) :
    lexemes (front ++ more) = lexemes front ++ lexemesFrom (startsLine front) more := by
  refine lexemesFrom_append (fun l hl => ?_) fun _ => hword.head?_ne_point
  obtain ⟨ls, hls⟩ := List.getLast?_eq_some_iff.mp hl
  obtain ⟨hregion, behind, hagrees⟩ := regionOf_eq_last hls fun first hmem =>
    hwhole first (show first ∈ lexemesFrom true front from hls ▸ List.mem_append_left _ hmem)
  have hnone (run : List Char) : l ≠ .preprocessor run := by
    rintro rfl
    rw [endsInRun, show (lexemes front).getLast? = _ from hl] at hrun
    contradiction
  obtain ⟨hfinished, hslash⟩ := hagrees.isFinished (hregion ▸ hcode) hnone
  exact .inr ⟨hfinished, hword, fun h => absurd h hslash⟩

/-- A block comment is cut off up to the mark that closes it. -/
theorem splitBlockComment_body {body : List Char} (h : ¬ ['*', '/'] <:+: body) (back : List Char) :
    splitBlockComment (body ++ '*' :: '/' :: back) = (body, true, back) := by
  induction body with
  | nil => rfl
  | cons c body ih =>
    have hbody : ¬ ['*', '/'] <:+: body := fun hbody => h (hbody.trans (List.suffix_cons c body).isInfix)
    have hend (hstar : c = '*') : (body ++ '*' :: '/' :: back).head? ≠ some '/' := by
      refine head?_append_ne (fun hslash => ?_) (.inr (by simp))
      obtain ⟨rest, rfl⟩ := List.head?_eq_some_iff.mp hslash
      exact h (hstar ▸ (List.prefix_append ['*', '/'] rest).isInfix)
    rw [List.cons_append, splitBlockComment_cons hend, ih hbody]

end Code

namespace CommentedText

variable (c : CommentedText)

/-- Outside a run the comment is cut off as a lexeme. -/
theorem lexemes_text (hwhole : c.RunsWhole) (hrun : endsInRun c.front = false) :
    lexemes c.text = lexemes c.front ++
      .blockComment c.body true :: lexemesFrom (c.comment.contains '\n') c.back := by
  have htext : c.comment ++ c.back = '/' :: '*' :: (c.body ++ '*' :: '/' :: c.back) := by
    simp [comment, Lexeme.text, commentEnd]
  have hcut : nextLexeme (startsLine c.front) '/' ('*' :: (c.body ++ '*' :: '/' :: c.back)) =
      (.blockComment c.body true, c.back) := by
    have hcomment : nextLexeme (startsLine c.front) '/' ('*' :: (c.body ++ '*' :: '/' :: c.back)) =
        let r := splitBlockComment (c.body ++ '*' :: '/' :: c.back)
        (.blockComment r.1 r.2.1, r.2.2) := rfl
    rw [hcomment, splitBlockComment_body c.closes]
  rw [text, htext, lexemes_append_of_code c.opens hwhole.front hrun (by rintro d ⟨⟩; decide +kernel),
    lexemesFrom_cons, hcut]
  rfl

/-- Outside a run the blanked comment is cut off as blanks. -/
theorem lexemes_blanked (hwhole : c.RunsWhole) (hrun : endsInRun c.front = false) :
    lexemes c.blanked = lexemes c.front ++ ((c.comment.map blankOut).map .blank ++
      lexemesFrom (c.comment.contains '\n' || startsLine c.front) c.back) := by
  rw [blanked, lexemes_append_of_code c.opens hwhole.front hrun (by rintro d ⟨⟩; decide +kernel),
    lexemesFrom_blanks _ _ (blank_map_blankOut c.comment), contains_map_blankOut]

/-- In a run the comment is taken with the run. -/
theorem tokens_of_endsInRun (hwhole : c.RunsWhole) (hrun : endsInRun c.front = true) :
    tokensFrom 1 (lexemes c.blanked) = tokensFrom 1 (lexemes c.text) := by
  have hbody := hwhole.comment hrun
  have hcomment : '\n' ∉ c.comment := by
    simpa [comment, Lexeme.text, commentEnd] using hbody
  have hblanked : '\n' ∉ c.comment.map blankOut := by
    rwa [← List.count_eq_zero, count_map_blankOut, List.count_eq_zero]
  have hclosed : c.comment = '/' :: '*' :: c.body ++ ['*'] ++ ['/'] := by
    simp [comment, Lexeme.text, commentEnd]
  refine tokensFrom_of_endsInRun hrun ⟨?_, hblanked, ?_⟩ ⟨?_, hcomment, ?_⟩ 1 c.back
  · simp [hclosed]
  · rw [hclosed, List.map_append, List.getLast?_append]
    exact fun h => absurd (Option.some.inj h) (by decide)
  · simp [hclosed]
  · rw [hclosed, List.getLast?_append]
    exact fun h => absurd (Option.some.inj h) (by decide)

/-- Blanking a comment keeps the tokens of code exactly if it hides no directive. -/
theorem code_blanked (hwhole : c.RunsWhole) :
    code (tokensFrom 1 (lexemes c.blanked)) = code (tokensFrom 1 (lexemes c.text)) ↔
      ¬ c.HidesDirective := by
  by_cases hrun : endsInRun c.front = true
  · rw [c.tokens_of_endsInRun hwhole hrun]
    simp [HidesDirective, hrun]
  · rw [Bool.not_eq_true] at hrun
    have hblanked : code (tokensFrom 1 (lexemes c.blanked)) = code (tokensFrom 1 (lexemes c.front)) ++
        code (tokensFrom (1 + lineFeedsOf (lexemes c.front) + c.comment.count '\n')
          (lexemesFrom (c.comment.contains '\n' || startsLine c.front) c.back)) := by
      rw [c.lexemes_blanked hwhole hrun, tokensFrom_append, code_append, tokensFrom_map_blank,
        count_map_blankOut]
    have htext : code (tokensFrom 1 (lexemes c.text)) = code (tokensFrom 1 (lexemes c.front)) ++
        code (tokensFrom (1 + lineFeedsOf (lexemes c.front) + c.comment.count '\n')
          (lexemesFrom (c.comment.contains '\n') c.back)) := by
      rw [c.lexemes_text hwhole hrun, tokensFrom_append, code_append, tokensFrom, code_append,
        Lexeme.tokens, code_placeLines, List.nil_append]
      rfl
    have hfeed : c.comment.contains '\n' = true ↔ '\n' ∈ c.body := by
      simp [comment, Lexeme.text, commentEnd]
    rw [hblanked, htext, List.append_cancel_left_eq, HidesDirective]
    cases hline : c.comment.contains '\n' with
    | true => simp [hfeed.mp hline]
    | false =>
      have hbody : '\n' ∉ c.body := fun hmem => by
        rw [hfeed.mpr hmem] at hline
        contradiction
      cases hstart : startsLine c.front with
      | false => simp
      | true =>
        rw [Bool.or_true, code_lexemesFrom_lineStart]
        simp [hrun, hbody]

/-- With a block comment blanked out, a text has the same tokens of code exactly if the comment hides
no directive, as long as preprocessor runs leave no comment open. If no comment of the text can hold a
directive of its own, the text is then read the same. -/
theorem readSource_blanked (hwhole : c.RunsWhole) :
    (code (tokenize (String.ofList c.blanked)) = code (tokenize (String.ofList c.text)) ↔
      ¬ c.HidesDirective) ∧
    ('@' ∉ c.text → ¬ c.HidesDirective → ∀ file,
      readSource file (String.ofList c.blanked) = readSource file (String.ofList c.text)) := by
  have hcode : code (tokenize (String.ofList c.blanked)) = code (tokenize (String.ofList c.text)) ↔
      ¬ c.HidesDirective := by
    rw [tokenize, tokenize, String.toList_ofList, String.toList_ofList]
    exact c.code_blanked hwhole
  refine ⟨hcode, fun hat hnot file => ?_⟩
  have hat' : '@' ∉ c.blanked := by
    simp only [text, List.mem_append, not_or] at hat
    simp only [blanked, List.mem_append, not_or]
    exact ⟨hat.1, not_mem_map_blankOut (by decide) (by decide) c.comment, hat.2.2⟩
  have hprose : Prose (tokenize (String.ofList c.text)) := by
    rw [tokenize, String.toList_ofList]
    exact prose_tokensFrom hat 1 true
  have hprose' : Prose (tokenize (String.ofList c.blanked)) := by
    rw [tokenize, String.toList_ofList]
    exact prose_tokensFrom hat' 1 true
  rw [readSource, readSource, readTokens_congr file (hcode.mpr hnot) hprose' hprose]

/-- The comment at a parameter of a documented function between macros stands for blanks. -/
theorem readSource_blanked_between_macros :
    let c : CommentedText := ⟨"#define ONE 1 /* one */\n/* Adds\n * one. */ int f(int x ".toList,
      " what to add to ".toList, ") \x7b return x + ONE; \x7d /* end */ #undef ONE\n".toList,
      by decide +kernel, by decide +kernel⟩
    c.RunsWhole ∧ ¬ c.HidesDirective ∧ '@' ∉ c.text ∧
      code (tokenize (String.ofList c.blanked)) = code (tokenize (String.ofList c.text)) ∧
      readSource "x.c" (String.ofList c.blanked) = readSource "x.c" (String.ofList c.text) ∧
      (readSource "x.c" (String.ofList c.text)).descriptors.map (·.name) = ["f"] := by
  intro c
  have hwhole : c.RunsWhole := ⟨by decide +kernel, by decide +kernel⟩
  have hnot : ¬ c.HidesDirective := by decide +kernel
  have hat : '@' ∉ c.text := by decide +kernel
  have h := c.readSource_blanked hwhole
  exact ⟨hwhole, hnot, hat, h.1.mpr hnot, h.2 hat hnot "x.c", by decide +kernel⟩

/-- Two comments that do not stand for blanks: the second line of one that opens in a preprocessor run
is read as code, and so is the directive behind one that starts its line. -/
theorem comments_at_directives_read_as_code :
    let across : CommentedText := ⟨"#define LIMIT 16 ".toList,
      " most bytes\n                    in one call ".toList,
      "\nint f(int x) \x7b return x; \x7d\n".toList, by decide +kernel, by decide +kernel⟩
    let ahead : CommentedText := ⟨[], " types ".toList,
      " #include <stdint.h>\nint f(int x) \x7b return x; \x7d\n".toList, by decide +kernel,
      by decide +kernel⟩
    '@' ∉ across.text ∧ '@' ∉ ahead.text ∧
      (readSource "x.c" (String.ofList across.blanked)).descriptors.map (·.name) = ["f"] ∧
      (readSource "x.c" (String.ofList across.text)).descriptors = [] ∧
      (readSource "x.c" (String.ofList across.text)).diagnostics =
        [.unsupportedType "f" ⟨"x.c", 2⟩ "in one call* / int"] ∧
      (readSource "x.c" (String.ofList ahead.blanked)).descriptors.map (·.name) = ["f"] ∧
      (readSource "x.c" (String.ofList ahead.text)).descriptors = [] := by
  decide +kernel

end CommentedText

end CBind.Source
