import CBind.Source.Lexer
import Mathlib.Tactic.ByContra
import Mathlib.Tactic.SplitIfs

/-!
# Cutting a text in front of another

Where a text is cut does not depend on what follows it, as long as its last lexeme is finished: a
blank, or anything but an open comment, literal or preprocessor run that the following text does not
make longer. Then the lexemes of both texts together are those of the first and those of the second.

The one lexeme that looks ahead beyond its end is the point: two points in front of a third are not
cut apart. So a text must not go on with a point behind a single point that was left over.
-/

namespace CBind.Source

open CBind.Text

/-- Whether a literal reaches its closing quote, read as the literal itself is. -/
def reachesQuote (quote : Char) : List Char → Bool
  | [] => false
  | ['\\'] => false
  | '\\' :: _ :: rest => reachesQuote quote rest
  | c :: rest => if c == '\n' then false else if c == quote then true else reachesQuote quote rest

/-- Whether nothing that may follow belongs to the inside of a lexeme: a comment or literal was
closed, and a line comment or preprocessor run never is before its line ends. -/
def Lexeme.isFinished : Lexeme → Bool
  | lineComment _ => false
  | blockComment _ closed => closed
  | preprocessor _ => false
  | quoted [] => false
  | quoted (quote :: text) => reachesQuote quote text
  | _ => true

/-- A text that makes no word or number in front of it longer. -/
def EndsWords (text : List Char) : Prop :=
  ∀ c, text.head? = some c → continuesWord true c = false

/-- A text that makes no word, number, comment mark or ellipsis in front of it longer. -/
def Breaks (text : List Char) : Prop :=
  ∀ c, text.head? = some c → continuesWord true c = false ∧ c ≠ '/' ∧ c ≠ '*'

/-- What follows makes a lexeme no longer: the lexeme is finished, no word is continued, and a slash
is made no comment mark. -/
def Lexeme.StandsBefore (l : Lexeme) (more : List Char) : Prop :=
  l.isFinished = true ∧ EndsWords more ∧
    (l = .mark '/' → more.head? ≠ some '/' ∧ more.head? ≠ some '*')

/-- A finished lexeme stands in front of a breaking text. -/
theorem Breaks.standsBefore {text : List Char} (h : Breaks text) {l : Lexeme}
    (hl : l.isFinished = true) : l.StandsBefore text :=
  ⟨hl, fun c hc => (h c hc).1, fun _ => ⟨fun hc => (h '/' hc).2.1 rfl, fun hc => (h '*' hc).2.2 rfl⟩⟩

/-- What continues a name continues a number. -/
theorem continuesWord_true_of_false {c : Char} (h : continuesWord false c = true) :
    continuesWord true c = true := by
  simp only [continuesWord, Bool.false_and, Bool.or_false] at h
  simp [continuesWord, h]

/-- A text that ends words continues neither names nor numbers. -/
theorem EndsWords.continuesWord_eq_false {text : List Char} (h : EndsWords text) {c : Char}
    (hc : text.head? = some c) (inNumber : Bool) : continuesWord inNumber c = false := by
  have hword := h c hc
  cases inNumber with
  | true => exact hword
  | false =>
    by_contra hfalse
    rw [continuesWord_true_of_false (by simpa using hfalse)] at hword
    contradiction

/-- A text that ends words does not start with a point. -/
theorem EndsWords.head?_ne_point {text : List Char} (h : EndsWords text) :
    text.head? ≠ some '.' := by
  intro hp
  have := h '.' hp
  simp [continuesWord] at this

/-- In front of a text that does not go on with its characters, a run ends where it did. -/
theorem takeWhile_append_of_head? {p : Char → Bool} {cs more : List Char}
    (h : cs.dropWhile p ≠ [] ∨ ∀ c, more.head? = some c → p c = false) :
    (cs ++ more).takeWhile p = cs.takeWhile p ∧
      (cs ++ more).dropWhile p = cs.dropWhile p ++ more := by
  induction cs with
  | nil =>
    cases more with
    | nil => simp
    | cons d more =>
      have hd : p d = false := by simpa using h
      simp [hd]
  | cons c cs ih =>
    by_cases hc : p c = true
    · have := ih (by simpa [hc] using h)
      simp [hc, this]
    · simp [hc]

/-- A text that does not start with a character, as the splitting functions see it. -/
theorem head?_ne_of_forall_ne {cs : List Char} {x : Char} (h : ∀ more, cs = x :: more → False) :
    cs.head? ≠ some x := fun hx =>
  have ⟨more, hcs⟩ := List.head?_eq_some_iff.mp hx
  h more hcs

/-- A longer text does not start with a character that neither text starts with. -/
theorem head?_append_ne {cs more : List Char} {x : Char} (hcs : cs.head? ≠ some x)
    (h : cs ≠ [] ∨ more.head? ≠ some x) : (cs ++ more).head? ≠ some x := by
  cases cs with
  | nil => exact h.resolve_left (by simp)
  | cons c cs => exact hcs

/-- A block comment goes on behind a character that does not start its end mark. -/
theorem splitBlockComment_cons {c : Char} {rest : List Char} (h : c = '*' → rest.head? ≠ some '/') :
    splitBlockComment (c :: rest) = (c :: (splitBlockComment rest).1, (splitBlockComment rest).2.1,
      (splitBlockComment rest).2.2) :=
  splitBlockComment.eq_3 _ _ fun _ hstar hrest => h hstar (by rw [hrest]; rfl)

/-- A block comment that ended ends there in front of any text. -/
theorem splitBlockComment_append_right {cs more : List Char}
    (h : (splitBlockComment cs).2.2 ≠ [] ∨ (splitBlockComment cs).2.1 = true) :
    splitBlockComment (cs ++ more) = ((splitBlockComment cs).1, (splitBlockComment cs).2.1,
      (splitBlockComment cs).2.2 ++ more) := by
  fun_induction splitBlockComment cs with
  | case1 => simp at h
  | case2 rest => simp [splitBlockComment]
  | case3 c rest hc r ih =>
    have hne : rest ≠ [] := by
      rintro rfl
      simp [r, splitBlockComment] at h
    have hend (hstar : c = '*') : (rest ++ more).head? ≠ some '/' :=
      head?_append_ne (head?_ne_of_forall_ne fun rest' => hc rest' hstar) (.inl hne)
    rw [List.cons_append, splitBlockComment_cons hend, ih (by simpa [r] using h)]

/-- A preprocessor run ends at the end of the text or in front of a line feed. -/
theorem head?_splitPreprocessor {cs : List Char} {c : Char}
    (h : (splitPreprocessor cs).2.head? = some c) : c = '\n' := by
  fun_induction splitPreprocessor cs with
  | case1 => simp at h
  | case2 rest r ih => exact ih h
  | case3 rest => simpa using h.symm
  | case4 d rest h1 h2 r ih => exact ih h

/-- A preprocessor run goes on behind a character that is no line feed and escapes none. -/
theorem splitPreprocessor_cons {c : Char} {rest : List Char} (hc : c ≠ '\n')
    (h : c = '\\' → rest.head? ≠ some '\n') : splitPreprocessor (c :: rest) =
      (c :: (splitPreprocessor rest).1, (splitPreprocessor rest).2) :=
  splitPreprocessor.eq_4 _ _ (fun _ hback hrest => h hback (by rw [hrest]; rfl)) hc

/-- A preprocessor run that ended ends there in front of any text. -/
theorem splitPreprocessor_append_right {cs more : List Char} (h : (splitPreprocessor cs).2 ≠ []) :
    splitPreprocessor (cs ++ more) =
      ((splitPreprocessor cs).1, (splitPreprocessor cs).2 ++ more) := by
  fun_induction splitPreprocessor cs with
  | case1 => simp at h
  | case2 rest r ih =>
    simp [splitPreprocessor, ih h, r]
  | case3 rest => simp [splitPreprocessor]
  | case4 c rest h1 h2 r ih =>
    have hne : rest ≠ [] := by
      rintro rfl
      simp [r, splitPreprocessor] at h
    have hnext (hback : c = '\\') : (rest ++ more).head? ≠ some '\n' :=
      head?_append_ne (head?_ne_of_forall_ne fun rest' => h1 rest' hback) (.inl hne)
    rw [List.cons_append, splitPreprocessor_cons h2 hnext, ih h]

/-- What starts no escape is no backslash. -/
theorem ne_backslash_of_not_escape {c : Char} {rest : List Char} (h1 : c = '\\' → rest = [] → False)
    (h2 : ∀ d more, c = '\\' → rest = d :: more → False) : c ≠ '\\' := by
  intro hc
  cases rest with
  | nil => exact h1 hc rfl
  | cons d more => exact h2 d more hc rfl

/-- A literal goes on behind a character that is no backslash, unless it is its end. -/
theorem splitQuoted_cons {quote c : Char} {rest : List Char} (h : c ≠ '\\') :
    splitQuoted quote (c :: rest) =
      if c == '\n' then ([], c :: rest)
      else if c == quote then ([c], rest)
      else (c :: (splitQuoted quote rest).1, (splitQuoted quote rest).2) :=
  splitQuoted.eq_4 _ _ _ (fun hc => absurd hc h) (fun _ _ hc => absurd hc h)

/-- A literal reaches its quote behind a character that is no backslash, or at it. -/
theorem reachesQuote_cons {quote c : Char} {rest : List Char} (h : c ≠ '\\') :
    reachesQuote quote (c :: rest) =
      if c == '\n' then false else if c == quote then true else reachesQuote quote rest :=
  reachesQuote.eq_4 _ _ _ (fun hc => absurd hc h) (fun _ _ hc => absurd hc h)

/-- A literal reaches its closing quote in its own text if it does in the text it was split from. -/
theorem reachesQuote_splitQuoted (quote : Char) (cs : List Char) :
    reachesQuote quote (splitQuoted quote cs).1 = reachesQuote quote cs := by
  fun_induction splitQuoted quote cs with
  | case1 => rfl
  | case2 => rfl
  | case3 c rest r ih => simpa [reachesQuote] using ih
  | case4 c rest h1 h2 h3 =>
    have hc := ne_backslash_of_not_escape h1 h2
    rw [reachesQuote_cons hc, if_pos h3]
    rfl
  | case5 c rest h1 h2 h3 h4 =>
    have hc := ne_backslash_of_not_escape h1 h2
    rw [reachesQuote_cons hc, reachesQuote_cons hc, if_neg h3, if_neg h3, if_pos h4, if_pos h4]
  | case6 c rest h1 h2 h3 h4 r ih =>
    have hc := ne_backslash_of_not_escape h1 h2
    rw [reachesQuote_cons hc, reachesQuote_cons hc, if_neg h3, if_neg h3, if_neg h4, if_neg h4]
    exact ih

/-- A literal that ended ends there in front of any text. -/
theorem splitQuoted_append_right {quote : Char} {cs more : List Char}
    (h : (splitQuoted quote cs).2 ≠ [] ∨ reachesQuote quote cs = true) :
    splitQuoted quote (cs ++ more) =
      ((splitQuoted quote cs).1, (splitQuoted quote cs).2 ++ more) := by
  fun_induction splitQuoted quote cs with
  | case1 => simp [reachesQuote] at h
  | case2 => simp [reachesQuote] at h
  | case3 c rest r ih =>
    simp only [reachesQuote] at h
    simp [splitQuoted, ih h, r]
  | case4 c rest h1 h2 h3 =>
    have hc : c = '\n' := by simpa using h3
    subst hc
    simp [splitQuoted]
  | case5 c rest h1 h2 h3 h4 =>
    have hc := ne_backslash_of_not_escape h1 h2
    have hc' : c ≠ '\n' := by simpa using h3
    have hq : c = quote := by simpa using h4
    rw [List.cons_append, splitQuoted_cons hc]
    simp [hq, hq ▸ hc']
  | case6 c rest h1 h2 h3 h4 r ih =>
    have hc := ne_backslash_of_not_escape h1 h2
    have hreach : reachesQuote quote (c :: rest) = reachesQuote quote rest := by
      rw [reachesQuote_cons hc, if_neg h3, if_neg h4]
    have hr := ih (by rwa [hreach] at h)
    rw [List.cons_append, splitQuoted_cons hc, if_neg h3, if_neg h4, hr]

/-- A text that goes on behind a lexeme does not change what stands in front of it: something is left
of the text, or what follows makes the lexeme no longer. -/
def CutStands (cut : Lexeme × List Char) (more : List Char) : Prop :=
  cut.2 ≠ [] ∨ cut.1.StandsBefore more

/-- What a character looks ahead at is found in a text or in a longer one alike. -/
theorem beq_head?_append {cs more : List Char} {x : Char} (h : cs ≠ [] ∨ more.head? ≠ some x) :
    ((cs ++ more).head? == some x) = (cs.head? == some x) := by
  cases cs with
  | nil =>
    have hx : more.head? ≠ some x := by simpa using h
    simpa using hx
  | cons d cs => simp

/-- Two points are found at the start of a text or of a longer one alike. -/
theorem beq_take_two_append {cs more : List Char} (hne : cs ≠ [] ∨ more.head? ≠ some '.')
    (hpoint : cs = ['.'] → more.head? ≠ some '.') :
    ((cs ++ more).take 2 == ['.', '.']) = (cs.take 2 == ['.', '.']) := by
  cases cs with
  | nil =>
    cases more with
    | nil => simp
    | cons e more =>
      have he : e ≠ '.' := by simpa using hne
      simp [he]
  | cons d cs =>
    cases cs with
    | cons e cs => simp
    | nil =>
      cases more with
      | nil => simp
      | cons e more =>
        by_cases hd : d = '.'
        · have he : e ≠ '.' := by simpa [hd] using hpoint
          simp [hd, he]
        · simp [hd]

/-- A cut that stands is made in front of any following text, two points before it apart. -/
theorem nextLexeme_append_right {lineStart : Bool} {c : Char} {rest more : List Char}
    (h : CutStands (nextLexeme lineStart c rest) more)
    (hpoint : rest = ['.'] → more.head? ≠ some '.') :
    nextLexeme lineStart c (rest ++ more) =
      ((nextLexeme lineStart c rest).1, (nextLexeme lineStart c rest).2 ++ more) := by
  have hne : rest ≠ [] ∨ (nextLexeme lineStart c rest).1.StandsBefore more := by
    refine h.imp_left fun hr => ?_
    rintro rfl
    have := length_nextLexeme_lt lineStart c []
    simp only [List.length_cons, List.length_nil] at this
    exact hr (List.length_eq_zero_iff.mp (by omega))
  have hlook {x : Char} (hx : x = '/' ∨ x = '*') :
      (c == '/' && (rest ++ more).head? == some x) = (c == '/' && rest.head? == some x) := by
    by_cases hc : c = '/'
    · subst hc
      rw [beq_head?_append]
      by_cases hrest : rest = []
      · subst hrest
        have hstands := (hne.resolve_left (by simp)).2.2 rfl
        rcases hx with rfl | rfl
        · exact .inr hstands.1
        · exact .inr hstands.2
      · exact .inl hrest
    · have hslash : (c == '/') = false := by simpa using hc
      rw [hslash, Bool.false_and, Bool.false_and]
  have hslash := hlook (.inl rfl)
  have hstar := hlook (.inr rfl)
  have htwo := beq_take_two_append (hne.imp_right fun hs => hs.2.1.head?_ne_point) hpoint
  unfold nextLexeme at h ⊢
  rw [hslash, hstar, htwo]
  by_cases hblank : isBlank c = true
  · simp [hblank]
  simp only [hblank, Bool.false_eq_true, ↓reduceIte] at h ⊢
  by_cases hline : (c == '/' && rest.head? == some '/') = true
  · simp only [hline, ↓reduceIte] at h ⊢
    have hcons : rest ≠ [] := by rintro rfl; simp at hline
    have hbehind := h.resolve_right (by simp [Lexeme.StandsBefore, Lexeme.isFinished])
    have := @takeWhile_append_of_head? _ _ more (.inl hbehind)
    rw [List.tail_append_of_ne_nil hcons, this.1, this.2]
  simp only [hline, Bool.false_eq_true, ↓reduceIte] at h ⊢
  by_cases hcomment : (c == '/' && rest.head? == some '*') = true
  · simp only [hcomment, ↓reduceIte] at h ⊢
    have hcons : rest ≠ [] := by rintro rfl; simp at hcomment
    rw [List.tail_append_of_ne_nil hcons, splitBlockComment_append_right (h.imp_right And.left)]
  simp only [hcomment, Bool.false_eq_true, ↓reduceIte] at h ⊢
  by_cases hrun : (c == '#' && lineStart) = true
  · simp only [hrun, ↓reduceIte] at h ⊢
    have hbehind := h.resolve_right (by simp [Lexeme.StandsBefore, Lexeme.isFinished])
    rw [splitPreprocessor_append_right hbehind]
  simp only [hrun, Bool.false_eq_true, ↓reduceIte] at h ⊢
  by_cases hquote : (c == '"' || c == '\'') = true
  · simp only [hquote, ↓reduceIte] at h ⊢
    have hsplit : (splitQuoted c rest).2 ≠ [] ∨ reachesQuote c rest = true := by
      by_cases hr : (splitQuoted c rest).2 = []
      · have hall := splitQuoted_append c rest
        rw [hr, List.append_nil] at hall
        have hf := (h.resolve_left (by simpa using hr)).1
        simp only [Lexeme.isFinished, hall] at hf
        exact .inr hf
      · exact .inl hr
    rw [splitQuoted_append_right hsplit]
  simp only [hquote, Bool.false_eq_true, ↓reduceIte] at h ⊢
  by_cases hellipsis : (c == '.' && rest.take 2 == ['.', '.']) = true
  · simp only [hellipsis, ↓reduceIte] at h ⊢
    obtain ⟨d, e, rest, rfl⟩ : ∃ d e rest', rest = d :: e :: rest' := by
      cases rest with
      | nil => simp at hellipsis
      | cons d rest => cases rest <;> simp_all
    rfl
  simp only [hellipsis, Bool.false_eq_true, ↓reduceIte] at h ⊢
  by_cases hname : (isLetter c || c == '_') = true
  · simp only [hname, ↓reduceIte] at h ⊢
    have := takeWhile_append_of_head? (h.imp_right fun hb d hd => hb.2.1.continuesWord_eq_false hd false)
    rw [this.1, this.2]
  simp only [hname, Bool.false_eq_true, ↓reduceIte] at h ⊢
  by_cases hnumber : isAsciiDigit c = true
  · simp only [hnumber, ↓reduceIte] at h ⊢
    have := takeWhile_append_of_head? (h.imp_right fun hb d hd => hb.2.1.continuesWord_eq_false hd true)
    rw [this.1, this.2]
  · simp [hnumber]

/-- A blank is cut off as a blank. -/
theorem nextLexeme_of_isBlank {lineStart : Bool} {c : Char} {rest : List Char}
    (h : isBlank c = true) : nextLexeme lineStart c rest = (.blank c, rest) := by
  simp [nextLexeme, h]

/-- Only a blank is cut off as a blank. -/
theorem isBlank_of_nextLexeme {lineStart : Bool} {c d : Char} {rest : List Char}
    (h : (nextLexeme lineStart c rest).1 = .blank d) : isBlank c = true := by
  by_contra hblank
  unfold nextLexeme at h
  rw [if_neg hblank] at h
  split_ifs at h

/-- The lexemes of a text: the one cut off first, and those of what is left. -/
theorem lexemesFrom_cons (lineStart : Bool) (c : Char) (rest : List Char) :
    lexemesFrom lineStart (c :: rest) = (nextLexeme lineStart c rest).1 ::
      lexemesFrom ((nextLexeme lineStart c rest).1.lineStartAfter lineStart)
        (nextLexeme lineStart c rest).2 := by
  rw [lexemesFrom]

/-- Only the empty text has no lexemes. -/
theorem lexemesFrom_eq_nil {lineStart : Bool} {cs : List Char} :
    lexemesFrom lineStart cs = [] ↔ cs = [] := by
  cases cs with
  | nil => simp [lexemesFrom]
  | cons c rest => simp [lexemesFrom_cons]

/-- A single point is a mark. -/
theorem lexemesFrom_point (lineStart : Bool) : lexemesFrom lineStart ['.'] = [.mark '.'] := by
  have hcut : nextLexeme lineStart '.' [] = (.mark '.', []) := rfl
  rw [lexemesFrom_cons, hcut, lexemesFrom]

/-- In front of a single point a lexeme leaves the point or nothing. -/
theorem behind_of_point {lineStart : Bool} {c : Char} (h : (nextLexeme lineStart c ['.']).2 ≠ []) :
    (nextLexeme lineStart c ['.']).2 = ['.'] := by
  have htext := nextLexeme_append lineStart c ['.']
  cases hlexeme : (nextLexeme lineStart c ['.']).1.text with
  | nil => exact absurd hlexeme (text_nextLexeme_ne_nil lineStart c ['.'])
  | cons d text =>
    rw [hlexeme, List.cons_append, List.cons.injEq] at htext
    cases text with
    | nil => exact htext.2
    | cons e text =>
      have hlength := congrArg List.length htext.2
      simp only [List.length_append, List.length_cons, List.length_nil] at hlength
      exact absurd (List.length_eq_zero_iff.mp (by omega)) h

/-- A text that goes on behind its last lexeme is cut as before in front of that lexeme, and the
lexeme would be cut off on its own there. -/
theorem lexemesFrom_append_last {lineStart : Bool} {cs : List Char} {front : List Lexeme} {l : Lexeme}
    (hcs : lexemesFrom lineStart cs = front ++ [l]) (more : List Char)
    (hpoint : l = .mark '.' → more.head? ≠ some '.') :
    lexemesFrom (front.foldl Lexeme.lineStartAfter lineStart) l.text = [l] ∧
      lexemesFrom lineStart (cs ++ more) = front ++
        lexemesFrom (front.foldl Lexeme.lineStartAfter lineStart) (l.text ++ more) := by
  induction front generalizing lineStart cs with
  | nil =>
    have htext : cs = l.text := by
      have := flatMap_text_lexemesFrom lineStart cs
      rwa [hcs, List.nil_append, List.flatMap_singleton, eq_comm] at this
    exact ⟨htext ▸ hcs, by rw [htext]; rfl⟩
  | cons first front ih =>
    cases cs with
    | nil => simp [lexemesFrom] at hcs
    | cons c rest =>
      rw [lexemesFrom_cons, List.cons_append, List.cons.injEq] at hcs
      obtain ⟨rfl, hbehind⟩ := hcs
      have hne : (nextLexeme lineStart c rest).2 ≠ [] := by
        intro hnil
        simp [hnil, lexemesFrom] at hbehind
      have hpoint' : rest = ['.'] → more.head? ≠ some '.' := by
        rintro rfl
        rw [behind_of_point hne] at hbehind
        refine hpoint ?_
        simpa using congrArg List.getLast? (hbehind.symm.trans (lexemesFrom_point _))
      obtain ⟨hlast, hmore⟩ := ih hbehind
      refine ⟨hlast, ?_⟩
      rw [List.cons_append, lexemesFrom_cons, nextLexeme_append_right (.inl hne) hpoint', hmore]
      rfl

/-- A text that is one lexeme is cut off in front of what follows. -/
theorem lexemesFrom_append_one {lineStart : Bool} {cs more : List Char} {l : Lexeme}
    (hcs : lexemesFrom lineStart cs = [l]) (hl : (∃ c, l = .blank c) ∨ l.StandsBefore more)
    (hpoint : cs.getLast? = some '.' → more.head? ≠ some '.') :
    lexemesFrom lineStart (cs ++ more) = l :: lexemesFrom (l.lineStartAfter lineStart) more := by
  cases cs with
  | nil => simp [lexemesFrom] at hcs
  | cons c rest =>
    rw [lexemesFrom_cons, List.cons.injEq, lexemesFrom_eq_nil] at hcs
    obtain ⟨rfl, hrest⟩ := hcs
    have hcut : nextLexeme lineStart c (rest ++ more) = ((nextLexeme lineStart c rest).1, more) := by
      rcases hl with ⟨d, hd⟩ | hstands
      · have hblank := isBlank_of_nextLexeme hd
        rw [nextLexeme_of_isBlank hblank] at hrest ⊢
        rw [nextLexeme_of_isBlank hblank]
        simp only at hrest
        rw [hrest, List.nil_append]
      · rw [nextLexeme_append_right (.inr hstands), hrest, List.nil_append]
        rintro rfl
        exact hpoint (by simp)
    rw [List.cons_append, lexemesFrom_cons, hcut]

/-- A text whose last lexeme is a blank, or stands before the text that follows, is cut apart from
it. -/
theorem lexemesFrom_append {lineStart : Bool} {cs more : List Char}
    (hlast : ∀ l, (lexemesFrom lineStart cs).getLast? = some l →
      (∃ c, l = .blank c) ∨ l.StandsBefore more)
    (hpoint : cs.getLast? = some '.' → more.head? ≠ some '.') :
    lexemesFrom lineStart (cs ++ more) = lexemesFrom lineStart cs ++
      lexemesFrom ((lexemesFrom lineStart cs).foldl Lexeme.lineStartAfter lineStart) more := by
  cases hl : (lexemesFrom lineStart cs).getLast? with
  | none =>
    have hnil := List.getLast?_eq_none_iff.mp hl
    have hcs := flatMap_text_lexemesFrom lineStart cs
    rw [hnil] at hcs ⊢
    rw [← hcs]
    rfl
  | some l =>
    obtain ⟨front, hcs⟩ := List.getLast?_eq_some_iff.mp hl
    have htext : front.flatMap Lexeme.text ++ l.text = cs := by
      rw [← flatMap_text_lexemesFrom lineStart cs, hcs, List.flatMap_append, List.flatMap_singleton]
    have hpoint' : l.text.getLast? = some '.' → more.head? ≠ some '.' := fun hp =>
      hpoint (by rw [← htext, List.getLast?_append, hp]; rfl)
    obtain ⟨halone, hmore⟩ := lexemesFrom_append_last hcs more fun h => hpoint' (h ▸ rfl)
    rw [hmore, hcs, List.foldl_append, List.append_assoc,
      lexemesFrom_append_one halone (hlast l hl) hpoint']
    rfl

end CBind.Source
