import CBind.Proofs.Source.Accounting
import CBind.Proofs.Source.Comments

/-!
# Runs of comment lines

Where comments lie in a text is said by its physical lines, without tokens: a line comment lies on the line
it starts on, a block comment on every line it spans, with what is left of the line there. A run is the
longest stretch of lines that ends above a line, each with a comment on it and nothing else starting there.

The reader looks for the comments above a line by going up from it in its tables of comments and of code. It
finds the run, line by line. Where several comments lie on a line it joins their texts by spaces, but puts
none in front of the first text that is not empty. That is no difference for directives, which are read
without the blanks around them.
-/

namespace CBind.Source

open CBind.Text

/-- The comment lines of a lexeme, from top to bottom. -/
def Lexeme.commentLines : Lexeme → List String
  | lineComment body => [String.ofList (trim body)]
  | blockComment body _ => (splitLines body).map blockLineText
  | _ => []

/-- What a lexeme that starts on the line `start` leaves of a comment on the line `n`. -/
def Lexeme.noteOn? (start n : Nat) (l : Lexeme) : Option String :=
  if start ≤ n then l.commentLines[n - start]? else none

/-- The comment texts on the line `n`, from left to right, for lexemes the first of which starts on the line
`start`. -/
def notesFrom (start n : Nat) : List Lexeme → List String
  | [] => []
  | l :: rest => (l.noteOn? start n).toList ++ notesFrom (start + l.lineFeeds) n rest

/-- The comment texts on a line of a text that splits into the lexemes. -/
def notesOn (ls : List Lexeme) (n : Nat) : List String :=
  notesFrom 1 n ls

/-- Recognize the lexemes that are neither blanks nor comments. -/
def Lexeme.startsCode : Lexeme → Bool
  | blank _ => false
  | lineComment _ => false
  | blockComment _ _ => false
  | _ => true

/-- Something other than a comment starts on a line of a text that splits into the lexemes. -/
def CodeStarts (ls : List Lexeme) (n : Nat) : Prop :=
  ∃ front l back, ls = front ++ l :: back ∧ l.startsCode = true ∧ 1 + lineFeedsOf front = n

/-- A comment lies on the line and nothing else starts there. -/
structure CommentsOnly (ls : List Lexeme) (n : Nat) : Prop where
  comment : notesOn ls n ≠ []
  alone : ¬CodeStarts ls n

/-- The lines from `top` to the one above `line` are the longest run of lines with nothing but comments that
ends there. -/
structure IsRun (ls : List Lexeme) (top line : Nat) : Prop where
  bounds : 1 ≤ top ∧ top ≤ line
  each : ∀ n, top ≤ n → n < line → CommentsOnly ls n
  longest : ¬CommentsOnly ls (top - 1)

/-- The texts of the lines of a run, from top to bottom, those on one line joined by spaces. -/
def runTexts (ls : List Lexeme) (top line : Nat) : List String :=
  (List.range' top (line - top)).map fun n => joinWith " " (notesOn ls n)

/-! ## The tables of the reader -/

/-- The comment tokens of consecutive lines are looked up by line. -/
theorem commentsOn_placeLines (start n : Nat) (texts : List (List Char)) :
    commentsOn (placeLines start texts) n =
      (if start ≤ n then (texts.map blockLineText)[n - start]? else none).toList := by
  induction texts generalizing start with
  | nil => simp [placeLines, commentsOn]
  | cons text texts ih =>
    rw [placeLines, ← List.singleton_append, commentsOn_append, ih, List.map_cons]
    rcases Nat.lt_trichotomy start n with hlt | rfl | hgt
    · obtain ⟨k, rfl⟩ := Nat.exists_eq_add_of_lt hlt
      have hother : commentsOn [⟨.comment (blockLineText text), start⟩] (start + k + 1) = [] :=
        commentsOn_eq_nil (by simp; omega)
      have hbehind : start + k + 1 - (start + 1) = k := by omega
      have hindex : start + k + 1 - start = k + 1 := by omega
      rw [hother, if_pos (by omega), if_pos (by omega), hbehind, hindex, List.nil_append,
        List.getElem?_cons_succ]
    · simp [commentsOn]
    · have hother : commentsOn [⟨.comment (blockLineText text), start⟩] n = [] :=
        commentsOn_eq_nil (by simp; omega)
      rw [hother, if_neg (by omega), if_neg (by omega), List.nil_append]

/-- The tokens of a lexeme hold its comment lines. -/
theorem Lexeme.commentsOn_tokens (l : Lexeme) (start n : Nat) :
    commentsOn (l.tokens start) n = (l.noteOn? start n).toList := by
  cases l with
  | lineComment body =>
    by_cases h : start = n
    · simp [tokens, commentsOn, noteOn?, commentLines, h]
    · have hnone : (Lexeme.lineComment body).noteOn? start n = none := by
        rw [noteOn?]
        split
        · exact List.getElem?_eq_none (by simp [commentLines]; omega)
        · rfl
      rw [hnone, commentsOn_eq_nil (by simpa [tokens] using h)]
      rfl
  | blockComment body closed => exact commentsOn_placeLines start n (splitLines body)
  | mark c =>
    have hcode := Token.isTrivia_ofChar c
    cases htoken : Token.ofChar c <;>
      simp_all [tokens, commentsOn, noteOn?, commentLines, Token.isTrivia]
  | _ => simp [tokens, commentsOn, noteOn?, commentLines]

/-- The comment tokens of a text are its comment texts, line by line. -/
theorem commentsOn_tokensFrom (ls : List Lexeme) (start n : Nat) :
    commentsOn (tokensFrom start ls) n = notesFrom start n ls := by
  induction ls generalizing start with
  | nil => rfl
  | cons l ls ih => rw [tokensFrom, commentsOn_append, l.commentsOn_tokens, ih, notesFrom]

/-- A lexeme gives code on the line it starts on, if it is neither a blank nor a comment. -/
theorem Lexeme.hasCode_tokens (l : Lexeme) (start n : Nat) :
    hasCode (l.tokens start) n = true ↔ l.startsCode = true ∧ start = n := by
  cases l with
  | blockComment body closed =>
    refine iff_of_false (fun h => ?_) (by simp [startsCode])
    obtain ⟨t, ht, hcode⟩ := List.any_eq_true.mp h
    obtain ⟨text, -, htoken⟩ := exists_of_mem_placeLines ht
    simp [htoken, Token.isComment] at hcode
  | mark c =>
    have hcode := Token.isTrivia_ofChar c
    have hcomment : (Token.ofChar c).isComment = false := by
      cases htoken : Token.ofChar c <;> simp_all [Token.isTrivia, Token.isComment]
    simp [tokens, hasCode, startsCode, hcomment]
  | _ => simp [tokens, hasCode, startsCode, Token.isComment]

/-- The code of a text stands on the lines that something other than a comment starts on. -/
theorem hasCode_tokensFrom (ls : List Lexeme) (start n : Nat) :
    hasCode (tokensFrom start ls) n = true ↔
      ∃ front l back, ls = front ++ l :: back ∧ l.startsCode = true ∧ start + lineFeedsOf front = n := by
  induction ls generalizing start with
  | nil => simp [tokensFrom, hasCode]
  | cons l ls ih =>
    rw [tokensFrom, hasCode_append, Bool.or_eq_true, l.hasCode_tokens, ih]
    constructor
    · rintro (⟨hl, rfl⟩ | ⟨front, m, back, rfl, hm, rfl⟩)
      · exact ⟨[], l, ls, rfl, hl, rfl⟩
      · exact ⟨l :: front, m, back, rfl, hm, by rw [lineFeedsOf_cons, Nat.add_assoc]⟩
    · rintro ⟨front, m, back, hls, hm, rfl⟩
      cases front with
      | nil =>
        obtain ⟨rfl, -⟩ := List.cons.inj hls
        exact .inl ⟨hm, rfl⟩
      | cons first front =>
        obtain ⟨rfl, hrest⟩ := List.cons.inj hls
        exact .inr ⟨front, m, back, hrest, hm, by rw [lineFeedsOf_cons, Nat.add_assoc]⟩

/-- The lines of comments only are those that the tables of the reader show as such. -/
theorem commentsOnly_iff {ls : List Lexeme} {n : Nat} :
    CommentsOnly ls n ↔ commentsOn (tokensFrom 1 ls) n ≠ [] ∧ hasCode (tokensFrom 1 ls) n = false := by
  rw [commentsOn_tokensFrom, ← Bool.not_eq_true, hasCode_tokensFrom]
  exact ⟨fun h => ⟨h.comment, h.alone⟩, fun h => ⟨h.1, h.2⟩⟩

/-! ## Runs -/

/-- No comment lies above the line that the first lexeme starts on. -/
theorem notesFrom_of_lt (ls : List Lexeme) {start n : Nat} (h : n < start) : notesFrom start n ls = [] := by
  induction ls generalizing start with
  | nil => rfl
  | cons l ls ih =>
    rw [notesFrom, Lexeme.noteOn?, if_neg (by omega), ih (by omega)]
    rfl

/-- Above every line ends a run. -/
theorem exists_isRun (ls : List Lexeme) {line : Nat} (h : 1 ≤ line) : ∃ top, IsRun ls top line := by
  induction line, h using Nat.le_induction with
  | base =>
    refine ⟨1, ⟨Nat.le_refl 1, Nat.le_refl 1⟩, fun n hn hlt => by omega, fun hzero => ?_⟩
    exact hzero.comment (notesFrom_of_lt ls Nat.zero_lt_one)
  | succ line hline ih =>
    by_cases honly : CommentsOnly ls line
    · obtain ⟨top, hbounds, heach, hlongest⟩ := ih
      refine ⟨top, ⟨hbounds.1, by omega⟩, fun n hn hlt => ?_, hlongest⟩
      rcases Nat.lt_succ_iff_lt_or_eq.mp hlt with hlt | rfl
      · exact heach n hn hlt
      · exact honly
    · exact ⟨line + 1, ⟨by omega, Nat.le_refl _⟩, fun n hn hlt => by omega, honly⟩

/-- Above every line ends one run only. -/
theorem IsRun.unique {ls : List Lexeme} {top other line : Nat} (h : IsRun ls top line)
    (hother : IsRun ls other line) : top = other := by
  have hle {a b : Nat} (ha : IsRun ls a line) (hb : IsRun ls b line) : b ≤ a := by
    by_contra hlt
    have := hb.bounds
    exact hb.longest (ha.each (b - 1) (by omega) (by omega))
  exact Nat.le_antisymm (hle hother h) (hle h hother)

/-- Going up from a line the reader finds the run that ends there. -/
theorem IsRun.commentsAbove_eq {ls : List Lexeme} {top line : Nat} (h : IsRun ls top line) :
    commentsAbove (tokensFrom 1 ls) (line - 1) =
      (List.range' top (line - top)).map fun n => joinComments (notesOn ls n) := by
  obtain ⟨k, rfl⟩ := Nat.exists_eq_add_of_le h.bounds.2
  rw [Nat.add_sub_cancel_left]
  induction k with
  | zero =>
    rw [Nat.add_zero, List.range'_zero, List.map_nil]
    cases htop : top - 1 with
    | zero => rfl
    | succ above =>
      have hlongest := h.longest
      rw [htop, commentsOnly_iff, not_and_or, not_not, Bool.not_eq_false] at hlongest
      rw [commentsAbove]
      rcases hlongest with hnone | hcode
      · rw [hnone]
        exact ite_self _
      · rw [if_pos hcode]
  | succ k ih =>
    have hrun : IsRun ls top (top + k) :=
      ⟨⟨h.bounds.1, by omega⟩, fun n hn hlt => h.each n hn (by omega), h.longest⟩
    obtain ⟨hcomment, hcode⟩ := commentsOnly_iff.mp (h.each (top + k) (by omega) (by omega))
    obtain ⟨above, habove⟩ : ∃ above, top + k = above + 1 := ⟨top + k - 1, by have := h.bounds; omega⟩
    have hrest := ih hrun
    rw [show top + k - 1 = above by omega] at hrest
    rw [show top + (k + 1) - 1 = above + 1 by omega, commentsAbove, ← habove, hcode, List.range'_1_concat,
      List.map_append, ← hrest, List.map_singleton]
    rw [if_neg Bool.false_ne_true]
    split
    · contradiction
    · rw [commentsOn_tokensFrom]
      rfl

/-! ## Texts on one line -/

/-- What is joined to a text that is not empty is joined by spaces. -/
theorem foldl_joinComments {joined : String} (h : joined ≠ "") (texts : List String) :
    texts.foldl (fun joined text => if joined.isEmpty then text else joined ++ " " ++ text) joined =
      joinWith " " (joined :: texts) := by
  induction texts generalizing joined with
  | nil => rfl
  | cons text texts ih =>
    have hempty : joined.isEmpty = false := by simpa using h
    have hne : joined ++ " " ++ text ≠ "" := by simp [h]
    rw [List.foldl_cons, hempty, if_neg Bool.false_ne_true, ih hne]
    cases texts <;> simp [joinWith, String.append_assoc]

/-- A blank in front of a text is trimmed away. -/
theorem trim_cons {c : Char} (h : isBlank c = true) (cs : List Char) : trim (c :: cs) = trim cs := by
  rw [trim, trimStart, List.dropWhile_cons_of_pos h]
  rfl

/-- Blanks around them aside, texts joined by spaces are the texts as the reader joins them. -/
theorem trim_joinComments (texts : List String) :
    trim (joinComments texts).toList = trim (joinWith " " texts).toList := by
  induction texts with
  | nil => rfl
  | cons text texts ih =>
    by_cases h : text = ""
    · subst h
      have hskip : joinComments ("" :: texts) = joinComments texts := rfl
      rw [hskip, ih]
      cases texts with
      | nil => rfl
      | cons next texts =>
        rw [show (joinWith " " ("" :: next :: texts)).toList = ' ' :: (joinWith " " (next :: texts)).toList by
          simp [joinWith]]
        exact (trim_cons (by decide) _).symm
    · have hstart : joinComments (text :: texts) = joinWith " " (text :: texts) :=
        foldl_joinComments h texts
      rw [hstart]

/-- What a line says is read without the blanks around it. -/
theorem rawDirective?_congr {a b : String} (h : trim a.toList = trim b.toList) :
    rawDirective? a = rawDirective? b := by
  rw [rawDirective?, rawDirective?, h]

/-- The settings of a block depend on what each line says. -/
theorem collectSettings_congr {a b : List String} (h : a.map rawDirective? = b.map rawDirective?)
    (s : Settings) : collectSettings s a = collectSettings s b := by
  induction a generalizing b s with
  | nil => rw [List.map_eq_nil_iff.mp h.symm]
  | cons line a ih =>
    cases b with
    | nil => contradiction
    | cons other b =>
      rw [List.map_cons, List.map_cons, List.cons.injEq] at h
      rw [collectSettings, collectSettings, h.1]
      simp only [ih h.2]

/-- Directives are read off the texts of a run as the reader reads them off what it found. -/
theorem IsRun.readAnnotations_eq {ls : List Lexeme} {top line : Nat} (h : IsRun ls top line) :
    readAnnotations (commentsAbove (tokensFrom 1 ls) (line - 1)) = readAnnotations (runTexts ls top line) := by
  rw [h.commentsAbove_eq, readAnnotations, readAnnotations, runTexts]
  refine congrArg (Except.map Settings.annotations) (collectSettings_congr ?_ {})
  rw [List.map_map, List.map_map]
  exact List.map_congr_left fun n _ => rawDirective?_congr (trim_joinComments _)

end CBind.Source
