import CBind.Proofs.Source.Accounting

/-!
# Cutting a text at a cursor

The text stays as it is and a cursor moves over it. The cursor counts the characters behind it and the lines,
and it knows whether only blanks stand between it and the last line feed. A character is looked up by its
position, which at the end of the text gives nothing, and every loop moves the cursor one character at a time
as long as there is one. So a loop ends because the characters in front of the cursor get fewer, and the loop
over tokens ends because each token takes at least the character it starts with.

Each loop takes off the text what the function of the same kind on lists takes off, and the cursor stands behind
it. So the tokens are those of the lexemes.
-/

namespace CBind.Source

open CBind.Text

/-- A place in a text. -/
structure Cursor where
  position : Nat := 0
  line : Nat := 1
  lineStart : Bool := true
deriving DecidableEq, Repr

namespace Cursor

variable (text : List Char)

/-- The character at the cursor. -/
def current (c : Cursor) : Option Char :=
  text[c.position]?

/-- The character a number of places in front of the cursor. -/
def peek (c : Cursor) (offset : Nat) : Option Char :=
  text[c.position + offset]?

/-- Move over one character, if there is one. -/
def advance (c : Cursor) : Cursor :=
  match c.current text with
  | none => c
  | some ch =>
    { position := c.position + 1
      line := if ch == '\n' then c.line + 1 else c.line
      lineStart := ch == '\n' || c.lineStart }

variable {text} {c : Cursor}

/-- A cursor with a character in front of it stands inside the text. -/
theorem position_lt (h : (c.current text).isSome) : c.position < text.length := by
  simpa [current] using h

/-- The cursor does not move back. -/
theorem position_le_advance (c : Cursor) : c.position ≤ (c.advance text).position := by
  unfold advance
  split
  · exact Nat.le_refl _
  · exact Nat.le_succ _

/-- The cursor moves on if it can. -/
theorem length_sub_advance_lt (h : (c.current text).isSome) :
    text.length - (c.advance text).position < text.length - c.position := by
  have hpos := position_lt h
  obtain ⟨ch, hch⟩ := Option.isSome_iff_exists.mp h
  have hadvance : (c.advance text).position = c.position + 1 := by rw [advance, hch]
  omega

/-- Moving on twice is moving on if the first move is. -/
theorem length_sub_advance_advance_lt (h : (c.current text).isSome) :
    text.length - ((c.advance text).advance text).position < text.length - c.position := by
  have hfirst := length_sub_advance_lt h
  have hsecond : (c.advance text).position ≤ ((c.advance text).advance text).position := position_le_advance _
  omega

variable (text)

/-! ## The loops -/

/-- Move over blanks. -/
def skipBlanks (c : Cursor) : Cursor :=
  match _h : c.current text with
  | none => c
  | some ch => if isBlank ch then skipBlanks (c.advance text) else c
termination_by text.length - c.position
decreasing_by exact length_sub_advance_lt (by simp [_h])

/-- Take the rest of the line. -/
def takeLine (c : Cursor) : List Char × Cursor :=
  match _h : c.current text with
  | none => ([], c)
  | some ch =>
    if ch == '\n' then ([], c)
    else
      let r := takeLine (c.advance text)
      (ch :: r.1, r.2)
termination_by text.length - c.position
decreasing_by exact length_sub_advance_lt (by simp [_h])

/-- Take the comment lines up to the end of a block comment; `note` is what was read of the line `line`. -/
def takeBlock (note : List Char) (line : Nat) (c : Cursor) : List Placed × Cursor :=
  match _h : c.current text with
  | none => ([⟨.comment (blockLineText note), line⟩], c)
  | some ch =>
    let next := c.advance text
    if ch == '*' && next.current text == some '/' then
      ([⟨.comment (blockLineText note), line⟩], next.advance text)
    else if ch == '\n' then
      let r := takeBlock [] next.line next
      (⟨.comment (blockLineText note), line⟩ :: r.1, r.2)
    else takeBlock (note ++ [ch]) line next
termination_by text.length - c.position
decreasing_by all_goals exact length_sub_advance_lt (by simp [_h])

/-- Move over a preprocessor line and the lines that continue it. -/
def skipDirective (c : Cursor) : Cursor :=
  match _h : c.current text with
  | none => c
  | some ch =>
    if ch == '\\' && c.peek text 1 == some '\n' then skipDirective ((c.advance text).advance text)
    else if ch == '\n' then c
    else skipDirective (c.advance text)
termination_by text.length - c.position
decreasing_by
  · exact length_sub_advance_advance_lt (by simp [_h])
  · exact length_sub_advance_lt (by simp [_h])

/-- Take a literal behind its opening quote. -/
def takeQuoted (quote : Char) (c : Cursor) : List Char × Cursor :=
  match _h : c.current text with
  | none => ([], c)
  | some ch =>
    let next := c.advance text
    if ch == '\n' then ([], c)
    else if ch == '\\' then
      let r := takeQuoted quote (next.advance text)
      (ch :: ((next.current text).toList ++ r.1), r.2)
    else if ch == quote then ([ch], next)
    else
      let r := takeQuoted quote next
      (ch :: r.1, r.2)
termination_by text.length - c.position
decreasing_by
  · exact length_sub_advance_advance_lt (by simp [_h])
  · exact length_sub_advance_lt (by simp [_h])

/-- Take a word, of which `word` was read; only a word that starts with a digit holds points. -/
def takeWord (word : List Char) (c : Cursor) : List Char × Cursor :=
  match _h : c.current text with
  | none => (word, c)
  | some ch =>
    if isLetterOrNumber ch || ch == '_' || (ch == '.' && word.head?.any isAsciiDigit) then
      takeWord (word ++ [ch]) (c.advance text)
    else (word, c)
termination_by text.length - c.position
decreasing_by exact length_sub_advance_lt (by simp [_h])

/-- Take the tokens that start with the character at the cursor, which is no blank. -/
def takeToken (ch : Char) (c : Cursor) : List Placed × Cursor :=
  let start := { c with lineStart := false }
  if ch == '/' && c.peek text 1 == some '/' then
    let r := takeLine text ((start.advance text).advance text)
    ([⟨.comment (String.ofList (trim r.1)), c.line⟩], r.2)
  else if ch == '/' && c.peek text 1 == some '*' then
    let body := (start.advance text).advance text
    takeBlock text [] body.line body
  else if ch == '#' && c.lineStart then ([⟨.preprocessor, c.line⟩], skipDirective text start)
  else if ch == '"' || ch == '\'' then
    let r := takeQuoted text ch (start.advance text)
    ([⟨.literal (String.ofList (ch :: r.1)), c.line⟩], r.2)
  else if ch == '.' && (c.peek text 1 == some '.' && c.peek text 2 == some '.') then
    ([⟨.ellipsis, c.line⟩], ((start.advance text).advance text).advance text)
  else if isLetter ch || ch == '_' then
    let r := takeWord text [] start
    ([⟨.ident (String.ofList r.1), c.line⟩], r.2)
  else if isAsciiDigit ch then
    let r := takeWord text [] start
    ([⟨.literal (String.ofList r.1), c.line⟩], r.2)
  else ([⟨Token.ofChar ch, c.line⟩], start.advance text)

/-! ## What the loops take off the text -/

/-- The text in front of the cursor. -/
def ahead (c : Cursor) : List Char :=
  text.drop c.position

/-- The place behind characters that stand in front of the cursor. -/
def past (c : Cursor) (taken : List Char) : Cursor :=
  { position := c.position + taken.length
    line := c.line + taken.count '\n'
    lineStart := taken.contains '\n' || c.lineStart }

variable {text} {ch : Char}

@[simp]
theorem past_nil (c : Cursor) : c.past [] = c := by
  simp [past]

/-- Going past one text and then past another is going past both. -/
@[simp]
theorem past_past (c : Cursor) (a b : List Char) : (c.past a).past b = c.past (a ++ b) := by
  simp [past, Nat.add_assoc, Bool.or_comm, Bool.or_assoc]

/-- Behind what was taken the rest of the text stands. -/
theorem ahead_past {taken rest : List Char} (h : c.ahead text = taken ++ rest) :
    (c.past taken).ahead text = rest := by
  rw [ahead, past, ← List.drop_drop, ← ahead, h, List.drop_left]

/-- A character further on is that of the text in front of the cursor. -/
theorem peek_eq (offset : Nat) : c.peek text offset = (c.ahead text)[offset]? :=
  List.getElem?_drop.symm

/-- At the end nothing is in front of the cursor. -/
theorem ahead_of_none (h : c.current text = none) : c.ahead text = [] := by
  rw [← List.head?_eq_none_iff, ahead, List.head?_drop]
  exact h

/-- Moving on is going past the character at the cursor. -/
theorem advance_of_some (h : c.current text = some ch) : c.advance text = c.past [ch] := by
  by_cases hfeed : ch = '\n'
  · simp [advance, h, past, hfeed]
  · simp [advance, h, past, hfeed, Ne.symm hfeed]

/-- The character at the cursor comes first in the text in front of it. -/
theorem ahead_of_some (h : c.current text = some ch) :
    c.ahead text = ch :: (c.advance text).ahead text := by
  obtain ⟨rest, hrest⟩ : ∃ rest, c.ahead text = ch :: rest := by
    rw [← List.head?_eq_some_iff, ahead, List.head?_drop]
    exact h
  have hpast : (c.past [ch]).ahead text = rest := ahead_past hrest
  rw [advance_of_some h, hpast, hrest]

/-- Blanks are passed up to the first other character. -/
theorem skipBlanks_eq (c : Cursor) : c.skipBlanks text = c.past ((c.ahead text).takeWhile isBlank) := by
  fun_induction skipBlanks text c with
  | case1 c h => simp [ahead_of_none h]
  | case2 c ch h hblank ih =>
    rw [ih, ahead_of_some h, List.takeWhile_cons_of_pos hblank, advance_of_some h, past_past]
    rfl
  | case3 c ch h hblank => simp [ahead_of_some h, hblank]

/-- A line is taken up to its line feed, which is left. -/
theorem takeLine_eq (c : Cursor) : c.takeLine text =
    ((c.ahead text).takeWhile (· != '\n'), c.past ((c.ahead text).takeWhile (· != '\n'))) := by
  fun_induction takeLine text c with
  | case1 c h => simp [ahead_of_none h]
  | case2 c ch h hfeed => simp [ahead_of_some h, beq_iff_eq.mp hfeed]
  | case3 c ch h hfeed r ih =>
    rw [show r = _ from ih, ahead_of_some h, List.takeWhile_cons_of_pos (by simpa using hfeed),
      advance_of_some h, past_past]
    rfl

/-- What stands one place in front of the cursor is at the next place. -/
theorem current_advance (h : c.current text = some ch) : (c.advance text).current text = c.peek text 1 := by
  rw [advance_of_some h]
  rfl

/-- A preprocessor line is passed with the lines that continue it. -/
theorem skipDirective_eq (c : Cursor) :
    c.skipDirective text = c.past (splitPreprocessor (c.ahead text)).1 := by
  fun_induction skipDirective text c with
  | case1 c h => simp [ahead_of_none h, splitPreprocessor]
  | case2 c ch h hescape ih =>
    rw [Bool.and_eq_true, beq_iff_eq, beq_iff_eq] at hescape
    obtain ⟨rfl, hfeed⟩ := hescape
    have hnext := (current_advance h).trans hfeed
    rw [ih, ahead_of_some h, ahead_of_some hnext, advance_of_some hnext, advance_of_some h, past_past, past_past]
    rfl
  | case3 c ch h _ hfeed => simp [ahead_of_some h, beq_iff_eq.mp hfeed, splitPreprocessor]
  | case4 c ch h hescape hfeed ih =>
    have hsplit : splitPreprocessor (c.ahead text) =
        (ch :: (splitPreprocessor ((c.advance text).ahead text)).1,
          (splitPreprocessor ((c.advance text).ahead text)).2) := by
      rw [ahead_of_some h]
      refine splitPreprocessor_cons (by simpa using hfeed) fun hback hhead => hescape ?_
      rw [ahead, List.head?_drop] at hhead
      rw [hback, ← current_advance h, current, hhead]
      rfl
    rw [ih, hsplit, advance_of_some h, past_past]
    rfl

/-- A literal is taken as it is split off behind its quote. -/
theorem takeQuoted_eq (quote : Char) (c : Cursor) : c.takeQuoted text quote =
    ((splitQuoted quote (c.ahead text)).1, c.past (splitQuoted quote (c.ahead text)).1) := by
  fun_induction takeQuoted text quote c with
  | case1 c h => simp [ahead_of_none h, splitQuoted]
  | case2 c ch h hfeed =>
    rw [beq_iff_eq] at hfeed
    subst hfeed
    rw [ahead_of_some h, splitQuoted_cons (by decide)]
    simp
  | case3 c ch h next hfeed hback r ih =>
    rw [beq_iff_eq] at hback
    subst hback
    rw [show r = _ from ih, ahead_of_some h]
    cases hnext : next.current text with
    | none =>
      have hstay : next.advance text = next := by rw [advance, hnext]
      rw [hstay, ahead_of_none hnext, show next = c.past _ from advance_of_some h]
      simp [splitQuoted]
    | some escaped =>
      rw [show (c.advance text).ahead text = _ from ahead_of_some hnext, advance_of_some hnext,
        show next = c.past _ from advance_of_some h, past_past, past_past]
      rfl
  | case4 c ch h next hfeed hback hquote =>
    rw [ahead_of_some h, splitQuoted_cons (by simpa using hback), if_neg hfeed, if_pos hquote,
      show next = c.past _ from advance_of_some h]
  | case5 c ch h next hfeed hback hquote r ih =>
    have hahead : c.ahead text = ch :: next.ahead text := ahead_of_some h
    have hpast : next = c.past [ch] := advance_of_some h
    rw [show r = _ from ih, hahead, splitQuoted_cons (by simpa using hback), if_neg hfeed, if_neg hquote]
    dsimp only
    rw [hpast, past_past]
    rfl

/-- A word goes on with what its first character lets it hold. -/
theorem takeWord_eq {word : List Char} (hword : word ≠ []) (c : Cursor) :
    let run := (c.ahead text).takeWhile (continuesWord (word.head?.any isAsciiDigit))
    c.takeWord text word = (word ++ run, c.past run) := by
  fun_induction takeWord text word c with
  | case1 word c h => simp [ahead_of_none h]
  | case2 word c ch h hcontinues ih =>
    have hhead : (word ++ [ch]).head? = word.head? := by
      obtain ⟨first, more, rfl⟩ := List.exists_cons_of_ne_nil hword
      rfl
    have hcontinues : continuesWord (word.head?.any isAsciiDigit) ch = true := by
      rw [continuesWord, ← hcontinues, Bool.and_comm (ch == '.')]
    have ih := ih (by simp)
    rw [hhead] at ih
    dsimp only at ih ⊢
    rw [ih, ahead_of_some h, List.takeWhile_cons_of_pos hcontinues, advance_of_some h, past_past]
    simp
  | case3 word c ch h hcontinues =>
    have hcontinues : continuesWord (word.head?.any isAsciiDigit) ch = false := by
      rw [continuesWord, Bool.and_comm _ (ch == '.')]
      simpa using hcontinues
    simp [ahead_of_some h, hcontinues]

/-- A line feed ends a line of a text. -/
theorem splitLines_append_feed {note : List Char} (hnote : '\n' ∉ note) (rest : List Char) :
    splitLines (note ++ '\n' :: rest) = note :: splitLines rest := by
  induction note with
  | nil => simp [splitLines]
  | cons ch note ih =>
    rw [List.mem_cons, not_or] at hnote
    rw [List.cons_append, splitLines, ih hnote.2, if_neg (by simpa using Ne.symm hnote.1)]

/-- A text without line feeds is one line. -/
theorem splitLines_of_not_mem {note : List Char} (hnote : '\n' ∉ note) : splitLines note = [note] := by
  induction note with
  | nil => rfl
  | cons ch note ih =>
    rw [List.mem_cons, not_or] at hnote
    rw [splitLines, ih hnote.2, if_neg (by simpa using Ne.symm hnote.1)]

/-- A block comment is taken line by line, and what was read of its line comes first. -/
theorem takeBlock_eq {note : List Char} (hnote : '\n' ∉ note) {line : Nat} {c : Cursor} (hline : line = c.line) :
    let comment := splitBlockComment (c.ahead text)
    c.takeBlock text note line =
      (placeLines line (splitLines (note ++ comment.1)), c.past (comment.1 ++ commentEnd comment.2.1)) := by
  fun_induction takeBlock text note line c with
  | case1 note line c h =>
    simp [ahead_of_none h, splitBlockComment, splitLines_of_not_mem hnote, placeLines, commentEnd]
  | case2 note line c ch h next hend =>
    rw [Bool.and_eq_true, beq_iff_eq, beq_iff_eq] at hend
    obtain ⟨rfl, hslash⟩ := hend
    rw [ahead_of_some h, show (c.advance text).ahead text = _ from ahead_of_some hslash, advance_of_some hslash,
      show next = c.past _ from advance_of_some h, past_past]
    simp [splitBlockComment, splitLines_of_not_mem hnote, placeLines, commentEnd]
  | case3 note line c ch h next hend hfeed r ih =>
    rw [beq_iff_eq] at hfeed
    subst hfeed
    have hahead : c.ahead text = '\n' :: next.ahead text := ahead_of_some h
    have hpast : next = c.past ['\n'] := advance_of_some h
    rw [show r = _ from ih (by simp) rfl, hahead, splitBlockComment_cons (by simp)]
    dsimp only
    rw [splitLines_append_feed hnote, placeLines, hline, hpast, past_past]
    rfl
  | case4 note line c ch h next hend hfeed ih =>
    have hnote : '\n' ∉ note ++ [ch] := by
      simpa [hnote] using Ne.symm (by simpa using hfeed)
    have hgoes : ch = '*' → (next.ahead text).head? ≠ some '/' := by
      rintro rfl hhead
      rw [ahead, List.head?_drop] at hhead
      exact hend (by rw [current, hhead]; rfl)
    have hnext : next.line = c.line := by
      rw [show next = c.past _ from advance_of_some h, past, List.count_singleton, if_neg hfeed]
      rfl
    dsimp only at ih ⊢
    rw [ih hnote (hline.trans hnext.symm), ahead_of_some h, splitBlockComment_cons hgoes]
    show (placeLines line _, next.past _) = (placeLines line _, c.past (ch :: _))
    rw [show next = c.past _ from advance_of_some h, past_past, List.append_assoc]
    rfl

/-- Two places in front of the cursor a text is known by its first two characters. -/
theorem take_two_beq (rest : List Char) (x y : Char) :
    (rest.take 2 == [x, y]) = (rest[0]? == some x && rest[1]? == some y) := by
  match rest with
  | [] => rfl
  | [a] => simp
  | a :: b :: more => simp

/-- The text in front of the cursor starts at the cursor. -/
theorem current_of_ahead {rest : List Char} (h : c.ahead text = ch :: rest) : c.current text = some ch := by
  rw [current, ← List.head?_drop, ← ahead, h]
  rfl

/-- Moving on leaves the first character behind. -/
theorem advance_of_ahead {rest : List Char} (h : c.ahead text = ch :: rest) :
    c.advance text = c.past [ch] ∧ (c.past [ch]).ahead text = rest :=
  ⟨advance_of_some (current_of_ahead h), ahead_past (show c.ahead text = [ch] ++ rest from h)⟩

/-- A word is read from its first character on. -/
theorem takeWord_nil_eq {rest : List Char} (h : c.ahead text = ch :: rest)
    (hword : (isLetterOrNumber ch || ch == '_') = true) :
    let word := ch :: rest.takeWhile (continuesWord (isAsciiDigit ch))
    c.takeWord text [] = (word, c.past word) := by
  obtain ⟨hadvance, hrest⟩ := advance_of_ahead h
  have hmore := @takeWord_eq text [ch] (by simp) (c.past [ch])
  rw [hrest] at hmore
  dsimp only at hmore
  rw [past_past] at hmore
  rw [takeWord]
  split
  · next hnone =>
    rw [current_of_ahead h] at hnone
    contradiction
  · next first hfirst =>
    rw [current_of_ahead h] at hfirst
    obtain rfl := Option.some.inj hfirst
    rw [hword, Bool.true_or, if_pos rfl, List.nil_append, hadvance]
    exact hmore

/-- The token at the cursor is that of the lexeme that the text in front of it starts with. -/
theorem takeToken_eq {rest : List Char} (hahead : c.ahead text = ch :: rest) (hblank : isBlank ch = false) :
    let l := (nextLexeme c.lineStart ch rest).1
    c.takeToken text ch = (l.tokens c.line, ({ c with lineStart := false } : Cursor).past l.text) := by
  have hpeek (n : Nat) : c.peek text (n + 1) = rest[n]? := by rw [peek_eq, hahead, List.getElem?_cons_succ]
  unfold takeToken nextLexeme
  rw [hpeek 0, hpeek 1, hblank, take_two_beq, List.head?_eq_getElem?]
  generalize hstart : ({ c with lineStart := false } : Cursor) = start
  have hline : c.line = start.line := by rw [← hstart]
  replace hahead : start.ahead text = ch :: rest := by rw [← hstart]; exact hahead
  obtain ⟨hfirst, hrest⟩ := advance_of_ahead hahead
  -- Behind a second character the cursor stands in front of the others.
  have hsecond {d : Char} {more : List Char} (h : rest = d :: more) :
      (start.advance text).advance text = start.past [ch, d] ∧ (start.past [ch, d]).ahead text = more := by
    rw [h] at hrest
    obtain ⟨hadvance, hmore⟩ := advance_of_ahead hrest
    rw [past_past] at hadvance hmore
    exact ⟨by rw [hfirst, hadvance]; rfl, hmore⟩
  simp only [Bool.false_eq_true, ↓reduceIte]
  split_ifs with hcomment hblock hdirective hquote hellipsis hname hnumber
  · simp only [Bool.and_eq_true, beq_iff_eq] at hcomment
    obtain ⟨rfl, hslash⟩ := hcomment
    obtain ⟨more, rfl⟩ := List.head?_eq_some_iff.mp (List.head?_eq_getElem?.trans hslash)
    obtain ⟨hadvance, hmore⟩ := hsecond rfl
    rw [hadvance, takeLine_eq, hmore, past_past]
    rfl
  · simp only [Bool.and_eq_true, beq_iff_eq] at hblock
    obtain ⟨rfl, hstar⟩ := hblock
    obtain ⟨more, rfl⟩ := List.head?_eq_some_iff.mp (List.head?_eq_getElem?.trans hstar)
    obtain ⟨hadvance, hmore⟩ := hsecond rfl
    dsimp only
    rw [hadvance, takeBlock_eq (by simp) rfl, hmore, past_past, hline]
    rfl
  · simp only [Bool.and_eq_true, beq_iff_eq] at hdirective
    obtain ⟨rfl, -⟩ := hdirective
    rw [skipDirective_eq, hahead, splitPreprocessor_cons (by decide) (by simp)]
    rfl
  · dsimp only
    rw [hfirst, takeQuoted_eq, hrest, past_past]
    rfl
  · simp only [Bool.and_eq_true, beq_iff_eq] at hellipsis
    obtain ⟨rfl, hpoint, hthird⟩ := hellipsis
    obtain ⟨more, rfl⟩ := List.head?_eq_some_iff.mp (List.head?_eq_getElem?.trans hpoint)
    obtain ⟨hadvance, hmore⟩ := hsecond rfl
    obtain ⟨more, rfl⟩ := List.head?_eq_some_iff.mp (List.head?_eq_getElem?.trans hthird)
    rw [hadvance, (advance_of_ahead hmore).1, past_past]
    rfl
  · have hdigit : isAsciiDigit ch = false := by
      by_contra hdigit
      rw [(not_isBlank_of_isAsciiDigit (by simpa using hdigit)).2.1] at hname
      contradiction
    have hword : (isLetterOrNumber ch || ch == '_') = true := by
      rw [Bool.or_eq_true] at hname ⊢
      exact hname.imp_left isLetterOrNumber_of_isLetter
    rw [takeWord_nil_eq hahead hword, hdigit]
    rfl
  · have hword : (isLetterOrNumber ch || ch == '_') = true := by
      rw [isLetterOrNumber_of_isAsciiDigit hnumber, Bool.true_or]
    rw [takeWord_nil_eq hahead hword, hnumber]
    rfl
  · rw [hfirst]
    rfl

/-- Behind the blanks stands none. -/
theorem isBlank_of_skipBlanks (h : (c.skipBlanks text).current text = some ch) : isBlank ch = false := by
  fun_induction skipBlanks text c with
  | case1 c hnone =>
    rw [hnone] at h
    contradiction
  | case2 c _ _ _ ih => exact ih h
  | case3 c first hfirst hblank =>
    rw [hfirst] at h
    obtain rfl := Option.some.inj h
    simpa using hblank

/-- The cursor moves on over blanks and a token. -/
theorem length_sub_takeToken_lt (h : (c.skipBlanks text).current text = some ch) :
    text.length - ((c.skipBlanks text).takeToken text ch).2.position < text.length - c.position := by
  have hpos : (c.skipBlanks text).position < text.length := position_lt (by rw [h]; rfl)
  have hne := List.length_pos_iff.mpr (text_nextLexeme_ne_nil (c.skipBlanks text).lineStart ch
    (((c.skipBlanks text).advance text).ahead text))
  have hskip : c.position ≤ (c.skipBlanks text).position := by
    rw [skipBlanks_eq]
    exact Nat.le_add_right _ _
  rw [takeToken_eq (ahead_of_some h) (isBlank_of_skipBlanks h), past]
  dsimp only
  omega

variable (text)

/-- The tokens from the cursor on. -/
def takeTokens (c : Cursor) : List Placed :=
  match _h : (c.skipBlanks text).current text with
  | none => []
  | some ch =>
    let r := (c.skipBlanks text).takeToken text ch
    r.1 ++ takeTokens r.2
termination_by text.length - c.position
decreasing_by exact length_sub_takeToken_lt _h

/-- The tokens of the lexemes in front of the cursor. -/
def tokensAhead (c : Cursor) : List Placed :=
  tokensFrom c.line (lexemesFrom c.lineStart (c.ahead text))

variable {text}

/-- Blanks give no tokens. -/
theorem tokensAhead_skipBlanks (c : Cursor) : (c.skipBlanks text).tokensAhead text = c.tokensAhead text := by
  fun_induction skipBlanks text c with
  | case1 => rfl
  | case2 c ch h hblank ih =>
    have hfeed : [ch].contains '\n' = (ch == '\n') := by simp [eq_comm, Bool.beq_eq_decide_eq]
    rw [ih, tokensAhead, tokensAhead, ahead_of_some h, lexemesFrom_cons, nextLexeme_of_isBlank hblank, tokensFrom,
      advance_of_some h, past, hfeed]
    rfl
  | case3 => rfl

/-- Behind anything but a blank a line starts where a line feed was taken. -/
theorem lineStartAfter_nextLexeme {lineStart : Bool} {rest : List Char} (h : isBlank ch = false) :
    (nextLexeme lineStart ch rest).1.lineStartAfter lineStart =
      (nextLexeme lineStart ch rest).1.text.contains '\n' := by
  cases hl : (nextLexeme lineStart ch rest).1 with
  | blank d =>
    rw [isBlank_of_nextLexeme hl] at h
    contradiction
  | _ => rfl

/-- The token at the cursor comes first, and the others follow behind it. -/
theorem tokensAhead_takeToken (h : c.current text = some ch) (hblank : isBlank ch = false) :
    (c.takeToken text ch).1 ++ (c.takeToken text ch).2.tokensAhead text = c.tokensAhead text := by
  have hahead : ({ c with lineStart := false } : Cursor).ahead text = _ :=
    (ahead_of_some h).trans (nextLexeme_append c.lineStart ch _).symm
  rw [takeToken_eq (ahead_of_some h) hblank]
  dsimp only
  rw [tokensAhead, tokensAhead, ahead_past hahead, ahead_of_some h, lexemesFrom_cons, tokensFrom,
    lineStartAfter_nextLexeme hblank]
  simp [past, Lexeme.lineFeeds]

/-- The tokens at the cursor are those of the lexemes in front of it. -/
theorem takeTokens_eq (c : Cursor) : c.takeTokens text = c.tokensAhead text := by
  fun_induction takeTokens text c with
  | case1 c h =>
    rw [← tokensAhead_skipBlanks, tokensAhead, ahead_of_none h, lexemesFrom]
    rfl
  | case2 c ch h r ih =>
    rw [ih, tokensAhead_takeToken h (isBlank_of_skipBlanks h), tokensAhead_skipBlanks]

/-- A text is cut at a cursor into the tokens of its lexemes. -/
theorem takeTokens_eq_tokenize (text : String) :
    ({} : Cursor).takeTokens text.toList = tokenize text :=
  takeTokens_eq _

end Cursor

end CBind.Source
