import CBind.Proofs.Source.Accounting
import CBind.Proofs.Source.Concatenation

/-!
# What a body holds does not matter

Two texts that differ between a pair of braces are compared. The scan enters the body at the opening brace
and comes back at the closing one, so it collects the same headers from both texts, as long as the braces
in between are complete. The lexemes behind a brace do not depend on what stands in front of it, so they
are the same too.

That leaves the comments above the headers. They are looked up by lines: headers in front of the body are
not below the line it opens on, and the walk up from a header behind the body stops at the code on the
line that the body closes on. For the last point no code may follow the closing brace on its line.
-/

namespace CBind.Source

open CBind.Text

section Cutting

variable {lineStart : Bool} {c : Char}

/-- What may stand in front of a text is decided by its first characters. -/
theorem Lexeme.Stands.congr {l : Lexeme} {more more' : List Char} (h : l.Stands lineStart more)
    (hhead : more.head? = more'.head?)
    (htwo : more.take 2 = ['.', '.'] ↔ more'.take 2 = ['.', '.']) : l.Stands lineStart more' := by
  have hnil : more = [] ↔ more' = [] := by
    rw [← List.head?_eq_none_iff, hhead, List.head?_eq_none_iff]
  have hfeed : StartsFeed more → StartsFeed more' := fun h d hd => h d (hhead.trans hd)
  cases l with
  | blank c => exact h
  | lineComment body => exact ⟨h.1, hfeed h.2⟩
  | blockComment body closed => exact ⟨h.1, fun hclosed => hnil.mp (h.2 hclosed)⟩
  | preprocessor text =>
    obtain ⟨hstart, hhash, hrun, hmore, hlast⟩ := h
    exact ⟨hstart, hhash, hrun, hfeed hmore, fun hne => hlast (mt hnil.mp hne)⟩
  | quoted text =>
    obtain ⟨quote, rest, hquote, rfl, hends⟩ := h
    refine ⟨quote, rest, hquote, rfl, ?_⟩
    clear htwo
    induction hends with
    | closed => exact .closed more'
    | lineEnd hmore => exact .lineEnd (hfeed hmore)
    | cutShort =>
      obtain rfl := hnil.mp rfl
      exact .cutShort
    | plain hescape hquote hline _ ih => exact .plain hescape hquote hline (ih hhead hnil hfeed)
    | escape c _ ih => exact .escape c (ih hhead hnil hfeed)
  | name text => exact ⟨h.first, h.others, fun d hd => h.ends d (hhead.trans hd)⟩
  | number text => exact ⟨h.first, h.others, fun d hd => h.ends d (hhead.trans hd)⟩
  | ellipsis => trivial
  | mark c =>
    exact {
      notBlank := h.notBlank
      notQuote := h.notQuote
      notWord := h.notWord
      notComment := fun hc => hhead ▸ h.notComment hc
      notEllipsis := fun hc => mt htwo.mpr (h.notEllipsis hc)
      notDirective := h.notDirective }

/-- A text is cut in front of a brace whatever follows the brace, and what follows is cut on its own. -/
theorem lexemesFrom_of_brace {cs : List Char} {front back : List Lexeme} (hc : c = '\x7b' ∨ c = '\x7d')
    (h : lexemesFrom lineStart cs = front ++ .mark c :: back) :
    ∃ rest, cs = front.flatMap Lexeme.text ++ c :: rest ∧ back = lexemesFrom false rest ∧
      ∀ rest', lexemesFrom lineStart (front.flatMap Lexeme.text ++ c :: rest') =
        front ++ .mark c :: lexemesFrom false rest' := by
  have hmark : c ∈ ['(', ')', '\x7b', '\x7d', ',', '*'] := by rcases hc with rfl | rfl <;> simp
  have hpoint : c ≠ '.' := by rcases hc with rfl | rfl <;> decide
  have hstart (b : Bool) : (Lexeme.mark c).lineStartAfter b = false := by
    rcases hc with rfl | rfl <;> rfl
  have hsplits : Splits lineStart cs (front ++ .mark c :: back) := splits_iff.mpr h.symm
  clear h
  induction front generalizing lineStart cs with
  | nil =>
    cases hsplits with
    | @cons _ _ rest _ hl hback =>
      rw [hstart] at hback
      refine ⟨rest, rfl, splits_iff.mp hback, fun rest' => ?_⟩
      rw [List.flatMap_nil, List.nil_append, lexemesFrom_cons, nextLexeme_mark _ _ hmark, hstart]
      rfl
  | cons l front ih =>
    cases hsplits with
    | cons hl hfront =>
      obtain ⟨rest, rfl, hback, hall⟩ := ih hfront
      refine ⟨rest, by rw [List.flatMap_cons, List.append_assoc], hback, fun rest' => ?_⟩
      have htwo : ((front.flatMap Lexeme.text ++ c :: rest).take 2 = ['.', '.'] ↔
          (front.flatMap Lexeme.text ++ c :: rest').take 2 = ['.', '.']) := by
        rcases front.flatMap Lexeme.text with - | ⟨d, - | ⟨e, text⟩⟩ <;> simp [hpoint]
      have hhead : (front.flatMap Lexeme.text ++ c :: rest).head? =
          (front.flatMap Lexeme.text ++ c :: rest').head? := by
        cases front.flatMap Lexeme.text <;> rfl
      rw [List.flatMap_cons, List.append_assoc]
      exact (splits_iff.mp (.cons (hl.congr hhead htwo) (splits_iff.mpr (hall rest').symm))).symm

end Cutting

section Reading

variable {a b : List Placed} {line stop : Nat}

/-- The comments above a line are the same where the lines above it hold the same, up to the top or to a
line of code. -/
theorem commentsAbove_congr (hstop : stop ≤ line)
    (hsame : ∀ n, stop < n → n ≤ line → hasCode a n = hasCode b n ∧ commentsOn a n = commentsOn b n)
    (hcode : stop = 0 ∨ hasCode a stop = true ∧ hasCode b stop = true) :
    commentsAbove a line = commentsAbove b line := by
  induction line with
  | zero => rfl
  | succ line ih =>
    rw [commentsAbove, commentsAbove]
    rcases Nat.eq_or_lt_of_le hstop with rfl | hlt
    · obtain ⟨ha, hb⟩ := hcode.resolve_left (Nat.succ_ne_zero line)
      rw [ha, hb]
      rfl
    · rw [(hsame _ hlt (Nat.le_refl _)).1, (hsame _ hlt (Nat.le_refl _)).2,
        ih (Nat.le_of_lt_succ hlt) fun n hn hle => hsame n hn (Nat.le_succ_of_le hle)]

/-- Tokens that do not stand on a line may be exchanged for others that do not. -/
theorem same_on_line {front middle middle' back : List Placed} {n : Nat}
    (h : ∀ t ∈ middle, t.line ≠ n) (h' : ∀ t ∈ middle', t.line ≠ n) :
    hasCode (front ++ (middle ++ back)) n = hasCode (front ++ (middle' ++ back)) n ∧
      commentsOn (front ++ (middle ++ back)) n = commentsOn (front ++ (middle' ++ back)) n := by
  simp only [hasCode_append, commentsOn_append, hasCode_eq_false h, hasCode_eq_false h',
    commentsOn_eq_nil h, commentsOn_eq_nil h', and_self]

/-- Tokens on some lines that end with code may be exchanged for others on these lines, if the same headers
are found and none of them starts between the first and the last of the lines. -/
theorem readTokens_exchange {file : String} {front middle middle' back : List Placed} {first last : Nat}
    (hmiddle : ∀ t ∈ middle, first ≤ t.line ∧ t.line ≤ last)
    (hmiddle' : ∀ t ∈ middle', first ≤ t.line ∧ t.line ≤ last)
    (hcode : hasCode middle last = true) (hcode' : hasCode middle' last = true)
    (hheaders : blockHeaders (front ++ (middle' ++ back)) = blockHeaders (front ++ (middle ++ back)))
    (hlines : ∀ header ∈ blockHeaders (front ++ (middle ++ back)), ∀ t ∈ header,
      t.line ≤ first ∨ last < t.line) :
    readTokens file (front ++ (middle' ++ back)) = readTokens file (front ++ (middle ++ back)) := by
  have hfindings := @Progress.findings_foldl_below file (front ++ (middle ++ back))
    (front ++ (middle' ++ back)) [] [] 0 (blockHeaders (front ++ (middle ++ back)))
    (fun _ _ _ _ => Iff.rfl) (fun header hheader t ht => ?_)
  · rw [readTokens, readTokens, hheaders]
    simpa using hfindings
  · rw [Nat.add_zero]
    rcases hlines header hheader t (mem_of_mem_stripAttributes ht) with hle | hlt
    · -- No line above the header is one of those whose tokens were exchanged.
      refine commentsAbove_congr (Nat.zero_le _) (fun n hn hnt => same_on_line (fun u hu => ?_) fun u hu => ?_)
        (.inl rfl)
      · have := hmiddle' u hu
        omega
      · have := hmiddle u hu
        omega
    · refine commentsAbove_congr (Nat.le_sub_one_of_lt hlt) (fun n hn _ => same_on_line (fun u hu => ?_) fun u hu => ?_)
        (.inr ⟨by simp [hasCode_append, hcode'], by simp [hasCode_append, hcode]⟩)
      · have := hmiddle' u hu
        omega
      · have := hmiddle u hu
        omega

end Reading

/-- A pair of braces in a source: the lexemes in front of the opening brace, those between the braces, and
those behind the closing brace. -/
structure Block where
  front : List Lexeme
  body : List Lexeme
  back : List Lexeme

namespace Block

/-- All lexemes in order. -/
def lexemes (b : Block) : List Lexeme :=
  b.front ++ .mark '\x7b' :: (b.body ++ .mark '\x7d' :: b.back)

/-- The line of the opening brace. -/
def first (b : Block) : Nat :=
  1 + lineFeedsOf b.front

/-- The line of the closing brace. -/
def last (b : Block) : Nat :=
  b.first + lineFeedsOf b.body

/-- The text with another body between the braces. -/
def withBody (b : Block) (body : List Char) : List Char :=
  b.front.flatMap Lexeme.text ++ '\x7b' :: (body ++ '\x7d' :: b.back.flatMap Lexeme.text)

/-- The braces hold a body of a text: the scan, outside all braces in front of the opening brace, enters a
body at it, the closing brace is the one that belongs to it, and only comments follow that on its line. -/
structure IsBodyOf (b : Block) (text : List Char) : Prop where
  cut : Source.lexemes text = b.lexemes
  outside : (Scan.run {} (tokensFrom 1 b.front)).depth = 0
  enters : ((Scan.run {} (tokensFrom 1 b.front)).step ⟨.openBrace, b.first⟩).depth = 1
  matched : Matched .openBrace .closeBrace (tokensFrom b.first b.body)
  endsLine : ∀ t ∈ tokensFrom b.last b.back, t.line = b.last → t.token.isComment = true

/-- A text can stand between the braces: it spans as many lines as the body there, a closing brace behind it
is cut off as a mark, and its own braces are complete. -/
structure Fits (b : Block) (body : List Char) : Prop where
  lines : body.count '\n' = lineFeedsOf b.body
  closes : lexemesFrom false (body ++ ['\x7d']) = lexemesFrom false body ++ [.mark '\x7d']
  matched : Matched .openBrace .closeBrace (tokensFrom b.first (lexemesFrom false body))

/-- The tokens from the opening to the closing brace, for the lexemes between them. -/
def middle (b : Block) (body : List Lexeme) : List Placed :=
  ⟨.openBrace, b.first⟩ :: (tokensFrom b.first body ++ [⟨.closeBrace, b.last⟩])

variable {b : Block} {text : List Char}

/-- The tokens of the lexemes with the given ones between the braces. -/
theorem tokensFrom_eq {body : List Lexeme} (hlines : lineFeedsOf body = lineFeedsOf b.body) :
    tokensFrom 1 (b.front ++ .mark '\x7b' :: (body ++ .mark '\x7d' :: b.back)) =
      tokensFrom 1 b.front ++ (b.middle body ++ tokensFrom b.last b.back) := by
  have hmark (c : Char) (hc : c ≠ '\n') : (Lexeme.mark c).lineFeeds = 0 := by
    simp [Lexeme.lineFeeds, Lexeme.text, hc]
  rw [tokensFrom_append, tokensFrom, hmark _ (by decide), tokensFrom_append, tokensFrom,
    hmark _ (by decide), hlines]
  simp [middle, first, last, Lexeme.tokens, Token.ofChar]

/-- These tokens stand on the lines from the opening to the closing brace. -/
theorem line_of_mem_middle {body : List Lexeme} (hlines : lineFeedsOf body = lineFeedsOf b.body) {t : Placed}
    (ht : t ∈ b.middle body) : b.first ≤ t.line ∧ t.line ≤ b.last := by
  rcases List.mem_cons.mp ht with rfl | ht
  · exact ⟨Nat.le_refl _, Nat.le_add_right _ _⟩
  rcases List.mem_append.mp ht with ht | ht
  · rw [last, ← hlines]
    exact line_of_mem_tokensFrom ht
  · rw [List.mem_singleton.mp ht]
    exact ⟨Nat.le_add_right _ _, Nat.le_refl _⟩

/-- The closing brace is code on the last of these lines. -/
theorem hasCode_middle (body : List Lexeme) : hasCode (b.middle body) b.last = true := by
  simp [hasCode, middle, Token.isComment]

/-- The text with another body is cut like the first one in front of the opening brace and behind the
closing one. -/
theorem IsBodyOf.lexemes_withBody (h : b.IsBodyOf text) {body : List Char} (hbody : b.Fits body) :
    Source.lexemes (b.withBody body) =
      b.front ++ .mark '\x7b' :: (lexemesFrom false body ++ .mark '\x7d' :: b.back) := by
  obtain ⟨rest, -, hrest, hfront⟩ := lexemesFrom_of_brace (.inl rfl) h.cut
  obtain ⟨back, -, hback, -⟩ := lexemesFrom_of_brace (.inr rfl) hrest.symm
  obtain ⟨-, -, -, hbehind⟩ := lexemesFrom_of_brace (.inr rfl) hbody.closes
  rw [flatMap_text_lexemesFrom] at hbehind
  rw [Source.lexemes, withBody, hfront, hbehind, hback, flatMap_text_lexemesFrom]

/-- A complete body leaves the scan where it entered, and outside all braces. -/
theorem IsBodyOf.run_middle (h : b.IsBodyOf text) {body : List Lexeme}
    (hmatched : Matched .openBrace .closeBrace (tokensFrom b.first body)) :
    (Scan.run {} (tokensFrom 1 b.front)).run (b.middle body) =
      { (Scan.run {} (tokensFrom 1 b.front)).step ⟨.openBrace, b.first⟩ with depth := 0 } := by
  rw [middle, Scan.run_cons, Scan.run_body h.enters hmatched rfl]

/-- No token of a header stands between the opening brace's line and the end of the closing brace's. -/
theorem IsBodyOf.line_of_mem_header (h : b.IsBodyOf text) {header : List Placed}
    (hheader : header ∈ blockHeaders (tokensFrom 1 b.front ++ (b.middle b.body ++ tokensFrom b.last b.back)))
    {t : Placed} (ht : t ∈ header) : t.line ≤ b.first ∨ b.last < t.line := by
  have hfront : (Scan.run {} (tokensFrom 1 b.front)).Holds fun t => t.line ≤ b.first ∨ b.last < t.line :=
    Scan.holds_run ⟨by simp, by simp⟩ fun u hu => .inl (line_of_mem_tokensFrom hu).2
  have hmiddle : ((Scan.run {} (tokensFrom 1 b.front)).run (b.middle b.body)).Holds
      fun t => t.line ≤ b.first ∨ b.last < t.line := by
    rw [h.run_middle h.matched]
    exact Scan.holds_step hfront (.inl (Nat.le_refl _))
  rw [blockHeaders, Scan.run_append, Scan.run_append, ← run_code _ (tokensFrom b.last b.back)] at hheader
  refine (Scan.holds_run hmiddle fun u hu => ?_).2 header hheader t ht
  obtain ⟨hmem, hcode⟩ := List.mem_filter.mp hu
  refine .inr (Nat.lt_of_le_of_ne (line_of_mem_tokensFrom hmem).1 fun hline => ?_)
  rw [h.endsLine u hmem hline.symm] at hcode
  contradiction

end Block

/-- What a body holds does not matter: with any other text between the braces that spans as many lines, is
cut off in front of the closing brace and has complete braces itself, the same functions are described and
the same faults are reported. -/
theorem readSource_withBody (file : String) {text : String} {b : Block} (h : b.IsBodyOf text.toList)
    {body : List Char} (hbody : b.Fits body) :
    (readSource file (String.ofList (b.withBody body))).descriptors = (readSource file text).descriptors ∧
      (readSource file (String.ofList (b.withBody body))).diagnostics =
        (readSource file text).diagnostics := by
  have hlines : lineFeedsOf (lexemesFrom false body) = lineFeedsOf b.body := by
    rw [lineFeedsOf_lexemesFrom, hbody.lines]
  have htext : tokenize text =
      tokensFrom 1 b.front ++ (b.middle b.body ++ tokensFrom b.last b.back) := by
    rw [tokenize, h.cut]
    exact Block.tokensFrom_eq rfl
  have hother : tokenize (String.ofList (b.withBody body)) =
      tokensFrom 1 b.front ++ (b.middle (lexemesFrom false body) ++ tokensFrom b.last b.back) := by
    rw [tokenize, String.toList_ofList, h.lexemes_withBody hbody, Block.tokensFrom_eq hlines]
  have hheaders : blockHeaders (tokenize (String.ofList (b.withBody body))) = blockHeaders (tokenize text) := by
    rw [hother, htext, blockHeaders, blockHeaders, Scan.run_append, Scan.run_append, Scan.run_append,
      Scan.run_append, h.run_middle hbody.matched, h.run_middle h.matched]
  have hread : readSource file (String.ofList (b.withBody body)) = readSource file text := by
    rw [hother, htext] at hheaders
    rw [readSource, readSource, hother, htext]
    exact congrArg Reading.mk (readTokens_exchange (fun t ht => Block.line_of_mem_middle rfl ht)
      (fun t ht => Block.line_of_mem_middle hlines ht) (Block.hasCode_middle _) (Block.hasCode_middle _)
      hheaders fun header hheader t ht => h.line_of_mem_header hheader ht)
  rw [hread]
  exact ⟨rfl, rfl⟩

/-- A function whose body is exchanged for one with a macro, braces in a literal and in comments, and what
looks like a function with a directive, in front of a function and a malformed one. -/
theorem readSource_withBody_macro_and_braces :
    let text := "// @async\nint f(int x)\n\x7b\n  int y = x;\n  return y;\n\x7d // end\n" ++
      "// @cost low\nlong g(void) \x7b return 1; \x7d\nint v(...) \x7b \x7d\n"
    let b : Block := ⟨lexemes "// @async\nint f(int x)\n".toList,
      lexemesFrom false "\n  int y = x;\n  return y;\n".toList, lexemesFrom false (
        " // end\n// @cost low\nlong g(void) \x7b return 1; \x7d\nint v(...) \x7b \x7d\n").toList⟩
    let body := "\n#define K \x7d\nint k(void) \x7b return \"\x7d\"; /* \x7d */ \x7d // @cost high\n".toList
    (b.IsBodyOf text.toList ∧ b.Fits body) ∧
      (readSource "x.c" (String.ofList (b.withBody body))).descriptors = (readSource "x.c" text).descriptors ∧
      (readSource "x.c" (String.ofList (b.withBody body))).diagnostics = (readSource "x.c" text).diagnostics ∧
      (readSource "x.c" text).descriptors.map (fun d => (d.name, d.location.line)) = [("f", 2), ("g", 8)] := by
  intro text b body
  have hb : b.IsBodyOf text.toList := {
    cut := by decide +kernel
    outside := by decide +kernel
    enters := by decide +kernel
    matched := ⟨by decide +kernel, by decide +kernel⟩
    endsLine := by decide +kernel }
  have hbody : b.Fits body := {
    lines := by decide +kernel
    closes := by decide +kernel
    matched := ⟨by decide +kernel, by decide +kernel⟩ }
  obtain ⟨hdescriptors, hdiagnostics⟩ := readSource_withBody "x.c" hb hbody
  exact ⟨⟨hb, hbody⟩, hdescriptors, hdiagnostics, by decide +kernel⟩

end CBind.Source
