import CBind.Proofs.Source.Concatenation
import CBind.Proofs.Source.Signatures
import Mathlib.Data.List.Forall2

/-!
# Every definition of the restricted grammar is understood

The text of one definition is cut into comment lines that say its directives, its header, and a body
with complete braces. The scan hands exactly this header over and ends where it started, so the text
gives one finding, the descriptor of the definition. Texts of further definitions are read apart.
-/

namespace CBind.Source

open CBind.Text

/-- The tokens of a definition in the order in which they stand: comment lines that say its directives
directly above its header, its header, and its body in braces. -/
structure DefinitionTokens (d : Definition) where
  top : Nat
  notes : List String
  header : List Placed
  opening : Placed
  body : List Placed
  closing : Placed
  one_le_top : 1 ≤ top
  notes_say : List.Forall₂ Says notes d.directives
  header_tokens : header.map (·.token) = d.header
  header_line : ∀ t, header.head? = some t → t.line = top + notes.length
  opening_token : opening.token = .openBrace
  body_matched : Matched .openBrace .closeBrace body
  closing_token : closing.token = .closeBrace
  lines : ∀ t ∈ header ++ opening :: (body ++ [closing]),
    top + notes.length ≤ t.line ∧ t.line ≤ closing.line

namespace DefinitionTokens

variable {d : Definition} (T : DefinitionTokens d)

/-- The tokens from the header on. -/
def code : List Placed :=
  T.header ++ T.opening :: (T.body ++ [T.closing])

/-- All tokens. -/
def all : List Placed :=
  placeNotes T.top T.notes ++ T.code

/-- The line of the header. -/
def line : Nat :=
  T.top + T.notes.length

end DefinitionTokens

/-- A directive takes one line. -/
theorem WritesDirective.count_newline {d : Directive} {text : List Char} (h : WritesDirective d text) :
    text.count '\n' = 1 := by
  have hnone {cs : List Char} (h : BlankInLine cs) : cs.count '\n' = 0 := List.count_eq_zero.mpr h.2
  cases h with
  | policy p hindent hbefore hbehind =>
    have hp : p.spelling.toList.count '\n' = 0 := by cases p <;> decide
    simp [hnone hindent, hnone hbefore, hnone hbehind, hp]
  | cost c hindent hbefore hgap _ hbehind =>
    have hc : c.spelling.toList.count '\n' = 0 := by cases c <;> decide
    have hword : "@cost".toList.count '\n' = 0 := by decide
    simp [hnone hindent, hnone hbefore, hnone hgap, hnone hbehind, hc, hword, -String.reduceToList]

/-- Directives take one line each. -/
theorem WritesDirectives.count_newline {ds : List Directive} {text : List Char}
    (h : WritesDirectives ds text) : text.count '\n' = ds.length := by
  induction h with
  | nil => rfl
  | cons hline _ ih => rw [List.count_append, hline.count_newline, ih, List.length_cons, Nat.add_comm]

/-- A body is cut off in front of its closing brace. -/
theorem tokensFrom_body (d : Definition) (line : Nat) (more : List Char) :
    ∃ start, tokensFrom line (lexemesFrom false (d.body ++ '\x7d' :: more)) =
      tokensFrom line (lexemesFrom false d.body) ++
        ⟨.closeBrace, line + d.body.count '\n'⟩ ::
          tokensFrom (line + d.body.count '\n') (lexemesFrom start more) := by
  have hbreaks : Breaks ('\x7d' :: more) := by
    rintro c ⟨⟩
    decide
  refine ⟨false, ?_⟩
  rw [lexemesFrom_append (fun l hl => .inr (hbreaks.standsBefore (d.body_finished l hl))) (fun _ => by simp),
    tokensFrom_append, lineFeedsOf_lexemesFrom, tokensFrom_mark _ _ _ (by simp)]
  rfl

/-- The braces of a body are complete on whatever line it starts. -/
theorem matched_tokensFrom (d : Definition) {line : Nat} (hline : 1 ≤ line) :
    Matched .openBrace .closeBrace (tokensFrom line (lexemesFrom false d.body)) := by
  obtain ⟨n, rfl⟩ := Nat.exists_eq_add_of_le hline
  rw [tokensFrom_add, matched_map (keepsTokens_below n)]
  exact d.body_matched

/-- The text of a definition is cut into its tokens, and nothing of what follows. -/
theorem Writes.cut {d : Definition} {feeds : Nat} {text : List Char} (h : Writes d feeds text)
    {line : Nat} (hline : 1 ≤ line) (lineStart : Bool) (more : List Char) :
    ∃ (T : DefinitionTokens d) (start : Bool), T.line = line + feeds ∧
      T.closing.line = line + text.count '\n' ∧
      tokensFrom line (lexemesFrom lineStart (text ++ more)) =
        T.all ++ tokensFrom (line + text.count '\n') (lexemesFrom start more) := by
  obtain ⟨gap, comments, indent, header, rfl, rfl, hgap, hcomments, hindent, hheader⟩ := h.parts
  have hcount := hcomments.count_newline
  have hflat : gap ++ comments ++ indent ++ header ++ '\x7b' :: (d.body ++ ['\x7d']) ++ more =
      gap ++ (comments ++ (indent ++ (header ++ '\x7b' :: (d.body ++ '\x7d' :: more)))) := by simp
  have hbrace : ∀ c, ('\x7b' :: (d.body ++ '\x7d' :: more)).head? = some c →
      continuesWord false c = false := by
    rintro c ⟨⟩
    decide
  -- Each part is cut in front of the ones behind it.
  obtain ⟨start₁, hgapCut⟩ := tokensFrom_blanks line lineStart
    (comments ++ (indent ++ (header ++ '\x7b' :: (d.body ++ '\x7d' :: more)))) hgap
  obtain ⟨top, htop⟩ : ∃ top, line + gap.count '\n' = top := ⟨_, rfl⟩
  rw [htop] at hgapCut
  obtain ⟨notes, start₂, hnotes, hnotesCut⟩ := hcomments.cut d.cost_given top start₁
    (indent ++ (header ++ '\x7b' :: (d.body ++ '\x7d' :: more)))
  obtain ⟨first, hfirstLine⟩ : ∃ first, top + notes.length = first := ⟨_, rfl⟩
  rw [hfirstLine] at hnotesCut
  obtain ⟨start₃, hindentCut⟩ := tokensFrom_blanks first start₂
    (header ++ '\x7b' :: (d.body ++ '\x7d' :: more)) hindent.1
  rw [List.count_eq_zero.mpr hindent.2, Nat.add_zero] at hindentCut
  obtain ⟨tokens, start₄, htokens, hfirst, hlines, hheaderCut⟩ := hheader.cut
    (fun t ht => d.isLoose_of_mem_header ht) hbrace first start₃
  obtain ⟨open', hopenLine⟩ : ∃ open', first + header.count '\n' = open' := ⟨_, rfl⟩
  rw [hopenLine] at hlines hheaderCut
  obtain ⟨start₅, hbodyCut⟩ := tokensFrom_body d open' more
  have hlast : line + (gap ++ comments ++ indent ++ header ++
      '\x7b' :: (d.body ++ ['\x7d'])).count '\n' = open' + d.body.count '\n' := by
    have hbraces : ('\x7b' :: (d.body ++ ['\x7d'])).count '\n' = d.body.count '\n' := by simp
    have hlength : notes.length = d.directives.length := hnotes.length_eq
    rw [List.count_append, List.count_append, List.count_append, List.count_append, hbraces, hcount,
      List.count_eq_zero.mpr hindent.2]
    omega
  refine ⟨{
      top := top, notes := notes, header := tokens, opening := ⟨.openBrace, open'⟩
      body := tokensFrom open' (lexemesFrom false d.body)
      closing := ⟨.closeBrace, open' + d.body.count '\n'⟩
      one_le_top := by omega
      notes_say := hnotes
      header_tokens := htokens
      header_line := by rwa [hfirstLine]
      opening_token := rfl
      body_matched := matched_tokensFrom d (by omega)
      closing_token := rfl
      lines := ?_ }, start₅, ?_, hlast.symm, ?_⟩
  · intro t ht
    rw [List.mem_append, List.mem_cons, List.mem_append, List.mem_singleton] at ht
    rcases ht with ht | rfl | ht | rfl
    · have := hlines t ht
      dsimp only
      omega
    · dsimp only
      omega
    · have := line_of_mem_tokensFrom ht
      rw [lineFeedsOf_lexemesFrom] at this
      dsimp only
      omega
    · dsimp only
      omega
  · have hlength : notes.length = d.directives.length := hnotes.length_eq
    show top + notes.length = _
    rw [List.count_append, hcount]
    omega
  · rw [hlast, hflat, hgapCut, hnotesCut, hindentCut, hheaderCut, tokensFrom_mark _ _ _ (by simp),
      hbodyCut]
    simp [DefinitionTokens.all, DefinitionTokens.code, Token.ofChar]

namespace DefinitionTokens

variable {d : Definition} (T : DefinitionTokens d)

/-- What is on a header line is a token of the header. -/
theorem token_mem_header {t : Placed} (h : t ∈ T.header) : t.token ∈ d.header := by
  rw [← T.header_tokens]
  exact List.mem_map_of_mem h

/-- No token of the header ends it, and none is a comment. -/
theorem header_joins {t : Placed} (h : t ∈ T.header) :
    t.token.endsHeader = false ∧ t.token.isComment = false := by
  rcases d.isSignatureWord_of_mem_header (T.token_mem_header h) with ht | ht | ht | ht
  · cases hcase : t.token <;> simp_all [Token.isSignatureWord, Token.endsHeader, Token.discards,
      Token.isComment]
  · rw [ht]
    exact ⟨rfl, rfl⟩
  · rw [ht]
    exact ⟨rfl, rfl⟩
  · rw [ht]
    exact ⟨rfl, rfl⟩

/-- The parentheses of the header leave the count at zero. -/
theorem foldl_countParen_header : T.header.foldl countParen 0 = 0 := by
  have hplain {ts : List Token} (h : ∀ t ∈ ts, t ≠ .openParen ∧ t ≠ .closeParen) (n : Nat) :
      (placed ts).foldl countParen n = n := by
    induction ts with
    | nil => rfl
    | cons t ts ih =>
      have ht := h t List.mem_cons_self
      have hstep : countParen n ⟨t, 0⟩ = n := by
        rw [countParen, countPair, if_neg ht.1, if_neg ht.2]
      show (placed ts).foldl countParen (countParen n ⟨t, 0⟩) = n
      rw [hstep, ih fun u hu => h u (List.mem_cons_of_mem t hu)]
  have hforget : (T.header.map Placed.forgetLine).foldl countParen 0 = T.header.foldl countParen 0 := by
    rw [List.foldl_map]
    rfl
  rw [← hforget, map_forgetLine T.header_tokens, d.placed_header, List.foldl_append, hplain,
    List.foldl_cons, List.foldl_append, hplain]
  · rfl
  · intro t ht
    rcases d.isSignatureWord_of_mem_parameters ht with h | rfl
    · exact ⟨(Token.shapesNothing h).ne_openParen, (Token.shapesNothing h).ne_closeParen⟩
    · simp
  · intro t ht
    have h := Token.shapesNothing (d.isSignatureWord_of_mem_front ht)
    exact ⟨h.ne_openParen, h.ne_closeParen⟩

/-- The header is read as the definition. -/
theorem exists_reads (file : String) : ∃ definition,
    Reads ⟨file, T.line⟩ T.notes T.header definition (d.descriptor file T.line) ∧
      definition.name = d.name :=
  d.exists_reads T.header_tokens T.notes_say

/-- The header has no attributes. -/
theorem stripAttributes_header : stripAttributes T.header = T.header := by
  refine stripAttributes_eq_self fun t ht => ?_
  rcases d.isSignatureWord_of_mem_header (T.token_mem_header ht) with h | h | h | h
  · exact (Token.shapesNothing h).notAttribute
  · rw [h]
    rfl
  · rw [h]
    rfl
  · rw [h]
    rfl

/-- The scan hands the header over and ends where it started. -/
theorem run_all : Scan.run {} T.all = { headers := [T.header] } := by
  have hcode : Source.code T.header = T.header := by
    refine List.filter_eq_self.mpr fun t ht => ?_
    rw [(T.header_joins ht).2]
    rfl
  have hnotes : Scan.run {} (placeNotes T.top T.notes) = {} :=
    Scan.run_comments fun _ ht => isComment_of_mem_placeNotes ht
  have hheader : Scan.run {} T.header = { header := T.header } := by
    rw [Scan.run_header rfl fun _ ht => (T.header_joins ht).1, hcode, T.foldl_countParen_header]
    rfl
  have hlink : isLinkageHeader T.header = false := by
    obtain ⟨definition, hreads, -⟩ := T.exists_reads ""
    refine isLinkageHeader_of_looksLikeDefinition ?_
    rw [T.stripAttributes_header]
    exact hreads.looks
  have hopen : Scan.step { header := T.header } T.opening = { depth := 1, headers := [T.header] } := by
    simp [Scan.step, Scan.stepOutside, Scan.enterBody, T.opening_token, Token.isComment, hlink]
  rw [all, code, Scan.run_append, hnotes, Scan.run_append, hheader, Scan.run_cons, hopen,
    Scan.run_body rfl T.body_matched T.closing_token]

/-- The only header of a definition is its own. -/
theorem blockHeaders_all : blockHeaders T.all = [T.header] := by
  rw [blockHeaders, T.run_all]

/-- The comments above the header are those that say the directives. -/
theorem commentsAbove_all : commentsAbove T.all (T.line - 1) = T.notes :=
  commentsAbove_placeNotes T.one_le_top T.notes fun t ht => (T.lines t ht).1

/-- The tokens of a definition give its descriptor and nothing else. -/
theorem readTokens_all (file : String) :
    readTokens file T.all = [.ok (d.descriptor file T.line)] := by
  obtain ⟨definition, hreads, hname⟩ := T.exists_reads file
  obtain ⟨first, rest, hfirst⟩ : ∃ first rest, T.header = first :: rest := by
    cases hheader : T.header with
    | nil =>
      have := T.header_tokens
      simp [hheader, Definition.header] at this
    | cons first rest => exact ⟨first, rest, rfl⟩
  have hline : first.line = T.line := T.header_line first (by rw [hfirst]; rfl)
  rw [← T.commentsAbove_all, ← hline, hfirst] at hreads
  rw [readTokens, T.blockHeaders_all, List.foldl_cons, List.foldl_nil,
    Progress.readBlock_of_reads (T.stripAttributes_header.trans hfirst) hreads (by simp), hline]
  rfl

/-- The tokens of a definition define its name and nothing else. -/
theorem mem_definedNames_all {file name : String} :
    name ∈ definedNames file T.all (blockHeaders T.all) ↔ name = d.name := by
  obtain ⟨definition, hreads, hname⟩ := T.exists_reads file
  have hasks : blockName? T.header = some d.name := by
    rw [blockName?, T.stripAttributes_header, if_pos hreads.looks, hreads.declares, ← hname]
    rfl
  rw [mem_definedNames, T.blockHeaders_all]
  simp [hasks, eq_comm]

/-- The last line of a definition holds code. -/
theorem hasCode_all : hasCode T.all T.closing.line = true := by
  rw [hasCode, List.any_eq_true]
  exact ⟨T.closing, by simp [all, code], by simp [T.closing_token, Token.isComment]⟩

/-- The tokens of a definition stand between its first line and that of its closing brace. -/
theorem line_of_mem_all {t : Placed} (h : t ∈ T.all) : 1 ≤ t.line ∧ t.line ≤ T.closing.line := by
  have htop := T.one_le_top
  have hclosing := (T.lines T.closing (by simp)).1
  rcases List.mem_append.mp h with h | h
  · have := line_of_mem_placeNotes h
    omega
  · have := T.lines t h
    omega

end DefinitionTokens

/-- A descriptor that is moved down is the descriptor of a definition further down. -/
theorem Definition.descriptor_below (d : Definition) (file : String) (line n : Nat) :
    (d.descriptor file line).below n = d.descriptor file (line + n) := rfl

/-- Moving down twice is moving down by both. -/
theorem Finding.below_below (n m : Nat) (finding : Finding) :
    (finding.below n).below m = finding.below (n + m) := by
  have hlocation (l : Location) : (l.below n).below m = l.below (n + m) := by
    simp [Location.below, Nat.add_assoc]
  cases finding with
  | ok d => simp [below, Descriptor.below, hlocation]
  | error fault =>
    cases fault with
    | symbolNotFound function location library =>
      cases location <;> simp [below, Fault.below, hlocation]
    | _ => simp [below, Fault.below, hlocation]

/-- The tokens of a text that starts on line one. -/
abbrev tokensOf (text : List Char) : List Placed :=
  tokensFrom 1 (lexemesFrom true text)

/-- A text of blanks has no tokens. -/
theorem tokensFrom_of_blank {gap : List Char} (h : Blank gap) (line : Nat) (lineStart : Bool) :
    tokensFrom line (lexemesFrom lineStart gap) = [] := by
  obtain ⟨start, hcut⟩ := tokensFrom_blanks line lineStart [] h
  rw [List.append_nil] at hcut
  rw [hcut, lexemesFrom]
  rfl

/-- A definition and the rest of its line are cut apart from the lines below. -/
theorem Writes.tokensOf_append {d : Definition} {feeds : Nat} {text gap : List Char}
    (h : Writes d feeds text) (hgap : BlankInLine gap) (more : List Char) :
    ∃ T : DefinitionTokens d, T.line = 1 + feeds ∧ T.closing.line = text.count '\n' + 1 ∧
      tokensOf (text ++ gap ++ '\n' :: more) =
        T.all ++ (tokensOf more).map (Placed.below (text.count '\n' + 1)) := by
  obtain ⟨T, start, hline, hclosing, hcut⟩ := h.cut (Nat.le_refl 1) true (gap ++ '\n' :: more)
  obtain ⟨start', hblank⟩ := tokensFrom_blanks (1 + text.count '\n') start ('\n' :: more) hgap.1
  refine ⟨T, hline, by omega, ?_⟩
  rw [List.append_assoc, tokensOf, hcut, hblank, List.count_eq_zero.mpr hgap.2, Nat.add_zero,
    lexemesFrom_cons, nextLexeme_of_isBlank isBlank_newline, tokensFrom, ← tokensFrom_add]
  rw [show 1 + (text.count '\n' + 1) = 1 + text.count '\n' + 1 by omega]
  rfl

/-- A definition whose text starts on a further line is described on a further line. -/
theorem DefinitionTokens.readTokens_all_below {d : Definition} (T : DefinitionTokens d)
    (file : String) {line feeds : Nat} (hline : 1 ≤ line) (hT : T.line = 1 + feeds) :
    (readTokens file T.all).map (Finding.below (line - 1)) =
      [.ok (d.descriptor file (line + feeds))] := by
  rw [T.readTokens_all, hT]
  show [Except.ok ((d.descriptor file (1 + feeds)).below (line - 1))] = _
  rw [d.descriptor_below, show 1 + feeds + (line - 1) = line + feeds by omega]

/-- Texts of definitions give the descriptors of the definitions and define their names, wherever the
text starts. -/
theorem findings_of_writesAll (file : String) {line : Nat} {ds : List (Definition × Nat)}
    {text : List Char} (h : WritesAll line ds text) (hline : 1 ≤ line)
    (hnames : (ds.map (·.1.name)).Nodup) :
    (readTokens file (tokensOf text)).map (Finding.below (line - 1)) =
        ds.map (fun p => .ok (p.1.descriptor file p.2)) ∧
      ∀ name, name ∈ definedNames file (tokensOf text) (blockHeaders (tokensOf text)) →
        name ∈ ds.map (·.1.name) := by
  induction h with
  | nil hgap =>
    rw [tokensOf, tokensFrom_of_blank hgap]
    exact ⟨rfl, fun name hname => by simp [definedNames, blockHeaders, Scan.run] at hname⟩
  | @last line feeds d text gap htext hgap =>
    obtain ⟨T, start, hT, -, hcut⟩ := htext.cut (Nat.le_refl 1) true gap
    rw [tokensOf, hcut, tokensFrom_of_blank hgap, List.append_nil]
    refine ⟨?_, fun name hname => ?_⟩
    · rw [T.readTokens_all_below file hline hT]
      rfl
    · simpa using T.mem_definedNames_all.mp hname
  | @cons line feeds d ds text gap more htext hgap _ ih =>
    obtain ⟨T, hT, hclosing, hcut⟩ := htext.tokensOf_append hgap more
    rw [List.map_cons, List.nodup_cons] at hnames
    obtain ⟨hrest, hdefined⟩ := ih (by omega) hnames.2
    have hlines : ∀ t ∈ T.all, 1 ≤ t.line ∧ t.line ≤ text.count '\n' + 1 := by
      rw [← hclosing]
      exact fun t ht => T.line_of_mem_all ht
    have hdisjoint : ∀ name ∈ definedNames file T.all (blockHeaders T.all),
        name ∉ definedNames file (tokensOf more) (blockHeaders (tokensOf more)) := by
      intro name hname hmore
      rw [T.mem_definedNames_all.mp hname] at hmore
      exact hnames.1 (hdefined d.name hmore)
    have hstart : Scan.run {} T.all = { headers := [T.header] } := T.run_all
    have happend := readTokens_append (b := tokensOf more) hlines
      (fun t ht => (line_of_mem_tokensFrom ht).1) (hclosing ▸ T.hasCode_all) (by rw [hstart])
      (by rw [hstart]) (by rw [hstart]) hdisjoint
    have hshift : line + (text.count '\n' + 1) - 1 = text.count '\n' + 1 + (line - 1) := by omega
    refine ⟨?_, fun name hname => ?_⟩
    · have hfurther : ((readTokens file (tokensOf more)).map
          (Finding.below (text.count '\n' + 1))).map (Finding.below (line - 1)) =
          ds.map fun p => .ok (p.1.descriptor file p.2) := by
        rw [← hrest, hshift, List.map_map]
        exact List.map_congr_left fun finding _ => finding.below_below _ _
      rw [hcut, happend, List.map_append, T.readTokens_all_below file hline hT, hfurther]
      rfl
    · rw [hcut, mem_definedNames, blockHeaders_append (by rw [hstart]) (by rw [hstart]) (by rw [hstart]),
        blockHeaders_map (keepsTokens_below _)] at hname
      obtain ⟨header, hheader, hasks⟩ := hname
      rcases List.mem_append.mp hheader with hfirst | hmore
      · have := T.mem_definedNames_all.mp (mem_definedNames.mpr ⟨header, hfirst, hasks⟩ : name ∈
          definedNames file T.all (blockHeaders T.all))
        exact List.mem_cons.mpr (.inl this)
      · obtain ⟨bare, hbare, rfl⟩ := List.mem_map.mp hmore
        rw [blockName?_map (keepsTokens_below _)] at hasks
        exact List.mem_cons_of_mem _ (hdefined name (mem_definedNames.mpr ⟨bare, hbare, hasks⟩))

/-- Every text that writes definitions of the restricted grammar with different names is read without a
diagnostic, and gives the descriptors of these definitions in order. -/
theorem readSource_of_writesAll (file text : String) (ds : List (Definition × Nat))
    (h : WritesAll 1 ds text.toList) (hnames : (ds.map (·.1.name)).Nodup) :
    (readSource file text).diagnostics = [] ∧
      (readSource file text).descriptors = ds.map fun p => p.1.descriptor file p.2 := by
  have hfindings : readTokens file (tokenize text) =
      ds.map fun p => .ok (p.1.descriptor file p.2) := by
    have h := (findings_of_writesAll file h (Nat.le_refl 1) hnames).1
    rwa [Nat.sub_self, Finding.below_zero, List.map_id] at h
  simp only [readSource, Reading.diagnostics, Reading.descriptors, hfindings, List.filterMap_map]
  constructor
  · simp
  · rw [← List.filterMap_eq_map]
    rfl

/-- A function with directives, a storage word, a named and an unnamed parameter. -/
def sumDefinition : Definition where
  directives := [.policy .async, .cost .high]
  result := ["static", "unsigned", "char"]
  returns := .narrow .u8
  name := "sum"
  parameters := .parameters
    ⟨⟨["const", "int"], ["*"], .full (.pointerTo .int32), by decide, by decide, by decide⟩,
      some "values", by decide, by
        rintro n ⟨⟩
        exact ⟨by decide, by decide, by decide, by decide⟩⟩
    [⟨⟨["const", "int16_t"], [], .narrow .i16, by decide, by decide, by decide⟩, none, by decide,
      by simp⟩]
  body := " // \x7d\n return values[0]; ".toList
  cost_given := by decide
  one_policy := by
    intro p q hp hq
    simp only [List.mem_cons, Directive.policy.injEq, reduceCtorEq, List.not_mem_nil, or_false] at hp hq
    rw [hp, hq]
  one_cost := by
    intro c d hc hd
    simp only [List.mem_cons, Directive.cost.injEq, reduceCtorEq, List.not_mem_nil, or_false,
      false_or] at hc hd
    rw [hc, hd]
  result_reads := by decide
  name_plain := ⟨by decide, by decide, by decide, by decide⟩
  body_matched := ⟨by decide +kernel, by decide +kernel⟩
  body_finished := by decide +kernel

/-- A function without directives, parameters and result. -/
def resetDefinition : Definition where
  directives := []
  result := ["void"]
  returns := .full .void
  name := "reset"
  parameters := .void
  body := []
  cost_given := by decide
  one_policy := by simp
  one_cost := by simp
  result_reads := by decide
  name_plain := ⟨by decide, by decide, by decide, by decide⟩
  body_matched := ⟨by decide +kernel, by decide +kernel⟩
  body_finished := by decide +kernel

/-- A text of two definitions gives the descriptors of both. -/
theorem readSource_sum_reset :
    let text := String.ofList (sumDefinition.write ++ '\n' :: resetDefinition.write)
    (readSource "x.c" text).diagnostics = [] ∧
      (readSource "x.c" text).descriptors =
        [sumDefinition.descriptor "x.c" 3, resetDefinition.descriptor "x.c" 5] := by
  intro text
  have hreset : Writes resetDefinition 0 resetDefinition.write := resetDefinition.writes_write
  have hsum : Writes sumDefinition 2 sumDefinition.write := sumDefinition.writes_write
  have hfeeds : sumDefinition.write.count '\n' = 3 := by decide +kernel
  have hlast : WritesAll 5 [(resetDefinition, 5 + 0)] (resetDefinition.write ++ []) :=
    .last hreset blank_nil
  have hmore : WritesAll (1 + (sumDefinition.write.count '\n' + 1)) [(resetDefinition, 5)]
      resetDefinition.write := by
    rw [hfeeds]
    simpa using hlast
  have hall : WritesAll 1 [(sumDefinition, 1 + 2), (resetDefinition, 5)]
      (sumDefinition.write ++ [] ++ '\n' :: resetDefinition.write) :=
    .cons hsum ⟨blank_nil, by simp⟩ hmore
  have htext : WritesAll 1 [(sumDefinition, 3), (resetDefinition, 5)] text.toList := by
    rw [String.toList_ofList]
    simpa using hall
  exact readSource_of_writesAll "x.c" text _ htext (by decide)

end CBind.Source
