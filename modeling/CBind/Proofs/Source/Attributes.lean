import CBind.Proofs.Source.Bodies
import CBind.Proofs.Source.Omissions
import CBind.Proofs.Source.WellFormed

/-!
# Attribute groups in a header do not matter

Attribute groups are inserted between the tokens of a header, anywhere and any number of them. The scan
carries a group through, because a parenthesis is open at each token between its parentheses, and the count
of open parentheses comes back to what it was; so the header that is handed over is the one with the groups
in it. Removing attributes then gives back the header, as a group in it starts with a word and never with the
parenthesis that would make a group of the token in front.

What is read of the header follows, with its place: its first token is the same. The comments above the
headers are looked up by lines, so a group must not stand above the header, and for the functions further
down it must stand on a line where a token of the header stands.
-/

namespace CBind.Source

open CBind.Text

/-- An attribute group as it is written: comments aside, an attribute word and a list in parentheses that is
complete in itself and holds no brace and no preprocessor line. -/
structure AttributeGroup where
  tokens : List Placed
  word : Placed
  opening : Placed
  inner : List Placed
  closing : Placed
  code_eq : code tokens = word :: opening :: (inner ++ [closing])
  word_eq : isAttributeWord word.token = true
  opening_eq : opening.token = .openParen
  inner_matched : Matched .openParen .closeParen inner
  inner_plain : ∀ t ∈ inner, t.token ≠ .openBrace ∧ t.token ≠ .closeBrace ∧ t.token ≠ .preprocessor
  closing_eq : closing.token = .closeParen

/-- A header with attribute groups inserted between its tokens, on lines of a kind. -/
inductive Attributed (lines : Nat → Prop) : List Placed → List Placed → Prop
  | nil : Attributed lines [] []
  | token {header written : List Placed} (t : Placed) (h : Attributed lines header written) :
    Attributed lines (t :: header) (t :: written)
  | group {header written : List Placed} (g : AttributeGroup) (hlines : ∀ t ∈ g.tokens, lines t.line)
    (h : Attributed lines header written) : Attributed lines header (g.tokens ++ written)

/-- No attribute word stands directly in front of an opening parenthesis. -/
def WithoutGroups (header : List Placed) : Prop :=
  header.IsChain fun t next => isAttributeWord t.token = true → next.token ≠ .openParen

instance (header : List Placed) : Decidable (WithoutGroups header) :=
  inferInstanceAs (Decidable (header.IsChain _))

/-- The tokens are the header of a block: in front of them the scan is outside all braces and holds no
header, and at the brace behind them it holds all of them and enters a body. -/
structure HeadsBlock (before header : List Placed) (brace : Placed) : Prop where
  outside : (Scan.run {} before).depth = 0
  fresh : (Scan.run {} before).header = []
  held : (Scan.run {} (before ++ header)).header = code header
  enters : ((Scan.run {} (before ++ header)).step brace).depth = 1

/-- A comment adds no code. -/
theorem code_cons_comment {t : Placed} (h : t.token.isComment = true) (tokens : List Placed) :
    code (t :: tokens) = code tokens := by
  simp [code, h]

/-- Any other token is code. -/
theorem code_cons {t : Placed} (h : t.token.isComment = false) (tokens : List Placed) :
    code (t :: tokens) = t :: code tokens := by
  simp [code, h]

section Removing

/-- An attribute word is no parenthesis. -/
theorem ne_openParen_of_isAttributeWord {t : Token} (h : isAttributeWord t = true) : t ≠ .openParen := by
  rintro rfl
  contradiction

/-- A group is removed from the front of a header. -/
theorem AttributeGroup.stripAttributes_append (g : AttributeGroup) (rest : List Placed) :
    stripAttributes (code g.tokens ++ rest) = stripAttributes rest := by
  have hsplit : splitAtClose 0 (g.inner ++ g.closing :: rest) = some (g.inner, rest) :=
    g.inner_matched.splitAtClose g.closing_eq
  rw [g.code_eq, List.cons_append, List.cons_append, List.append_assoc, List.singleton_append,
    stripAttributes, if_pos (by simp [g.word_eq, g.opening_eq])]
  split
  · next hnone =>
    rw [hsplit] at hnone
    contradiction
  · next inner behind hsome =>
    rw [hsplit] at hsome
    cases hsome
    rfl

variable {lines : Nat → Prop} {header written : List Placed}

/-- Where a parenthesis comes next among the groups, it comes next in the header. -/
theorem Attributed.code_of_openParen (h : Attributed lines header written) {next : Placed} {rest : List Placed}
    (hcode : code written = next :: rest) (hnext : next.token = .openParen) :
    ∃ rest', code header = next :: rest' := by
  induction h with
  | nil => contradiction
  | @token header written t _ ih =>
    by_cases hcomment : t.token.isComment = true
    · rw [code_cons_comment hcomment] at hcode ⊢
      exact ih hcode
    · rw [Bool.not_eq_true] at hcomment
      rw [code_cons hcomment] at hcode ⊢
      exact ⟨_, by rw [(List.cons.inj hcode).1]⟩
  | group g =>
    rw [code_append, g.code_eq] at hcode
    rw [← (List.cons.inj hcode).1] at hnext
    exact absurd hnext (ne_openParen_of_isAttributeWord g.word_eq)

/-- Removing attributes from a header with groups inserted gives back the header. -/
theorem Attributed.stripAttributes_eq (h : Attributed lines header written)
    (hplain : WithoutGroups (code header)) : stripAttributes (code written) = code header := by
  induction h with
  | nil => exact stripAttributes.eq_1
  | @token header written t h ih =>
    by_cases hcomment : t.token.isComment = true
    · rw [code_cons_comment hcomment] at hplain ⊢
      rw [code_cons_comment hcomment, ih hplain]
    · rw [Bool.not_eq_true] at hcomment
      rw [code_cons hcomment] at hplain ⊢
      rw [code_cons hcomment, ← ih hplain.tail]
      cases hwritten : code written with
      | nil => rw [stripAttributes, stripAttributes]
      | cons next rest =>
        -- A parenthesis that comes next is the header's own, and there no attribute word is in front of it.
        have hkept : ¬ (isAttributeWord t.token && next.token == .openParen) = true := by
          rw [Bool.and_eq_true, beq_iff_eq]
          rintro ⟨hword, hnext⟩
          obtain ⟨rest', hheader⟩ := h.code_of_openParen hwritten hnext
          rw [hheader] at hplain
          exact (List.isChain_cons_cons.mp hplain).1 hword hnext
        rw [stripAttributes, if_neg hkept]
  | group g _ _ ih => rw [code_append, g.stripAttributes_append, ih hplain]

/-- From a header without groups nothing is removed. -/
theorem WithoutGroups.stripAttributes_eq_self (h : WithoutGroups (code header)) :
    stripAttributes (code header) = code header := by
  have hself (tokens : List Placed) : Attributed (fun _ => True) tokens tokens := by
    induction tokens with
    | nil => exact .nil
    | cons t tokens ih => exact .token t ih
  exact (hself header).stripAttributes_eq h

end Removing

section Scanning

/-- The tokens join a header while `parens` parentheses are open in front of them: none discards it, and at
the tokens that may end it a parenthesis is open. -/
def Joins : Nat → List Placed → Prop
  | _, [] => True
  | parens, t :: rest =>
    (t.token.discards = false ∧ (t.token.endsHeader = true → parens ≠ 0)) ∧ Joins (countParen parens t) rest

/-- A comment joins any header and opens no parenthesis. -/
theorem joins_comment {t : Placed} (h : t.token.isComment = true) (parens : Nat) :
    (t.token.discards = false ∧ (t.token.endsHeader = true → parens ≠ 0)) ∧ countParen parens t = parens := by
  cases ht : t.token <;> simp [ht, Token.isComment] at h
  simp [Token.discards, Token.endsHeader, countPair, ht]

/-- So does an attribute word. -/
theorem joins_attributeWord {t : Placed} (h : isAttributeWord t.token = true) (parens : Nat) :
    (t.token.discards = false ∧ (t.token.endsHeader = true → parens ≠ 0)) ∧ countParen parens t = parens := by
  cases ht : t.token <;> simp [ht, isAttributeWord, Token.name?] at h
  simp [Token.discards, Token.endsHeader, countPair, ht]

/-- Tokens that join a header one after the other. -/
theorem joins_append {parens : Nat} {a b : List Placed} :
    Joins parens (a ++ b) ↔ Joins parens a ∧ Joins (a.foldl countParen parens) b := by
  induction a generalizing parens with
  | nil => simp [Joins]
  | cons t a ih => simp only [List.cons_append, Joins, ih, List.foldl_cons, and_assoc]

/-- Comments do not count for the parentheses. -/
theorem foldl_countParen_code (tokens : List Placed) (parens : Nat) :
    (code tokens).foldl countParen parens = tokens.foldl countParen parens := by
  induction tokens generalizing parens with
  | nil => rfl
  | cons t tokens ih =>
    by_cases hcomment : t.token.isComment = true
    · rw [code_cons_comment hcomment, ih, List.foldl_cons, (joins_comment hcomment parens).2]
    · rw [code_cons (by simpa using hcomment), List.foldl_cons, ih, List.foldl_cons]

/-- Comments do not matter for what joins a header. -/
theorem joins_code {parens : Nat} {tokens : List Placed} : Joins parens (code tokens) ↔ Joins parens tokens := by
  induction tokens generalizing parens with
  | nil => rfl
  | cons t tokens ih =>
    by_cases hcomment : t.token.isComment = true
    · obtain ⟨hjoins, hcount⟩ := joins_comment hcomment parens
      rw [code_cons_comment hcomment, ih, Joins, hcount]
      exact ⟨fun h => ⟨hjoins, h⟩, And.right⟩
    · rw [code_cons (by simpa using hcomment), Joins, Joins, ih]

/-- Tokens between parentheses join a header if they hold no brace and no preprocessor line. -/
theorem joins_of_unopened_lt {parens : Nat} {tokens : List Placed}
    (hplain : ∀ t ∈ tokens, t.token ≠ .openBrace ∧ t.token ≠ .closeBrace ∧ t.token ≠ .preprocessor)
    (h : unopened .openParen .closeParen tokens < parens) : Joins parens tokens := by
  induction tokens generalizing parens with
  | nil => trivial
  | cons t rest ih =>
    obtain ⟨-, hclose, hline⟩ := hplain t List.mem_cons_self
    have hdiscards : t.token.discards = false := by
      unfold Token.discards
      split <;> simp_all
    refine ⟨⟨hdiscards, fun _ => by omega⟩, ih (fun u hu => hplain u (List.mem_cons_of_mem t hu)) ?_⟩
    simp only [unopened] at h
    unfold countParen countPair
    split_ifs at h ⊢ <;> omega

variable {lines : Nat → Prop} {header written : List Placed}

/-- The parenthesis of a group opens one more. -/
theorem AttributeGroup.countParen_opening (g : AttributeGroup) (parens : Nat) :
    countParen parens g.opening = parens + 1 := by
  simp [countPair, g.opening_eq]

/-- A group leaves as many parentheses open as there were. -/
theorem AttributeGroup.foldl_countParen (g : AttributeGroup) (parens : Nat) :
    g.tokens.foldl countParen parens = parens := by
  have hclosing : countParen (parens + 1) g.closing = parens := by simp [countPair, g.closing_eq]
  rw [← foldl_countParen_code, g.code_eq, List.foldl_cons, List.foldl_cons, List.foldl_append,
    (joins_attributeWord g.word_eq parens).2, g.countParen_opening, g.inner_matched.foldl_countPair (by simp),
    List.foldl_cons, List.foldl_nil, hclosing]

/-- A group joins any header. -/
theorem AttributeGroup.joins (g : AttributeGroup) (parens : Nat) : Joins parens g.tokens := by
  obtain ⟨hword, hcount⟩ := joins_attributeWord g.word_eq parens
  have hinner : Joins (parens + 1) g.inner :=
    joins_of_unopened_lt g.inner_plain (by rw [g.inner_matched.1]; exact Nat.succ_pos parens)
  rw [← joins_code, g.code_eq, Joins, hcount, Joins, g.countParen_opening, joins_append]
  refine ⟨hword, ⟨?_, fun h => ?_⟩, hinner, ?_, trivial⟩
  · rw [g.opening_eq]; rfl
  · rw [g.opening_eq] at h; contradiction
  · rw [g.closing_eq]
    exact ⟨rfl, fun h => by contradiction⟩

/-- Groups join wherever the header does, and leave its parentheses as they are. -/
theorem Attributed.joins (h : Attributed lines header written) {parens : Nat} (hheader : Joins parens header) :
    Joins parens written ∧ written.foldl countParen parens = header.foldl countParen parens := by
  induction h generalizing parens with
  | nil => exact ⟨trivial, rfl⟩
  | token t _ ih =>
    obtain ⟨hrest, hcount⟩ := ih hheader.2
    exact ⟨⟨hheader.1, hrest⟩, hcount⟩
  | group g _ _ ih =>
    obtain ⟨hrest, hcount⟩ := ih hheader
    rw [joins_append, List.foldl_append, g.foldl_countParen]
    exact ⟨⟨g.joins parens, hrest⟩, hcount⟩

namespace Scan

variable {s : Scan} {t : Placed} {tokens : List Placed}

/-- A scan outside all braces holds the tokens that join its header. -/
theorem run_of_joins (hd : s.depth = 0) (h : Joins s.parens tokens) :
    s.run tokens =
      { s with header := s.header ++ code tokens, parens := tokens.foldl countParen s.parens } := by
  induction tokens generalizing s with
  | nil => simp [run, code]
  | cons t rest ih =>
    obtain ⟨⟨hdiscards, hends⟩, hrest⟩ := h
    rw [run_cons, List.foldl_cons]
    by_cases hcomment : t.token.isComment = true
    · rw [(joins_comment hcomment s.parens).2] at hrest ⊢
      rw [step_comment hcomment, ih hd hrest, code_cons_comment hcomment]
    · rw [Bool.not_eq_true] at hcomment
      have hkeep : ({ s.keep t with parens := countParen s.parens t } : Scan).depth = 0 := hd
      have hstep : s.step t = { s.keep t with parens := countParen s.parens t } := by
        rcases step_outside_cases hd hcomment with ⟨h, -⟩ | ⟨h0, h, -⟩ | ⟨h0, h, -⟩ | ⟨-, -, h⟩
        · rw [hdiscards] at h
          contradiction
        · exact absurd h0 (hends (by rcases h with h | ⟨h, -⟩ <;> rw [h] <;> rfl))
        · exact absurd h0 (hends (by rw [h]; rfl))
        · exact h
      rw [hstep, ih hkeep hrest, code_cons hcomment]
      simp [keep]

/-- A header grows by the code that is scanned, or by less. -/
theorem length_header_run_le (s : Scan) (tokens : List Placed) :
    (s.run tokens).header.length ≤ s.header.length + (code tokens).length := by
  induction tokens generalizing s with
  | nil => exact Nat.le_refl _
  | cons t rest ih =>
    rw [run_cons]
    refine (ih _).trans ?_
    by_cases hcomment : t.token.isComment = true
    · rw [step_comment hcomment, code_cons_comment hcomment]
    · rw [Bool.not_eq_true] at hcomment
      have hstep : (s.step t).header.length ≤ s.header.length + 1 := by
        by_cases hd : s.depth = 0
        · rcases step_outside_cases hd hcomment with ⟨-, h⟩ | ⟨-, -, h⟩ | ⟨-, -, -, h⟩ | ⟨-, -, h⟩ <;> rw [h] <;>
            simp [clear, enterBody, keep]
        · rw [step_inside hd]
          exact Nat.le_succ _
      rw [code_cons hcomment, List.length_cons]
      omega

/-- Tokens that a scan outside all braces holds have all joined its header. -/
theorem joins_of_held (hd : s.depth = 0) (h : (s.run tokens).header = s.header ++ code tokens) :
    Joins s.parens tokens := by
  induction tokens generalizing s with
  | nil => trivial
  | cons t rest ih =>
    rw [run_cons] at h
    by_cases hcomment : t.token.isComment = true
    · obtain ⟨hjoins, hcount⟩ := joins_comment hcomment s.parens
      rw [step_comment hcomment, code_cons_comment hcomment] at h
      rw [Joins, hcount]
      exact ⟨hjoins, ih hd h⟩
    · rw [Bool.not_eq_true] at hcomment
      rw [code_cons hcomment] at h
      -- Behind a token that leaves no header the scan cannot hold as many tokens.
      have hcleared (hstep : (s.step t).header = []) : Joins s.parens (t :: rest) := by
        have hle := length_header_run_le (s.step t) rest
        rw [h, hstep, List.length_append, List.length_cons, List.length_nil] at hle
        omega
      rcases step_outside_cases hd hcomment with ⟨-, hs⟩ | ⟨-, -, hs⟩ | ⟨-, -, -, hs⟩ | ⟨hdiscards, hends, hs⟩
      · exact hcleared (by rw [hs]; rfl)
      · exact hcleared (by rw [hs]; rfl)
      · exact hcleared (by rw [hs]; rfl)
      · rw [hs] at h
        exact ⟨⟨hdiscards, hends⟩, ih (s := { s.keep t with parens := countParen s.parens t }) hd
          (by simpa [keep] using h)⟩

end Scan

variable {before after : List Placed} {brace : Placed}

/-- The header of a block joins, closes the parentheses that are open and is not the header of a linkage
block. -/
theorem headsBlock_iff : HeadsBlock before header brace ↔
    (Scan.run {} before).depth = 0 ∧ (Scan.run {} before).header = [] ∧
      Joins (Scan.run {} before).parens header ∧
      header.foldl countParen (Scan.run {} before).parens = 0 ∧
      isLinkageHeader (code header) = false ∧ brace.token = .openBrace := by
  have hrun (outside : (Scan.run {} before).depth = 0) (fresh : (Scan.run {} before).header = [])
      (hjoins : Joins (Scan.run {} before).parens header) : Scan.run {} (before ++ header) =
        { Scan.run {} before with
          header := code header
          parens := header.foldl countParen (Scan.run {} before).parens } := by
    rw [Scan.run_append, Scan.run_of_joins outside hjoins, fresh, List.nil_append]
  constructor
  · rintro ⟨outside, fresh, held, enters⟩
    have hjoins : Joins (Scan.run {} before).parens header := by
      refine Scan.joins_of_held outside ?_
      rw [← Scan.run_append, held, fresh, List.nil_append]
    have hend := hrun outside fresh hjoins
    have hdepth : (Scan.run {} (before ++ header)).depth = 0 := by rw [hend]; exact outside
    refine ⟨outside, fresh, hjoins, ?_⟩
    have hcomment : brace.token.isComment = false := by
      by_contra hcomment
      rw [Bool.not_eq_false] at hcomment
      rw [Scan.step_comment hcomment, hdepth] at enters
      contradiction
    rcases Scan.step_outside_cases hdepth hcomment with ⟨-, h⟩ | ⟨-, -, h⟩ | ⟨hclosed, hbrace, hlinkage, -⟩ | ⟨-, -, h⟩
    · rw [h, Scan.clear, hdepth] at enters
      contradiction
    · rw [h, Scan.clear, hdepth] at enters
      contradiction
    · rw [held] at hlinkage
      rw [hend] at hclosed
      exact ⟨hclosed, hlinkage, hbrace⟩
    · rw [h] at enters
      exact absurd (hdepth.symm.trans enters) (by simp)
  · rintro ⟨outside, fresh, hjoins, hclosed, hlinkage, hbrace⟩
    have hend := hrun outside fresh hjoins
    refine ⟨outside, fresh, by rw [hend], ?_⟩
    rw [hend, hclosed]
    simp [Scan.step, Scan.stepOutside, hbrace, Token.isComment, outside, hlinkage, Scan.enterBody]

/-- The header of a block is handed over between the headers in front of it and those behind its body. -/
theorem HeadsBlock.blockHeaders_eq (h : HeadsBlock before header brace) (after : List Placed) :
    blockHeaders (before ++ (header ++ brace :: after)) =
      blockHeaders before ++ code header :: (Scan.run { depth := 1 } after).headers := by
  obtain ⟨outside, fresh, hjoins, hclosed, hlinkage, hbrace⟩ := headsBlock_iff.mp h
  have hbody : (Scan.run {} (before ++ header)).step brace =
      Scan.behind (blockHeaders before ++ [code header]) { depth := 1 } := by
    rw [Scan.run_append, Scan.run_of_joins outside hjoins, fresh, hclosed]
    simp [Scan.step, Scan.stepOutside, hbrace, Token.isComment, outside, hlinkage, Scan.enterBody, Scan.behind,
      blockHeaders]
  rw [blockHeaders, ← List.append_assoc, Scan.run_append, Scan.run_cons, hbody, Scan.run_behind, Scan.behind]
  exact List.append_assoc ..

/-- With groups inserted, the header of a block is still the header of the block. -/
theorem HeadsBlock.attributed (h : HeadsBlock before header brace) (hinserted : Attributed lines header written)
    (hplain : WithoutGroups (code header)) : HeadsBlock before written brace := by
  obtain ⟨outside, fresh, hjoins, hclosed, hlinkage, hbrace⟩ := headsBlock_iff.mp h
  obtain ⟨hwritten, hcount⟩ := hinserted.joins hjoins
  refine headsBlock_iff.mpr ⟨outside, fresh, hwritten, hcount.trans hclosed, ?_, hbrace⟩
  by_contra hlinked
  rw [Bool.not_eq_false] at hlinked
  -- A linkage header holds no attribute, so it would be the header that the groups were inserted in.
  have hbare : code written = code header := by
    rw [← hinserted.stripAttributes_eq hplain]
    unfold isLinkageHeader at hlinked
    split at hlinked
    · next word language hcode =>
      rw [Bool.and_eq_true, beq_iff_eq] at hlinked
      rw [hcode, stripAttributes, if_neg (by simp [hlinked.1, isAttributeWord, Token.name?,
        attributeWords]), stripAttributes]
    · contradiction
  rw [hbare, hlinkage] at hlinked
  contradiction

end Scanning

section Lines

variable {lines : Nat → Prop} {header written : List Placed}

/-- Groups on lines of one kind are groups on lines of any kind that includes it. -/
theorem Attributed.mono {lines' : Nat → Prop} (hlines : ∀ n, lines n → lines' n)
    (h : Attributed lines header written) : Attributed lines' header written := by
  induction h with
  | nil => exact .nil
  | token t _ ih => exact .token t ih
  | group g hg _ ih => exact .group g (fun t ht => hlines _ (hg t ht)) ih

/-- A line of the header does not lie above it. -/
theorem exists_le_of_hasCode {n : Nat} (h : hasCode header n = true) : ∃ t ∈ code header, t.line ≤ n := by
  obtain ⟨t, ht, hline⟩ := List.any_eq_true.mp h
  rw [Bool.and_eq_true, beq_iff_eq] at hline
  exact ⟨t, List.mem_filter.mpr ⟨ht, hline.1⟩, Nat.le_of_eq hline.2⟩

/-- Groups that do not stand on a line add neither code nor comments to it. -/
theorem Attributed.same_on_line (h : Attributed lines header written) {n : Nat} (hn : ¬ lines n) :
    hasCode written n = hasCode header n ∧ commentsOn written n = commentsOn header n := by
  induction h with
  | nil => exact ⟨rfl, rfl⟩
  | @token header written t _ ih =>
    rw [← List.singleton_append (l := header), ← List.singleton_append (l := written), hasCode_append,
      hasCode_append, commentsOn_append, commentsOn_append, ih.1, ih.2]
    exact ⟨rfl, rfl⟩
  | group g hlines _ ih =>
    have hnone : ∀ t ∈ g.tokens, t.line ≠ n := fun t ht hline => hn (hline ▸ hlines t ht)
    rw [hasCode_append, commentsOn_append, hasCode_eq_false hnone, commentsOn_eq_nil hnone, Bool.false_or,
      List.nil_append]
    exact ih

/-- Groups leave the code of the header where it is. -/
theorem Attributed.hasCode_of_header (h : Attributed lines header written) {n : Nat} (hn : hasCode header n = true) :
    hasCode written n = true := by
  induction h with
  | nil => exact hn
  | @token header written t _ ih =>
    rw [← List.singleton_append (l := header), hasCode_append, Bool.or_eq_true] at hn
    rw [← List.singleton_append (l := written), hasCode_append, Bool.or_eq_true]
    exact hn.imp_right ih
  | group g _ _ ih => rw [hasCode_append, ih hn, Bool.or_true]

/-- The comments above a line are the same where on each line above it the code is the same, and so are the
comments unless there is code. -/
theorem commentsAbove_of_lines {a b : List Placed} (hcode : ∀ n, hasCode a n = hasCode b n)
    (hcomments : ∀ n, hasCode b n = false → commentsOn a n = commentsOn b n) (line : Nat) :
    commentsAbove a line = commentsAbove b line := by
  induction line with
  | zero => rfl
  | succ line ih =>
    rw [commentsAbove, commentsAbove, hcode, ih]
    split
    · rfl
    · next hnone => rw [hcomments _ (by simpa using hnone)]

end Lines

section Reading

variable {lines : Nat → Prop} {header written before after : List Placed} {brace : Placed}

/-- A header with groups is looked at like the header without. -/
theorem Attributed.readBlock_eq (h : Attributed lines header written) (hplain : WithoutGroups (code header))
    (file : String) (tokens : List Placed) (p : Progress) :
    p.readBlock file tokens (code written) = p.readBlock file tokens (code header) := by
  rw [Progress.readBlock, Progress.readBlock, h.stripAttributes_eq hplain, hplain.stripAttributes_eq_self]

/-- A block is looked at alike among other tokens, if the comments above its header are the same. -/
theorem readBlock_of_above {file : String} {a b : List Placed} (p : Progress)
    (h : ∀ first ∈ (stripAttributes header).head?,
      commentsAbove a (first.line - 1) = commentsAbove b (first.line - 1)) :
    p.readBlock file a header = p.readBlock file b header := by
  unfold Progress.readBlock
  cases hbare : stripAttributes header with
  | nil => rfl
  | cons first rest =>
    rw [hbare] at h
    simp only [Progress.readHeader, h first rfl]

/-- The findings of headers are the same among other tokens, if the comments above the headers are. -/
theorem findingsOf_of_above {file : String} {a b : List Placed} {headers : List (List Placed)}
    (h : ∀ header ∈ headers, ∀ first ∈ (stripAttributes header).head?,
      commentsAbove a (first.line - 1) = commentsAbove b (first.line - 1)) :
    findingsOf file a headers = findingsOf file b headers :=
  congrArg Progress.findings (List.foldl_ext _ _ _ fun p header hmem => readBlock_of_above p (h header hmem))

/-- The findings of headers are the first findings of a text with further headers. -/
theorem findingsOf_isPrefix (file : String) (tokens : List Placed) (headers more : List (List Placed)) :
    findingsOf file tokens headers <+: findingsOf file tokens (headers ++ more) := by
  rw [findingsOf, findingsOf, List.foldl_append]
  exact Progress.isPrefix_findings_foldl _ more

/-- Among headers, one with groups gives what the one without gives. -/
theorem Attributed.findingsOf_eq (h : Attributed lines header written) (hplain : WithoutGroups (code header))
    (file : String) (tokens : List Placed) (front back : List (List Placed)) :
    findingsOf file tokens (front ++ code written :: back) =
      findingsOf file tokens (front ++ code header :: back) := by
  simp only [findingsOf, List.foldl_append, List.foldl_cons, h.readBlock_eq hplain]

/-- Groups that do not stand above the header leave the comments above it, and above the headers in front of
it, as they are. -/
theorem Attributed.commentsAbove_front
    (h : Attributed (fun n => ∃ t ∈ code header, t.line ≤ n) header written)
    (hsorted : (before ++ (header ++ brace :: after)).Pairwise (·.line ≤ ·.line)) {first : Placed}
    (hfirst : first ∈ before ∨ first ∈ (code header).head?) :
    commentsAbove (before ++ (written ++ brace :: after)) (first.line - 1) =
      commentsAbove (before ++ (header ++ brace :: after)) (first.line - 1) := by
  have hbelow : ∀ t ∈ code header, first.line ≤ t.line := by
    intro t ht
    obtain ⟨-, hheader, hfront⟩ := List.pairwise_append.mp hsorted
    rcases hfirst with hfirst | hfirst
    · exact hfront first hfirst t (List.mem_append_left _ (List.mem_filter.mp ht).1)
    · obtain ⟨rest, hcode⟩ := List.head?_eq_some_iff.mp hfirst
      have hcodes : (code header).Pairwise (·.line ≤ ·.line) :=
        (List.pairwise_append.mp hheader).1.sublist List.filter_sublist
      rw [hcode] at ht hcodes
      rcases List.mem_cons.mp ht with rfl | ht
      · exact Nat.le_refl _
      · exact List.rel_of_pairwise_cons hcodes ht
  refine commentsAbove_congr (Nat.zero_le _) (fun n hn hle => ?_) (.inl rfl)
  have hnone : ¬ ∃ t ∈ code header, t.line ≤ n := by
    rintro ⟨t, ht, hline⟩
    have := hbelow t ht
    omega
  obtain ⟨hcode, hcomments⟩ := h.same_on_line hnone
  simp only [hasCode_append, commentsOn_append, hcode, hcomments, and_self]

/-- Groups on the lines of the header leave the comments above every line as they are. -/
theorem Attributed.commentsAbove_eq (h : Attributed (hasCode header · = true) header written) (line : Nat) :
    commentsAbove (before ++ (written ++ brace :: after)) line =
      commentsAbove (before ++ (header ++ brace :: after)) line := by
  have hsame {n : Nat} (hn : hasCode header n = false) :=
    h.same_on_line (n := n) (by rw [hn]; exact Bool.false_ne_true)
  refine commentsAbove_of_lines (fun n => ?_) (fun n hn => ?_) line
  · rw [hasCode_append, hasCode_append, hasCode_append, hasCode_append]
    cases hn : hasCode header n with
    | true => rw [h.hasCode_of_header hn]
    | false => rw [(hsame hn).1, hn]
  · rw [hasCode_append, hasCode_append, Bool.or_eq_false_iff, Bool.or_eq_false_iff] at hn
    rw [commentsOn_append, commentsOn_append, commentsOn_append, commentsOn_append, (hsame hn.2.1).2]

end Reading

/-- Attributes are transparent to signatures. Groups are inserted between the tokens of a header in which no
attribute word stands in front of a parenthesis, none of them above the header. Then removing attributes gives
back the header; the header with the groups is handed over in its place; and everything found up to it, the
function or the fault of the header included, is the same. If the groups stand on lines where tokens of the
header stand, the whole text is read the same. -/
theorem readSource_attributed (file : String) {text text' : String} {before header written after : List Placed}
    {brace : Placed} (htext : tokenize text = before ++ (header ++ brace :: after))
    (htext' : tokenize text' = before ++ (written ++ brace :: after))
    (hblock : HeadsBlock before header brace) (hplain : WithoutGroups (code header))
    (hinserted : Attributed (fun n => ∃ t ∈ code header, t.line ≤ n) header written) :
    stripAttributes (code written) = code header ∧
      HeadsBlock before written brace ∧
      (let found := findingsOf file (tokenize text) (blockHeaders before ++ [code header])
      findingsOf file (tokenize text') (blockHeaders before ++ [code written]) = found ∧
        found <+: (readSource file text).findings ∧ found <+: (readSource file text').findings) ∧
      (Attributed (hasCode header · = true) header written → readSource file text' = readSource file text) := by
  have hheaders := hblock.blockHeaders_eq after
  have hheaders' := (hblock.attributed hinserted hplain).blockHeaders_eq after
  have hfound : findingsOf file (tokenize text') (blockHeaders before ++ [code written]) =
      findingsOf file (tokenize text) (blockHeaders before ++ [code header]) := by
    have hsorted : (before ++ (header ++ brace :: after)).Pairwise (·.line ≤ ·.line) := by
      rw [← htext]
      exact pairwise_tokensFrom 1 _
    rw [hinserted.findingsOf_eq hplain, htext, htext']
    refine findingsOf_of_above fun other hother first hfirst => ?_
    refine hinserted.commentsAbove_front hsorted ?_
    rcases List.mem_append.mp hother with hother | hother
    · exact .inl (mem_of_mem_blockHeaders hother (mem_of_mem_stripAttributes (List.mem_of_mem_head? hfirst)))
    · rw [List.mem_singleton.mp hother, hplain.stripAttributes_eq_self] at hfirst
      exact .inr hfirst
  have hprefix (headers : List (List Placed)) (header : List Placed) (more : List (List Placed))
      (tokens : List Placed) : findingsOf file tokens (headers ++ [header]) <+:
        findingsOf file tokens (headers ++ header :: more) := by
    rw [List.append_cons headers header more]
    exact findingsOf_isPrefix file tokens _ more
  refine ⟨hinserted.stripAttributes_eq hplain, hblock.attributed hinserted hplain, ⟨hfound, ?_, ?_⟩, fun hlines => ?_⟩
  · show _ <+: findingsOf file (tokenize text) (blockHeaders (tokenize text))
    rw [htext, hheaders]
    exact hprefix _ _ _ _
  · show _ <+: findingsOf file (tokenize text') (blockHeaders (tokenize text'))
    rw [← hfound, htext', hheaders']
    exact hprefix _ _ _ _
  · refine congrArg Reading.mk ?_
    show findingsOf file (tokenize text') (blockHeaders (tokenize text')) =
      findingsOf file (tokenize text) (blockHeaders (tokenize text))
    rw [htext, htext', hheaders, hheaders', hinserted.findingsOf_eq hplain]
    exact findingsOf_of_above fun _ _ _ _ => hlines.commentsAbove_eq _

/-- Tokens on one line that are no trivia are code and no preprocessor lines. -/
theorem plain_onLine {line : Nat} {inner : List Token}
    (h : ∀ t ∈ inner, t ≠ .openBrace ∧ t ≠ .closeBrace ∧ t.isTrivia = false) :
    code (inner.map (Placed.mk · line)) = inner.map (Placed.mk · line) ∧
      ∀ t ∈ inner.map (Placed.mk · line),
        t.token ≠ .openBrace ∧ t.token ≠ .closeBrace ∧ t.token ≠ .preprocessor := by
  have hplain {u : Token} (hu : u.isTrivia = false) : u.isComment = false ∧ u ≠ .preprocessor := by
    cases u <;> simp [Token.isTrivia] at hu <;> simp [Token.isComment]
  constructor
  · refine List.filter_eq_self.mpr fun t ht => ?_
    obtain ⟨u, hu, rfl⟩ := List.mem_map.mp ht
    rw [(hplain (h u hu).2.2).1]
    rfl
  · intro t ht
    obtain ⟨u, hu, rfl⟩ := List.mem_map.mp ht
    exact ⟨(h u hu).1, (h u hu).2.1, (hplain (h u hu).2.2).2⟩

/-- A group that stands on one line and holds no comment. -/
def AttributeGroup.onLine (line : Nat) (word : String) (inner : List Token)
    (hword : attributeWords.contains word = true)
    (hmatched : Matched .openParen .closeParen (inner.map (Placed.mk · line)))
    (hplain : ∀ t ∈ inner, t ≠ .openBrace ∧ t ≠ .closeBrace ∧ t.isTrivia = false) : AttributeGroup where
  tokens := ⟨.ident word, line⟩ :: ⟨.openParen, line⟩ :: (inner.map (Placed.mk · line) ++ [⟨.closeParen, line⟩])
  word := ⟨.ident word, line⟩
  opening := ⟨.openParen, line⟩
  inner := inner.map (Placed.mk · line)
  closing := ⟨.closeParen, line⟩
  code_eq := by
    rw [code_cons rfl, code_cons rfl, code_append, (plain_onLine hplain).1]
    rfl
  word_eq := hword
  opening_eq := @rfl Token .openParen
  inner_matched := hmatched
  inner_plain := (plain_onLine hplain).2
  closing_eq := @rfl Token .closeParen

/-- A header on two lines with groups in front of the result, on both sides of the name, in the list and
behind it; they hold nested parentheses, a comma, a semicolon and a `=`. -/
theorem readSource_attributed_everywhere :
    let text := "// @async\nint f(int a,\n  int b) \x7b return a; \x7d\nlong g(void) \x7b return 1; \x7d\n"
    let text' := "// @async\n__declspec(dllexport) int asm(\"f;f\") f __attribute__((x(1), y = 2)) (int a,\n" ++
      "  __attribute__((unused)) int b) __asm__(\"f\"; 1) \x7b return a; \x7d\nlong g(void) \x7b return 1; \x7d\n"
    let header := ((tokenize text).drop 1).take 9
    let written := ((tokenize text').drop 1).take 42
    (HeadsBlock ((tokenize text).take 1) header ⟨.openBrace, 3⟩ ∧ WithoutGroups (code header) ∧
        Attributed (hasCode header · = true) header written) ∧
      stripAttributes (code written) = code header ∧ readSource "x.c" text' = readSource "x.c" text ∧
      (readSource "x.c" text).descriptors.map (fun d => (d.name, d.parameters.map (·.name))) =
        [("f", [some "a", some "b"]), ("g", [])] := by
  intro text text' header written
  let onLine (t : Token) (line : Nat) : Placed := ⟨t, line⟩
  let dllexport : AttributeGroup := .onLine 2 "__declspec" [.ident "dllexport"] (by decide +kernel)
    ⟨by decide +kernel, by decide +kernel⟩ (by decide +kernel)
  let label : AttributeGroup := .onLine 2 "asm" [.literal "\"f;f\""] (by decide +kernel)
    ⟨by decide +kernel, by decide +kernel⟩ (by decide +kernel)
  let nested : AttributeGroup := .onLine 2 "__attribute__" [.openParen, .ident "x", .openParen, .literal "1",
      .closeParen, .comma, .ident "y", .equals, .literal "2", .closeParen] (by decide +kernel)
    ⟨by decide +kernel, by decide +kernel⟩ (by decide +kernel)
  let unused : AttributeGroup := .onLine 3 "__attribute__" [.openParen, .ident "unused", .closeParen]
    (by decide +kernel) ⟨by decide +kernel, by decide +kernel⟩ (by decide +kernel)
  let behind : AttributeGroup := .onLine 3 "__asm__" [.literal "\"f\"", .semicolon, .literal "1"]
    (by decide +kernel) ⟨by decide +kernel, by decide +kernel⟩ (by decide +kernel)
  have hinserted : Attributed (hasCode header · = true) header written := by
    have hheader : header = onLine (.ident "int") 2 :: onLine (.ident "f") 2 :: onLine .openParen 2 ::
        onLine (.ident "int") 2 :: onLine (.ident "a") 2 :: onLine .comma 2 :: onLine (.ident "int") 3 ::
        onLine (.ident "b") 3 :: onLine .closeParen 3 :: [] := by decide +kernel
    have hwritten : written = dllexport.tokens ++ onLine (.ident "int") 2 :: (label.tokens ++
        onLine (.ident "f") 2 :: (nested.tokens ++ onLine .openParen 2 :: onLine (.ident "int") 2 ::
        onLine (.ident "a") 2 :: onLine .comma 2 :: (unused.tokens ++ onLine (.ident "int") 3 ::
        onLine (.ident "b") 3 :: onLine .closeParen 3 :: (behind.tokens ++ [])))) := by decide +kernel
    have htwo : hasCode header 2 = true := by decide +kernel
    have hthree : hasCode header 3 = true := by decide +kernel
    generalize hasCode header = onHeader at htwo hthree ⊢
    rw [hheader, hwritten]
    have hlines (g : AttributeGroup) (n : Nat) (hn : onHeader n = true) (hg : ∀ t ∈ g.tokens, t.line = n) :
        ∀ t ∈ g.tokens, onHeader t.line = true := fun t ht => by rw [hg t ht, hn]
    exact .group dllexport (hlines _ 2 htwo (by decide +kernel)) <| .token _ <|
      .group label (hlines _ 2 htwo (by decide +kernel)) <| .token _ <|
      .group nested (hlines _ 2 htwo (by decide +kernel)) <| .token _ <| .token _ <| .token _ <| .token _ <|
      .group unused (hlines _ 3 hthree (by decide +kernel)) <| .token _ <| .token _ <| .token _ <|
      .group behind (hlines _ 3 hthree (by decide +kernel)) .nil
  have hblock : HeadsBlock ((tokenize text).take 1) header ⟨.openBrace, 3⟩ :=
    ⟨by decide +kernel, by decide +kernel, by decide +kernel, by decide +kernel⟩
  have hplain : WithoutGroups (code header) := by decide +kernel
  have htext : tokenize text =
      (tokenize text).take 1 ++ (header ++ ⟨.openBrace, 3⟩ :: (tokenize text).drop 11) := by decide +kernel
  have htext' : tokenize text' =
      (tokenize text).take 1 ++ (written ++ ⟨.openBrace, 3⟩ :: (tokenize text).drop 11) := by decide +kernel
  obtain ⟨hstrip, -, -, hread⟩ := readSource_attributed "x.c" htext htext' hblock hplain
    (hinserted.mono fun _ => exists_le_of_hasCode)
  exact ⟨⟨hblock, hplain, hinserted⟩, hstrip, hread hinserted, by decide +kernel⟩

end CBind.Source
