import CBind.Proofs.Source.Findings
import CBind.Proofs.Source.Scanning
import Mathlib.Data.List.Induction

/-!
# When the header scan recovers

The count of open parentheses is meant to be the number of parentheses that the header leaves open.
It is, for a whole token sequence, exactly if no header with an open parenthesis is discarded at a
stray closing brace or at a preprocessor line: those discard the header and keep the count. Then the
scan is back at its start whenever it has no header, and every later definition is described.

If a header was discarded with more open parentheses than the rest of the text closes, no header of
the rest is handed over at all.
-/

namespace CBind.Source

/-- No header with an open parenthesis is discarded at a stray brace or a preprocessor line. -/
def DiscardsClosed (tokens : List Placed) : Prop :=
  ∀ before t, before ++ [t] <+: tokens → (Scan.run {} before).depth = 0 →
    t.token.discards = true → unclosed .openParen .closeParen (Scan.run {} before).header = 0

/-- Outside all braces the count is the number of parentheses that the header leaves open. -/
def CountsUnclosed (tokens : List Placed) : Prop :=
  ∀ before, before <+: tokens → (Scan.run {} before).depth = 0 →
    (Scan.run {} before).parens = unclosed .openParen .closeParen (Scan.run {} before).header

/-- Wherever a header was discarded, the scan is back at its start. -/
def RestartsWithoutHeader (tokens : List Placed) : Prop :=
  ∀ before, before <+: tokens → (Scan.run {} before).depth = 0 →
    (Scan.run {} before).header = [] → (Scan.run {} before).parens = 0

/-- A well-formed function header: nothing in it may end a header, its parentheses are complete, and
without comments and attributes it reads as a definition. -/
structure WellFormedHeader (file : String) (tokens header : List Placed) (definition : Declarator)
    (descriptor : Descriptor) : Prop where
  endsNowhere : ∀ t ∈ header, t.token.endsHeader = false
  parens : Matched .openParen .closeParen header
  reads : ∃ first rest, stripAttributes (code header) = first :: rest ∧
    Reads ⟨file, first.line⟩ (commentsAbove tokens (first.line - 1)) (first :: rest) definition
      descriptor

/-- Behind a discarded header every well-formed definition of a new name is described. -/
def DescribesLater (file : String) (tokens : List Placed) : Prop :=
  ∀ before header brace after definition descriptor,
    tokens = before ++ header ++ brace :: after → brace.token = .openBrace →
    (Scan.run {} before).depth = 0 → (Scan.run {} before).header = [] →
    WellFormedHeader file tokens header definition descriptor →
    definition.name ∉ definedNames file tokens (blockHeaders before) →
    .ok descriptor ∈ readTokens file tokens

namespace Scan

/-- Inside a body there is no header and no open parenthesis. -/
theorem body_of_depth_ne_zero (tokens : List Placed) (h : (run {} tokens).depth ≠ 0) :
    (run {} tokens).parens = 0 ∧ (run {} tokens).header = [] := by
  induction tokens using List.reverseRecOn with
  | nil => exact absurd rfl h
  | append_singleton tokens t ih =>
    rw [run_append] at h ⊢
    change ((run {} tokens).step t).depth ≠ 0 at h
    change ((run {} tokens).step t).parens = 0 ∧ ((run {} tokens).step t).header = []
    by_cases hd : (run {} tokens).depth = 0
    · by_cases hc : t.token.isComment = true
      · rw [step_comment hc] at h
        exact absurd hd h
      · rcases step_outside_cases hd (by simpa using hc) with
          ⟨-, hs⟩ | ⟨-, -, hs⟩ | ⟨hp, -, -, hs⟩ | ⟨-, -, hs⟩
        · exact absurd (by rw [hs]; exact hd) h
        · exact absurd (by rw [hs]; exact hd) h
        · rw [hs]
          exact ⟨hp, rfl⟩
        · exact absurd (by rw [hs]; exact hd) h
    · rw [step_inside hd]
      exact ih hd

/-- One token keeps the count in step with the header, unless it discards an open one. -/
theorem parens_step {s : Scan} {t : Placed}
    (hs : s.depth = 0 → s.parens = unclosed .openParen .closeParen s.header)
    (hbody : s.depth ≠ 0 → s.parens = 0 ∧ s.header = [])
    (ht : s.depth = 0 → t.token.discards = true → unclosed .openParen .closeParen s.header = 0) :
    (s.step t).parens = unclosed .openParen .closeParen (s.step t).header := by
  by_cases hd : s.depth = 0
  · by_cases hc : t.token.isComment = true
    · rw [step_comment hc]
      exact hs hd
    · rcases step_outside_cases hd (by simpa using hc) with
        ⟨hdisc, h⟩ | ⟨hp, -, h⟩ | ⟨hp, -, -, h⟩ | ⟨-, -, h⟩
      · rw [h]
        exact (hs hd).trans (ht hd hdisc)
      · rw [h]
        exact hp
      · rw [h]
        exact hp
      · rw [h]
        show countParen s.parens t = unclosed .openParen .closeParen (s.header ++ [t])
        rw [unclosed_append_singleton (by simp), hs hd]
  · rw [step_inside hd]
    obtain ⟨hp, hh⟩ := hbody hd
    show s.parens = unclosed .openParen .closeParen s.header
    rw [hp, hh]
    rfl

end Scan

/-- If no open header is discarded, the count is the number of open parentheses of the header. -/
theorem countsUnclosed_of_discardsClosed {tokens : List Placed} (h : DiscardsClosed tokens) :
    CountsUnclosed tokens := by
  intro before hbefore
  induction before using List.reverseRecOn with
  | nil => intro _; rfl
  | append_singleton before t ih =>
    have hprev : before <+: tokens := (List.prefix_append before [t]).trans hbefore
    intro _
    rw [Scan.run_append]
    exact Scan.parens_step (ih hprev) (Scan.body_of_depth_ne_zero before) (h before t hbefore)

/-- A scan that is at its start hands a well-formed header over. -/
theorem headers_run_of_wellFormedHeader {s : Scan} {file : String} {tokens header : List Placed}
    {brace : Placed} {definition : Declarator} {descriptor : Descriptor}
    (hd : s.depth = 0) (hp : s.parens = 0) (hh : s.header = [])
    (hbrace : brace.token = .openBrace)
    (hw : WellFormedHeader file tokens header definition descriptor) :
    (s.run (header ++ [brace])).headers = s.headers ++ [code header] := by
  have hrun : s.run header = { s with header := code header } := by
    rw [Scan.run_header hd hw.endsNowhere, hw.parens.foldl_countPair (by simp), hh]
    rfl
  have hlink : isLinkageHeader (code header) = false := by
    obtain ⟨first, rest, hstrip, hreads⟩ := hw.reads
    exact isLinkageHeader_of_looksLikeDefinition (by rw [hstrip]; exact hreads.looks)
  rw [Scan.run_append, hrun]
  show (Scan.step { s with header := code header } brace).headers = s.headers ++ [code header]
  simp [Scan.step, Scan.stepOutside, Scan.enterBody, hbrace, Token.isComment, hd, hp, hlink]

/-- If the count is in step with the header, later definitions are described. -/
theorem describesLater_of_countsUnclosed (file : String) {tokens : List Placed}
    (h : CountsUnclosed tokens) : DescribesLater file tokens := by
  intro before header brace after definition descriptor htokens hbrace hd hh hw hnew
  have hp : (Scan.run {} before).parens = 0 := by
    rw [h before (by rw [htokens, List.append_assoc]; exact List.prefix_append _ _) hd, hh]
    rfl
  have hsplit : tokens = before ++ (header ++ [brace]) ++ after := by simp [htokens]
  obtain ⟨more, hmore⟩ := Scan.isPrefix_headers_run ((Scan.run {} before).run (header ++ [brace])) after
  rw [headers_run_of_wellFormedHeader hd hp hh hbrace hw] at hmore
  have hheaders : blockHeaders tokens =
      blockHeaders before ++ [code header] ++ more := by
    rw [blockHeaders, blockHeaders, hsplit, Scan.run_append, Scan.run_append, hmore]
  obtain ⟨first, rest, hstrip, hreads⟩ := hw.reads
  have hmem : Except.ok descriptor ∈ (Progress.readBlock file tokens
      ((blockHeaders before).foldl (Progress.readBlock file tokens) {}) (code header)).findings := by
    rw [Progress.readBlock_of_reads hstrip hreads hnew]
    exact List.mem_append_right _ List.mem_cons_self
  rw [readTokens, hheaders, List.foldl_append, List.foldl_append]
  exact (Progress.isPrefix_findings_foldl _ more).subset hmem

/-- The count follows the header, the scan restarts behind every discarded header, and later
definitions are described, exactly if no header with an open parenthesis is discarded. Text behind a
header that was discarded with more open parentheses than the text closes is lost altogether. -/
theorem recovers_iff_discardsClosed (file : String) (tokens : List Placed) :
    ((CountsUnclosed tokens ∧ RestartsWithoutHeader tokens ∧ DescribesLater file tokens) ↔
      DiscardsClosed tokens) ∧
    ∀ before rest, tokens = before ++ rest → (Scan.run {} before).depth = 0 →
      unopened .openParen .closeParen rest < (Scan.run {} before).parens →
      blockHeaders tokens = blockHeaders before := by
  refine ⟨⟨?_, ?_⟩, ?_⟩
  · rintro ⟨hcounts, -, -⟩ before t hbefore hd ht
    have hprev : before <+: tokens := (List.prefix_append before [t]).trans hbefore
    have hc : t.token.isComment = false := by
      unfold Token.discards at ht
      split at ht <;> simp_all [Token.isComment]
    -- The header is gone after `t`, but the count is not.
    have hstep : (Scan.run {} (before ++ [t])) = (Scan.run {} before).clear := by
      rw [Scan.run_append]
      show (Scan.run {} before).step t = (Scan.run {} before).clear
      unfold Token.discards at ht
      split at ht <;> simp_all [Scan.step, Scan.stepOutside]
    have hafter := hcounts (before ++ [t]) hbefore (by rw [hstep]; exact hd)
    rw [hstep] at hafter
    exact (hcounts before hprev hd).symm.trans hafter
  · intro h
    have hcounts := countsUnclosed_of_discardsClosed h
    refine ⟨hcounts, ?_, describesLater_of_countsUnclosed file hcounts⟩
    intro before hbefore hd hh
    rw [hcounts before hbefore hd, hh]
    rfl
  · intro before rest htokens hd hlt
    rw [blockHeaders, htokens, Scan.run_append, Scan.run_of_unopened_lt hd hlt]
    rfl

/-- Behind two alternative beginnings of one signature, of which the text closes only one, no header is
handed over. -/
theorem alternative_beginnings_lose_rest :
    let tokens := tokenize ("#ifdef WIDE\nint f(long a,\n#else\nint f(int a,\n#endif\n" ++
      "int n) \x7b return n; \x7d\nint g(int x) \x7b return x; \x7d\n")
    (Scan.run {} (tokens.take 14)).depth = 0 ∧
      unopened .openParen .closeParen (tokens.drop 14) < (Scan.run {} (tokens.take 14)).parens ∧
      blockHeaders tokens = blockHeaders (tokens.take 14) := by
  intro tokens
  have hd : (Scan.run {} (tokens.take 14)).depth = 0 := by decide +kernel
  have hlt : unopened .openParen .closeParen (tokens.drop 14) <
      (Scan.run {} (tokens.take 14)).parens := by decide +kernel
  exact ⟨hd, hlt, (recovers_iff_discardsClosed "x.c" tokens).2 _ _
    (List.take_append_drop 14 tokens).symm hd hlt⟩

/-- Two alternative beginnings of one signature leave a parenthesis open: the count is not that of
the header, and the function that follows is not described, which alone it is. -/
theorem alternative_beginnings_not_recovered :
    let function := "int g(int x) \x7b return x; \x7d\n"
    let text := "#ifdef WIDE\nint f(long a,\n#else\nint f(int a,\n#endif\n      int n) \x7b return n; \x7d\n" ++
      function
    ¬ CountsUnclosed (tokenize text) ∧ (readSource "x.c" text).descriptors = [] ∧
      (readSource "x.c" function).descriptors.map (·.name) = ["g"] := by
  refine ⟨fun h => ?_, by decide +kernel, by decide +kernel⟩
  exact absurd (h _ (List.take_prefix 8 _) (by decide +kernel)) (by decide +kernel)

end CBind.Source
