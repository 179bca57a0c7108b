import CBind.Proofs.Source.Matching
import Mathlib.Tactic.SplitIfs

/-!
# What the header scan does with a token

Outside all braces a token does one of four things: it discards the header, it discards the header
while no parenthesis is open, it hands the header over and enters a body, or it joins the header and
moves the count of open parentheses. Inside a body only the depth moves. All facts about whole runs
are derived from these two.

Headers that were handed over are never taken back, and inside a body there is no header and no open
parenthesis, whatever came before.
-/

namespace CBind.Source

/-- The tokens of a sequence that are not comments. -/
def code (tokens : List Placed) : List Placed :=
  tokens.filter (!·.token.isComment)

/-- Recognize the tokens that discard a header whatever the count of open parentheses is. -/
def Token.discards : Token → Bool
  | preprocessor => true
  | closeBrace => true
  | _ => false

/-- Recognize the tokens that may end a header. -/
def Token.endsHeader : Token → Bool
  | semicolon => true
  | openBrace => true
  | t => t.discards

/-- The count of open parentheses after a token of a header. -/
abbrev countParen : Nat → Placed → Nat := countPair .openParen .closeParen

/-- The depth after a token of a body. -/
abbrev countBrace : Nat → Placed → Nat := countPair .openBrace .closeBrace

namespace Scan

variable {s : Scan} {t : Placed}

/-- A comment changes nothing. -/
theorem step_comment (h : t.token.isComment = true) : s.step t = s := by
  simp [step, h]

/-- What a token that is not a comment can do outside all braces. -/
theorem step_outside_cases (hd : s.depth = 0) (hc : t.token.isComment = false) :
    (t.token.discards = true ∧ s.step t = s.clear) ∨
    (s.parens = 0 ∧ (t.token = .semicolon ∨ t.token = .openBrace ∧ isLinkageHeader s.header = true) ∧
      s.step t = s.clear) ∨
    (s.parens = 0 ∧ t.token = .openBrace ∧ isLinkageHeader s.header = false ∧
      s.step t = s.enterBody) ∨
    (t.token.discards = false ∧ (t.token.endsHeader = true → s.parens ≠ 0) ∧
      s.step t = { s.keep t with parens := countParen s.parens t }) := by
  have hs : s.step t = s.stepOutside t := by simp [step, hc, hd]
  rw [hs]
  unfold stepOutside
  split
  · next h => exact .inl ⟨by simp [h, Token.discards], rfl⟩
  · next h => exact .inl ⟨by simp [h, Token.discards], rfl⟩
  · next h =>
    by_cases hp : s.parens = 0
    · exact .inr (.inl ⟨hp, .inl h, by simp [hp]⟩)
    · exact .inr (.inr (.inr ⟨by simp [h, Token.discards], fun _ => hp, by
        simp [hp, h, countPair, keep]⟩))
  · next h =>
    by_cases hp : s.parens = 0
    · by_cases hl : isLinkageHeader s.header = true
      · exact .inr (.inl ⟨hp, .inr ⟨h, hl⟩, by simp [hp, hl]⟩)
      · exact .inr (.inr (.inl ⟨hp, h, by simpa using hl, by simp [hp, hl]⟩))
    · exact .inr (.inr (.inr ⟨by simp [h, Token.discards], fun _ => hp, by
        simp [hp, h, countPair, keep]⟩))
  · next h =>
    exact .inr (.inr (.inr ⟨by simp [h, Token.discards], by
      simp [h, Token.endsHeader, Token.discards], by simp [h, countPair]⟩))
  · next h =>
    exact .inr (.inr (.inr ⟨by simp [h, Token.discards], by
      simp [h, Token.endsHeader, Token.discards], by simp [h, countPair]⟩))
  · next h1 h2 h3 h4 h5 h6 =>
    have hn : t.token.endsHeader = false := by
      unfold Token.endsHeader Token.discards
      split
      · next h => exact absurd h h3
      · next h => exact absurd h h4
      · split
        · next h => exact absurd h h1
        · next h => exact absurd h h2
        · rfl
    refine .inr (.inr (.inr ⟨?_, by simp [hn], ?_⟩))
    · unfold Token.discards
      split
      · next h => exact absurd h h1
      · next h => exact absurd h h2
      · rfl
    · show s.keep t = { s.keep t with parens := countParen s.parens t }
      rw [countParen, countPair, if_neg h5, if_neg h6]
      rfl

/-- A token that ends no header joins it. -/
theorem step_of_not_endsHeader (hd : s.depth = 0) (hc : t.token.isComment = false)
    (he : t.token.endsHeader = false) :
    s.step t = { s.keep t with parens := countParen s.parens t } := by
  rcases step_outside_cases hd hc with ⟨h, -⟩ | ⟨-, h | ⟨h, -⟩, -⟩ | ⟨-, h, -⟩ | ⟨-, -, h⟩
  · have : t.token.endsHeader = true := by
      unfold Token.discards at h
      split at h <;> simp_all [Token.endsHeader, Token.discards]
    rw [this] at he
    contradiction
  · simp [h, Token.endsHeader] at he
  · simp [h, Token.endsHeader] at he
  · simp [h, Token.endsHeader] at he
  · exact h

/-- Inside a body a token moves the depth and nothing else. -/
theorem step_inside (hd : s.depth ≠ 0) : s.step t = { s with depth := countBrace s.depth t } := by
  by_cases hc : t.token.isComment = true
  · rw [step_comment hc]
    cases ht : t.token <;> simp [ht, Token.isComment] at hc
    simp [countPair, ht]
  · have hs : s.step t = s.stepInside t := by simp [step, hc, hd]
    rw [hs]
    unfold stepInside
    split
    · next h => simp [h, countPair]
    · next h => simp [h, countPair]
    · next h1 h2 => rw [countBrace, countPair, if_neg h1, if_neg h2]

/-- The scan of a token in front of others. -/
theorem run_cons (s : Scan) (t : Placed) (rest : List Placed) :
    s.run (t :: rest) = (s.step t).run rest := rfl

/-- Comments are passed over. -/
theorem run_comments {tokens : List Placed} (h : ∀ t ∈ tokens, t.token.isComment = true) :
    s.run tokens = s := by
  induction tokens with
  | nil => rfl
  | cons t rest ih =>
    rw [run_cons, step_comment (h t List.mem_cons_self)]
    exact ih fun u hu => h u (List.mem_cons_of_mem t hu)

/-- Tokens that end no header join it, comments aside. -/
theorem run_header (hd : s.depth = 0) {tokens : List Placed}
    (he : ∀ t ∈ tokens, t.token.endsHeader = false) :
    s.run tokens = { s with
      header := s.header ++ code tokens
      parens := tokens.foldl countParen s.parens } := by
  induction tokens generalizing s with
  | nil => simp [run, code]
  | cons t rest ih =>
    have hrest : ∀ u ∈ rest, u.token.endsHeader = false := fun u hu => he u (List.mem_cons_of_mem _ hu)
    rw [run_cons]
    by_cases hc : t.token.isComment = true
    · have hcount : countParen s.parens t = s.parens := by
        cases ht : t.token <;> simp [ht, Token.isComment] at hc
        simp [countPair, ht]
      rw [step_comment hc, ih hd hrest, List.foldl_cons, hcount]
      simp [code, hc]
    · have hc : t.token.isComment = false := by simpa using hc
      rw [step_of_not_endsHeader hd hc (he t List.mem_cons_self), ih (by simpa [keep] using hd) hrest]
      simp [keep, code, hc]

/-- Inside a body that the tokens do not close only the depth moves. -/
theorem run_inside {tokens : List Placed} (h : unopened .openBrace .closeBrace tokens < s.depth) :
    s.run tokens = { s with depth := tokens.foldl countBrace s.depth } := by
  induction tokens generalizing s with
  | nil => rfl
  | cons t rest ih =>
    have hd : s.depth ≠ 0 := by omega
    rw [run_cons, step_inside hd, ih]
    · rfl
    · show unopened .openBrace .closeBrace rest < countBrace s.depth t
      simp only [unopened] at h
      unfold countBrace countPair
      split_ifs at h ⊢ <;> omega

/-- A body with complete braces is passed over, and its closing brace ends it. -/
theorem run_body (hd : s.depth = 1) {tokens : List Placed} {close : Placed}
    (hm : Matched .openBrace .closeBrace tokens) (hc : close.token = .closeBrace) :
    s.run (tokens ++ [close]) = { s with depth := 0 } := by
  have hrun : s.run tokens = s := by
    rw [run_inside (by rw [hm.1, hd]; exact Nat.one_pos), hm.foldl_countPair (by simp)]
  rw [run_append, hrun]
  show s.step close = { s with depth := 0 }
  rw [step_inside (by simp [hd])]
  simp [countPair, hc, hd]

/-- A scan that handed further headers over before. -/
def behind (headers : List (List Placed)) (s : Scan) : Scan :=
  { s with headers := headers ++ s.headers }

/-- A step does not look at the headers that were handed over before. -/
theorem step_behind (headers : List (List Placed)) (s : Scan) (t : Placed) :
    (s.behind headers).step t = (s.step t).behind headers := by
  have hdepth : (s.behind headers).depth = s.depth := rfl
  have hinside : (s.behind headers).stepInside t = (s.stepInside t).behind headers := by
    unfold stepInside
    cases t.token <;> rfl
  have henter : (s.behind headers).enterBody = s.enterBody.behind headers := by
    simp [enterBody, behind]
  have houtside : (s.behind headers).stepOutside t = (s.stepOutside t).behind headers := by
    have hparens : (s.behind headers).parens = s.parens := rfl
    have hheader : (s.behind headers).header = s.header := rfl
    unfold stepOutside
    rw [hparens, hheader, henter]
    cases t.token with
    | semicolon => by_cases hp : s.parens = 0 <;> simp [hp] <;> rfl
    | openBrace =>
      by_cases hp : s.parens = 0
      · by_cases hl : isLinkageHeader s.header = true
        · simp [hp, hl]
          rfl
        · simp [hp, hl]
      · simp [hp]
        rfl
    | _ => rfl
  unfold step
  rw [hdepth, hinside, houtside]
  by_cases hcomment : t.token.isComment = true
  · rw [if_pos hcomment, if_pos hcomment]
  · rw [if_neg hcomment, if_neg hcomment]
    by_cases hd : s.depth = 0
    · rw [if_pos hd, if_pos hd]
    · rw [if_neg hd, if_neg hd]

/-- Headers that were handed over before do not matter. -/
theorem run_behind (headers : List (List Placed)) (s : Scan) (tokens : List Placed) :
    (s.behind headers).run tokens = (s.run tokens).behind headers := by
  induction tokens generalizing s with
  | nil => rfl
  | cons t rest ih => rw [run_cons, run_cons, step_behind, ih]

/-- Headers that were handed over stay. -/
theorem isPrefix_headers_run (s : Scan) (tokens : List Placed) :
    s.headers <+: (s.run tokens).headers := by
  have hs : behind s.headers { s with headers := [] } = s := by simp [behind]
  have hrun := run_behind s.headers { s with headers := [] } tokens
  rw [hs] at hrun
  rw [hrun]
  exact List.prefix_append _ _

/-- While more parentheses are open than the tokens close, no header is handed over. -/
theorem run_of_unopened_lt {tokens : List Placed} (hd : s.depth = 0)
    (h : unopened .openParen .closeParen tokens < s.parens) :
    (s.run tokens).headers = s.headers := by
  induction tokens generalizing s with
  | nil => rfl
  | cons t rest ih =>
    rw [run_cons]
    have hp : s.parens ≠ 0 := by omega
    simp only [unopened] at h
    by_cases hc : t.token.isComment = true
    · rw [step_comment hc]
      refine ih hd ?_
      cases ht : t.token <;> simp [ht, Token.isComment] at hc
      simpa [ht] using h
    · rcases step_outside_cases hd (by simpa using hc) with
        ⟨ht, hs⟩ | ⟨h0, -⟩ | ⟨h0, -⟩ | ⟨-, -, hs⟩
      · rw [hs]
        refine ih hd ?_
        unfold Token.discards at ht
        split at ht <;> simp_all [clear]
      · exact absurd h0 hp
      · exact absurd h0 hp
      · rw [hs]
        refine ih hd ?_
        show unopened .openParen .closeParen rest < countParen s.parens t
        unfold countParen countPair
        split_ifs at h ⊢ <;> omega

/-- All tokens that a scan holds or handed over have a property. -/
def Holds (P : Placed → Prop) (s : Scan) : Prop :=
  (∀ t ∈ s.header, P t) ∧ ∀ header ∈ s.headers, ∀ t ∈ header, P t

/-- A scan that takes a token with the property still holds only such tokens. -/
theorem holds_step {P : Placed → Prop} (hs : s.Holds P) (ht : P t) : (s.step t).Holds P := by
  by_cases hd : s.depth = 0
  · by_cases hc : t.token.isComment = true
    · rwa [step_comment hc]
    · rcases step_outside_cases hd (by simpa using hc) with
        ⟨-, h⟩ | ⟨-, -, h⟩ | ⟨-, -, -, h⟩ | ⟨-, -, h⟩ <;> rw [h]
      · exact ⟨by simp [clear], hs.2⟩
      · exact ⟨by simp [clear], hs.2⟩
      · refine ⟨by simp [enterBody], fun header hheader => ?_⟩
        rcases List.mem_append.mp hheader with hold | hnew
        · exact hs.2 header hold
        · rw [List.mem_singleton.mp hnew]
          exact hs.1
      · refine ⟨fun u hu => ?_, hs.2⟩
        rcases List.mem_append.mp hu with hold | hnew
        · exact hs.1 u hold
        · rw [List.mem_singleton.mp hnew]
          exact ht
  · rw [step_inside hd]
    exact hs

/-- A scan holds and hands over only what it took. -/
theorem holds_run {P : Placed → Prop} {tokens : List Placed} (hs : s.Holds P)
    (htokens : ∀ t ∈ tokens, P t) : (s.run tokens).Holds P := by
  induction tokens generalizing s with
  | nil => exact hs
  | cons t rest ih =>
    rw [run_cons]
    exact ih (holds_step hs (htokens t List.mem_cons_self))
      fun u hu => htokens u (List.mem_cons_of_mem t hu)

end Scan

/-- The tokens of a header are tokens of the text. -/
theorem mem_of_mem_blockHeaders {tokens header : List Placed} {t : Placed}
    (hheader : header ∈ blockHeaders tokens) (ht : t ∈ header) : t ∈ tokens := by
  have hstart : Scan.Holds (· ∈ tokens) {} := ⟨by simp, by simp⟩
  exact (Scan.holds_run hstart fun _ hu => hu).2 header hheader t ht

/-- Behind tokens that leave the scan at its start, the headers of further tokens follow. -/
theorem blockHeaders_append {a b : List Placed} (hdepth : (Scan.run {} a).depth = 0)
    (hparens : (Scan.run {} a).parens = 0) (hheader : (Scan.run {} a).header = []) :
    blockHeaders (a ++ b) = blockHeaders a ++ blockHeaders b := by
  have hstart : Scan.run {} a = Scan.behind (blockHeaders a) {} := by
    cases hs : Scan.run {} a with
    | mk depth parens header headers =>
      rw [hs] at hdepth hparens hheader
      simp only at hdepth hparens hheader
      simp [Scan.behind, blockHeaders, hs, hdepth, hparens, hheader]
  rw [blockHeaders, Scan.run_append, hstart, Scan.run_behind]
  rfl

end CBind.Source
