import CBind.Proofs.Source.Reports
import CBind.Proofs.Source.Scanning
import Mathlib.Tactic.ByContra

/-!
# Which definitions are passed over

A header is written as a definition if, attributes aside, it is a row of specifiers, a name, a list
in parentheses, and perhaps further words, such as a macro that stands for an attribute. The block
behind it is meant to be reported: by a descriptor, or by a fault that names the function.

It is reported exactly if no parenthesis counts as open in front of the block, nothing stands behind
the list, and neither the name nor the list holds the word `typedef`. In all other cases the block
leaves no trace, although a header with further tokens behind its list has a fault of its own.
-/

namespace CBind.Source

/-- A header written as a definition, taken apart. -/
structure WrittenHeader where
  specifiers : List Placed
  word : Placed
  name : String
  opening : Placed
  inner : List Placed
  closing : Placed
  trailing : List Placed
  specifiers_ne_nil : specifiers ≠ []
  specifiers_plain : ∀ t ∈ specifiers,
    t.token ≠ .equals ∧ t.token ≠ .openParen ∧ t.token ≠ .ident "typedef"
  specifiers_untagged : ∀ t ∈ specifiers.getLast?,
    t.token ∉ [.ident "struct", .ident "union", .ident "enum"]
  word_eq : word.token = .ident name
  name_free : isReserved name = false
  opening_eq : opening.token = .openParen
  inner_matched : Matched .openParen .closeParen inner
  closing_eq : closing.token = .closeParen
  trailing_words : ∀ t ∈ trailing, t.token.name?.isSome

namespace WrittenHeader

variable (h : WrittenHeader)

/-- What stands in front of the list. -/
def front : List Placed :=
  h.specifiers ++ [h.word]

/-- The tokens of the header. -/
def tokens : List Placed :=
  h.front ++ h.opening :: (h.inner ++ h.closing :: h.trailing)

/-- The header ends with its list, and the word `typedef` stands nowhere in it. -/
def EndsAtList : Prop :=
  h.trailing = [] ∧ ∀ t ∈ h.word :: h.inner, t.token ≠ .ident "typedef"

/-- No parenthesis and no `=` stands in front of the list. -/
theorem ne_of_mem_front {t : Placed} (ht : t ∈ h.front) :
    t.token ≠ .openParen ∧ t.token ≠ .equals := by
  rcases List.mem_append.mp ht with ht | ht
  · exact ⟨(h.specifiers_plain t ht).2.1, (h.specifiers_plain t ht).1⟩
  · rw [List.mem_singleton.mp ht, h.word_eq]
    simp

/-- The front names the function. -/
theorem declaredName?_front : declaredName? h.front = some h.name := by
  simp [declaredName?, front, h.word_eq, Token.name?, Option.filter, h.name_free]

/-- The last token of the header stands behind the list, or closes it. -/
theorem getLast?_tokens : h.tokens.getLast? = some (h.trailing.getLast?.getD h.closing) := by
  rw [tokens, List.append_cons, ← List.append_assoc, List.getLast?_append, List.getLast?_cons,
    Option.some_or]

/-- The header ends with a closing parenthesis exactly if nothing stands behind the list. -/
theorem closes_iff : (h.tokens.getLast?.any (·.token == .closeParen)) = true ↔ h.trailing = [] := by
  rw [getLast?_tokens, Option.any_some, beq_iff_eq]
  cases htrailing : h.trailing.getLast? with
  | none => simpa [h.closing_eq] using List.getLast?_eq_none_iff.mp htrailing
  | some last =>
    have hword := h.trailing_words last (List.mem_of_getLast? htrailing)
    have htoken : last.token ≠ .closeParen := by
      intro htoken
      simp [htoken, Token.name?] at hword
    have hne : h.trailing ≠ [] := by
      rintro hnil
      simp [hnil] at htrailing
    simp [htoken, hne]

/-- The header is taken for a definition exactly if it ends with its list. -/
theorem looksLikeDefinition_iff : looksLikeDefinition h.tokens = true ↔ h.EndsAtList := by
  have hopen : h.tokens.any (·.token == .openParen) = true :=
    List.any_eq_true.mpr ⟨h.opening, by simp [tokens], by simp [h.opening_eq]⟩
  have hfront : h.tokens.takeWhile (·.token != .openParen) = h.front :=
    takeWhile_openParen (fun t ht => (h.ne_of_mem_front ht).1) h.opening_eq
  have hequals : h.front.any (·.token == .equals) = false := by
    rw [List.any_eq_false]
    exact fun t ht => by simpa using (h.ne_of_mem_front ht).2
  have hspecifiers : ∀ t ∈ h.specifiers, t.token ≠ .ident "typedef" := fun t ht =>
    (h.specifiers_plain t ht).2.2
  rw [looksLikeDefinition, hopen, hfront, hequals, Bool.true_and, Bool.and_eq_true, Bool.and_eq_true,
    h.closes_iff, EndsAtList, Bool.not_false, eq_self, and_true, Bool.not_eq_true', List.any_eq_false]
  refine and_congr_right fun htrailing => ?_
  simp only [tokens, front, htrailing, List.mem_append, List.mem_cons, List.not_mem_nil, or_false,
    beq_iff_eq]
  constructor
  · intro hall t ht
    refine hall t ?_
    rcases ht with rfl | ht
    · exact .inl (.inr rfl)
    · exact .inr (.inr (.inl ht))
  · rintro hall t ((ht | rfl) | rfl | ht | rfl)
    · exact hspecifiers t ht
    · exact hall _ (.inl rfl)
    · simp [h.opening_eq]
    · exact hall t (.inr ht)
    · simp [h.closing_eq]

/-- A header that ends with its list declares the function it names. -/
theorem readDeclarator_tokens (htrailing : h.trailing = []) :
    readDeclarator h.tokens = .ok ⟨h.specifiers, h.name, h.inner⟩ := by
  rw [tokens, htrailing, readDeclarator_append (fun t ht => (h.ne_of_mem_front ht).1)
    h.declaredName?_front h.opening_eq h.inner_matched h.closing_eq, front, List.dropLast_concat]

end WrittenHeader

/-- The findings of headers of a token sequence. -/
def findingsOf (file : String) (tokens : List Placed) (headers : List (List Placed)) : List Finding :=
  (headers.foldl (Progress.readBlock file tokens) {}).findings

/-- What an opening brace outside all braces hands over. -/
theorem headers_step_openBrace {s : Scan} {brace : Placed} (hd : s.depth = 0)
    (hbrace : brace.token = .openBrace) :
    (s.step brace).headers =
      if s.parens = 0 ∧ isLinkageHeader s.header = false then s.headers ++ [s.header]
      else s.headers := by
  have hstep : s.step brace = s.stepOutside brace := by simp [Scan.step, hbrace, Token.isComment, hd]
  rw [hstep, Scan.stepOutside, hbrace]
  by_cases hp : s.parens = 0
  · by_cases hl : isLinkageHeader s.header = true
    · simp [hp, hl, Scan.clear]
    · simp [hp, hl, Scan.enterBody]
  · simp [hp, Scan.keep]

section

variable {file : String} {tokens before : List Placed} {brace : Placed} {h : WrittenHeader}

/-- A block is reported by one finding that names the function. -/
def ReportedOnce (file : String) (tokens before : List Placed) (brace : Placed) (name : String) : Prop :=
  ∃ finding, findingsOf file tokens (blockHeaders (before ++ [brace])) =
      findingsOf file tokens (blockHeaders before) ++ [finding] ∧
    Finding.name? finding = some name

/-- A header that ends with its list is reported if no parenthesis counts as open. -/
theorem reportedOnce_of_endsAtList (hbrace : brace.token = .openBrace)
    (hdepth : (Scan.run {} before).depth = 0) (hparens : (Scan.run {} before).parens = 0)
    (hheader : stripAttributes (Scan.run {} before).header = h.tokens) (hends : h.EndsAtList) :
    ReportedOnce file tokens before brace h.name := by
  have hlooks : looksLikeDefinition (stripAttributes (Scan.run {} before).header) = true := by
    rw [hheader]
    exact h.looksLikeDefinition_iff.mpr hends
  have hheaders : blockHeaders (before ++ [brace]) =
      blockHeaders before ++ [(Scan.run {} before).header] := by
    rw [blockHeaders, Scan.run_append]
    exact (headers_step_openBrace hdepth hbrace).trans
      (if_pos ⟨hparens, isLinkageHeader_of_looksLikeDefinition hlooks⟩)
  have hread := h.readDeclarator_tokens hends.1
  rcases Progress.readBlock_cases ((blockHeaders before).foldl (Progress.readBlock file tokens) {})
      file tokens (Scan.run {} before).header with
    ⟨hnot, -⟩ | ⟨first, rest, hbare, hcases⟩
  · rw [hlooks] at hnot
    contradiction
  rw [hheader] at hbare
  rw [← hbare, hread] at hcases
  simp only [ReportedOnce, hheaders, findingsOf, List.foldl_append, List.foldl_cons, List.foldl_nil]
  rcases hcases with ⟨fault, hfault, -⟩ | ⟨d, hd, -, hblock⟩ | ⟨d, hd, -, hblock⟩
  · contradiction
  · cases hd
    rw [hblock]
    exact ⟨_, rfl, rfl⟩
  · cases hd
    rw [hblock]
    exact ⟨_, rfl, name?_mapError_readDefinition _⟩

/-- A header that goes on behind its list, or in front of which a parenthesis counts as open, leaves no
trace. -/
theorem findingsOf_of_not_endsAtList (hbrace : brace.token = .openBrace)
    (hdepth : (Scan.run {} before).depth = 0)
    (hheader : stripAttributes (Scan.run {} before).header = h.tokens)
    (hnot : ¬ ((Scan.run {} before).parens = 0 ∧ h.EndsAtList)) :
    findingsOf file tokens (blockHeaders (before ++ [brace])) =
      findingsOf file tokens (blockHeaders before) := by
  have hstep : blockHeaders (before ++ [brace]) = ((Scan.run {} before).step brace).headers := by
    rw [blockHeaders, Scan.run_append]
    rfl
  rw [hstep, headers_step_openBrace hdepth hbrace]
  split
  · next hhanded =>
    have hlooks : looksLikeDefinition (stripAttributes (Scan.run {} before).header) = false := by
      rw [hheader, ← Bool.not_eq_true, h.looksLikeDefinition_iff]
      exact fun hends => hnot ⟨hhanded.1, hends⟩
    rw [findingsOf, List.foldl_append, List.foldl_cons, List.foldl_nil, Progress.readBlock]
    simp only [hlooks, Bool.false_eq_true, ↓reduceIte]
    rfl
  · rfl

/-- A block with a header written as a definition is reported once and by name, exactly if the header
ends with its list and no parenthesis counts as open; otherwise it leaves no trace. What is reported
stays reported. -/
theorem reportedOnce_iff_endsAtList (file : String) (before after : List Placed) (brace : Placed)
    (h : WrittenHeader) (hbrace : brace.token = .openBrace) (hdepth : (Scan.run {} before).depth = 0)
    (hheader : stripAttributes (Scan.run {} before).header = h.tokens) :
    let tokens := before ++ brace :: after
    (ReportedOnce file tokens before brace h.name ↔
      (Scan.run {} before).parens = 0 ∧ h.EndsAtList) ∧
    (¬ ReportedOnce file tokens before brace h.name →
      findingsOf file tokens (blockHeaders (before ++ [brace])) =
        findingsOf file tokens (blockHeaders before)) ∧
    findingsOf file tokens (blockHeaders (before ++ [brace])) <+: readTokens file tokens := by
  intro tokens
  have hiff : ReportedOnce file tokens before brace h.name ↔
      (Scan.run {} before).parens = 0 ∧ h.EndsAtList := by
    refine ⟨fun hreported => ?_, fun ⟨hparens, hends⟩ =>
      reportedOnce_of_endsAtList hbrace hdepth hparens hheader hends⟩
    by_contra hnot
    obtain ⟨finding, hmore, -⟩ := hreported
    rw [findingsOf_of_not_endsAtList hbrace hdepth hheader hnot] at hmore
    simpa using congrArg List.length hmore
  refine ⟨hiff, fun hnot => ?_, ?_⟩
  · exact findingsOf_of_not_endsAtList hbrace hdepth hheader fun hboth => hnot (hiff.mpr hboth)
  · obtain ⟨later, hlater⟩ := Scan.isPrefix_headers_run (Scan.run {} (before ++ [brace])) after
    have hsplit : tokens = before ++ [brace] ++ after := List.append_cons before brace after
    have hheaders : blockHeaders tokens = blockHeaders (before ++ [brace]) ++ later := by
      rw [blockHeaders, blockHeaders, hlater, ← Scan.run_append, hsplit]
    rw [readTokens, hheaders, List.foldl_append]
    exact Progress.isPrefix_findings_foldl _ later

end

/-- The header `int name(int x)`, written on one line with words behind its list. -/
def intHeader (line : Nat) (name : String) (hname : isReserved name = false) (behind : List String) :
    WrittenHeader where
  specifiers := [⟨.ident "int", line⟩]
  word := ⟨.ident name, line⟩
  name := name
  opening := ⟨.openParen, line⟩
  inner := [⟨.ident "int", line⟩, ⟨.ident "x", line⟩]
  closing := ⟨.closeParen, line⟩
  trailing := behind.map (⟨.ident ·, line⟩)
  specifiers_ne_nil := by simp
  specifiers_plain := by simp
  specifiers_untagged := by simp
  word_eq := rfl
  name_free := hname
  opening_eq := rfl
  inner_matched := matched_of_forall_ne (by simp)
  closing_eq := rfl
  trailing_words := by simp [Token.name?]

/-- Of two functions that differ in a macro behind the list, the one without is reported. -/
theorem reportedOnce_without_macro :
    let tokens := tokenize ("int f(int x) NOINLINE \x7b return x; \x7d\n" ++
      "int g(int x) \x7b return x; \x7d\n")
    ¬ ReportedOnce "x.c" tokens (tokens.take 7) ⟨.openBrace, 1⟩ "f" ∧
      ReportedOnce "x.c" tokens (tokens.take 18) ⟨.openBrace, 2⟩ "g" := by
  intro tokens
  have hf := reportedOnce_iff_endsAtList "x.c" (tokens.take 7) (tokens.drop 8) ⟨.openBrace, 1⟩
    (intHeader 1 "f" (by decide) ["NOINLINE"]) rfl (by decide +kernel) (by decide +kernel)
  have hg := reportedOnce_iff_endsAtList "x.c" (tokens.take 18) (tokens.drop 19) ⟨.openBrace, 2⟩
    (intHeader 2 "g" (by decide) []) rfl (by decide +kernel) (by decide +kernel)
  rw [show tokens.take 7 ++ ⟨.openBrace, 1⟩ :: tokens.drop 8 = tokens by decide +kernel] at hf
  rw [show tokens.take 18 ++ ⟨.openBrace, 2⟩ :: tokens.drop 19 = tokens by decide +kernel] at hg
  have hends : (intHeader 2 "g" (by decide) []).EndsAtList := ⟨rfl, by simp [intHeader]⟩
  refine ⟨fun hreported => ?_, hg.1.mpr ⟨by decide +kernel, hends⟩⟩
  exact List.cons_ne_nil _ _ (hf.1.mp hreported).2.1

/-- A function with a macro behind its list is neither described nor reported, although its header is
written as a definition and its block stands outside all braces and parentheses. -/
theorem macro_behind_list_not_reported :
    let text := "int f(int x) NOINLINE \x7b return x; \x7d\n"
    let before := (tokenize text).take 7
    (Scan.run {} before).depth = 0 ∧ (Scan.run {} before).parens = 0 ∧
      (tokenize text)[7]? = some ⟨.openBrace, 1⟩ ∧
      stripAttributes (Scan.run {} before).header =
        (intHeader 1 "f" (by decide) ["NOINLINE"]).tokens ∧
      (readSource "x.c" text).descriptors = [] ∧ (readSource "x.c" text).diagnostics = [] := by
  decide +kernel

end CBind.Source
