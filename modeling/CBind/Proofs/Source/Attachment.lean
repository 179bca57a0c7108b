import CBind.Proofs.Source.CommentRuns
import CBind.Proofs.Source.Reports

/-!
# Directives attach to the function below them

A function has the annotations that the run of comment lines directly above its header asks for, where the
header starts at its first token behind attributes. No other comment matters: not one behind code, not one
beyond an empty line, not one of another function. Text with other comments on all other lines, and the same
tokens on the same lines otherwise, describes the function alike.

The line in front of a run is left alone as well. A comment put there would make the run longer.
-/

namespace CBind.Source

section Findings

variable {file : String} {tokens : List Placed} {defined : List String}

namespace Progress

/-- Every finding is what one of the headers gives behind those in front of it. -/
theorem mem_findings_foldl {headers : List (List Placed)} {finding : Finding} :
    finding ∈ (headers.foldl (readBlock file tokens) ⟨defined, []⟩).findings ↔
      ∃ before header after, headers = before ++ header :: after ∧
        finding ∈ ((⟨(before.foldl (readBlock file tokens) ⟨defined, []⟩).defined, []⟩ :
          Progress).readBlock file tokens header).findings := by
  induction headers generalizing defined with
  | nil => simp
  | cons header headers ih =>
    have hdefined (before : List (List Placed)) :
        (before.foldl (readBlock file tokens)
          ⟨((⟨defined, []⟩ : Progress).readBlock file tokens header).defined, []⟩).defined =
        ((header :: before).foldl (readBlock file tokens) ⟨defined, []⟩).defined := by
      rw [List.foldl_cons, foldl_readBlock_eq ((⟨defined, []⟩ : Progress).readBlock file tokens header)]
    rw [findings_foldl_cons, List.mem_append, ih]
    constructor
    · rintro (hfirst | ⟨before, later, after, rfl, hlater⟩)
      · exact ⟨[], header, headers, rfl, hfirst⟩
      · exact ⟨header :: before, later, after, rfl, by rwa [← hdefined]⟩
    · rintro ⟨before, later, after, hheaders, hlater⟩
      cases before with
      | nil =>
        obtain ⟨rfl, -⟩ := List.cons.inj hheaders
        exact .inl hlater
      | cons first before =>
        obtain ⟨rfl, hrest⟩ := List.cons.inj hheaders
        exact .inr ⟨before, later, after, hrest, by rwa [hdefined]⟩

/-- A header gives a descriptor exactly if it reads as a definition of a new name. -/
theorem ok_mem_readBlock {header : List Placed} {d : Descriptor} :
    .ok d ∈ ((⟨defined, []⟩ : Progress).readBlock file tokens header).findings ↔
      ∃ first rest definition, stripAttributes header = first :: rest ∧ definition.name ∉ defined ∧
        Reads ⟨file, first.line⟩ (commentsAbove tokens (first.line - 1)) (first :: rest) definition d := by
  constructor
  · intro h
    by_cases hlooks : looksLikeDefinition (stripAttributes header) = true
    · rcases readBlock_cases ⟨defined, []⟩ file tokens header with
        ⟨hnot, -⟩ | ⟨first, rest, hbare, hcases⟩
      · rw [hlooks] at hnot
        contradiction
      rcases hcases with
        ⟨fault, -, hblock⟩ | ⟨definition, -, -, hblock⟩ | ⟨definition, hread, hnew, hblock⟩
      · simp [hblock] at h
      · simp [hblock] at h
      · rw [hblock, List.nil_append, List.mem_singleton] at h
        refine ⟨first, rest, definition, hbare, hnew, hbare ▸ hlooks, hread, ?_⟩
        cases hgives : readDefinition ⟨file, first.line⟩ (commentsAbove tokens (first.line - 1)) definition with
        | ok descriptor =>
          rw [hgives] at h
          exact congrArg Except.ok (Except.ok.inj h).symm
        | error fault =>
          rw [hgives] at h
          contradiction
    · rw [readBlock, if_neg hlooks] at h
      contradiction
  · rintro ⟨first, rest, definition, hbare, hnew, hreads⟩
    rw [readBlock_of_reads hbare hreads hnew]
    exact List.mem_singleton_self _

end Progress

/-- The described functions are those whose headers read as definitions of names that no header in front of
them asks for. -/
theorem ok_mem_readTokens {d : Descriptor} :
    .ok d ∈ readTokens file tokens ↔
      ∃ before header after first rest definition, blockHeaders tokens = before ++ header :: after ∧
        stripAttributes header = first :: rest ∧
        (∀ earlier ∈ before, blockName? earlier ≠ some definition.name) ∧
        Reads ⟨file, first.line⟩ (commentsAbove tokens (first.line - 1)) (first :: rest) definition d := by
  have hnew (before : List (List Placed)) (name : String) :
      name ∉ (before.foldl (Progress.readBlock file tokens) ⟨[], []⟩).defined ↔
        ∀ earlier ∈ before, blockName? earlier ≠ some name := by
    rw [show (before.foldl (Progress.readBlock file tokens) ⟨[], []⟩).defined =
      definedNames file tokens before from rfl, mem_definedNames]
    simp
  rw [readTokens, show ({} : Progress) = ⟨[], []⟩ from rfl, Progress.mem_findings_foldl]
  constructor
  · rintro ⟨before, header, after, hheaders, hok⟩
    obtain ⟨first, rest, definition, hbare, hname, hreads⟩ := Progress.ok_mem_readBlock.mp hok
    exact ⟨before, header, after, first, rest, definition, hheaders, hbare, (hnew before _).mp hname, hreads⟩
  · rintro ⟨before, header, after, first, rest, definition, hheaders, hbare, hname, hreads⟩
    exact ⟨before, header, after, hheaders,
      Progress.ok_mem_readBlock.mpr ⟨first, rest, definition, hbare, (hnew before _).mpr hname, hreads⟩⟩

end Findings

/-- The descriptors of a text are its findings that are no faults. -/
theorem mem_descriptors {file text : String} {d : Descriptor} :
    d ∈ (readSource file text).descriptors ↔ .ok d ∈ readTokens file (tokenize text) := by
  rw [Reading.descriptors, List.mem_filterMap]
  constructor
  · rintro ⟨finding, hfinding, hd⟩
    cases finding with
    | ok descriptor =>
      obtain rfl := Option.some.inj hd
      exact hfinding
    | error fault => contradiction
  · exact fun h => ⟨.ok d, h, rfl⟩

/-- A definition is described with the annotations that the comments above it are read as. -/
theorem Reads.annotations {location : Location} {above : List String} {header : List Placed}
    {definition : Declarator} {d : Descriptor} (h : Reads location above header definition d) :
    readAnnotations above = .ok d.annotations := by
  have hgives := h.gives
  unfold readDefinition at hgives
  dsimp only at hgives
  repeat' split at hgives
  all_goals cases hgives
  assumption

/-- Comments that are read alike make the same of a definition. -/
theorem Reads.congr {location : Location} {above above' : List String} {header : List Placed}
    {definition : Declarator} {d : Descriptor} (h : Reads location above header definition d)
    (habove : readAnnotations above = readAnnotations above') : Reads location above' header definition d :=
  ⟨h.looks, h.declares, readDefinition_congr habove location definition ▸ h.gives⟩

/-- A header of a text reads as the definition of a described function: the name is new, and the directives
are those of the run of comment lines above the first token behind attributes. -/
def Attached (file text : String) (ls : List Lexeme) (d : Descriptor) : Prop :=
  ∃ before header after first rest definition top,
    blockHeaders (tokenize text) = before ++ header :: after ∧
    stripAttributes header = first :: rest ∧
    (∀ earlier ∈ before, blockName? earlier ≠ some definition.name) ∧
    IsRun ls top first.line ∧
    Reads ⟨file, first.line⟩ (runTexts ls top first.line) (first :: rest) definition d

section Texts

variable {file text other : String} {ls : List Lexeme}

/-- The tokens of a text are those of the lexemes that it splits into. -/
theorem tokenize_of_splits (h : Splits true text.toList ls) : tokenize text = tokensFrom 1 ls := by
  rw [tokenize, lexemes, ← splits_iff.mp h]

/-- Code stands on lines of code. -/
theorem hasCode_code (tokens : List Placed) (n : Nat) : hasCode (code tokens) n = hasCode tokens n := by
  rw [hasCode, hasCode, code, List.any_filter]
  refine congrArg tokens.any (funext fun t => ?_)
  rw [← Bool.and_assoc, Bool.and_self]

/-- What a header reads as points at its first token. -/
theorem Reads.location {place : Location} {above : List String} {header : List Placed}
    {definition : Declarator} {d : Descriptor} (h : Reads place above header definition d) :
    d.location = place :=
  (readDefinition_eq_ok h.gives).2.1

/-- The described functions of a text are those that its headers define with the directives of their runs. -/
theorem mem_descriptors_iff_attached (h : Splits true text.toList ls) {d : Descriptor} :
    d ∈ (readSource file text).descriptors ↔ Attached file text ls d := by
  have hline {before after : List (List Placed)} {header rest : List Placed} {first : Placed}
      (hheaders : blockHeaders (tokenize text) = before ++ header :: after)
      (hbare : stripAttributes header = first :: rest) : 1 ≤ first.line := by
    have hfirst : first ∈ header := mem_of_mem_stripAttributes (hbare ▸ List.mem_cons_self)
    exact one_le_line_of_mem_tokenize (mem_of_mem_blockHeaders (by rw [hheaders]; simp) hfirst)
  rw [mem_descriptors, ok_mem_readTokens]
  constructor
  · rintro ⟨before, header, after, first, rest, definition, hheaders, hbare, hnew, hreads⟩
    obtain ⟨top, hrun⟩ := exists_isRun ls (hline hheaders hbare)
    rw [tokenize_of_splits h] at hreads
    exact ⟨before, header, after, first, rest, definition, top, hheaders, hbare, hnew, hrun,
      hreads.congr hrun.readAnnotations_eq⟩
  · rintro ⟨before, header, after, first, rest, definition, top, hheaders, hbare, hnew, hrun, hreads⟩
    refine ⟨before, header, after, first, rest, definition, hheaders, hbare, hnew, ?_⟩
    rw [tokenize_of_splits h]
    exact hreads.congr hrun.readAnnotations_eq.symm

/-- The run above a line is the same in another text with the same code lines, if the comments of the run and
of the line in front of it are the same. -/
theorem IsRun.congr {ls' : List Lexeme} {top line : Nat} (h : IsRun ls top line)
    (hcode : ∀ n, CodeStarts ls' n ↔ CodeStarts ls n)
    (hnotes : ∀ n, top ≤ n + 1 → n < line → notesOn ls' n = notesOn ls n) : IsRun ls' top line := by
  have honly (n : Nat) (htop : top ≤ n + 1) (hn : n < line) : CommentsOnly ls' n ↔ CommentsOnly ls n :=
    ⟨fun h => ⟨hnotes n htop hn ▸ h.comment, mt (hcode n).mpr h.alone⟩,
      fun h => ⟨(hnotes n htop hn).symm ▸ h.comment, mt (hcode n).mp h.alone⟩⟩
  have hbounds := h.bounds
  refine ⟨hbounds, fun n htop hn => (honly n (by omega) hn).mpr (h.each n htop hn), ?_⟩
  exact mt (honly (top - 1) (by omega) (by omega)).mp h.longest

/-- A function is attached in another text with the same code, if the comments of its run and of the line in
front of it are the same. -/
theorem Attached.congr {ls' : List Lexeme} {d : Descriptor} {top : Nat} (h : Attached file text ls d)
    (hheaders : blockHeaders (tokenize other) = blockHeaders (tokenize text))
    (hcode : ∀ n, CodeStarts ls' n ↔ CodeStarts ls n) (hrun : IsRun ls top d.location.line)
    (hnotes : ∀ n, top ≤ n + 1 → n < d.location.line → notesOn ls' n = notesOn ls n) :
    Attached file other ls' d := by
  obtain ⟨before, header, after, first, rest, definition, top', hblocks, hbare, hnew, hrun', hreads⟩ := h
  have hline : d.location.line = first.line := by rw [hreads.location]
  rw [hline] at hrun hnotes
  obtain rfl := hrun'.unique hrun
  have htexts : runTexts ls' top' first.line = runTexts ls top' first.line := by
    refine List.map_congr_left fun n hn => ?_
    have := List.mem_range'_1.mp hn
    rw [hnotes n (by omega) (by omega)]
  refine ⟨before, header, after, first, rest, definition, top', hheaders.trans hblocks, hbare, hnew,
    hrun.congr hcode hnotes, ?_⟩
  rwa [htexts]

end Texts

/-- Directives attach to the right function. A function is described exactly if a header defines it, by a new
name, with the directives of the run of comment lines above the line of its first token behind attributes.
There is one such run, and its texts are read as the annotations of the function. In another text with the
same code on the same lines the function is described alike, whatever the comments are on lines that are
neither in the run nor directly above it. -/
theorem descriptors_attach (file text : String) {ls : List Lexeme} (h : Splits true text.toList ls) :
    (∀ d, d ∈ (readSource file text).descriptors ↔ Attached file text ls d) ∧
    (∀ d ∈ (readSource file text).descriptors, (∃! top, IsRun ls top d.location.line) ∧
      ∀ top, IsRun ls top d.location.line →
        readAnnotations (runTexts ls top d.location.line) = .ok d.annotations) ∧
    ∀ (other : String) (ls' : List Lexeme), Splits true other.toList ls' →
      code (tokenize other) = code (tokenize text) →
      ∀ (d : Descriptor) (top : Nat), IsRun ls top d.location.line →
        (∀ n, top ≤ n + 1 → n < d.location.line → notesOn ls' n = notesOn ls n) →
        (d ∈ (readSource file other).descriptors ↔ d ∈ (readSource file text).descriptors) := by
  refine ⟨fun d => mem_descriptors_iff_attached h, fun d hd => ?_, ?_⟩
  · obtain ⟨before, header, after, first, rest, definition, top, -, -, -, hrun, hreads⟩ :=
      (mem_descriptors_iff_attached h).mp hd
    have hline : d.location.line = first.line := by rw [hreads.location]
    rw [hline]
    refine ⟨⟨top, hrun, fun top' hrun' => hrun'.unique hrun⟩, fun top' hrun' => ?_⟩
    obtain rfl := hrun'.unique hrun
    exact hreads.annotations
  · intro other ls' hother hcode d top hrun hnotes
    have hheaders : blockHeaders (tokenize other) = blockHeaders (tokenize text) := by
      rw [blockHeaders, blockHeaders, ← run_code, hcode, run_code]
    have hlines (n : Nat) : CodeStarts ls' n ↔ CodeStarts ls n := by
      rw [CodeStarts, CodeStarts, ← hasCode_tokensFrom, ← hasCode_tokensFrom, ← tokenize_of_splits h,
        ← tokenize_of_splits hother, ← hasCode_code, hcode, hasCode_code]
    rw [mem_descriptors_iff_attached h, mem_descriptors_iff_attached hother]
    exact ⟨fun hd => hd.congr hheaders.symm (fun n => (hlines n).symm) (hrun.congr hlines hnotes)
      fun n htop hn => (hnotes n htop hn).symm, fun hd => hd.congr hheaders hlines hrun hnotes⟩

/-- A function with a directive in two comments on one line keeps it while comments behind code say other
things. -/
theorem descriptors_attach_trailing_comments :
    let text := "int a; // @async\n\n/* f\n * @cost */ // high\nint f(int x) \x7b return x; \x7d // @cost low\n"
    let other := "int a; // @sync\n\n/* f\n * @cost */ // high\nint f(int x) \x7b return x; \x7d /* @async */\n"
    (readSource "x.c" text).descriptors.map (fun d => (d.name, d.annotations)) = [("f", ⟨.sync, .high⟩)] ∧
      IsRun (lexemes text.toList) 3 5 ∧
      ∀ d ∈ (readSource "x.c" text).descriptors, d ∈ (readSource "x.c" other).descriptors := by
  intro text other
  have hrun : IsRun (lexemes text.toList) 3 5 := by
    refine ⟨by decide, fun n htop hn => ?_, ?_⟩
    · obtain rfl | rfl : n = 3 ∨ n = 4 := by omega
      · exact commentsOnly_iff.mpr ⟨by decide +kernel, by decide +kernel⟩
      · exact commentsOnly_iff.mpr ⟨by decide +kernel, by decide +kernel⟩
    · rw [commentsOnly_iff]
      decide +kernel
  have hline : ∀ d ∈ (readSource "x.c" text).descriptors, d.location.line = 5 := by decide +kernel
  have hcode : code (tokenize other) = code (tokenize text) := by decide +kernel
  have hnotes : ∀ n, 3 ≤ n + 1 → n < 5 →
      notesOn (lexemes other.toList) n = notesOn (lexemes text.toList) n := by
    intro n htop hn
    obtain rfl | rfl | rfl : n = 2 ∨ n = 3 ∨ n = 4 := by omega
    all_goals decide +kernel
  refine ⟨by decide +kernel, hrun, fun d hd => ?_⟩
  have hsplits (s : String) : Splits true s.toList (lexemes s.toList) := splits_iff.mpr rfl
  exact ((descriptors_attach "x.c" text (hsplits text)).2.2 other _ (hsplits other) hcode d 3
    (hline d hd ▸ hrun) (hline d hd ▸ hnotes)).mpr hd

end CBind.Source
