import CBind.Proofs.Source.Attachment
import CBind.Proofs.Source.Attributes
import CBind.Proofs.Source.Recovery

/-!
# Parentheses of a header close

The count of open parentheses of the scan is not the number of parentheses that the header leaves open: it
does not fall below zero, and it outlives a header that is discarded. But it never is less. So a header that is
looked at, which happens only at a count of zero, leaves no parenthesis open, whatever stood in front of it and
whatever closing parentheses it holds too many.

Removing attributes then finds the end of every group and removes whole groups only. As a group is complete in
itself, what is left closes all its parentheses as well, and no parameter list is found without its end.
-/

namespace CBind.Source

/-- Behind every opening parenthesis stands the closing one that matches it. -/
def EachParenCloses (tokens : List Placed) : Prop :=
  ∀ front opening behind, tokens = front ++ opening :: behind → opening.token = .openParen →
    ∃ inner closing rest, behind = inner ++ closing :: rest ∧ closing.token = .closeParen ∧
      Matched .openParen .closeParen inner ∧ splitAtClose 0 behind = some (inner, rest)

/-- A header with and without its attribute groups: each word that a parenthesis follows is gone with all up to the
parenthesis that matches, and every other token is kept. -/
inductive GroupsRemoved : List Placed → List Placed → Prop
  | nil : GroupsRemoved [] []
  | keep {header bare : List Placed} (t : Placed)
    (hkept : ∀ next, header.head? = some next → isAttributeWord t.token = true → next.token ≠ .openParen)
    (h : GroupsRemoved header bare) : GroupsRemoved (t :: header) (t :: bare)
  | group {header bare inner : List Placed} {word opening closing : Placed} (hword : isAttributeWord word.token = true)
    (hopening : opening.token = .openParen) (hinner : Matched .openParen .closeParen inner)
    (hclosing : closing.token = .closeParen) (h : GroupsRemoved header bare) :
    GroupsRemoved (word :: opening :: (inner ++ closing :: header)) bare

section Closing

variable {tokens header bare : List Placed}

/-- Nothing is left open exactly if each opening parenthesis has its match. -/
theorem eachParenCloses_of_unclosed (h : unclosed .openParen .closeParen tokens = 0) : EachParenCloses tokens := by
  rintro front opening behind rfl hopening
  rw [unclosed_append, unclosed] at h
  have hclosed : unopened .openParen .closeParen behind ≠ 0 := fun hzero => by
    rw [if_pos ⟨hopening, hzero⟩] at h
    omega
  cases hsplit : splitAtClose 0 behind with
  | none => exact absurd (Nat.le_zero.mp (splitAtClose_eq_none_iff.mp hsplit)) hclosed
  | some parts =>
    obtain ⟨inner, rest⟩ := parts
    obtain ⟨closing, heq, hclosing, hmatched⟩ := eq_of_splitAtClose hsplit
    exact ⟨inner, closing, rest, heq, hclosing, hmatched, rfl⟩

/-- Removing attribute groups from a header without open parentheses removes whole groups. -/
theorem groupsRemoved_stripAttributes (h : unclosed .openParen .closeParen header = 0) :
    GroupsRemoved header (stripAttributes header) := by
  fun_induction stripAttributes header with
  | case1 => exact .nil
  | case2 t => exact .keep t (by simp) .nil
  | case3 word opening rest hgroup hsplit =>
    -- The parenthesis of the group would be left open.
    rw [Bool.and_eq_true, beq_iff_eq] at hgroup
    obtain ⟨inner, closing, behind, -, -, -, hclosed⟩ :=
      eachParenCloses_of_unclosed h [word] opening rest rfl hgroup.2
    rw [hsplit] at hclosed
    contradiction
  | case4 word opening rest hgroup inner behind hsplit ih =>
    rw [Bool.and_eq_true, beq_iff_eq] at hgroup
    obtain ⟨closing, rfl, hclosing, hmatched⟩ := eq_of_splitAtClose hsplit
    refine .group hgroup.1 hgroup.2 hmatched hclosing (ih ?_)
    have hfront : word :: opening :: (inner ++ closing :: behind) =
        (word :: opening :: (inner ++ [closing])) ++ behind := by simp
    rw [hfront, unclosed_append] at h
    omega
  | case5 t next rest hkept ih =>
    refine .keep t ?_ (ih ?_)
    · rintro _ ⟨⟩ hword hnext
      exact hkept (by rw [hword, hnext]; rfl)
    · rw [unclosed] at h
      omega

/-- A group is complete in itself. -/
theorem matched_group {word opening closing : Placed} {inner : List Placed}
    (hword : isAttributeWord word.token = true) (hopening : opening.token = .openParen)
    (hinner : Matched .openParen .closeParen inner) (hclosing : closing.token = .closeParen) :
    Matched .openParen .closeParen (word :: opening :: (inner ++ [closing])) := by
  have hopen : word.token ≠ .openParen := ne_openParen_of_isAttributeWord hword
  have hclose : word.token ≠ .closeParen := by
    intro h
    rw [h] at hword
    contradiction
  constructor
  · simp [unopened, unopened_append, hopen, hclose, hopening, hclosing, hinner.1, hinner.2]
  · simp [unclosed, unclosed_append, unopened_append, unopened, hopen, hopening, hclosing, hinner.1, hinner.2]

/-- Removing groups changes nothing about the parentheses of the rest. -/
theorem GroupsRemoved.counts (h : GroupsRemoved header bare) :
    unopened .openParen .closeParen bare = unopened .openParen .closeParen header ∧
      unclosed .openParen .closeParen bare = unclosed .openParen .closeParen header := by
  induction h with
  | nil => exact ⟨rfl, rfl⟩
  | keep t _ _ ih => simp only [unopened, unclosed, ih.1, ih.2, and_self]
  | @group header bare inner word opening closing hword hopening hinner hclosing _ ih =>
    have hsplit : word :: opening :: (inner ++ closing :: header) =
        (word :: opening :: (inner ++ [closing])) ++ header := by simp
    obtain ⟨hunopened, hunclosed⟩ := matched_group hword hopening hinner hclosing
    rw [hsplit, unopened_append, unclosed_append, hunopened, hunclosed, ih.1, ih.2]
    omega

end Closing

namespace Scan

/-- The header leaves at most as many parentheses open as are counted, and headers that were handed over leave none. -/
structure CountsOpen (s : Scan) : Prop where
  header : unclosed .openParen .closeParen s.header ≤ s.parens
  headers : ∀ header ∈ s.headers, unclosed .openParen .closeParen header = 0

/-- A token that joins or discards the header keeps the count above what is open. -/
theorem CountsOpen.step {s : Scan} (hs : s.CountsOpen) (t : Placed) : (s.step t).CountsOpen := by
  by_cases hd : s.depth = 0
  · by_cases hc : t.token.isComment = true
    · rwa [step_comment hc]
    · rcases step_outside_cases hd (by simpa using hc) with
        ⟨-, h⟩ | ⟨-, -, h⟩ | ⟨hp, -, -, h⟩ | ⟨-, -, h⟩ <;> rw [h]
      · exact ⟨Nat.zero_le _, hs.headers⟩
      · exact ⟨Nat.zero_le _, hs.headers⟩
      · refine ⟨Nat.zero_le _, fun header hheader => ?_⟩
        rcases List.mem_append.mp hheader with hold | hnew
        · exact hs.headers header hold
        · rw [List.mem_singleton.mp hnew]
          exact Nat.le_zero.mp (Nat.le_trans hs.header (Nat.le_of_eq hp))
      · refine ⟨?_, hs.headers⟩
        show unclosed .openParen .closeParen (s.header ++ [t]) ≤ countParen s.parens t
        rw [unclosed_append_singleton (by simp)]
        have := hs.header
        unfold countParen countPair
        split_ifs <;> omega
  · rw [step_inside hd]
    exact ⟨hs.header, hs.headers⟩

/-- The count is never below what the header leaves open. -/
theorem countsOpen_run (tokens : List Placed) : (run {} tokens).CountsOpen := by
  induction tokens using List.reverseRecOn with
  | nil => exact ⟨Nat.le_refl _, fun header hheader => absurd hheader List.not_mem_nil⟩
  | append_singleton tokens t ih =>
    rw [run_append]
    exact ih.step t

end Scan

/-- A header in which each parenthesis closes is not given up for its parentheses. -/
theorem readDeclarator_ne_unbalanced {header : List Placed} (h : EachParenCloses header) (name : String) :
    readDeclarator header ≠ .error (.unbalanced name) := by
  unfold readDeclarator
  dsimp only
  split
  · simp
  · next opening behind hbehind =>
    split
    · simp
    · have hopening : opening.token = .openParen := by
        have hhead := List.head?_dropWhile_not (fun t : Placed => t.token != .openParen) header
        rw [hbehind] at hhead
        simpa using hhead
      have heq : header = header.takeWhile (·.token != .openParen) ++ opening :: behind := by
        rw [← hbehind, List.takeWhile_append_dropWhile]
      obtain ⟨inner, closing, rest, -, -, -, hsplit⟩ := h _ opening behind heq hopening
      rw [hsplit]
      dsimp only
      split <;> simp

/-- Only a header whose list does not close is worded as one with an unbalanced list. -/
theorem eq_unbalanced_of_toFault {fault : HeaderFault} {place location : Location} {function : Option String}
    {name : String} (h : fault.toFault place =
      .parse function location ("unbalanced parameter list in '" ++ name ++ "'")) :
    ∃ name, fault = .declarator (.unbalanced name) := by
  -- The texts differ within their first twelve characters.
  have hfront {message : String} (f : Option String)
      (hmessage : Fault.parse f place message =
        .parse function location ("unbalanced parameter list in '" ++ name ++ "'")) :
      message.toList.take 12 = "unbalanced p".toList := by
    injection hmessage with _ _ htext
    rw [htext]
    simp [String.toList_append]
  cases fault with
  | declarator fault =>
    cases fault with
    | unbalanced name => exact ⟨name, rfl⟩
    | _ =>
      have := hfront _ h
      simp [String.toList_append] at this
  | parameter name fault =>
    cases fault with
    | unsupported => cases h
    | _ =>
      have := hfront _ h
      simp [String.toList_append] at this
  | result => cases h
  | _ =>
    have := hfront _ h
    simp [String.toList_append] at this

/-- What a declarator gives is never a fault of the declarator itself. -/
theorem ne_declarator_of_readDefinition {location : Location} {above : List String} {d : Declarator}
    {fault : HeaderFault} (h : readDefinition location above d = .error fault) (cause : DeclaratorFault) :
    fault ≠ .declarator cause := by
  unfold readDefinition at h
  dsimp only at h
  repeat' split at h
  all_goals cases h
  all_goals simp

/-- A finding that gives a function up does so for another reason than an open list. -/
theorem exists_of_error_mem_readTokens {file : String} {tokens : List Placed} {fault : Fault}
    (h : .error fault ∈ readTokens file tokens) :
    ∃ place cause, fault = HeaderFault.toFault place cause ∧
      ∀ name, cause ≠ .declarator (.unbalanced name) := by
  obtain ⟨before, header, after, hheaders, hmem⟩ := Progress.mem_findings_foldl.mp h
  have hclosed : unclosed .openParen .closeParen header = 0 :=
    (Scan.countsOpen_run tokens).headers header (by rw [← blockHeaders, hheaders]; simp)
  have hbare : EachParenCloses (stripAttributes header) :=
    eachParenCloses_of_unclosed ((groupsRemoved_stripAttributes hclosed).counts.2.trans hclosed)
  rcases Progress.readBlock_cases ⟨_, []⟩ file tokens header with
    ⟨-, hp⟩ | ⟨first, rest, hstrip, ⟨cause, hread, hp⟩ | ⟨d, -, -, hp⟩ | ⟨d, -, -, hp⟩⟩
  · rw [hp] at hmem
    exact absurd hmem List.not_mem_nil
  · rw [hp] at hmem
    rw [hstrip] at hbare
    refine ⟨⟨file, first.line⟩, .declarator cause, by simpa using hmem, ?_⟩
    rintro name ⟨⟩
    exact readDeclarator_ne_unbalanced hbare name hread
  · rw [hp] at hmem
    exact ⟨⟨file, first.line⟩, .duplicate d.name, by simpa using hmem, by simp⟩
  · rw [hp] at hmem
    cases hread : readDefinition ⟨file, first.line⟩ (commentsAbove tokens (first.line - 1)) d with
    | ok descriptor =>
      rw [hread] at hmem
      simp [Except.mapError] at hmem
    | error cause =>
      rw [hread] at hmem
      exact ⟨⟨file, first.line⟩, cause, by simpa [Except.mapError] using hmem,
        fun name => ne_declarator_of_readDefinition hread (.unbalanced name)⟩

/-- Where the scan looks at a header, behind every opening parenthesis of it stands the closing one that matches it,
before and after attributes are removed; whole groups are removed and nothing else; and no function is ever given up
for an unbalanced list. -/
theorem examined_headers_close (file : String) (tokens : List Placed) :
    (∀ before brace, before ++ [brace] <+: tokens → brace.token = .openBrace →
      (Scan.run {} before).depth = 0 → (Scan.run {} before).parens = 0 →
      EachParenCloses (Scan.run {} before).header ∧
        EachParenCloses (stripAttributes (Scan.run {} before).header) ∧
        GroupsRemoved (Scan.run {} before).header (stripAttributes (Scan.run {} before).header)) ∧
    ∀ function location name,
      .error (.parse function location ("unbalanced parameter list in '" ++ name ++ "'")) ∉ readTokens file tokens := by
  constructor
  · intro before brace _ _ _ hparens
    have hclosed : unclosed .openParen .closeParen (Scan.run {} before).header = 0 :=
      Nat.le_zero.mp (Nat.le_trans (Scan.countsOpen_run before).header (Nat.le_of_eq hparens))
    have hremoved := groupsRemoved_stripAttributes hclosed
    exact ⟨eachParenCloses_of_unclosed hclosed,
      eachParenCloses_of_unclosed (hremoved.counts.2.trans hclosed), hremoved⟩
  · intro function location name hmem
    obtain ⟨place, cause, hfault, hcause⟩ := exists_of_error_mem_readTokens hmem
    obtain ⟨name, hunbalanced⟩ := eq_unbalanced_of_toFault hfault.symm
    exact hcause name hunbalanced

/-- A header that starts with the end of a discarded list and ends with an attribute group with a brace in it. -/
theorem examined_headers_close_behind_discarded :
    let tokens := tokenize ("#ifdef WIDE\nint f(long a,\n#else\n) int g(int (*h)(int), int b[(2)])\n" ++
      "__attribute__((x(\x7b), 1)) \x7b return 1; \x7d\n")
    let before := tokens.take 40
    let header := (Scan.run {} before).header
    (before ++ [⟨.openBrace, 5⟩] <+: tokens ∧ (Scan.run {} before).depth = 0 ∧ (Scan.run {} before).parens = 0 ∧
      header.head? = some ⟨.closeParen, 4⟩ ∧ header.length = (stripAttributes header).length + 11) ∧
      EachParenCloses header ∧ EachParenCloses (stripAttributes header) ∧
      GroupsRemoved header (stripAttributes header) := by
  intro tokens before header
  have hbrace : before ++ [⟨.openBrace, 5⟩] <+: tokens ∧ (Scan.run {} before).depth = 0 ∧
      (Scan.run {} before).parens = 0 ∧ header.head? = some ⟨.closeParen, 4⟩ ∧
      header.length = (stripAttributes header).length + 11 := by decide +kernel
  exact ⟨hbrace,
    (examined_headers_close "x.c" tokens).1 before _ hbrace.1 rfl hbrace.2.1 hbrace.2.2.1⟩

end CBind.Source
