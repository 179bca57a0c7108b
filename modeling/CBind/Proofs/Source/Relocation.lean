import CBind.Proofs.Source.Findings
import CBind.Proofs.Source.Scanning
import CBind.Source.Reading

/-!
# What a header says does not depend on where it stands

Finding headers, taking them apart, reading their parameters and reading their types look at tokens
only, not at the lines they stand on. A map that keeps every token may therefore be applied before or
after each of these steps, and what a declarator gives is the same. Only the location of a finding is
taken from a line.
-/

namespace CBind.Source

/-- A map of placed tokens that moves them without changing them. -/
def KeepsTokens (f : Placed → Placed) : Prop :=
  ∀ t, (f t).token = t.token

/-- Move the tokens of a declarator. -/
def Declarator.move (f : Placed → Placed) (d : Declarator) : Declarator :=
  ⟨d.result.map f, d.name, d.inner.map f⟩

/-- Move what a scan holds. -/
def Scan.move (f : Placed → Placed) (s : Scan) : Scan :=
  { s with header := s.header.map f, headers := s.headers.map (List.map f) }

section

variable {f : Placed → Placed}

/-- Whatever is read off the token is read off the moved token. -/
theorem KeepsTokens.comp {α : Type} (hf : KeepsTokens f) (p : Token → α) :
    (fun t : Placed => p t.token) ∘ f = fun t => p t.token := by
  funext t
  exact congrArg p (hf t)

/-- A matching parenthesis is found in moved tokens where it was. -/
theorem splitAtClose_map (hf : KeepsTokens f) (depth : Nat) (tokens : List Placed) :
    splitAtClose depth (tokens.map f) =
      (splitAtClose depth tokens).map fun p => (p.1.map f, p.2.map f) := by
  induction tokens generalizing depth with
  | nil => rfl
  | cons t rest ih =>
    have hcons (r : Option (List Placed × List Placed)) :
        consSplit (f t) (r.map fun p => (p.1.map f, p.2.map f)) =
          (consSplit t r).map fun p => (p.1.map f, p.2.map f) := by
      cases r <;> rfl
    rw [List.map_cons]
    unfold splitAtClose
    rw [hf t]
    split
    · rw [ih, hcons]
    · cases depth with
      | zero => rfl
      | succ d => exact (congrArg (consSplit (f t)) (ih d)).trans (hcons _)
    · rw [ih, hcons]

/-- Moved attributes are removed as the attributes are. -/
theorem stripAttributes_map (hf : KeepsTokens f) (header : List Placed) :
    stripAttributes (header.map f) = (stripAttributes header).map f := by
  fun_induction stripAttributes header with
  | case1 => simp [stripAttributes]
  | case2 t => simp [stripAttributes]
  | case3 t next rest h hnone =>
    rw [List.map_cons, List.map_cons, stripAttributes, if_pos (by rwa [hf t, hf next])]
    split
    · rfl
    · next hsome =>
      rw [splitAtClose_map hf, hnone] at hsome
      contradiction
  | case4 t next rest h inner behind hsome ih =>
    rw [List.map_cons, List.map_cons, stripAttributes, if_pos (by rwa [hf t, hf next])]
    have hsplit : splitAtClose 0 (rest.map f) = some (inner.map f, behind.map f) := by
      rw [splitAtClose_map hf, hsome]
      rfl
    split
    · next hnone =>
      rw [hsplit] at hnone
      contradiction
    · next behind' hsome' =>
      rw [hsplit] at hsome'
      simp only [Option.some.injEq, Prod.mk.injEq] at hsome'
      rw [← hsome'.2, ih]
  | case5 t next rest h ih =>
    rw [List.map_cons, List.map_cons, stripAttributes, if_neg (by rwa [hf t, hf next])]
    rw [← List.map_cons, ih]
    rfl

/-- Pairs of moved tokens are complete if those of the tokens are. -/
theorem matched_map (hf : KeepsTokens f) {opening closing : Token} {tokens : List Placed} :
    Matched opening closing (tokens.map f) ↔ Matched opening closing tokens := by
  have hunopened (ts : List Placed) :
      unopened opening closing (ts.map f) = unopened opening closing ts := by
    induction ts with
    | nil => rfl
    | cons t rest ih => simp only [List.map_cons, unopened, hf t, ih]
  have hunclosed (ts : List Placed) :
      unclosed opening closing (ts.map f) = unclosed opening closing ts := by
    induction ts with
    | nil => rfl
    | cons t rest ih => simp only [List.map_cons, unclosed, hf t, hunopened, ih]
  rw [Matched, Matched, hunopened, hunclosed]

/-- A moved header looks like a definition if the header does. -/
theorem looksLikeDefinition_map (hf : KeepsTokens f) (header : List Placed) :
    looksLikeDefinition (header.map f) = looksLikeDefinition header := by
  have htoken (t : Placed) : (f t).token = t.token := hf t
  simp only [looksLikeDefinition, List.any_map, List.getLast?_map, List.takeWhile_map,
    hf.comp (· == .openParen), hf.comp (· == .equals), hf.comp (· == .ident "typedef"),
    hf.comp (· != .openParen), Option.any_map, htoken]

/-- Moved tokens in front of a list name the same function. -/
theorem declaredName?_map (hf : KeepsTokens f) (front : List Placed) :
    declaredName? (front.map f) = declaredName? front := by
  simp only [declaredName?, List.getLast?_map, Option.bind_map, hf.comp Token.name?]

/-- A moved header is taken apart as the header is. -/
theorem readDeclarator_map (hf : KeepsTokens f) (header : List Placed) :
    readDeclarator (header.map f) = (readDeclarator header).map (Declarator.move f) := by
  simp only [readDeclarator, List.takeWhile_map, List.dropWhile_map, hf.comp (· != .openParen),
    declaredName?_map hf]
  cases header.dropWhile (·.token != .openParen) with
  | nil => rfl
  | cons first behind =>
    simp only [List.map_cons]
    cases declaredName? (header.takeWhile (·.token != .openParen)) with
    | none => rfl
    | some name =>
      simp only [splitAtClose_map hf]
      cases splitAtClose 0 behind with
      | none => rfl
      | some p =>
        simp only [Option.map_some, List.isEmpty_map]
        split
        · simp [Except.map, Declarator.move]
        · rfl

/-- A moved header asks for the name of the header. -/
theorem blockName?_map (hf : KeepsTokens f) (header : List Placed) :
    blockName? (header.map f) = blockName? header := by
  rw [blockName?, stripAttributes_map hf, looksLikeDefinition_map hf, readDeclarator_map hf, blockName?]
  cases readDeclarator (stripAttributes header) <;> rfl

/-- Moved tokens are separated at the same commas. -/
theorem splitAtCommas_map (hf : KeepsTokens f) (depth : Nat) (group tokens : List Placed) :
    splitAtCommas depth (group.map f) (tokens.map f) =
      (splitAtCommas depth group tokens).map (List.map f) := by
  induction tokens generalizing depth group with
  | nil => rfl
  | cons t rest ih =>
    have happend : group.map f ++ [f t] = (group ++ [t]).map f := by simp
    rw [List.map_cons]
    unfold splitAtCommas
    rw [hf t, happend]
    split
    · exact ih _ _
    · exact ih _ _
    · exact ih _ _
    · exact ih _ _
    · split
      · exact congrArg (List.map f group :: ·) (ih 0 [])
      · exact ih _ _
    · exact ih _ _

/-- A moved list has the moved groups. -/
theorem parameterGroups_map (hf : KeepsTokens f) (inner : List Placed) :
    parameterGroups (inner.map f) = (parameterGroups inner).map (List.map f) := by
  rw [parameterGroups, parameterGroups, List.isEmpty_map]
  split
  · rfl
  · exact splitAtCommas_map hf 0 [] inner

/-- A moved list is the void list if the list is. -/
theorem isVoidList_map (hf : KeepsTokens f) (groups : List (List Placed)) :
    isVoidList (groups.map (List.map f)) = isVoidList groups := by
  match groups with
  | [] => rfl
  | [[]] => rfl
  | [[t]] => simp only [List.map_cons, List.map_nil, isVoidList, hf t]
  | [_ :: _ :: _] => rfl
  | [] :: _ :: _ => rfl
  | [_] :: _ :: _ => rfl
  | (_ :: _ :: _) :: _ :: _ => rfl

/-- Moved bracket groups are peeled off as the groups are. -/
theorem peelBrackets_map (hf : KeepsTokens f) (reversed : List Placed) (count : Nat) :
    peelBrackets (reversed.map f) count =
      (peelBrackets reversed count).map fun p => (p.1.map f, p.2) := by
  fun_induction peelBrackets reversed count with
  | case1 count => simp [peelBrackets]
  | case2 count t rest h hnone =>
    rw [List.map_cons, peelBrackets, if_pos (by rwa [hf t])]
    split
    · rfl
    · next hcons =>
      rw [List.dropWhile_map, hf.comp (· != .openBracket), hnone] at hcons
      contradiction
  | case3 count t rest h open' remaining hcons ih =>
    rw [List.map_cons, peelBrackets, if_pos (by rwa [hf t])]
    have hdrop : (rest.map f).dropWhile (·.token != .openBracket) = f open' :: remaining.map f := by
      rw [List.dropWhile_map, hf.comp (· != .openBracket), hcons]
      rfl
    split
    · next hnil =>
      rw [hdrop] at hnil
      contradiction
    · next hcons' =>
      rw [hdrop] at hcons'
      simp only [List.cons.injEq] at hcons'
      rw [← hcons'.2, ih]
  | case4 count t rest h =>
    rw [List.map_cons, peelBrackets, if_neg (by rwa [hf t])]
    rfl

/-- The spelling of moved tokens. -/
theorem spellings_map (hf : KeepsTokens f) (tokens : List Placed) :
    (tokens.map f).map (·.token.spelling) = tokens.map (·.token.spelling) := by
  rw [List.map_map, hf.comp Token.spelling]

/-- A moved parameter has the name of the parameter. -/
theorem parameterName?_map (hf : KeepsTokens f) (tokens : List Placed) :
    parameterName? (tokens.map f) = parameterName? tokens := by
  simp only [parameterName?, List.getLast?_map, Option.bind_map, hf.comp Token.name?,
    ← List.map_dropLast, spellings_map hf]

/-- A moved parameter is read as the parameter is. -/
theorem readParameter_map (hf : KeepsTokens f) (tokens : List Placed) :
    readParameter (tokens.map f) = readParameter tokens := by
  simp only [readParameter, List.isEmpty_map, List.any_map, hf.comp (· == .ellipsis),
    hf.comp (· == .openParen), spellings_map hf, ← List.map_reverse, peelBrackets_map hf]
  cases peelBrackets tokens.reverse 0 with
  | none => rfl
  | some p =>
    simp only [Option.map_some, ← List.map_reverse, parameterName?_map hf, ← List.map_dropLast]
    by_cases hname : (parameterName? p.1.reverse).isSome = true
    · simp only [hname, ↓reduceIte, spellings_map hf]
    · simp only [hname, Bool.false_eq_true, ↓reduceIte, spellings_map hf]

/-- Moved parameters are read as the parameters are. -/
theorem readParameters_map (hf : KeepsTokens f) (groups : List (List Placed)) :
    readParameters (groups.map (List.map f)) = readParameters groups := by
  induction groups with
  | nil => rfl
  | cons group rest ih => rw [List.map_cons, readParameters, readParameters, readParameter_map hf, ih]

/-- A moved declarator declares what the declarator does. -/
theorem readDefinition_move (hf : KeepsTokens f) (location : Location) (above : List String)
    (d : Declarator) : readDefinition location above (d.move f) = readDefinition location above d := by
  simp only [readDefinition, Declarator.move, resultWords, spellings_map hf,
    parameterGroups_map hf, isVoidList_map hf, readParameters_map hf]
  rfl

/-- Moved tokens make a linkage header if the tokens do. -/
theorem isLinkageHeader_map (hf : KeepsTokens f) (header : List Placed) :
    isLinkageHeader (header.map f) = isLinkageHeader header := by
  match header with
  | [] => rfl
  | [_] => rfl
  | [word, language] => simp only [List.map_cons, List.map_nil, isLinkageHeader, hf word, hf language]
  | _ :: _ :: _ :: _ => rfl

/-- A step outside all braces on a moved token does what the step on the token does. -/
theorem Scan.stepOutside_move (hf : KeepsTokens f) (s : Scan) (t : Placed) :
    (s.move f).stepOutside (f t) = (s.stepOutside t).move f := by
  have hlinkage : isLinkageHeader (s.move f).header = isLinkageHeader s.header :=
    isLinkageHeader_map hf s.header
  have hparens : (s.move f).parens = s.parens := rfl
  have hkeep : (s.move f).keep (f t) = (s.keep t).move f := by simp [keep, move]
  have henter : (s.move f).enterBody = s.enterBody.move f := by simp [enterBody, move]
  unfold stepOutside
  rw [hf t, hlinkage, hparens, hkeep, henter]
  cases t.token with
  | semicolon =>
    by_cases hp : s.parens = 0
    · simp [hp]
      rfl
    · simp [hp]
  | openBrace =>
    by_cases hp : s.parens = 0
    · by_cases hl : isLinkageHeader s.header = true
      · simp [hp, hl]
        rfl
      · simp [hp, hl]
    · simp [hp]
  | _ => rfl

/-- A step on a moved token does what the step on the token does. -/
theorem Scan.step_move (hf : KeepsTokens f) (s : Scan) (t : Placed) :
    (s.move f).step (f t) = (s.step t).move f := by
  have hdepth : (s.move f).depth = s.depth := rfl
  have hinside : (s.move f).stepInside (f t) = (s.stepInside t).move f := by
    unfold stepInside
    rw [hf t]
    cases t.token <;> rfl
  unfold step
  rw [hf t, hdepth, hinside, stepOutside_move hf]
  by_cases hcomment : t.token.isComment = true
  · rw [if_pos hcomment, if_pos hcomment]
  · rw [if_neg hcomment, if_neg hcomment]
    by_cases hd : s.depth = 0
    · rw [if_pos hd, if_pos hd]
    · rw [if_neg hd, if_neg hd]

/-- A scan of moved tokens does what the scan of the tokens does. -/
theorem Scan.run_move (hf : KeepsTokens f) (s : Scan) (tokens : List Placed) :
    (s.move f).run (tokens.map f) = (s.run tokens).move f := by
  induction tokens generalizing s with
  | nil => rfl
  | cons t rest ih =>
    rw [List.map_cons, run_cons, run_cons, step_move hf, ih]

/-- The headers of moved tokens are the moved headers. -/
theorem blockHeaders_map (hf : KeepsTokens f) (tokens : List Placed) :
    blockHeaders (tokens.map f) = (blockHeaders tokens).map (List.map f) :=
  congrArg Scan.headers (Scan.run_move hf {} tokens)

end

end CBind.Source
