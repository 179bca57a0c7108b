import CBind.Proofs.Source.Cursors
import CBind.Proofs.Source.Indexed
import CBind.Proofs.Source.Matching

/-!
# No mishap in reading

Each function that reads by positions gives what the function of the same kind on lists gives, and never a mishap.
The reasons differ. The search for a matching parenthesis starts at an opening one, so its depth is not zero when it
is taken down. Ranges are bounded by positions that a search has found, or by where the loop stands. A parameter
list has a name in front of it, so there is a place in front of it. Brackets are taken off as long as something is
left, and a last word is there where the words are cut before it. Lines are climbed down to the first, a closing
brace is counted only in a body, and the widths are read off the parameters.

So the positions are those of a run of tokens in front: most statements split the list at the position that the
function has come to.
-/

namespace CBind.Source

open CBind.Text

/-! ## Parentheses and attributes -/

/-- What is closed behind a token is closed one position further on. -/
theorem map_length_consSplit (t : Placed) (position : Nat) (r : Option (List Placed × List Placed)) :
    (consSplit t r).map (fun p => position + p.1.length) = r.map fun p => position + 1 + p.1.length := by
  cases r with
  | none => rfl
  | some p =>
    rw [consSplit, Option.map_some, Option.map_some, List.length_cons, Nat.add_right_comm, Nat.add_assoc]

/-- Behind an opening parenthesis the depth is not taken below zero before the matching one is found. -/
theorem closeFrom_succ (depth position : Nat) (tokens : List Placed) :
    closeFrom (depth + 1) position tokens =
      .ok ((splitAtClose depth tokens).map fun p => position + p.1.length) := by
  induction tokens generalizing depth position with
  | nil => rfl
  | cons t rest ih =>
    unfold splitAtClose
    split
    · next ht =>
      rw [map_length_consSplit, ← ih, closeFrom, ht]
    · next ht =>
      rw [closeFrom, ht]
      dsimp only
      rw [takeDown_succ, Checked.ok_bind]
      cases depth with
      | zero => rfl
      | succ depth => rw [if_neg (Nat.succ_ne_zero depth), ih, map_length_consSplit]
    · next ho hc =>
      rw [map_length_consSplit, ← ih, closeFrom]
      split
      · exact absurd ‹_› ho
      · exact absurd ‹_› hc
      · rfl

/-- The parenthesis that matches is found by its position. -/
theorem matchingParen_eq {header front behind : List Placed} {opening : Placed} {position : Nat}
    (hheader : header = front ++ opening :: behind) (hposition : position = front.length)
    (hopening : opening.token = .openParen) :
    matchingParen header position =
      .ok ((splitAtClose 0 behind).map fun p => position + 1 + p.1.length) := by
  subst hheader hposition
  rw [matchingParen, List.drop_left, closeFrom, hopening]
  exact closeFrom_succ 0 _ behind

section Attributes

variable {header front rest : List Placed} {word opening t : Placed} {position : Nat}

/-- A token that opens no group is kept. -/
theorem stripFrom_keep (hheader : header = front ++ t :: rest) (hposition : position = front.length)
    (hkept : (isAttributeWord t.token && rest.head?.any (·.token == .openParen)) = false) :
    stripFrom header position = do return t :: (← stripFrom header (position + 1)) := by
  have hnext : header[position + 1]? = rest.head? := by
    rw [hheader, hposition, List.append_cons, List.getElem?_append_right (by simp)]
    simp [List.head?_eq_getElem?]
  rw [stripFrom, if_pos (by simp [hheader, hposition]), elementAt_length hheader hposition, Checked.ok_bind, hnext,
    if_neg (by rw [hkept]; exact Bool.false_ne_true)]

/-- A group is passed over as a whole. -/
theorem stripFrom_group (hheader : header = front ++ word :: opening :: rest) (hposition : position = front.length)
    (hword : isAttributeWord word.token = true) (hopening : opening.token = .openParen) :
    stripFrom header position =
      match splitAtClose 0 rest with
      | none => .ok []
      | some (inner, _) => stripFrom header (position + 1 + 1 + inner.length + 1) := by
  have hgroup : header = (front ++ [word]) ++ opening :: rest := by simp [hheader]
  have hclose : matchingParen header (position + 1) =
      .ok ((splitAtClose 0 rest).map fun p => position + 1 + 1 + p.1.length) :=
    matchingParen_eq hgroup (by simp [hposition]) hopening
  have hnext : header[position + 1]?.any (·.token == .openParen) = true := by
    simp [hheader, hposition, hopening]
  rw [stripFrom, if_pos (by simp [hheader, hposition]), elementAt_length hheader hposition, Checked.ok_bind,
    if_pos (by rw [hword, hnext]; rfl)]
  cases hsplit : splitAtClose 0 rest with
  | none =>
    rw [hsplit] at hclose
    split
    · next herror => cases hclose.symm.trans herror
    · rfl
    · next hsome => cases hclose.symm.trans hsome
  | some p =>
    rw [hsplit] at hclose
    split
    · next herror => cases hclose.symm.trans herror
    · next hnone => cases hclose.symm.trans hnone
    · next close hsome =>
      cases hclose.symm.trans hsome
      rfl

/-- Removing attributes by position removes the groups. -/
theorem stripFrom_eq (hheader : header = front ++ rest) (hposition : position = front.length) :
    stripFrom header position = .ok (stripAttributes rest) := by
  fun_induction stripAttributes rest generalizing front position with
  | case1 => rw [stripFrom, if_neg (by simp [hheader, hposition])]
  | case2 t =>
    have hend : stripFrom header (position + 1) = .ok [] := by
      rw [stripFrom, if_neg (by simp [hheader, hposition])]
    rw [stripFrom_keep hheader hposition (by simp), hend]
    rfl
  | case3 word opening rest hgroup hsplit =>
    rw [Bool.and_eq_true, beq_iff_eq] at hgroup
    rw [stripFrom_group hheader hposition hgroup.1 hgroup.2, hsplit]
  | case4 word opening rest hgroup inner behind hsplit ih =>
    rw [Bool.and_eq_true, beq_iff_eq] at hgroup
    obtain ⟨closing, hrest, -⟩ := eq_of_splitAtClose hsplit
    have hbehind : header = (front ++ word :: opening :: (inner ++ [closing])) ++ behind := by
      simp [hheader, hrest]
    rw [stripFrom_group hheader hposition hgroup.1 hgroup.2, hsplit]
    exact ih hbehind (by simp [hposition]; omega)
  | case5 t next rest hkept ih =>
    have hbehind : header = (front ++ [t]) ++ next :: rest := by simp [hheader]
    rw [stripFrom_keep hheader hposition (by simpa using hkept), ih hbehind (by simp [hposition])]
    rfl

end Attributes

/-! ## Declarators -/

/-- A header holds no opening parenthesis, or it has a first one. -/
inductive FirstParen : List Placed → Prop
  | none {header : List Placed} (h : ∀ t ∈ header, t.token ≠ .openParen) : FirstParen header
  | here (front : List Placed) {behind : List Placed} {opening : Placed}
      (hfront : ∀ t ∈ front, t.token ≠ .openParen) (hopening : opening.token = .openParen) :
      FirstParen (front ++ opening :: behind)

/-- One of the two is so for every header. -/
theorem FirstParen.of (header : List Placed) : FirstParen header := by
  induction header with
  | nil => exact .none (by simp)
  | cons t rest ih =>
    by_cases ht : t.token = .openParen
    · exact .here [] (by simp) ht
    · cases ih with
      | none h => exact .none (List.forall_mem_cons.mpr ⟨ht, h⟩)
      | here front hfront hopening =>
        exact .here (t :: front) (List.forall_mem_cons.mpr ⟨ht, hfront⟩) hopening

section Declarators

variable {header front behind : List Placed} {opening : Placed}

/-- No position is found in a header without parentheses. -/
theorem findIdx?_openParen_none (h : ∀ t ∈ header, t.token ≠ .openParen) :
    header.findIdx? (·.token == .openParen) = none := by
  simpa using h

/-- The first parenthesis stands at the length of what is in front of it. -/
theorem findIdx?_openParen_some (hfront : ∀ t ∈ front, t.token ≠ .openParen)
    (hopening : opening.token = .openParen) :
    (front ++ opening :: behind).findIdx? (·.token == .openParen) = some front.length := by
  rw [List.findIdx?_append, findIdx?_openParen_none hfront, List.findIdx?_cons, hopening]
  simp

/-- The look at a header reads the range in front of its first parenthesis. -/
theorem looksAt_eq (header : List Placed) : looksAt header = .ok (looksLikeDefinition header) := by
  unfold looksAt looksLikeDefinition
  cases FirstParen.of header with
  | none h =>
    have hany : header.any (·.token == .openParen) = false := by simpa using h
    rw [findIdx?_openParen_none h, hany]
    rfl
  | @here front behind opening hfront hopening =>
    have hrange : rangeOf (front ++ opening :: behind) 0 front.length = .ok front := by
      rw [rangeOf_ok (Nat.zero_le _) (by simp), List.take_left, List.drop_zero]
    rw [findIdx?_openParen_some hfront hopening, takeWhile_openParen hfront hopening]
    dsimp only
    rw [hrange, Checked.ok_bind, Checked.pure_eq_ok]
    simp [hopening]

/-- The name in front of a parameter list stands one place in front of it. -/
theorem nameBefore?_eq (front behind : List Placed) :
    nameBefore? (front ++ behind) front.length = .ok (front.getLast?.bind (·.token.name?)) := by
  cases front using List.reverseRecOn with
  | nil => rfl
  | append_singleton front t =>
    rw [List.length_append, List.length_singleton, nameBefore?, List.append_assoc, List.singleton_append,
      elementAt_length rfl rfl, Checked.ok_bind]
    simp

/-- The places of a declarator are those of its parts. -/
inductive DeclaratorPlaces.Found (header : List Placed) :
    Except DeclaratorFault DeclaratorPlaces → Except DeclaratorFault Declarator → Prop
  | fault (cause : DeclaratorFault) : Found header (.error cause) (.error cause)
  | parts {front inner : List Placed} {opening closing : Placed} (name : String) (hfront : front ≠ [])
    (heq : header = front ++ opening :: (inner ++ [closing])) :
    Found header (.ok ⟨name, front.length, front.length + 1 + inner.length⟩) (.ok ⟨front.dropLast, name, inner⟩)

/-- Finding the parts of a header gives them, or the fault of the header. -/
theorem exists_declaratorPlaces (header : List Placed) :
    ∃ r, declaratorPlaces header = .ok r ∧ DeclaratorPlaces.Found header r (readDeclarator header) := by
  unfold declaratorPlaces readDeclarator
  cases FirstParen.of header with
  | none h =>
    have hdrop : header.dropWhile (·.token != .openParen) = [] := by simpa using h
    rw [findIdx?_openParen_none h, hdrop]
    exact ⟨_, rfl, .fault _⟩
  | @here front behind opening hfront hopening =>
    rw [findIdx?_openParen_some hfront hopening, takeWhile_openParen hfront hopening,
      dropWhile_openParen hfront hopening]
    dsimp only
    rw [nameBefore?_eq, Checked.ok_bind, matchingParen_eq rfl rfl hopening, declaredName?]
    cases hname : (front.getLast?.bind (·.token.name?)).filter (!isReserved ·) with
    | none => exact ⟨_, rfl, .fault _⟩
    | some name =>
      cases hsplit : splitAtClose 0 behind with
      | none => exact ⟨_, rfl, .fault _⟩
      | some p =>
        obtain ⟨inner, rest⟩ := p
        obtain ⟨closing, rfl, -⟩ := eq_of_splitAtClose hsplit
        have hnonempty : front ≠ [] := by
          rintro rfl
          cases hname
        dsimp only [Option.map_some]
        rw [Checked.ok_bind]
        cases rest with
        | nil =>
          refine ⟨_, rfl, ?_⟩
          rw [if_pos (by simp; omega)]
          exact .parts name hnonempty rfl
        | cons t rest =>
          refine ⟨_, rfl, ?_⟩
          rw [if_neg (by simp; omega)]
          exact .fault _

end Declarators

/-! ## Parameters -/

/-- Separating by positions gives the groups. -/
theorem groupsFrom_eq {tokens front rest : List Placed} {depth start position : Nat}
    (htokens : tokens = front ++ rest) (hposition : position = front.length) (hstart : start ≤ position) :
    groupsFrom tokens depth start position rest = .ok (splitAtCommas depth (front.drop start) rest) := by
  induction rest generalizing front depth start position with
  | nil =>
    rw [List.append_nil] at htokens
    subst htokens
    rw [groupsFrom, rangeOf_ok (by omega) (Nat.le_refl _), List.take_length]
    rfl
  | cons t rest ih =>
    have hnext : tokens = (front ++ [t]) ++ rest := by simp [htokens]
    have hposition' : position + 1 = (front ++ [t]).length := by simp [hposition]
    have hon (depth : Nat) : groupsFrom tokens depth start (position + 1) rest =
        .ok (splitAtCommas depth (front.drop start ++ [t]) rest) := by
      rw [ih hnext hposition' (by omega), List.drop_append_of_le_length (by omega)]
    unfold splitAtCommas
    split
    · next ht => rw [groupsFrom, ht]; exact hon _
    · next ht => rw [groupsFrom, ht]; exact hon _
    · next ht => rw [groupsFrom, ht]; exact hon _
    · next ht => rw [groupsFrom, ht]; exact hon _
    · next ht =>
      rw [groupsFrom, ht]
      dsimp only
      split
      · next hdepth =>
        subst hdepth
        have hgroup : rangeOf tokens start position = .ok (front.drop start) := by
          rw [rangeOf_ok hstart (by simp [htokens, hposition]), htokens, hposition, List.take_left]
        rw [hgroup, Checked.ok_bind, ih hnext hposition' (Nat.le_refl _),
          List.drop_of_length_le (Nat.le_of_eq hposition'.symm)]
        rfl
      · exact hon _
    · rw [groupsFrom]
      split <;> first | contradiction | exact hon _

/-- An empty list has no groups, and any other is read from its start. -/
theorem groupsOf_eq (tokens : List Placed) : groupsOf tokens = .ok (parameterGroups tokens) := by
  unfold groupsOf parameterGroups
  split
  · rfl
  · exact groupsFrom_eq (List.nil_append tokens).symm rfl (Nat.le_refl _)

/-- The first token of the first group is looked at where there is one. -/
theorem isVoidAt_eq (groups : List (List Placed)) : isVoidAt groups = .ok (isVoidList groups) := by
  match groups with
  | [] => rfl
  | [[]] => rfl
  | [[t]] =>
    have hname : (t.token.name? == some "void") = (t.token == .ident "void") := by
      cases t.token <;> simp [Token.name?]
    exact congrArg Except.ok hname
  | [_ :: _ :: _] => simp [isVoidAt, isVoidList, elementAt]
  | _ :: _ :: _ => simp [isVoidAt, isVoidList]

/-- The last element of a kind is the last one itself or stands in front of it. -/
theorem lastPosition?_append_singleton {α : Type} (p : α → Bool) (xs : List α) (x : α) :
    lastPosition? p (xs ++ [x]) = if p x then some xs.length else lastPosition? p xs := by
  induction xs with
  | nil => rfl
  | cons y xs ih =>
    rw [List.cons_append, lastPosition?, ih, lastPosition?]
    split_ifs <;> rfl

/-- The last element of a kind is the first one from behind. -/
theorem lastPosition?_reverse {α : Type} (p : α → Bool) (xs : List α) :
    lastPosition? p xs.reverse = (xs.dropWhile (!p ·)).tail?.map List.length := by
  induction xs with
  | nil => rfl
  | cons x xs ih =>
    rw [List.reverse_cons, lastPosition?_append_singleton, List.dropWhile_cons, List.length_reverse]
    cases hx : p x with
    | true => rfl
    | false => exact ih

section Arrays

variable {tokens reversed rest : List Placed} {t : Placed} {behind arrays : Nat}

/-- Tokens that end with no bracket group are left as they are. -/
theorem withoutArrays_done (htokens : tokens = reversed.reverse ++ t :: rest)
    (hbehind : behind = reversed.length + 1) (hother : ¬(t.token == .closeBracket) = true) :
    withoutArrays tokens behind arrays = .ok (some (behind, arrays)) := by
  rw [withoutArrays, if_pos (by omega), takeDown_ok (by omega), Checked.ok_bind,
    elementAt_length htokens (by simp [hbehind]), Checked.ok_bind, if_neg hother]
  rfl

/-- A bracket group reaches back to the nearest opening bracket. -/
theorem withoutArrays_group (htokens : tokens = reversed.reverse ++ t :: rest)
    (hbehind : behind = reversed.length + 1) (hclosing : (t.token == .closeBracket) = true) :
    withoutArrays tokens behind arrays =
      match reversed.dropWhile (·.token != .openBracket) with
      | [] => .ok none
      | _ :: remaining => withoutArrays tokens remaining.length (arrays + 1) := by
  have hrange : rangeOf tokens 0 behind = .ok (reversed.reverse ++ [t]) := by
    rw [rangeOf_ok (Nat.zero_le _) (by simp [htokens, hbehind]), htokens, List.append_cons,
      List.take_left' (by simp [hbehind]), List.drop_zero]
  have hlast : lastPosition? (·.token == .openBracket) (reversed.reverse ++ [t]) =
      (reversed.dropWhile (·.token != .openBracket)).tail?.map List.length := by
    rw [lastPosition?_append_singleton, beq_iff_eq.mp hclosing, if_neg (by decide)]
    exact lastPosition?_reverse (·.token == .openBracket) reversed
  rw [withoutArrays, if_pos (by omega), takeDown_ok (by omega), Checked.ok_bind,
    elementAt_length htokens (by simp [hbehind]), Checked.ok_bind, if_pos hclosing]
  split
  · next herror => cases hrange.symm.trans herror
  · next front hfront =>
    cases hrange.symm.trans hfront
    cases hdrop : reversed.dropWhile (·.token != .openBracket) with
    | nil =>
      rw [hdrop] at hlast
      split
      · rfl
      · next hsome => cases hlast.symm.trans hsome
    | cons opening remaining =>
      rw [hdrop] at hlast
      split
      · next hnone => cases hlast.symm.trans hnone
      · next position hsome =>
        cases hlast.symm.trans hsome
        rfl

/-- Taking array groups off by positions leaves the tokens that are left when they are taken off in reverse. -/
theorem withoutArrays_eq (htokens : tokens = reversed.reverse ++ rest) (hbehind : behind = reversed.length) :
    withoutArrays tokens behind arrays =
      .ok ((peelBrackets reversed arrays).map fun p => (p.1.length, p.2)) := by
  fun_induction peelBrackets reversed arrays generalizing rest behind with
  | case1 arrays =>
    rw [withoutArrays, if_neg (by simp [hbehind]), hbehind]
    rfl
  | case2 arrays t reversed hclosing hnone =>
    rw [withoutArrays_group (by simpa using htokens) hbehind hclosing, hnone]
    rfl
  | case3 arrays t reversed hclosing opening remaining hsome ih =>
    obtain ⟨front, hfront⟩ : opening :: remaining <:+ reversed := hsome ▸ List.dropWhile_suffix _
    have hremaining : tokens = remaining.reverse ++ opening :: (front.reverse ++ t :: rest) := by
      simp [htokens, ← hfront]
    rw [withoutArrays_group (by simpa using htokens) hbehind hclosing, hsome]
    exact ih hremaining rfl
  | case4 arrays t reversed hother =>
    rw [withoutArrays_done (by simpa using htokens) hbehind hother, hbehind]
    rfl

end Arrays

/-- Bracket groups are taken off the end. -/
theorem suffix_of_peelBrackets {reversed core : List Placed} {arrays count : Nat}
    (h : peelBrackets reversed arrays = some (core, count)) : core <:+ reversed := by
  fun_induction peelBrackets reversed arrays with
  | case1 arrays => cases h; exact List.suffix_rfl
  | case2 => cases h
  | case3 arrays t reversed hclosing opening remaining hsome ih =>
    have hrest : opening :: remaining <:+ reversed := hsome ▸ List.dropWhile_suffix _
    exact (ih h).trans ((List.suffix_cons _ _).trans (hrest.trans (List.suffix_cons _ _)))
  | case4 => cases h; exact List.suffix_rfl

/-- The words are cut before the last one only where there is a last one. -/
theorem nameApart_eq (core : List Placed) :
    nameApart core = .ok ((if (parameterName? core).isSome then core.dropLast else core).map (·.token.spelling),
      parameterName? core) := by
  unfold nameApart parameterName?
  dsimp only
  cases hlast : core.getLast?.bind (·.token.name?) with
  | none => rfl
  | some last =>
    have hlength : 1 ≤ (core.map (·.token.spelling)).length := by
      cases core with
      | nil => cases hlast
      | cons => simp
    dsimp only
    rw [takeDown_ok hlength, Checked.ok_bind, rangeOf_ok (Nat.zero_le _) (Nat.sub_le _ _), Checked.ok_bind,
      List.drop_zero, ← List.dropLast_eq_take, ← List.map_dropLast, Checked.pure_eq_ok, Option.filter_some]
    split <;> rfl

/-- A parameter is read as far as its bracket groups. -/
theorem parameterAt_eq (tokens : List Placed) : parameterAt tokens = .ok (readParameter tokens) := by
  unfold parameterAt readParameter
  split
  · rfl
  split
  · rfl
  split
  · rfl
  have hreverse : tokens = tokens.reverse.reverse ++ [] := by simp
  rw [withoutArrays_eq hreverse List.length_reverse.symm, Checked.ok_bind]
  cases hpeel : peelBrackets tokens.reverse 0 with
  | none => rfl
  | some p =>
    obtain ⟨reversed, arrays⟩ := p
    have hcore : rangeOf tokens 0 reversed.length = .ok reversed.reverse := by
      obtain ⟨taken, htaken⟩ := suffix_of_peelBrackets hpeel
      have htokens : tokens = reversed.reverse ++ taken.reverse := by
        rw [← List.reverse_append, htaken, List.reverse_reverse]
      rw [rangeOf_ok (Nat.zero_le _) (by simp [htokens]), List.drop_zero, htokens, ← List.length_reverse,
        List.take_left]
    dsimp only [Option.map_some]
    rw [hcore, Checked.ok_bind, nameApart_eq, Checked.ok_bind]
    dsimp only
    cases readType _ <;> rfl

theorem parametersAt_eq (groups : List (List Placed)) : parametersAt groups = .ok (readParameters groups) := by
  induction groups with
  | nil => rfl
  | cons group rest ih =>
    rw [parametersAt, parameterAt_eq, ih, Checked.ok_bind, readParameters]
    cases readParameter group with
    | error fault => rfl
    | ok p =>
      dsimp only
      rw [Checked.ok_bind]
      cases readParameters rest <;> rfl

theorem parameterListAt_eq (groups : List (List Placed)) :
    parameterListAt groups = .ok (if isVoidList groups then .ok [] else readParameters groups) := by
  rw [parameterListAt, isVoidAt_eq, Checked.ok_bind, parametersAt_eq]
  split <;> rfl

/-! ## Annotations -/

/-- The climb over the lines stops at the first line of the file. -/
theorem commentBlock_succ (tokens : List Placed) (line : Nat) (block : List String) :
    commentBlock tokens (line + 1) block = .ok (commentsAbove tokens line ++ block) := by
  induction line generalizing block with
  | zero =>
    rw [commentBlock, if_neg (Nat.lt_irrefl 1)]
    rfl
  | succ line ih =>
    have hdown : takeDown (line + 1 + 1) 1 = .ok (line + 1) := takeDown_succ _
    rw [commentBlock, if_pos (by omega), commentsAbove]
    split
    · next herror => cases hdown.symm.trans herror
    · next above habove =>
      cases hdown.symm.trans habove
      split
      · rfl
      · cases commentsOn tokens (line + 1) with
        | nil => rfl
        | cons text texts =>
          dsimp only
          rw [ih, List.append_assoc]
          rfl

/-- The comment lines above a line are collected, also where there is no line above. -/
theorem commentBlock_eq (tokens : List Placed) (line : Nat) :
    commentBlock tokens line [] = .ok (commentsAbove tokens (line - 1)) := by
  cases line with
  | zero =>
    rw [commentBlock, if_neg (Nat.not_lt_zero 1)]
    rfl
  | succ line => rw [commentBlock_succ, List.append_nil, Nat.add_sub_cancel]

/-- The word of a directive is read off its spelling. -/
theorem word_of_spelling (word : DirectiveWord) :
    (if word.spelling = "sync" then DirectiveWord.policy .sync
      else if word.spelling = "async" then .policy .async else .cost) = word := by
  cases word with
  | policy p => cases p <;> rfl
  | cost => rfl

/-- A line that is a directive has a word. -/
theorem settingsAt_eq (s : Settings) (lines : List String) :
    settingsAt s lines = .ok (collectSettings s lines) := by
  induction lines generalizing s with
  | nil => rfl
  | cons line rest ih =>
    rw [settingsAt, directiveGroups?, collectSettings]
    cases rawDirective? line with
    | none => exact ih s
    | some raw =>
      dsimp only [Option.map_some]
      rw [elementAt_ok (x := raw.word.spelling) rfl, Checked.ok_bind, word_of_spelling]
      dsimp only [List.getElem?_cons_succ, List.getElem?_cons_zero, Option.getD_some]
      cases raw.check with
      | error fault => rfl
      | ok directive =>
        dsimp only
        cases s.add directive with
        | error fault => rfl
        | ok s' => exact ih s'

/-! ## Definitions -/

/-- The widths are read off the parameters, so there is one for each. -/
theorem withWidths_new (name : String) (returns : DeclaredType) (parameters : List Parameter)
    (annotations : Annotations) (location : Location) :
    (StoredDescriptor.new name returns.type (parameters.map fun p => (p.declared.type, p.name)) annotations
      location).withWidths returns.width (parameters.map (·.declared.width)) =
      .ok (.ofDescriptor ⟨name, returns, parameters, annotations, location⟩) := by
  rw [StoredDescriptor.withWidths, if_pos (by simp [StoredDescriptor.new])]
  simp [StoredDescriptor.new, StoredDescriptor.ofDescriptor]

/-- The tokens of the result and of the parameters lie in the header. -/
theorem definitionAt_eq {header front inner : List Placed} {opening closing : Placed} (location : Location)
    (tokens : List Placed) (name : String) (hfront : front ≠ [])
    (hheader : header = front ++ opening :: (inner ++ [closing])) :
    definitionAt location tokens header ⟨name, front.length, front.length + 1 + inner.length⟩ =
      .ok ((readDefinition location (commentsAbove tokens (location.line - 1)) ⟨front.dropLast, name, inner⟩).map
        .ofDescriptor) := by
  have hresult : rangeOf header 0 (front.length - 1) = .ok front.dropLast := by
    rw [rangeOf_ok (Nat.zero_le _) (by simp [hheader]; omega), hheader,
      List.take_append_of_le_length (Nat.sub_le _ _), List.drop_zero, List.dropLast_eq_take]
  have hinner : rangeOf header (front.length + 1) (front.length + 1 + inner.length) = .ok inner := by
    have hsplit : header = (front ++ [opening]) ++ inner ++ [closing] := by simp [hheader]
    rw [rangeOf_ok (Nat.le_add_right _ _) (by simp [hheader]; omega), hsplit,
      List.take_left' (by simp; omega), List.drop_left' (by simp)]
  unfold definitionAt readDefinition
  dsimp only
  rw [takeDown_ok (List.length_pos_iff.mpr hfront), Checked.ok_bind, hresult, Checked.ok_bind]
  split
  · rfl
  · cases readType (resultWords front.dropLast) with
    | error type => rfl
    | ok returns =>
      dsimp only
      rw [hinner, Checked.ok_bind, groupsOf_eq, Checked.ok_bind, parameterListAt_eq, Checked.ok_bind]
      cases (if isVoidList (parameterGroups inner) then .ok [] else readParameters (parameterGroups inner) :
        Except ParameterFault (List Parameter)) with
      | error fault => rfl
      | ok parameters =>
        dsimp only
        rw [commentBlock_eq, Checked.ok_bind, settingsAt_eq, Checked.ok_bind, readAnnotations]
        cases collectSettings {} (commentsAbove tokens (location.line - 1)) with
        | error fault => rfl
        | ok settings =>
          dsimp only [Except.map]
          rw [withWidths_new]
          rfl

/-! ## The scan -/

namespace Walk

/-- The state of the walk that belongs to a state of the scan and to what was read so far. -/
def ofScan (s : Scan) (p : Progress) : Walk where
  depth := s.depth
  parens := s.parens
  header := s.header
  defined := p.defined
  findings := p.findings.map (Except.map .ofDescriptor)

@[simp] theorem header_ofScan (s : Scan) (p : Progress) : (ofScan s p).header = s.header := rfl

@[simp] theorem defined_ofScan (s : Scan) (p : Progress) : (ofScan s p).defined = p.defined := rfl

/-- A finding that is added to what was read is added in its stored form. -/
theorem give_ofScan (s : Scan) (p : Progress) (location : Location) (defined : List String)
    (r : Except HeaderFault Descriptor) :
    (ofScan s p).give location defined (r.map .ofDescriptor) =
      ofScan s ⟨defined, p.findings ++ [r.mapError (HeaderFault.toFault location)]⟩ := by
  cases r <;> simp [ofScan, give, Except.map, Except.mapError]

/-- A header is given up or read as its declarator says. -/
theorem readHeader_ofScan (file : String) (tokens : List Placed) (s : Scan) (p : Progress) (header : List Placed) :
    (ofScan s p).readHeader file tokens header = .ok (ofScan s (p.readHeader file tokens header)) := by
  cases header with
  | nil => rfl
  | cons first rest =>
    obtain ⟨places, hplaces, hfound⟩ := exists_declaratorPlaces (first :: rest)
    simp only [readHeader, Progress.readHeader]
    rw [hplaces, Checked.ok_bind]
    generalize readDeclarator (first :: rest) = declarator at hfound
    cases hfound with
    | fault cause => exact congrArg Except.ok (give_ofScan s p _ _ (.error _))
    | parts name hfront heq =>
      dsimp only
      rw [definitionAt_eq _ _ _ hfront heq, Checked.ok_bind, defined_ofScan]
      split
      · exact congrArg Except.ok (give_ofScan s p _ _ (.error _))
      · exact congrArg Except.ok (give_ofScan s p _ _ _)

/-- A header is read without its attributes. -/
theorem readBlock_ofScan (file : String) (tokens : List Placed) (s : Scan) (p : Progress) :
    (ofScan s p).readBlock file tokens = .ok (ofScan s (p.readBlock file tokens s.header)) := by
  have hstrip : stripFrom s.header 0 = .ok (stripAttributes s.header) :=
    stripFrom_eq (List.nil_append s.header).symm rfl
  unfold readBlock Progress.readBlock
  dsimp only
  rw [header_ofScan, hstrip, Checked.ok_bind, looksAt_eq, Checked.ok_bind]
  split
  · exact readHeader_ofScan file tokens s p _
  · rfl

end Walk

/-- What is read of the headers that a scan has handed over. -/
def Scan.progress (file : String) (tokens : List Placed) (s : Scan) : Progress :=
  s.headers.foldl (Progress.readBlock file tokens) {}

/-- A header that is handed over is read. -/
theorem Scan.progress_enterBody (file : String) (tokens : List Placed) (s : Scan) :
    s.enterBody.progress file tokens = (s.progress file tokens).readBlock file tokens s.header := by
  simp [progress, enterBody]

namespace Walk

/-- Where the walk is when the scan is in a state. -/
def along (file : String) (tokens : List Placed) (s : Scan) : Walk :=
  ofScan s (s.progress file tokens)

variable {file : String} {tokens : List Placed} {s : Scan}

/-- A closing brace is taken only in a body, where the depth is not zero. -/
theorem takeInside_along (hs : s.depth ≠ 0) (t : Placed) :
    (along file tokens s).takeInside t = .ok (along file tokens (s.stepInside t)) := by
  unfold takeInside Scan.stepInside
  cases t.token with
  | closeBrace =>
    have hdown : takeDown (along file tokens s).depth 1 = .ok (s.depth - 1) :=
      takeDown_ok (Nat.pos_of_ne_zero hs)
    dsimp only
    rw [hdown]
    rfl
  | _ => rfl

/-- Outside all braces only a header in front of a brace is read. -/
theorem takeOutside_along (t : Placed) :
    (along file tokens s).takeOutside file tokens t = .ok (along file tokens (s.stepOutside t)) := by
  unfold takeOutside Scan.stepOutside
  cases t.token with
  | openBrace =>
    dsimp only
    by_cases hparens : s.parens = 0
    · rw [if_pos hparens, if_pos (show (along file tokens s).parens = 0 from hparens)]
      by_cases hlinkage : isLinkageHeader s.header = true
      · rw [if_pos hlinkage, if_pos (show isLinkageHeader (along file tokens s).header = true from hlinkage)]
        rfl
      · rw [if_neg hlinkage, if_neg (show ¬isLinkageHeader (along file tokens s).header = true from hlinkage), along,
          readBlock_ofScan, ← Scan.progress_enterBody]
        rfl
    · rw [if_neg hparens, if_neg (show (along file tokens s).parens ≠ 0 from hparens)]
      rfl
  | semicolon =>
    dsimp only
    by_cases hparens : s.parens = 0
    · rw [if_pos hparens, if_pos (show (along file tokens s).parens = 0 from hparens)]
      rfl
    · rw [if_neg hparens, if_neg (show (along file tokens s).parens ≠ 0 from hparens)]
      rfl
  | _ => rfl

/-- The walk goes on with the scan, and has read what the scan has handed over. -/
theorem take_along (t : Placed) :
    (along file tokens s).take file tokens t = .ok (along file tokens (s.step t)) := by
  unfold take Scan.step
  split
  · rfl
  · by_cases hs : s.depth = 0
    · rw [if_neg (show ¬0 < (along file tokens s).depth from Nat.not_lt.mpr (Nat.le_of_eq hs)), if_pos hs,
        takeOutside_along]
    · rw [if_pos (show 0 < (along file tokens s).depth from Nat.pos_of_ne_zero hs), if_neg hs, takeInside_along hs]

/-- Walking over tokens is scanning them. -/
theorem foldlM_take_along (more : List Placed) :
    more.foldlM (take file tokens) (along file tokens s) = .ok (along file tokens (s.run more)) := by
  induction more generalizing s with
  | nil => rfl
  | cons t more ih =>
    rw [List.foldlM_cons, take_along, Checked.ok_bind, ih]
    rfl

end Walk

/-- Reading tokens block by block finds what the scan with all headers at once finds. -/
theorem readTokensAt_eq (file : String) (tokens : List Placed) :
    readTokensAt file tokens = .ok ((readTokens file tokens).map (Except.map .ofDescriptor)) := by
  rw [readTokensAt, show ({} : Walk) = Walk.along file tokens {} from rfl, Walk.foldlM_take_along]
  rfl

/-- Every text is cut at a cursor into its tokens, and read by positions without a mishap: what is found is what
reading the source gives, in the same order. -/
theorem reads_without_mishap (file text : String) :
    ({} : Cursor).takeTokens text.toList = tokenize text ∧
      readTokensAt file (({} : Cursor).takeTokens text.toList) =
        .ok ((readSource file text).findings.map (Except.map .ofDescriptor)) := by
  have htokens := Cursor.takeTokens_eq_tokenize text
  refine ⟨htokens, ?_⟩
  rw [htokens]
  exact readTokensAt_eq file (tokenize text)

end CBind.Source
