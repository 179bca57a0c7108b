import CBind.Proofs.Source.Comments
import CBind.Proofs.Source.Spacing

/-!
# Reading directives that were written

A comment line that was written for a directive is cut off as one comment, and the comment reads as
that directive. Directives that agree with each other and with the settings made so far leave the
settings that each of them asks for.
-/

namespace CBind.Source

open CBind.Text

/-- The comment is read as a directive without a fault. -/
def Says (note : String) (d : Directive) : Prop :=
  ∃ raw, rawDirective? note = some raw ∧ raw.check = .ok d

/-- The empty text is a text of blanks. -/
theorem blank_nil : Blank [] := by
  intro c hc
  contradiction

/-- What is no blank at an end of a text is no blank wherever the end is looked up. -/
theorem isBlank_of_eq_some {found : Option Char} (d : Char) (h : found = some d)
    (hd : isBlank d = false) (c : Char) (hc : found = some c) : isBlank c = false := by
  rw [← Option.some.inj (h.symm.trans hc)]
  exact hd

/-- Blanks around a text that starts and ends with none are trimmed away. -/
theorem trim_append {before core behind : List Char} (hbefore : Blank before) (hbehind : Blank behind)
    (hfirst : ∀ c, core.head? = some c → isBlank c = false)
    (hlast : ∀ c, core.getLast? = some c → isBlank c = false) (hne : core ≠ []) :
    trim (before ++ core ++ behind) = core := by
  have hstart : trimStart (before ++ core ++ behind) = core ++ behind := by
    rw [trimStart, List.append_assoc, List.dropWhile_append_of_pos hbefore]
    cases core with
    | nil => exact absurd rfl hne
    | cons c core => simp [hfirst c rfl]
  have hreverse : ∀ c ∈ behind.reverse, isBlank c = true := fun c hc => hbehind c (by simpa using hc)
  rw [trim, hstart, trimEnd, List.reverse_append, List.dropWhile_append_of_pos hreverse]
  cases hcore : core.reverse with
  | nil => simp at hcore; contradiction
  | cons c rest =>
    have hc : isBlank c = false := hlast c (by rw [← List.head?_reverse, hcore]; rfl)
    rw [List.dropWhile_cons_of_neg (by simp [hc]), ← hcore, List.reverse_reverse]

/-- A policy on its own is read as the directive. -/
theorem says_policy (p : Policy) : Says (String.ofList ('@' :: p.spelling.toList)) (.policy p) := by
  cases p with
  | sync => exact ⟨⟨.policy .sync, ""⟩, by decide, by decide⟩
  | async => exact ⟨⟨.policy .async, ""⟩, by decide, by decide⟩

/-- Blanks around a cost directive are trimmed away. -/
theorem trim_cost {before behind w : List Char} (hbefore : Blank before) (hbehind : Blank behind)
    (gap : List Char) (hlast : ∀ c, w.getLast? = some c → isBlank c = false) (hwne : w ≠ []) :
    trim (before ++ ("@cost".toList ++ gap ++ w) ++ behind) = "@cost".toList ++ gap ++ w := by
  have hword : "@cost".toList = ['@', 'c', 'o', 's', 't'] := by decide
  refine trim_append hbefore hbehind ?_ ?_ (by simp [hword])
  · rw [hword]
    rintro c ⟨⟩
    decide
  · intro c hc
    rw [List.getLast?_append] at hc
    cases hw : w.getLast? with
    | none => exact absurd (List.getLast?_eq_none_iff.mp hw) hwne
    | some d =>
      rw [hw] at hc
      exact hlast c (hw.trans hc)

/-- What stands behind the word `@cost` is its argument. -/
theorem rawDirective?_cost {gap w : List Char} (hgap : Blank gap) (hne : gap ≠ [])
    (hfirst : ∀ c, w.head? = some c → isBlank c = false)
    (hlast : ∀ c, w.getLast? = some c → isBlank c = false) (hwne : w ≠ []) (hline : '\n' ∉ w) :
    rawDirective? (String.ofList ("@cost".toList ++ gap ++ w)) = some ⟨.cost, String.ofList w⟩ := by
  have hword : "@cost".toList = ['@', 'c', 'o', 's', 't'] := by decide
  have hargument : trim (gap ++ w) = w := by
    simpa using trim_append hgap blank_nil hfirst hlast hwne
  have htrim : trim ("@cost".toList ++ gap ++ w) = "@cost".toList ++ gap ++ w := by
    simpa using trim_cost blank_nil blank_nil gap hlast hwne
  obtain ⟨g, gs, rfl⟩ := List.exists_cons_of_ne_nil hne
  have hg : isWordConstituent g = false := isWordConstituent_of_isBlank (hgap g List.mem_cons_self)
  have hsync : afterWord? "@sync".toList ("@cost".toList ++ (g :: gs) ++ w) = none := by
    rw [hword, show "@sync".toList = ['@', 's', 'y', 'n', 'c'] by decide]
    rfl
  have hasync : afterWord? "@async".toList ("@cost".toList ++ (g :: gs) ++ w) = none := by
    rw [hword, show "@async".toList = ['@', 'a', 's', 'y', 'n', 'c'] by decide]
    rfl
  have hcost : afterWord? "@cost".toList ("@cost".toList ++ (g :: gs) ++ w) = some (g :: gs ++ w) := by
    rw [hword]
    simp [afterWord?, hg]
  have hnone : w.contains '\n' = false := by simpa using hline
  rw [rawDirective?, String.toList_ofList, htrim, directiveWords, List.findSome?_cons, hsync,
    List.findSome?_cons, hasync, List.findSome?_cons, hcost]
  simp only [Option.bind_none, Option.bind_some, hargument, hnone, Bool.false_eq_true, ↓reduceIte]

/-- A cost behind its word is read as the directive. -/
theorem says_cost {c : Cost} {gap : List Char} (hc : c ≠ .unspecified) (hgap : Blank gap)
    (hne : gap ≠ []) :
    Says (String.ofList ("@cost".toList ++ gap ++ c.spelling.toList)) (.cost c) := by
  cases c with
  | low =>
    exact ⟨_, rawDirective?_cost hgap hne (isBlank_of_eq_some 'l' (by decide) (by decide))
      (isBlank_of_eq_some 'w' (by decide) (by decide)) (by decide) (by decide), by decide⟩
  | high =>
    exact ⟨_, rawDirective?_cost hgap hne (isBlank_of_eq_some 'h' (by decide) (by decide))
      (isBlank_of_eq_some 'h' (by decide) (by decide)) (by decide) (by decide), by decide⟩
  | unspecified => contradiction

/-- A comment that was written on a line of its own is cut off as one comment. -/
theorem tokensFrom_comment (line : Nat) (lineStart : Bool) {indent body : List Char} (more : List Char)
    (hindent : BlankInLine indent) (hbody : '\n' ∉ body) :
    ∃ start, tokensFrom line
        (lexemesFrom lineStart (indent ++ '/' :: '/' :: body ++ ['\n'] ++ more)) =
      ⟨.comment (String.ofList (trim body)), line⟩ ::
        tokensFrom (line + 1) (lexemesFrom start more) := by
  obtain ⟨start, hblank⟩ := tokensFrom_blanks line lineStart ('/' :: '/' :: body ++ '\n' :: more)
    hindent.1
  have hcount : indent.count '\n' = 0 := List.count_eq_zero.mpr hindent.2
  have hall : ∀ c ∈ body, (c != '\n') = true := by
    intro c hc
    simpa using fun h : c = '\n' => hbody (h ▸ hc)
  have hcut : nextLexeme start '/' ('/' :: body ++ '\n' :: more) =
      (.lineComment body, '\n' :: more) := by
    have htake : (body ++ '\n' :: more).takeWhile (· != '\n') = body := by
      rw [List.takeWhile_append_of_pos hall]
      simp
    have hdrop : (body ++ '\n' :: more).dropWhile (· != '\n') = '\n' :: more := by
      rw [List.dropWhile_append_of_pos hall]
      simp
    have hslash : isBlank '/' = false := by decide
    simp [nextLexeme, hslash, htake, hdrop]
  have hfeeds : (Lexeme.lineComment body).lineFeeds = 0 := by
    simp [Lexeme.lineFeeds, Lexeme.text, List.count_eq_zero.mpr hbody]
  refine ⟨true, ?_⟩
  rw [show indent ++ '/' :: '/' :: body ++ ['\n'] ++ more =
    indent ++ ('/' :: '/' :: body ++ '\n' :: more) by simp, hblank, hcount, List.cons_append,
    lexemesFrom_cons, hcut, tokensFrom, hfeeds, lexemesFrom_cons,
    nextLexeme_of_isBlank isBlank_newline, tokensFrom]
  rfl

/-- A written directive is cut off as one comment that says it. -/
theorem WritesDirective.cut {d : Directive} {text : List Char} (h : WritesDirective d text)
    (hcost : d ≠ .cost .unspecified) (line : Nat) (lineStart : Bool) (more : List Char) :
    ∃ note start, Says note d ∧ tokensFrom line (lexemesFrom lineStart (text ++ more)) =
      ⟨.comment note, line⟩ :: tokensFrom (line + 1) (lexemesFrom start more) := by
  cases h with
  | @policy indent before behind p hindent hbefore hbehind =>
    have hbody : '\n' ∉ before ++ '@' :: p.spelling.toList ++ behind := by
      have hp : '\n' ∉ p.spelling.toList := by cases p <;> decide
      simp [hbefore.2, hbehind.2, hp]
    have hcore : trim (before ++ '@' :: p.spelling.toList ++ behind) = '@' :: p.spelling.toList := by
      refine trim_append hbefore.1 hbehind.1 ?_ ?_ (by simp)
      · rintro c ⟨⟩
        decide
      · cases p <;> exact isBlank_of_eq_some 'c' (by decide) (by decide)
    obtain ⟨start, hcut⟩ := tokensFrom_comment line lineStart more hindent hbody
    exact ⟨_, start, says_policy p, by rw [hcut, hcore]⟩
  | @cost indent before gap behind c hindent hbefore hgap hne hbehind =>
    have hbody : '\n' ∉ before ++ ("@cost".toList ++ gap ++ c.spelling.toList) ++ behind := by
      have hc : '\n' ∉ c.spelling.toList := by cases c <;> decide
      have hword : '\n' ∉ "@cost".toList := by decide
      simp only [List.mem_append, hbefore.2, hbehind.2, hgap.2, hc, hword, or_self, not_false_iff]
    have hlast (last : Char) (h : c.spelling.toList.getLast? = some last) :
        isBlank last = false := by
      cases c with
      | low => exact isBlank_of_eq_some 'w' (by decide) (by decide) last h
      | high => exact isBlank_of_eq_some 'h' (by decide) (by decide) last h
      | unspecified => exact isBlank_of_eq_some 'd' (by decide) (by decide) last h
    have hcore : trim (before ++ ("@cost".toList ++ gap ++ c.spelling.toList) ++ behind) =
        "@cost".toList ++ gap ++ c.spelling.toList :=
      trim_cost hbefore.1 hbehind.1 gap hlast (by cases c <;> decide)
    obtain ⟨start, hcut⟩ := tokensFrom_comment line lineStart more hindent hbody
    exact ⟨_, start, says_cost (fun h => hcost (h ▸ rfl)) hgap.1 hne, by rw [hcut, hcore]⟩

/-- Written directives are cut off as comment lines that say them. -/
theorem WritesDirectives.cut {ds : List Directive} {text : List Char}
    (h : WritesDirectives ds text) (hcost : .cost .unspecified ∉ ds) (line : Nat) (lineStart : Bool)
    (more : List Char) :
    ∃ notes start, List.Forall₂ Says notes ds ∧
      tokensFrom line (lexemesFrom lineStart (text ++ more)) =
        placeNotes line notes ++
          tokensFrom (line + notes.length) (lexemesFrom start more) := by
  induction h generalizing line lineStart with
  | nil => exact ⟨[], lineStart, .nil, rfl⟩
  | @cons d ds text texts hline htext ih =>
    obtain ⟨note, start, hnote, hcut⟩ := hline.cut
      (fun h => hcost (h ▸ List.mem_cons_self)) line lineStart (texts ++ more)
    obtain ⟨notes, start', hnotes, hrest⟩ := ih (fun h => hcost (List.mem_cons_of_mem d h)) (line + 1)
      start
    refine ⟨note :: notes, start', .cons hnote hnotes, ?_⟩
    rw [List.append_assoc, hcut, hrest, placeNotes, List.length_cons, List.cons_append, Nat.add_assoc,
      Nat.add_comm 1]

/-- What directives ask for agrees with each other and with the settings made before. -/
structure Agree (s : Settings) (ds : List Directive) : Prop where
  policy : ∀ p q, (s.policy = some p ∨ .policy p ∈ ds) → .policy q ∈ ds → p = q
  cost : ∀ c d, (s.cost = some c ∨ .cost c ∈ ds) → .cost d ∈ ds → c = d

/-- Directives that agree leave what the settings or the first of them chose. -/
theorem collectSettings_of_agree {notes : List String} {ds : List Directive}
    (h : List.Forall₂ Says notes ds) {s : Settings} (hs : Agree s ds) :
    collectSettings s notes =
      .ok ⟨s.policy.or (ds.findSome? Directive.policy?), s.cost.or (ds.findSome? Directive.cost?)⟩ := by
  induction h generalizing s with
  | nil => simp [collectSettings]
  | @cons note d notes ds hnote _ ih =>
    obtain ⟨raw, hraw, hcheck⟩ := hnote
    cases d with
    | policy p =>
      have hkeep : s.policy = none ∨ s.policy = some p := by
        cases hp : s.policy with
        | none => exact .inl rfl
        | some q => exact .inr (congrArg some (hs.policy q p (.inl hp) List.mem_cons_self))
      have hadd : s.add (.policy p) = .ok { s with policy := some p } := by
        rcases hkeep with h | h <;> simp [Settings.add, h]
      have hnext : Agree { s with policy := some p } ds := by
        refine ⟨fun a b ha hb => hs.policy a b ?_ (List.mem_cons_of_mem _ hb), fun a b ha hb =>
          hs.cost a b (ha.imp_right (List.mem_cons_of_mem _)) (List.mem_cons_of_mem _ hb)⟩
        rcases ha with ha | ha
        · cases ha
          exact .inr List.mem_cons_self
        · exact .inr (List.mem_cons_of_mem _ ha)
      simp only [collectSettings, hraw, hcheck, hadd, ih hnext]
      rcases hkeep with h | h <;> simp [List.findSome?_cons, Directive.policy?, Directive.cost?, h]
    | cost c =>
      have hkeep : s.cost = none ∨ s.cost = some c := by
        cases hc : s.cost with
        | none => exact .inl rfl
        | some q => exact .inr (congrArg some (hs.cost q c (.inl hc) List.mem_cons_self))
      have hadd : s.add (.cost c) = .ok { s with cost := some c } := by
        rcases hkeep with h | h <;> simp [Settings.add, h]
      have hnext : Agree { s with cost := some c } ds := by
        refine ⟨fun a b ha hb => hs.policy a b (ha.imp_right (List.mem_cons_of_mem _))
          (List.mem_cons_of_mem _ hb), fun a b ha hb => hs.cost a b ?_ (List.mem_cons_of_mem _ hb)⟩
        rcases ha with ha | ha
        · cases ha
          exact .inr List.mem_cons_self
        · exact .inr (List.mem_cons_of_mem _ ha)
      simp only [collectSettings, hraw, hcheck, hadd, ih hnext]
      rcases hkeep with h | h <;> simp [List.findSome?_cons, Directive.policy?, Directive.cost?, h]

/-- Comment lines that say the directives of a definition give its annotations. -/
theorem readAnnotations_eq {notes : List String} (d : Definition)
    (h : List.Forall₂ Says notes d.directives) : readAnnotations notes = .ok d.annotations := by
  have hagree : Agree {} d.directives := by
    refine ⟨fun p q hp hq => d.one_policy p q ?_ hq, fun p q hp hq => d.one_cost p q ?_ hq⟩
    · exact hp.resolve_left (by simp)
    · exact hp.resolve_left (by simp)
  rw [readAnnotations, collectSettings_of_agree h hagree]
  rfl

end CBind.Source
