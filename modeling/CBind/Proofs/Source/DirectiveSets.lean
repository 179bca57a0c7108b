import CBind.Proofs.Source.Directives

/-!
# The directives of a block are a set

Which annotations a block of comment lines gives depends on the directives in it, not on their order or
number, and not on the prose around them. A block is read exactly if each directive in it is well formed and
no two of them contradict each other. Then the policy and the cost are those that its directives name, and
the defaults where none names one.

A line of a comment holds no line feed. For other texts, a line with a line feed in its argument counts as
prose, as the reader takes it.
-/

namespace CBind.Source

open CBind.Text

/-- The words that start a directive. -/
def directiveTexts : List (List Char) :=
  ["@sync".toList, "@async".toList, "@cost".toList]

/-- A line is the directive of a word with an argument: blanks around the line aside it starts with the
word, the word ends there, and what follows it, blanks around it aside, is the argument on one line. -/
structure IsDirective (line : String) (word argument : List Char) : Prop where
  known : word ∈ directiveTexts
  starts : ∃ rest, trim line.toList = word ++ rest ∧
    (∀ c, rest.head? = some c → isWordConstituent c = false) ∧ trim rest = argument
  oneLine : '\n' ∉ argument

/-- The word and the argument make a well-formed directive. -/
inductive Forms : List Char → List Char → Directive → Prop
  | sync : Forms "@sync".toList [] (.policy .sync)
  | async : Forms "@async".toList [] (.policy .async)
  | low : Forms "@cost".toList "low".toList (.cost .low)
  | high : Forms "@cost".toList "high".toList (.cost .high)

/-- The line is a well-formed directive. -/
def Names (line : String) (d : Directive) : Prop :=
  ∃ word argument, IsDirective line word argument ∧ Forms word argument d

/-- The directives ask for different policies or for different costs. -/
inductive Contradict : Directive → Directive → Prop
  | policy {p q : Policy} (h : p ≠ q) : Contradict (.policy p) (.policy q)
  | cost {c d : Cost} (h : c ≠ d) : Contradict (.cost c) (.cost d)

/-- All directives among the lines are well formed. -/
def AllFormed (lines : List String) : Prop :=
  ∀ line ∈ lines, ∀ word argument, IsDirective line word argument → ∃ d, Forms word argument d

/-- No two directives among the lines contradict each other. -/
def Consistent (lines : List String) : Prop :=
  ∀ line ∈ lines, ∀ other ∈ lines, ∀ d e, Names line d → Names other e → ¬Contradict d e

/-- The annotations are those that the directives among the lines name, and the defaults where none names
one. -/
structure Gives (lines : List String) (a : Annotations) : Prop where
  policy : ∀ line ∈ lines, ∀ p, Names line (.policy p) → a.policy = p
  noPolicy : (∀ line ∈ lines, ∀ p, ¬Names line (.policy p)) → a.policy = .sync
  cost : ∀ line ∈ lines, ∀ c, Names line (.cost c) → a.cost = c
  noCost : (∀ line ∈ lines, ∀ c, ¬Names line (.cost c)) → a.cost = .unspecified

/-- The lines in another order, with one of them repeated, or with a line of prose more or less. -/
inductive Rearranges : List String → List String → Prop
  | reorder {lines other : List String} (h : lines.Perm other) : Rearranges lines other
  | again {line : String} (front back : List String) (h : line ∈ front ++ back) :
      Rearranges (front ++ back) (front ++ line :: back)
  | insert {line : String} (front back : List String) (h : ∀ word argument, ¬IsDirective line word argument) :
      Rearranges (front ++ back) (front ++ line :: back)
  | remove {line : String} (front back : List String) (h : ∀ word argument, ¬IsDirective line word argument) :
      Rearranges (front ++ line :: back) (front ++ back)

/-! ## Directives in a line -/

/-- What stands behind a leading word that ends. -/
theorem afterWord?_eq_some_iff {word line rest : List Char} :
    afterWord? word line = some rest ↔
      line = word ++ rest ∧ ∀ c, rest.head? = some c → isWordConstituent c = false := by
  unfold afterWord?
  split
  next hprefix =>
    obtain ⟨more, rfl⟩ := List.isPrefixOf_iff_prefix.mp hprefix
    rw [List.drop_left, List.append_cancel_left_eq]
    cases more with
    | nil =>
      refine ⟨?_, fun h => congrArg some h.1⟩
      rintro ⟨⟩
      exact ⟨rfl, nofun⟩
    | cons c more =>
      by_cases hc : isWordConstituent c = true
      · simp only [if_pos hc]
        refine iff_of_false nofun ?_
        rintro ⟨rfl, hends⟩
        exact Bool.false_ne_true ((hends c rfl).symm.trans hc)
      · simp only [if_neg hc]
        refine ⟨?_, fun h => congrArg some h.1⟩
        rintro ⟨⟩
        refine ⟨rfl, ?_⟩
        rintro d ⟨⟩
        exact eq_false_of_ne_true hc
  next hprefix =>
    rw [List.isPrefixOf_iff_prefix] at hprefix
    refine iff_of_false nofun ?_
    rintro ⟨rfl, -⟩
    exact hprefix (List.prefix_append word rest)

/-- No directive word starts another one. -/
theorem eq_of_prefix_of_mem : ∀ v ∈ directiveWords, ∀ w ∈ directiveWords, v.1 <+: w.1 → v = w := by
  decide

/-- The directive words are the words that the reader knows. -/
theorem mem_directiveTexts {word : List Char} :
    word ∈ directiveTexts ↔ ∃ w, (word, w) ∈ directiveWords := by
  rw [show directiveTexts = directiveWords.map Prod.fst from rfl, List.mem_map]
  constructor
  · rintro ⟨⟨_, w⟩, hw, rfl⟩
    exact ⟨w, hw⟩
  · rintro ⟨w, hw⟩
    exact ⟨_, hw, rfl⟩

/-- What one of the known words reads off a line. -/
def readWord? (line : String) (w : List Char × DirectiveWord) : Option RawDirective :=
  (afterWord? w.1 (trim line.toList)).bind fun rest =>
    let argument := trim rest
    if argument.contains '\n' then none else some ⟨w.2, String.ofList argument⟩

/-- A known word reads off a line the directive that the line is. -/
theorem readWord?_eq_some_iff {line : String} {word : List Char} {w : DirectiveWord} {raw : RawDirective}
    (hw : (word, w) ∈ directiveWords) :
    readWord? line (word, w) = some raw ↔ raw.word = w ∧ IsDirective line word raw.argument.toList := by
  have hknown : word ∈ directiveTexts := mem_directiveTexts.mpr ⟨w, hw⟩
  simp only [readWord?, Option.bind_eq_some_iff, afterWord?_eq_some_iff]
  constructor
  · rintro ⟨rest, ⟨hline, hends⟩, hraw⟩
    split at hraw
    · contradiction
    next hfeed =>
      cases hraw
      rw [String.toList_ofList]
      exact ⟨rfl, hknown, ⟨rest, hline, hends, rfl⟩, by simpa using hfeed⟩
  · rintro ⟨rfl, -, ⟨rest, hline, hends, hrest⟩, hfeed⟩
    refine ⟨rest, ⟨hline, hends⟩, ?_⟩
    have hnone : raw.argument.toList.contains '\n' = false := by simpa using hfeed
    simp only [hrest, hnone, Bool.false_eq_true, ↓reduceIte, String.ofList_toList]

/-- A line is the directive of one word at most. -/
theorem IsDirective.word_unique {line : String} {v w : List Char × DirectiveWord} {a b : List Char}
    (hv : v ∈ directiveWords) (hw : w ∈ directiveWords) (ha : IsDirective line v.1 a)
    (hb : IsDirective line w.1 b) : v = w := by
  obtain ⟨rest, hline, -⟩ := ha.starts
  obtain ⟨more, hother, -⟩ := hb.starts
  have hprefix : v.1 <+: trim line.toList := ⟨rest, hline.symm⟩
  have hprefix' : w.1 <+: trim line.toList := ⟨more, hother.symm⟩
  rcases List.prefix_or_prefix_of_prefix hprefix hprefix' with h | h
  · exact eq_of_prefix_of_mem v hv w hw h
  · exact (eq_of_prefix_of_mem w hw v hv h).symm

/-- A line is read as the directive that it is. -/
theorem rawDirective?_eq_some_iff {line : String} {raw : RawDirective} :
    rawDirective? line = some raw ↔
      ∃ word, (word, raw.word) ∈ directiveWords ∧ IsDirective line word raw.argument.toList := by
  rw [show rawDirective? line = directiveWords.findSome? (readWord? line) from rfl]
  constructor
  · intro h
    obtain ⟨⟨word, w⟩, hw, hread⟩ := List.exists_of_findSome?_eq_some h
    obtain ⟨rfl, hdirective⟩ := (readWord?_eq_some_iff hw).mp hread
    exact ⟨word, hw, hdirective⟩
  · rintro ⟨word, hw, hdirective⟩
    have hread : readWord? line (word, raw.word) = some raw :=
      (readWord?_eq_some_iff hw).mpr ⟨rfl, hdirective⟩
    have hsome : (directiveWords.findSome? (readWord? line)).isSome := by
      rw [List.findSome?_isSome_iff]
      exact ⟨_, hw, by rw [hread]; rfl⟩
    obtain ⟨found, hfound⟩ := Option.isSome_iff_exists.mp hsome
    obtain ⟨⟨other, v⟩, hv, hother⟩ := List.exists_of_findSome?_eq_some hfound
    obtain ⟨rfl, hline⟩ := (readWord?_eq_some_iff hv).mp hother
    have hsame := IsDirective.word_unique hv hw hline hdirective
    rw [hfound, ← hother, hsame, hread]

/-! ## Well-formed directives -/

/-- The words and the arguments of the well-formed directives. -/
theorem forms_iff {word argument : List Char} {d : Directive} :
    Forms word argument d ↔
      (word = "@sync".toList ∧ argument = [] ∧ d = .policy .sync) ∨
      (word = "@async".toList ∧ argument = [] ∧ d = .policy .async) ∨
      (word = "@cost".toList ∧ argument = "low".toList ∧ d = .cost .low) ∨
      (word = "@cost".toList ∧ argument = "high".toList ∧ d = .cost .high) := by
  constructor
  · rintro (_ | _) <;> simp
  · rintro (⟨rfl, rfl, rfl⟩ | ⟨rfl, rfl, rfl⟩ | ⟨rfl, rfl, rfl⟩ | ⟨rfl, rfl, rfl⟩)
    · exact .sync
    · exact .async
    · exact .low
    · exact .high

/-- The word of a policy passes its check on its own. -/
theorem check_policy_iff {p : Policy} {argument : String} {d : Directive} :
    RawDirective.check ⟨.policy p, argument⟩ = .ok d ↔ argument = "" ∧ d = .policy p := by
  by_cases h : argument = "" <;> simp [RawDirective.check, h, @eq_comm _ d]

/-- The word of the cost passes its check with `low` and with `high`. -/
theorem check_cost_iff {argument : String} {d : Directive} :
    RawDirective.check ⟨.cost, argument⟩ = .ok d ↔
      (argument = "low" ∧ d = .cost .low) ∨ (argument = "high" ∧ d = .cost .high) := by
  by_cases hlow : argument = "low"
  · simp [RawDirective.check, hlow, @eq_comm _ d]
  by_cases hhigh : argument = "high"
  · simp [RawDirective.check, hhigh, @eq_comm _ d]
  · by_cases h : argument = "" <;> simp [RawDirective.check, hlow, hhigh, h]

/-- An argument passes the check of its word exactly if the two make a well-formed directive. -/
theorem check_eq_ok_iff {word : List Char} {raw : RawDirective} {d : Directive}
    (hw : (word, raw.word) ∈ directiveWords) :
    raw.check = .ok d ↔ Forms word raw.argument.toList d := by
  obtain ⟨w, argument⟩ := raw
  have hcases : (word = "@sync".toList ∧ w = .policy .sync) ∨
      (word = "@async".toList ∧ w = .policy .async) ∨ (word = "@cost".toList ∧ w = .cost) := by
    simpa [directiveWords] using hw
  rw [forms_iff, String.toList_eq_nil_iff, String.toList_inj, String.toList_inj]
  rcases hcases with ⟨rfl, rfl⟩ | ⟨rfl, rfl⟩ | ⟨rfl, rfl⟩
  · rw [check_policy_iff]
    simp
  · rw [check_policy_iff]
    simp
  · rw [check_cost_iff]
    simp

/-- The line is a well-formed directive exactly if it is read without a fault. -/
theorem names_iff_says {line : String} {d : Directive} : Names line d ↔ Says line d := by
  constructor
  · rintro ⟨word, argument, hline, hforms⟩
    obtain ⟨w, hw⟩ := mem_directiveTexts.mp hline.known
    rw [← @String.toList_ofList argument] at hline hforms
    exact ⟨⟨w, String.ofList argument⟩, rawDirective?_eq_some_iff.mpr ⟨word, hw, hline⟩,
      (check_eq_ok_iff hw).mpr hforms⟩
  · rintro ⟨raw, hraw, hcheck⟩
    obtain ⟨word, hw, hline⟩ := rawDirective?_eq_some_iff.mp hraw
    exact ⟨word, raw.argument.toList, hline, (check_eq_ok_iff hw).mp hcheck⟩

/-- All directives of a block are well formed exactly if each line that is read as one passes its check. -/
theorem allFormed_iff {lines : List String} :
    AllFormed lines ↔ ∀ line ∈ lines, ∀ raw, rawDirective? line = some raw → ∃ d, raw.check = .ok d := by
  constructor
  · intro h line hline raw hraw
    obtain ⟨word, hw, hdirective⟩ := rawDirective?_eq_some_iff.mp hraw
    obtain ⟨d, hd⟩ := h line hline word _ hdirective
    exact ⟨d, (check_eq_ok_iff hw).mpr hd⟩
  · intro h line hline word argument hdirective
    obtain ⟨w, hw⟩ := mem_directiveTexts.mp hdirective.known
    rw [← @String.toList_ofList argument] at hdirective ⊢
    obtain ⟨d, hd⟩ := h line hline ⟨w, String.ofList argument⟩
      (rawDirective?_eq_some_iff.mpr ⟨word, hw, hdirective⟩)
    exact ⟨d, (check_eq_ok_iff hw).mp hd⟩

/-! ## Reading a block -/

/-- The settings hold what a directive asks for. -/
def Settings.Has (s : Settings) : Directive → Prop
  | .policy p => s.policy = some p
  | .cost c => s.cost = some c

/-- Settings that hold the same are the same. -/
theorem Settings.ext_has {s t : Settings} (h : ∀ d, s.Has d ↔ t.Has d) : s = t := by
  obtain ⟨policy, cost⟩ := s
  obtain ⟨policy', cost'⟩ := t
  congr 1
  · exact Option.ext fun p => h (.policy p)
  · exact Option.ext fun c => h (.cost c)

/-- What settings hold does not contradict itself. -/
theorem Settings.Has.not_contradict {s : Settings} {d e : Directive} (hd : s.Has d) (he : s.Has e) :
    ¬Contradict d e := by
  rintro (hne | hne)
  · exact hne (Option.some.inj (hd.symm.trans he))
  · exact hne (Option.some.inj (hd.symm.trans he))

/-- The settings with what a directive asks for. -/
def Settings.put (s : Settings) : Directive → Settings
  | .policy p => { s with policy := some p }
  | .cost c => { s with cost := some c }

/-- Nothing other than a value was chosen exactly if whatever was chosen is that value. -/
theorem any_ne_eq_false_iff {α : Type} [DecidableEq α] {chosen : Option α} {a : α} :
    chosen.any (· != a) = false ↔ ∀ b, chosen = some b → b = a := by
  cases chosen <;> simp

/-- A directive is added exactly if it contradicts nothing that was set before. -/
theorem Settings.add_eq_ok_iff_put {s s' : Settings} {d : Directive} :
    s.add d = .ok s' ↔ (∀ e, s.Has e → ¬Contradict e d) ∧ s' = s.put d := by
  cases d with
  | policy p =>
    have hagrees : (∀ e, s.Has e → ¬Contradict e (.policy p)) ↔ ∀ q, s.policy = some q → q = p :=
      ⟨fun h q hq => by_contra fun hne => h (.policy q) hq (.policy hne),
        fun h e he hno => by cases hno with | policy hne => exact hne (h _ he)⟩
    rw [hagrees, ← any_ne_eq_false_iff, Settings.add]
    cases s.policy.any (· != p) <;> simp [Settings.put, @eq_comm _ s']
  | cost c =>
    have hagrees : (∀ e, s.Has e → ¬Contradict e (.cost c)) ↔ ∀ b, s.cost = some b → b = c :=
      ⟨fun h b hb => by_contra fun hne => h (.cost b) hb (.cost hne),
        fun h e he hno => by cases hno with | cost hne => exact hne (h _ he)⟩
    rw [hagrees, ← any_ne_eq_false_iff, Settings.add]
    cases s.cost.any (· != c) <;> simp [Settings.put, @eq_comm _ s']

/-- Settings with a directive that contradicts none of theirs hold what they held and the directive. -/
theorem Settings.has_put {s : Settings} {d : Directive} (h : ∀ e, s.Has e → ¬Contradict e d)
    (e : Directive) : (s.put d).Has e ↔ s.Has e ∨ e = d := by
  have hsame (p q : Policy) (hp : s.Has (.policy p)) (hd : d = .policy q) : p = q :=
    by_contra fun hne => h _ hp (hd ▸ .policy hne)
  have hsame' (a b : Cost) (ha : s.Has (.cost a)) (hd : d = .cost b) : a = b :=
    by_contra fun hne => h _ ha (hd ▸ .cost hne)
  cases d with
  | policy p => cases e with
    | policy q =>
      rw [Settings.put, Settings.Has, Option.some.injEq, Directive.policy.injEq, eq_comm]
      exact (or_iff_right_of_imp fun hq => hsame q p hq rfl).symm
    | cost c => simp [Settings.put, Settings.Has]
  | cost b => cases e with
    | policy q => simp [Settings.put, Settings.Has]
    | cost c =>
      rw [Settings.put, Settings.Has, Option.some.injEq, Directive.cost.injEq, eq_comm]
      exact (or_iff_right_of_imp fun hc => hsame' c b hc rfl).symm

/-- Adding a directive leaves the settings that hold what they held and the directive. -/
theorem Settings.add_eq_ok_iff {s s' : Settings} {d : Directive} :
    s.add d = .ok s' ↔ ∀ e, s'.Has e ↔ s.Has e ∨ e = d := by
  rw [Settings.add_eq_ok_iff_put]
  constructor
  · rintro ⟨hagrees, rfl⟩
    exact Settings.has_put hagrees
  · intro h
    have hagrees : ∀ e, s.Has e → ¬Contradict e d :=
      fun e he => ((h e).mpr (.inl he)).not_contradict ((h d).mpr (.inr rfl))
    exact ⟨hagrees, Settings.ext_has fun e => (h e).trans (Settings.has_put hagrees e).symm⟩

/-- A block is read into settings exactly if its directives are well formed and the settings hold what was
set before and what the directives ask for, and nothing else. -/
theorem collectSettings_eq_ok_iff {lines : List String} {s s' : Settings} :
    collectSettings s lines = .ok s' ↔
      AllFormed lines ∧ ∀ d, s'.Has d ↔ s.Has d ∨ ∃ line ∈ lines, Names line d := by
  simp only [allFormed_iff, names_iff_says]
  induction lines generalizing s with
  | nil =>
    rw [collectSettings, Except.ok.injEq]
    constructor
    · rintro rfl
      exact ⟨by simp, fun d => (or_iff_left (by simp)).symm⟩
    · rintro ⟨-, h⟩
      exact Settings.ext_has fun d => ((h d).trans (or_iff_left (by simp))).symm
  | cons line lines ih =>
    rw [collectSettings]
    split
    next hprose =>
      rw [ih]
      have hstates : ∀ d, ¬Says line d := by simp [Says, hprose]
      simp [hprose, hstates]
    next raw hraw =>
      cases hcheck : raw.check with
      | error fault =>
        refine iff_of_false (by simp) ?_
        rintro ⟨h, -⟩
        obtain ⟨d, hd⟩ := h line List.mem_cons_self raw hraw
        rw [hcheck] at hd
        contradiction
      | ok e =>
        have hstates (d : Directive) : Says line d ↔ d = e := by
          simp [Says, hraw, hcheck, eq_comm]
        cases hadd : s.add e with
        | error fault =>
          simp only [hadd]
          refine iff_of_false (by simp) ?_
          rintro ⟨-, h⟩
          have he : s'.Has e := (h e).mpr (.inr ⟨line, List.mem_cons_self, (hstates e).mpr rfl⟩)
          have hput : s.add e = .ok (s.put e) := Settings.add_eq_ok_iff_put.mpr
            ⟨fun d hd => ((h d).mpr (.inl hd)).not_contradict he, rfl⟩
          rw [hadd] at hput
          contradiction
        | ok t =>
          have ht := Settings.add_eq_ok_iff.mp hadd
          simp only [hadd]
          rw [ih]
          simp [hraw, hcheck, hstates, ht, or_assoc]

/-- A block is read exactly if its directives are well formed and settings hold what they ask for, and nothing
else. The annotations are then those of the settings. -/
theorem readAnnotations_eq_ok_iff {lines : List String} {a : Annotations} :
    readAnnotations lines = .ok a ↔ AllFormed lines ∧
      ∃ s : Settings, (∀ d, s.Has d ↔ ∃ line ∈ lines, Names line d) ∧ s.annotations = a := by
  have hempty (d : Directive) : ¬Settings.Has {} d := by
    cases d <;> simp [Settings.Has]
  have hcollect (s : Settings) : collectSettings {} lines = .ok s ↔
      AllFormed lines ∧ ∀ d, s.Has d ↔ ∃ line ∈ lines, Names line d := by
    simp only [collectSettings_eq_ok_iff, hempty, false_or]
  rw [readAnnotations]
  constructor
  · intro h
    cases hs : collectSettings {} lines with
    | error fault =>
      rw [hs] at h
      contradiction
    | ok s =>
      rw [hs] at h
      obtain ⟨hformed, hhas⟩ := (hcollect s).mp hs
      exact ⟨hformed, s, hhas, Except.ok.inj h⟩
  · rintro ⟨hformed, s, hhas, rfl⟩
    rw [(hcollect s).mpr ⟨hformed, hhas⟩]
    rfl

/-- What is asked for in one way only can be set. -/
theorem exists_setting {α : Type} {asked : α → Prop} (h : ∀ x y, asked x → asked y → x = y) :
    ∃ setting : Option α, ∀ x, setting = some x ↔ asked x := by
  by_cases hany : ∃ x, asked x
  · obtain ⟨x, hx⟩ := hany
    refine ⟨some x, fun y => ⟨fun hy => Option.some.inj hy ▸ hx, fun hy => congrArg some (h x y hx hy)⟩⟩
  · exact ⟨none, fun x => iff_of_false (Option.some_ne_none x).symm fun hx => hany ⟨x, hx⟩⟩

/-- A setting that is what is asked for gives that, and the default where nothing is asked for. -/
theorem getD_of_asked {α : Type} {setting : Option α} {asked : α → Prop}
    (h : ∀ x, setting = some x ↔ asked x) (default : α) :
    (∀ x, asked x → setting.getD default = x) ∧ ((∀ x, ¬asked x) → setting.getD default = default) := by
  constructor
  · intro x hx
    rw [(h x).mpr hx, Option.getD_some]
  · intro hnone
    rw [Option.eq_none_iff_forall_ne_some.mpr fun x hx => hnone x ((h x).mp hx), Option.getD_none]

/-- What is asked for, or a default where nothing is, is one value. -/
theorem eq_of_asked {α : Type} {asked : α → Prop} {x y default : α}
    (hx : (∀ z, asked z → x = z) ∧ ((∀ z, ¬asked z) → x = default))
    (hy : (∀ z, asked z → y = z) ∧ ((∀ z, ¬asked z) → y = default)) : x = y := by
  by_cases hany : ∃ z, asked z
  · obtain ⟨z, hz⟩ := hany
    rw [hx.1 z hz, hy.1 z hz]
  · have hnone : ∀ z, ¬asked z := not_exists.mp hany
    rw [hx.2 hnone, hy.2 hnone]

/-- Directives that do not contradict each other can be set together. -/
theorem exists_settings {asked : Directive → Prop} (h : ∀ d e, asked d → asked e → ¬Contradict d e) :
    ∃ s : Settings, ∀ d, s.Has d ↔ asked d := by
  obtain ⟨policy, hpolicy⟩ := @exists_setting Policy (fun p => asked (.policy p)) fun p q hp hq =>
    by_contra fun hne => h _ _ hp hq (.policy hne)
  obtain ⟨cost, hcost⟩ := @exists_setting Cost (fun c => asked (.cost c)) fun c d hc hd =>
    by_contra fun hne => h _ _ hc hd (.cost hne)
  refine ⟨⟨policy, cost⟩, fun d => ?_⟩
  cases d with
  | policy p => exact hpolicy p
  | cost c => exact hcost c

/-- A block is read exactly if its directives are well formed and consistent. -/
theorem exists_readAnnotations_iff {lines : List String} :
    (∃ a, readAnnotations lines = .ok a) ↔ AllFormed lines ∧ Consistent lines := by
  simp only [readAnnotations_eq_ok_iff]
  constructor
  · rintro ⟨a, hformed, s, hhas, -⟩
    refine ⟨hformed, fun line hline other hother d e hd he => ?_⟩
    exact ((hhas d).mpr ⟨line, hline, hd⟩).not_contradict ((hhas e).mpr ⟨other, hother, he⟩)
  · rintro ⟨hformed, hconsistent⟩
    obtain ⟨s, hs⟩ := @exists_settings (fun d => ∃ line ∈ lines, Names line d)
      fun d e ⟨line, hline, hd⟩ ⟨other, hother, he⟩ => hconsistent line hline other hother d e hd he
    exact ⟨s.annotations, hformed, s, hs, rfl⟩

/-- Annotations are given exactly if each of them is the one that is named, or else its default. -/
theorem gives_iff {lines : List String} {a : Annotations} :
    Gives lines a ↔
      ((∀ p, (∃ line ∈ lines, Names line (.policy p)) → a.policy = p) ∧
        ((∀ p, ¬∃ line ∈ lines, Names line (.policy p)) → a.policy = .sync)) ∧
      (∀ c, (∃ line ∈ lines, Names line (.cost c)) → a.cost = c) ∧
        ((∀ c, ¬∃ line ∈ lines, Names line (.cost c)) → a.cost = .unspecified) := by
  constructor
  · intro h
    refine ⟨⟨?_, fun hnone => h.noPolicy fun line hline p hp => hnone p ⟨line, hline, hp⟩⟩,
      ?_, fun hnone => h.noCost fun line hline c hc => hnone c ⟨line, hline, hc⟩⟩
    · rintro p ⟨line, hline, hp⟩
      exact h.policy line hline p hp
    · rintro c ⟨line, hline, hc⟩
      exact h.cost line hline c hc
  · rintro ⟨⟨hpolicy, hnoPolicy⟩, hcost, hnoCost⟩
    refine ⟨fun line hline p hp => hpolicy p ⟨line, hline, hp⟩, fun hnone => hnoPolicy ?_,
      fun line hline c hc => hcost c ⟨line, hline, hc⟩, fun hnone => hnoCost ?_⟩
    · rintro p ⟨line, hline, hp⟩
      exact hnone line hline p hp
    · rintro c ⟨line, hline, hc⟩
      exact hnone line hline c hc

/-- The annotations that a block is read as are those that its directives name. -/
theorem gives_of_readAnnotations {lines : List String} {a : Annotations} (h : readAnnotations lines = .ok a) :
    Gives lines a := by
  obtain ⟨-, s, hhas, rfl⟩ := readAnnotations_eq_ok_iff.mp h
  exact gives_iff.mpr ⟨getD_of_asked (fun p => hhas (.policy p)) .sync,
    getD_of_asked (fun c => hhas (.cost c)) .unspecified⟩

/-- The directives of a block name one policy and one cost. -/
theorem Gives.unique {lines : List String} {a b : Annotations} (ha : Gives lines a) (hb : Gives lines b) :
    a = b := by
  obtain ⟨hpolicyA, hcostA⟩ := gives_iff.mp ha
  obtain ⟨hpolicyB, hcostB⟩ := gives_iff.mp hb
  exact (Annotations.mk.injEq ..).mpr ⟨eq_of_asked hpolicyA hpolicyB, eq_of_asked hcostA hcostB⟩

/-- A block is read as annotations exactly if its directives are well formed and consistent and name them. -/
theorem readAnnotations_iff_gives {lines : List String} {a : Annotations} :
    readAnnotations lines = .ok a ↔ AllFormed lines ∧ Consistent lines ∧ Gives lines a := by
  constructor
  · intro h
    obtain ⟨hformed, hconsistent⟩ := exists_readAnnotations_iff.mp ⟨a, h⟩
    exact ⟨hformed, hconsistent, gives_of_readAnnotations h⟩
  · rintro ⟨hformed, hconsistent, hgives⟩
    obtain ⟨b, hb⟩ := exists_readAnnotations_iff.mpr ⟨hformed, hconsistent⟩
    rwa [hgives.unique (gives_of_readAnnotations hb)]

/-! ## Other blocks with the same directives -/

/-- Two blocks have the same lines that are directives. -/
def SameDirectives (lines other : List String) : Prop :=
  ∀ line word argument, IsDirective line word argument → (line ∈ lines ↔ line ∈ other)

/-- A rearranged block has the same directives. -/
theorem Rearranges.sameDirectives {lines other : List String} (h : Rearranges lines other) :
    SameDirectives lines other := by
  intro line word argument hline
  cases h with
  | reorder h => exact h.mem_iff
  | @again copy front back h =>
    rw [List.perm_middle.mem_iff, List.mem_cons]
    exact (or_iff_right_of_imp fun hcopy => hcopy ▸ h).symm
  | @insert prose front back h =>
    have hne : line ≠ prose := fun heq => h word argument (heq ▸ hline)
    rw [List.perm_middle.mem_iff, List.mem_cons, or_iff_right hne]
  | @remove prose front back h =>
    have hne : line ≠ prose := fun heq => h word argument (heq ▸ hline)
    rw [List.perm_middle.mem_iff, List.mem_cons, or_iff_right hne]

/-- Blocks with the same directives are read as the same annotations, or neither of them is read. -/
theorem SameDirectives.readAnnotations_eq {lines other : List String} (h : SameDirectives lines other) :
    (readAnnotations lines).toOption = (readAnnotations other).toOption := by
  have hformed : AllFormed lines ↔ AllFormed other := by
    constructor
    · exact fun hall line hline word argument hd =>
        hall line ((h line word argument hd).mpr hline) word argument hd
    · exact fun hall line hline word argument hd =>
        hall line ((h line word argument hd).mp hline) word argument hd
  have hnamed (d : Directive) : (∃ line ∈ lines, Names line d) ↔ ∃ line ∈ other, Names line d := by
    refine exists_congr fun line => and_congr_left ?_
    rintro ⟨word, argument, hd, -⟩
    exact h line word argument hd
  have hsame (a : Annotations) : readAnnotations lines = .ok a ↔ readAnnotations other = .ok a := by
    simp only [readAnnotations_eq_ok_iff, hformed, hnamed]
  cases hread : readAnnotations lines with
  | ok a => rw [(hsame a).mp hread]
  | error fault =>
    cases hother : readAnnotations other with
    | ok a =>
      rw [(hsame a).mpr hother] at hread
      contradiction
    | error fault' => rfl

/-- The directives of a block are a set. A block is read exactly if all its directives are well formed and no
two of them contradict each other. It is then read as the annotations that they name, with the defaults where
none is named. With its lines in another order, a line repeated, or prose added or removed, it is read as the
same annotations, or fails to be read as before. -/
theorem readAnnotations_directiveSet (lines : List String) :
    ((∃ a, readAnnotations lines = .ok a) ↔ AllFormed lines ∧ Consistent lines) ∧
    (∀ a, readAnnotations lines = .ok a ↔ AllFormed lines ∧ Consistent lines ∧ Gives lines a) ∧
    ∀ other, Rearranges lines other →
      (readAnnotations lines).toOption = (readAnnotations other).toOption :=
  ⟨exists_readAnnotations_iff, fun _ => readAnnotations_iff_gives,
    fun _ h => h.sameDirectives.readAnnotations_eq⟩

/-- A policy and a cost are read in either order. -/
theorem readAnnotations_directiveSet_swapped :
    readAnnotations ["@async", "@cost low"] = .ok ⟨.async, .low⟩ ∧
    (readAnnotations ["@async", "@cost low"]).toOption = (readAnnotations ["@cost low", "@async"]).toOption :=
  ⟨by decide, (readAnnotations_directiveSet ["@async", "@cost low"]).2.2 ["@cost low", "@async"]
    (.reorder (.swap "@cost low" "@async" []))⟩

end CBind.Source
