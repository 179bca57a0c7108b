import CBind.Proofs.Source.Scanning
import CBind.Source.Reading

/-!
# Comments without directives

Comments matter to a reading only through the directives in them. Where no comment holds an at sign,
every function has the annotations it has without comments, so a reading depends on nothing but the
tokens that are not comments.
-/

namespace CBind.Source

open CBind.Text

/-- No comment of a token sequence holds an at sign. -/
def Prose (tokens : List Placed) : Prop :=
  ∀ t ∈ tokens, ∀ text, t.token = .comment text → '@' ∉ text.toList

section Directives

/-- Trimming keeps characters in order. -/
theorem trim_sublist (cs : List Char) : (trim cs).Sublist cs := by
  have hend : (trimEnd (trimStart cs)).Sublist (trimStart cs) :=
    List.reverse_sublist.mp (by
      rw [trimEnd, List.reverse_reverse]
      exact List.dropWhile_sublist isBlank)
  exact hend.trans (List.dropWhile_sublist isBlank)

/-- A line starts with no word whose first character it does not hold. -/
theorem afterWord?_eq_none {c : Char} {word line : List Char} (h : c ∉ line) :
    afterWord? (c :: word) line = none := by
  cases line with
  | nil => rfl
  | cons d line =>
    have hcd : (c == d) = false := by
      rw [List.mem_cons, not_or] at h
      simpa using h.1
    simp [afterWord?, List.isPrefixOf, hcd]

/-- A line without an at sign is no directive. -/
theorem rawDirective?_eq_none {line : String} (h : '@' ∉ line.toList) : rawDirective? line = none := by
  have htrim : '@' ∉ trim line.toList := fun hmem => h ((trim_sublist _).subset hmem)
  rw [rawDirective?, List.findSome?_eq_none_iff]
  intro w hw
  have hword : ∃ rest, w.1 = '@' :: rest := by
    simp only [directiveWords, List.mem_cons, List.not_mem_nil, or_false] at hw
    rcases hw with rfl | rfl | rfl <;> exact ⟨_, rfl⟩
  obtain ⟨rest, hrest⟩ := hword
  rw [hrest, afterWord?_eq_none htrim]
  rfl

/-- Lines without at signs leave the annotations of a function without comments. -/
theorem readAnnotations_of_prose {lines : List String} (h : ∀ line ∈ lines, '@' ∉ line.toList) :
    readAnnotations lines = .ok {} := by
  have hnone (s : Settings) : collectSettings s lines = .ok s := by
    induction lines with
    | nil => rfl
    | cons line lines ih =>
      rw [List.forall_mem_cons] at h
      simp only [collectSettings, rawDirective?_eq_none h.1, ih h.2]
  rw [readAnnotations, hnone]
  rfl

/-- Joined comments hold the characters of the comments and spaces. -/
theorem mem_joinComments {texts : List String} {c : Char} (h : c ∈ (joinComments texts).toList) :
    c = ' ' ∨ ∃ text ∈ texts, c ∈ text.toList := by
  -- Folding adds to what was joined so far, so the claim is shown for any such start.
  have hfold (texts : List String) (joined : String) (hc : c ∈ (texts.foldl (fun joined text =>
      if joined.isEmpty then text else joined ++ " " ++ text) joined).toList) :
      c ∈ joined.toList ∨ c = ' ' ∨ ∃ text ∈ texts, c ∈ text.toList := by
    induction texts generalizing joined with
    | nil => exact .inl hc
    | cons text texts ih =>
      have hadded : c ∈ (if joined.isEmpty then text else joined ++ " " ++ text).toList →
          c ∈ joined.toList ∨ c = ' ' ∨ c ∈ text.toList := by
        split
        · exact fun hc => .inr (.inr hc)
        · simp only [String.toList_append, List.mem_append]
          rintro ((hc | hc) | hc)
          · exact .inl hc
          · exact .inr (.inl (List.mem_singleton.mp hc))
          · exact .inr (.inr hc)
      rcases ih _ hc with hc | hc | ⟨other, hother, hc⟩
      · rcases hadded hc with hc | hc | hc
        · exact .inl hc
        · exact .inr (.inl hc)
        · exact .inr (.inr ⟨text, List.mem_cons_self, hc⟩)
      · exact .inr (.inl hc)
      · exact .inr (.inr ⟨other, List.mem_cons_of_mem text hother, hc⟩)
  exact (hfold texts "" h).resolve_left (by simp)

variable {tokens : List Placed}

/-- The comments on a line of prose hold no at sign. -/
theorem prose_commentsOn (h : Prose tokens) {line : Nat} {text : String}
    (hmem : text ∈ commentsOn tokens line) : '@' ∉ text.toList := by
  obtain ⟨t, ht, hsome⟩ := List.mem_filterMap.mp hmem
  split at hsome
  · next own hown =>
    split at hsome
    · rw [Option.some.injEq] at hsome
      exact hsome ▸ h t ht own hown
    · contradiction
  · contradiction

/-- The comment lines above a line of prose hold no at sign. -/
theorem prose_commentsAbove (h : Prose tokens) {line : Nat} {text : String}
    (hmem : text ∈ commentsAbove tokens line) : '@' ∉ text.toList := by
  induction line with
  | zero => simp [commentsAbove] at hmem
  | succ n ih =>
    rw [commentsAbove] at hmem
    split at hmem
    · simp at hmem
    · split at hmem
      · simp at hmem
      · rcases List.mem_append.mp hmem with hmem | hmem
        · exact ih hmem
        · rw [List.mem_singleton.mp hmem]
          intro hat
          rcases mem_joinComments hat with hspace | ⟨own, hown, hat⟩
          · contradiction
          · exact prose_commentsOn h hown hat

/-- Above a definition, prose says what no comment says. -/
theorem readAnnotations_commentsAbove (h : Prose tokens) (line : Nat) :
    readAnnotations (commentsAbove tokens line) = .ok {} :=
  readAnnotations_of_prose fun _ hmem => prose_commentsAbove h hmem

end Directives

section Readings

variable {a b tokens : List Placed}

/-- The scan passes over comments. -/
theorem run_code (s : Scan) (tokens : List Placed) : s.run (code tokens) = s.run tokens := by
  induction tokens generalizing s with
  | nil => rfl
  | cons t tokens ih =>
    by_cases hcomment : t.token.isComment = true
    · rw [code, List.filter_cons_of_neg (by simpa using hcomment), ← code, ih, Scan.run_cons,
        Scan.step_comment hcomment]
    · rw [code, List.filter_cons_of_pos (by simpa using hcomment), ← code, Scan.run_cons, ih,
        Scan.run_cons]

/-- What comments above a definition say is all that matters of them. -/
theorem readDefinition_congr {above above' : List String}
    (h : readAnnotations above = readAnnotations above') (location : Location) (d : Declarator) :
    readDefinition location above d = readDefinition location above' d := by
  simp only [readDefinition, h]

/-- Blocks among prose are looked at alike. -/
theorem readBlock_congr (file : String) (ha : Prose a) (hb : Prose b) (p : Progress)
    (header : List Placed) : p.readBlock file a header = p.readBlock file b header := by
  have hdefinition (location : Location) (line : Nat) (d : Declarator) :
      readDefinition location (commentsAbove a line) d =
        readDefinition location (commentsAbove b line) d :=
    readDefinition_congr ((readAnnotations_commentsAbove ha line).trans
      (readAnnotations_commentsAbove hb line).symm) location d
  simp only [Progress.readBlock, Progress.readHeader, hdefinition]

/-- Token sequences of prose that differ in comments only are read the same. -/
theorem readTokens_congr (file : String) (h : code a = code b) (ha : Prose a) (hb : Prose b) :
    readTokens file a = readTokens file b := by
  have hheaders : blockHeaders a = blockHeaders b := by
    rw [blockHeaders, blockHeaders, ← run_code, h, run_code]
  have hread : Progress.readBlock file a = Progress.readBlock file b := by
    funext p header
    exact readBlock_congr file ha hb p header
  rw [readTokens, readTokens, hheaders, hread]

end Readings

section Texts

/-- The characters of a line come from the text. -/
theorem mem_of_mem_splitLines {cs line : List Char} (hline : line ∈ splitLines cs) {c : Char}
    (hc : c ∈ line) : c ∈ cs := by
  induction cs generalizing line with
  | nil =>
    rw [List.mem_singleton.mp hline] at hc
    contradiction
  | cons d cs ih =>
    rw [splitLines] at hline
    split at hline
    · rcases List.mem_cons.mp hline with rfl | hline
      · contradiction
      · exact List.mem_cons_of_mem d (ih hline hc)
    · split at hline
      · rw [List.mem_singleton.mp hline, List.mem_singleton] at hc
        exact hc ▸ List.mem_cons_self
      · next first lines hlines =>
        rcases List.mem_cons.mp hline with rfl | hline
        · rcases List.mem_cons.mp hc with rfl | hc
          · exact List.mem_cons_self
          · exact List.mem_cons_of_mem d (ih (hlines ▸ List.mem_cons_self) hc)
        · exact List.mem_cons_of_mem d (ih (hlines ▸ List.mem_cons_of_mem first hline) hc)

/-- The text of a comment line comes from the line. -/
theorem mem_of_mem_blockLineText {line : List Char} {c : Char} (h : c ∈ (blockLineText line).toList) :
    c ∈ line := by
  refine (trim_sublist line).subset ?_
  unfold blockLineText at h
  split at h
  · next rest hrest =>
    rw [String.toList_ofList] at h
    exact hrest ▸ List.mem_cons_of_mem '*' ((trim_sublist rest).subset h)
  · rwa [String.toList_ofList] at h

/-- The tokens of comment lines have the texts of the lines. -/
theorem exists_of_mem_placeLines {line : Nat} {texts : List (List Char)} {t : Placed}
    (h : t ∈ placeLines line texts) : ∃ text ∈ texts, t.token = .comment (blockLineText text) := by
  induction texts generalizing line with
  | nil => simp [placeLines] at h
  | cons text texts ih =>
    rcases List.mem_cons.mp h with rfl | h
    · exact ⟨text, List.mem_cons_self, rfl⟩
    · obtain ⟨other, hother, htoken⟩ := ih h
      exact ⟨other, List.mem_cons_of_mem text hother, htoken⟩

/-- The characters of a comment come from its lexeme. -/
theorem Lexeme.mem_of_comment {l : Lexeme} {line : Nat} {t : Placed} {text : String}
    (ht : t ∈ l.tokens line) (htext : t.token = .comment text) {c : Char} (hc : c ∈ text.toList) :
    c ∈ l.text := by
  cases l with
  | blank d => simp [tokens] at ht
  | lineComment body =>
    rw [List.mem_singleton.mp ht, Token.comment.injEq] at htext
    rw [← htext, String.toList_ofList] at hc
    exact List.mem_cons_of_mem _ (List.mem_cons_of_mem _ ((trim_sublist body).subset hc))
  | blockComment body closed =>
    obtain ⟨own, hown, htoken⟩ := exists_of_mem_placeLines ht
    rw [htoken, Token.comment.injEq] at htext
    have hbody : c ∈ body := mem_of_mem_splitLines hown (mem_of_mem_blockLineText (htext ▸ hc))
    exact List.mem_cons_of_mem _ (List.mem_cons_of_mem _ (List.mem_append_left _ hbody))
  | mark d =>
    rw [List.mem_singleton.mp ht] at htext
    have hcode := Token.isTrivia_ofChar d
    rw [show Token.ofChar d = .comment text from htext] at hcode
    contradiction
  | _ =>
    rw [List.mem_singleton.mp ht] at htext
    contradiction

/-- A text without at signs is prose. -/
theorem prose_tokensFrom {cs : List Char} (h : '@' ∉ cs) (line : Nat) (lineStart : Bool) :
    Prose (tokensFrom line (lexemesFrom lineStart cs)) := by
  rw [← flatMap_text_lexemesFrom lineStart cs] at h
  generalize lexemesFrom lineStart cs = ls at h
  induction ls generalizing line with
  | nil => exact fun t ht => absurd ht List.not_mem_nil
  | cons l ls ih =>
    rw [List.flatMap_cons, List.mem_append, not_or] at h
    intro t ht text htext hat
    rcases List.mem_append.mp ht with ht | ht
    · exact h.1 (Lexeme.mem_of_comment ht htext hat)
    · exact ih _ h.2 t ht text htext hat

end Texts

end CBind.Source
