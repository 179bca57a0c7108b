import CBind.Proofs.Source.Grammar
import CBind.Proofs.Source.WellFormed
import Mathlib.Data.List.Nodup
import Mathlib.Data.List.TakeWhile

/-!
# The names of described functions

An identifier is cut off a text as a word, and a function is named by the identifier in front of its
parameter list. So every described function is named by a word, whatever the text is. Since no two of them
have one name, each is found by its own.
-/

namespace CBind.Source

open CBind.Text

/-- What is cut off as a name is a word. -/
theorem isWord_of_nextLexeme {lineStart : Bool} {c : Char} {rest text : List Char}
    (h : (nextLexeme lineStart c rest).1 = .name text) : isWord text = true := by
  unfold nextLexeme at h
  split at h
  · contradiction
  split at h
  · contradiction
  split at h
  · contradiction
  split at h
  · contradiction
  split at h
  · contradiction
  split at h
  · contradiction
  split at h
  next hletter =>
    obtain rfl := Lexeme.name.inj h
    rw [isWord, hletter, Bool.true_and, List.all_eq_true]
    exact fun d hd => List.mem_takeWhile_imp hd
  split at h
  · contradiction
  · contradiction

/-- The names among the lexemes of a text are words. -/
theorem isWord_of_mem_lexemesFrom {lineStart : Bool} {cs text : List Char}
    (h : .name text ∈ lexemesFrom lineStart cs) : isWord text = true := by
  fun_induction lexemesFrom lineStart cs with
  | case1 => contradiction
  | case2 lineStart c rest cut ih =>
    rcases List.mem_cons.mp h with hcut | h
    · exact isWord_of_nextLexeme hcut.symm
    · exact ih h

/-- The identifiers among placed comment lines are none. -/
theorem not_ident_of_mem_placeLines {line : Nat} {texts : List (List Char)} {t : Placed}
    (h : t ∈ placeLines line texts) (name : String) : t.token ≠ .ident name := by
  induction texts generalizing line with
  | nil => contradiction
  | cons text texts ih =>
    rcases List.mem_cons.mp h with rfl | h
    · exact nofun
    · exact ih h

/-- A single character is no identifier. -/
theorem Token.ofChar_ne_ident (c : Char) (name : String) : ofChar c ≠ .ident name := by
  unfold ofChar
  split <;> exact nofun

/-- An identifier is the token of a name. -/
theorem Lexeme.eq_name_of_mem_tokens {line : Nat} {l : Lexeme} {t : Placed} {name : String}
    (h : t ∈ l.tokens line) (hname : t.token = .ident name) : l = .name name.toList := by
  cases l with
  | blank c => contradiction
  | blockComment body closed => exact absurd hname (not_ident_of_mem_placeLines h name)
  | mark c =>
    rw [List.mem_singleton.mp h] at hname
    exact absurd hname (Token.ofChar_ne_ident c name)
  | name text =>
    rw [List.mem_singleton.mp h] at hname
    rw [← Token.ident.inj hname, String.toList_ofList]
  | _ =>
    rw [List.mem_singleton.mp h] at hname
    contradiction

/-- An identifier among tokens is the token of a name. -/
theorem name_mem_of_mem_tokensFrom {line : Nat} {ls : List Lexeme} {t : Placed} {name : String}
    (h : t ∈ tokensFrom line ls) (hname : t.token = .ident name) : .name name.toList ∈ ls := by
  induction ls generalizing line with
  | nil => contradiction
  | cons l ls ih =>
    rcases List.mem_append.mp h with h | h
    · exact l.eq_name_of_mem_tokens h hname ▸ List.mem_cons_self
    · exact List.mem_cons_of_mem _ (ih h)

/-- The identifiers of a text are words. -/
theorem isWord_of_mem_tokenize {text name : String} {t : Placed} (h : t ∈ tokenize text)
    (hname : t.token = .ident name) : isWord name.toList = true :=
  isWord_of_mem_lexemesFrom (name_mem_of_mem_tokensFrom h hname)

/-- What a header declares is named by one of its identifiers. -/
theorem exists_ident_of_readDeclarator {header : List Placed} {d : Declarator}
    (h : readDeclarator header = .ok d) : ∃ t ∈ header, t.token = .ident d.name := by
  unfold readDeclarator at h
  dsimp only at h
  split at h
  · contradiction
  split at h
  · contradiction
  next name hdeclared =>
  split at h
  · contradiction
  split at h
  · cases h
    obtain ⟨hlast, -⟩ := Option.filter_eq_some_iff.mp hdeclared
    obtain ⟨t, ht, hname⟩ := Option.bind_eq_some_iff.mp hlast
    refine ⟨t, (List.takeWhile_sublist _).subset (List.mem_of_getLast? ht), ?_⟩
    revert hname
    cases t.token with
    | ident n =>
      intro hname
      exact congrArg Token.ident (Option.some.inj hname)
    | _ =>
      intro hname
      change none = some _ at hname
      contradiction
  · contradiction

/-- A header of a text asks for a word as the name. -/
theorem isWord_of_blockName? {text name : String} {header : List Placed}
    (hheader : header ∈ blockHeaders (tokenize text)) (h : blockName? header = some name) :
    isWord name.toList = true := by
  unfold blockName? at h
  split at h
  · obtain ⟨d, hd, rfl⟩ := Option.map_eq_some_iff.mp h
    cases hread : readDeclarator (stripAttributes header) with
    | error fault =>
      rw [hread] at hd
      contradiction
    | ok declarator =>
      rw [hread] at hd
      obtain rfl : declarator = d := Option.some.inj hd
      obtain ⟨t, ht, hname⟩ := exists_ident_of_readDeclarator hread
      have htext := mem_of_mem_blockHeaders hheader (mem_of_mem_stripAttributes ht)
      exact isWord_of_mem_tokenize htext hname
  · contradiction

/-- The reader keeps its descriptors sound up to the end of a text. -/
theorem sound_readTokens (file : String) (tokens : List Placed) :
    ((blockHeaders tokens).foldl (Progress.readBlock file tokens) {}).Sound :=
  Progress.Sound.start.foldl file tokens _

/-- Every described function is named by a word. -/
theorem isWord_of_mem_descriptors {file text : String} {d : Descriptor}
    (h : d ∈ (readSource file text).descriptors) : isWord d.name.toList = true := by
  have hdefined := (sound_readTokens file (tokenize text)).defined d h
  obtain ⟨header, hheader, hname⟩ := mem_definedNames.mp hdefined
  exact isWord_of_blockName? hheader hname

/-- Every described function is found by its name. -/
theorem find?_of_mem_descriptors {file text : String} {d : Descriptor}
    (h : d ∈ (readSource file text).descriptors) : (readSource file text).find? d.name = some d := by
  have hnodup := (sound_readTokens file (tokenize text)).names_nodup
  cases hfind : (readSource file text).find? d.name with
  | none => exact absurd (beq_self_eq_true d.name) (List.find?_eq_none.mp hfind d h)
  | some found =>
    have hname : found.name = d.name := by
      have h := List.find?_some hfind
      exact beq_iff_eq.mp h
    exact congrArg some (List.inj_on_of_nodup_map hnodup (List.mem_of_find?_eq_some hfind) h hname)

end CBind.Source
