import CBind.Proofs.Source.Directives
import CBind.Proofs.Source.Relocation
import CBind.Proofs.Source.Vocabulary

/-!
# Reading headers of the restricted grammar

A header of the grammar is taken apart at its only parentheses and at the commas between its
parameters, each parameter is read as the one it was written for, and the header declares the function
of the definition, whatever lines its tokens stand on.
-/

namespace CBind.Source

/-- Tokens that all stand on line zero. -/
def placed (ts : List Token) : List Placed :=
  ts.map (⟨·, 0⟩)

/-- Forget on which line a token stands. -/
def Placed.forgetLine (t : Placed) : Placed :=
  ⟨t.token, 0⟩

/-- Forgetting lines keeps tokens. -/
theorem keepsTokens_forgetLine : KeepsTokens Placed.forgetLine := fun _ => rfl

/-- Without their lines tokens are placed on line zero. -/
theorem map_forgetLine {tokens : List Placed} {ts : List Token} (h : tokens.map (·.token) = ts) :
    tokens.map Placed.forgetLine = placed ts := by
  rw [← h, placed, List.map_map]
  rfl

/-- The spelling of placed tokens. -/
theorem spellings_placed (ts : List Token) :
    (placed ts).map (·.token.spelling) = ts.map Token.spelling := by
  rw [placed, List.map_map]
  rfl

/-- A token that does not shape a header. -/
structure Token.ShapesNothing (t : Token) : Prop where
  ne_openParen : t ≠ .openParen
  ne_closeParen : t ≠ .closeParen
  ne_closeBracket : t ≠ .closeBracket
  ne_equals : t ≠ .equals
  ne_ellipsis : t ≠ .ellipsis
  ne_typedef : t ≠ .ident "typedef"
  notAttribute : isAttributeWord t = false

/-- Stars and words do not shape a header. -/
theorem Token.shapesNothing {t : Token} (h : t.isSignatureWord = true) : t.ShapesNothing := by
  cases t with
  | star => constructor <;> decide
  | ident name =>
    simp only [isSignatureWord, Bool.and_eq_true, bne_iff_ne, Bool.not_eq_true'] at h
    have hattribute : isAttributeWord (.ident name) = false := h.2
    constructor <;> simp [hattribute, h.1.2]
  | _ => contradiction

/-- The spelling of a type. -/
theorem TypeSpelling.spellings (t : TypeSpelling) :
    t.tokens.map Token.spelling = t.words ++ t.pointers := by
  rw [TypeSpelling.tokens, List.map_map]
  conv => rhs; rw [← List.map_id (t.words ++ t.pointers)]
  exact List.map_congr_left fun w _ => spelling_wordToken w

/-- A type without a name behind it shows no name. -/
theorem TypeSpelling.parameterName?_tokens (t : TypeSpelling) :
    parameterName? (placed t.tokens) = none := by
  cases hlast : (t.words ++ t.pointers).getLast? with
  | none => simp [TypeSpelling.tokens, List.getLast?_eq_none_iff.mp hlast, placed, parameterName?]
  | some last =>
    obtain ⟨front, hfront⟩ := List.getLast?_eq_some_iff.mp hlast
    have htokens : placed t.tokens = placed (front.map wordToken) ++ [⟨wordToken last, 0⟩] := by
      simp [TypeSpelling.tokens, hfront, placed]
    rw [parameterName?, htokens, List.getLast?_concat, List.dropLast_concat, Option.bind_some,
      spellings_placed, List.map_map]
    by_cases hstar : last = "*"
    · simp [wordToken, hstar, Token.name?]
    have hspell : Token.spelling ∘ wordToken = id := funext spelling_wordToken
    rw [wordToken, if_neg hstar, Token.name?, hspell, List.map_id]
    rcases t.getLast?_reserved hfront hstar with hreserved | hqualifiers
    · simp [Option.filter, hreserved]
    · have hnone : (front.any fun w => !isQualifier w && !isTagKeyword w) = false := by
        rw [List.any_eq_false]
        intro w hw
        simp [hqualifiers w hw]
      simp [Option.filter, hnone]

/-- The last word of a parameter is its name exactly if it has one. -/
theorem ParameterSpelling.parameterName?_tokens (p : ParameterSpelling) :
    parameterName? (placed p.tokens) = p.name := by
  cases hname : p.name with
  | none =>
    have htokens : p.tokens = p.type.tokens := by simp [tokens, hname]
    rw [htokens, p.type.parameterName?_tokens]
  | some n =>
    have htokens : placed p.tokens = placed p.type.tokens ++ [⟨.ident n, 0⟩] := by
      simp [tokens, hname, placed]
    obtain ⟨w, hw, hqualifier, htag⟩ := exists_typeWord p.type.reads
    have hany : ((p.type.words ++ p.type.pointers).any fun w => !isQualifier w && !isTagKeyword w) =
        true := List.any_eq_true.mpr ⟨w, hw, by simp [hqualifier, htag]⟩
    have hplain : isReserved n = false := (p.plain n hname).notReserved
    rw [parameterName?, htokens, List.getLast?_concat, List.dropLast_concat, Option.bind_some,
      spellings_placed, p.type.spellings, Token.name?, Option.filter, hany, hplain]
    rfl

/-- A parameter of the grammar is read as the one it was written for. -/
theorem ParameterSpelling.readParameter_tokens (p : ParameterSpelling) :
    readParameter (placed p.tokens) = .ok p.parameter := by
  have hshapes (t : Placed) (ht : t ∈ placed p.tokens) : t.token.ShapesNothing := by
    obtain ⟨token, htoken, rfl⟩ := List.mem_map.mp ht
    exact Token.shapesNothing (p.isSignatureWord_of_mem_tokens htoken)
  have hne : placed p.tokens ≠ [] := by
    obtain ⟨w, hw, -⟩ := exists_typeWord p.type.reads
    have : wordToken w ∈ p.tokens := List.mem_append_left _ (List.mem_map_of_mem hw)
    intro hnil
    simp only [placed, List.map_eq_nil_iff] at hnil
    rw [hnil] at this
    contradiction
  have hellipsis : (placed p.tokens).any (·.token == .ellipsis) = false := by
    rw [List.any_eq_false]
    intro t ht
    simpa using (hshapes t ht).ne_ellipsis
  have hparen : (placed p.tokens).any (·.token == .openParen) = false := by
    rw [List.any_eq_false]
    intro t ht
    simpa using (hshapes t ht).ne_openParen
  have hbrackets : peelBrackets (placed p.tokens).reverse 0 = some ((placed p.tokens).reverse, 0) := by
    cases hr : (placed p.tokens).reverse with
    | nil => rw [peelBrackets]
    | cons t rest =>
      have hmem : t ∈ placed p.tokens := by
        rw [← List.mem_reverse, hr]
        exact List.mem_cons_self
      rw [peelBrackets, if_neg (by simpa using (hshapes t hmem).ne_closeBracket)]
  have hspelled : (if p.name.isSome then (placed p.tokens).dropLast else placed p.tokens).map
      (·.token.spelling) = p.type.words ++ p.type.pointers := by
    cases hname : p.name with
    | none => simp [tokens, hname, spellings_placed, p.type.spellings]
    | some n =>
      have htokens : placed p.tokens = placed p.type.tokens ++ [⟨.ident n, 0⟩] := by
        simp [tokens, hname, placed]
      rw [htokens]
      simp [spellings_placed, p.type.spellings]
  unfold readParameter
  rw [if_neg (by simpa using hne), if_neg (by simp [hellipsis]), if_neg (by simp [hparen]), hbrackets]
  simp only [List.reverse_reverse, p.parameterName?_tokens, hspelled, List.replicate_zero,
    List.append_nil, p.type.reads, if_neg p.type_ne_void]
  rfl

/-- Stars and words join the group that is being read. -/
theorem splitAtCommas_signatureWords {ts : List Token} (h : ∀ t ∈ ts, t.isSignatureWord = true)
    (group more : List Placed) :
    splitAtCommas 0 group (placed ts ++ more) = splitAtCommas 0 (group ++ placed ts) more := by
  induction ts generalizing group with
  | nil => simp [placed]
  | cons t ts ih =>
    have hstep : splitAtCommas 0 group (placed (t :: ts) ++ more) =
        splitAtCommas 0 (group ++ [⟨t, 0⟩]) (placed ts ++ more) := by
      have ht := h t List.mem_cons_self
      cases t with
      | star => rfl
      | ident name => rfl
      | _ => contradiction
    rw [hstep, ih fun u hu => h u (List.mem_cons_of_mem t hu), List.append_assoc]
    rfl

/-- Parameters behind a first group are separated at the commas between them. -/
theorem splitAtCommas_parameters (group : List Placed) (rest : List ParameterSpelling) :
    splitAtCommas 0 group (placed (rest.flatMap fun p => .comma :: p.tokens)) =
      group :: rest.map fun p => placed p.tokens := by
  induction rest generalizing group with
  | nil => rfl
  | cons p rest ih =>
    have happend : placed ((p :: rest).flatMap fun p => .comma :: p.tokens) =
        ⟨.comma, 0⟩ :: (placed p.tokens ++ placed (rest.flatMap fun p => .comma :: p.tokens)) := by
      simp [placed]
    rw [happend]
    show group :: splitAtCommas 0 [] _ = _
    rw [splitAtCommas_signatureWords fun _ => p.isSignatureWord_of_mem_tokens, ih]
    rfl

/-- A list of parameters is separated at its commas. -/
theorem parameterGroups_parameters (first : ParameterSpelling) (rest : List ParameterSpelling) :
    parameterGroups (placed (ParameterList.parameters first rest).tokens) =
      (first :: rest).map fun p => placed p.tokens := by
  have hne : (placed (ParameterList.parameters first rest).tokens).isEmpty = false := by
    obtain ⟨w, hw, -⟩ := exists_typeWord first.type.reads
    have : wordToken w ∈ first.tokens := List.mem_append_left _ (List.mem_map_of_mem hw)
    cases htokens : first.tokens with
    | nil =>
      rw [htokens] at this
      contradiction
    | cons t ts => simp [ParameterList.tokens, htokens, placed]
  have happend : placed (ParameterList.parameters first rest).tokens =
      placed first.tokens ++ placed (rest.flatMap fun p => .comma :: p.tokens) := by
    simp [ParameterList.tokens, placed]
  rw [parameterGroups, hne, if_neg (by simp), happend,
    splitAtCommas_signatureWords fun _ => first.isSignatureWord_of_mem_tokens,
    splitAtCommas_parameters]
  rfl

/-- Parameters of the grammar are read one after the other. -/
theorem readParameters_tokens (ps : List ParameterSpelling) :
    readParameters (ps.map fun p => placed p.tokens) = .ok (ps.map ParameterSpelling.parameter) := by
  induction ps with
  | nil => rfl
  | cons p ps ih =>
    rw [List.map_cons, readParameters, p.readParameter_tokens, ih]
    rfl

/-- What stands between the parentheses is read as the parameters that the grammar declares. -/
theorem ParameterList.readParameters_tokens (ps : ParameterList) :
    (if isVoidList (parameterGroups (placed ps.tokens)) then .ok []
      else readParameters (parameterGroups (placed ps.tokens))) = .ok ps.declared := by
  cases ps with
  | empty => rfl
  | void => rfl
  | parameters first rest =>
    have hvoid : isVoidList (parameterGroups (placed (parameters first rest).tokens)) = false := by
      rw [parameterGroups_parameters]
      cases hlist : isVoidList ((first :: rest).map fun p => placed p.tokens) with
      | false => rfl
      | true =>
        -- The word `void` alone is no parameter.
        have hread := first.readParameter_tokens
        unfold isVoidList at hlist
        split at hlist
        · next t heq =>
          rw [List.map_cons, List.cons.injEq] at heq
          have ht : placed first.tokens = [⟨.ident "void", 0⟩] := by
            cases htokens : first.tokens with
            | nil => simp [htokens, placed] at heq
            | cons u us =>
              simp only [htokens, placed, List.map_cons, List.cons.injEq, List.map_eq_nil_iff] at heq
              obtain ⟨⟨hu, hus⟩, -⟩ := heq
              rw [← hu] at hlist
              simp only [beq_iff_eq] at hlist
              simp [placed, hus, hlist]
          have hunsupported : readParameter [⟨.ident "void", 0⟩] = .error (.unsupported "void") := by
            decide +kernel
          rw [ht, hunsupported] at hread
          contradiction
        · contradiction
    rw [hvoid, if_neg (by simp), parameterGroups_parameters,
      CBind.Source.readParameters_tokens]
    rfl

/-- Nothing is removed from a header without attributes. -/
theorem stripAttributes_eq_self {header : List Placed}
    (h : ∀ t ∈ header, isAttributeWord t.token = false) : stripAttributes header = header := by
  fun_induction stripAttributes header with
  | case1 => rfl
  | case2 => rfl
  | case3 t next rest hattribute _ => simp [h t List.mem_cons_self] at hattribute
  | case4 t next rest hattribute _ _ _ _ => simp [h t List.mem_cons_self] at hattribute
  | case5 t next rest _ ih =>
    rw [ih fun u hu => h u (List.mem_cons_of_mem t hu)]

namespace Definition

variable (d : Definition)

/-- The words of the result and the name in front of the list. -/
def front : List Token :=
  d.result.map wordToken ++ [.ident d.name]

/-- The header is the front, the list and its parentheses. -/
theorem placed_header : placed d.header =
    placed d.front ++ ⟨.openParen, 0⟩ :: (placed d.parameters.tokens ++ [⟨.closeParen, 0⟩]) := by
  simp [header, front, placed]

/-- The words of a result are words of the vocabulary. -/
theorem mem_vocabulary_of_mem_result {w : String} (h : w ∈ d.result) : w = "*" ∨ w ∈ vocabulary := by
  by_cases hstorage : storageWords.contains w = true
  · have : w ∈ storageWords := by simpa using hstorage
    exact .inr (by simp [vocabulary, this])
  · have : w ∈ d.result.filter (!storageWords.contains ·) := by
      rw [List.mem_filter]
      exact ⟨h, by simpa using hstorage⟩
    exact mem_vocabulary_of_readType d.result_reads this

/-- The front is made of stars and words. -/
theorem isSignatureWord_of_mem_front {t : Token} (h : t ∈ d.front) : t.isSignatureWord = true := by
  rcases List.mem_append.mp h with h | h
  · obtain ⟨w, hw, rfl⟩ := List.mem_map.mp h
    exact isSignatureWord_wordToken (d.mem_vocabulary_of_mem_result hw)
  · rw [List.mem_singleton.mp h]
    exact d.name_plain.isSignatureWord

/-- The list is made of stars, words and commas. -/
theorem isSignatureWord_of_mem_parameters {t : Token} (h : t ∈ d.parameters.tokens) :
    t.isSignatureWord = true ∨ t = .comma := by
  cases hps : d.parameters with
  | empty => simp [hps, ParameterList.tokens] at h
  | void =>
    rw [hps, ParameterList.tokens, List.mem_singleton] at h
    rw [h]
    exact .inl (by decide +kernel)
  | parameters first rest =>
    rw [hps, ParameterList.tokens, List.mem_append, List.mem_flatMap] at h
    rcases h with h | ⟨p, -, h⟩
    · exact .inl (first.isSignatureWord_of_mem_tokens h)
    · rcases List.mem_cons.mp h with h | h
      · exact .inr h
      · exact .inl (p.isSignatureWord_of_mem_tokens h)

/-- The header is made of stars, words, commas and parentheses. -/
theorem isSignatureWord_of_mem_header {t : Token} (h : t ∈ d.header) :
    t.isSignatureWord = true ∨ t = .comma ∨ t = .openParen ∨ t = .closeParen := by
  have hsplit : d.header = d.front ++ .openParen :: (d.parameters.tokens ++ [.closeParen]) := by
    simp [header, front]
  rw [hsplit, List.mem_append, List.mem_cons, List.mem_append, List.mem_singleton] at h
  rcases h with h | h | h | h
  · exact .inl (d.isSignatureWord_of_mem_front h)
  · exact .inr (.inr (.inl h))
  · rcases d.isSignatureWord_of_mem_parameters h with h | h
    · exact .inl h
    · exact .inr (.inl h)
  · exact .inr (.inr (.inr h))

/-- The header is made of tokens that are cut off as they were written. -/
theorem isLoose_of_mem_header {t : Token} (h : t ∈ d.header) : t.isLoose = true := by
  rcases d.isSignatureWord_of_mem_header h with h | rfl | rfl | rfl
  · cases t with
    | star => rfl
    | ident name =>
      simp only [Token.isSignatureWord, Bool.and_eq_true] at h
      exact h.1.1
    | _ => contradiction
  · rfl
  · rfl
  · rfl

/-- The header without lines is taken apart into the result, the name and the list. -/
theorem readDeclarator_placed_header : readDeclarator (placed d.header) =
    .ok ⟨placed (d.result.map wordToken), d.name, placed d.parameters.tokens⟩ := by
  have hdrop : (placed d.front).dropLast = placed (d.result.map wordToken) := by
    simp [front, placed]
  have hname : declaredName? (placed d.front) = some d.name := by
    simp [declaredName?, front, placed, Token.name?, Option.filter, d.name_plain.notReserved]
  rw [placed_header, ← hdrop]
  refine readDeclarator_append ?_ hname rfl (matched_of_forall_ne ?_) rfl
  · intro t ht
    obtain ⟨token, htoken, rfl⟩ := List.mem_map.mp ht
    exact (Token.shapesNothing (d.isSignatureWord_of_mem_front htoken)).ne_openParen
  · intro t ht
    obtain ⟨token, htoken, rfl⟩ := List.mem_map.mp ht
    rcases d.isSignatureWord_of_mem_parameters htoken with h | h
    · exact ⟨(Token.shapesNothing h).ne_openParen, (Token.shapesNothing h).ne_closeParen⟩
    · simp [h]

/-- The header without lines looks like a definition. -/
theorem looksLikeDefinition_placed_header : looksLikeDefinition (placed d.header) = true := by
  have hfront : (placed d.header).takeWhile (·.token != .openParen) = placed d.front := by
    rw [placed_header]
    refine takeWhile_openParen (fun t ht => ?_) rfl
    obtain ⟨token, htoken, rfl⟩ := List.mem_map.mp ht
    exact (Token.shapesNothing (d.isSignatureWord_of_mem_front htoken)).ne_openParen
  have hequals : (placed d.front).any (·.token == .equals) = false := by
    rw [List.any_eq_false]
    intro t ht
    obtain ⟨token, htoken, rfl⟩ := List.mem_map.mp ht
    simpa using (Token.shapesNothing (d.isSignatureWord_of_mem_front htoken)).ne_equals
  have htypedef : (placed d.header).any (·.token == .ident "typedef") = false := by
    rw [List.any_eq_false]
    intro t ht
    obtain ⟨token, htoken, rfl⟩ := List.mem_map.mp ht
    rcases d.isSignatureWord_of_mem_header htoken with h | h | h | h
    · simpa using (Token.shapesNothing h).ne_typedef
    · simp [h]
    · simp [h]
    · simp [h]
  have hlast : (placed d.header).getLast? = some ⟨.closeParen, 0⟩ := by
    rw [placed_header, ← List.cons_append, ← List.append_assoc, List.getLast?_concat]
  have hopen : (placed d.header).any (·.token == .openParen) = true := by
    rw [List.any_eq_true]
    exact ⟨⟨.openParen, 0⟩, by simp [placed_header], rfl⟩
  rw [looksLikeDefinition, hfront, hequals, htypedef, hlast, hopen]
  rfl

/-- What the header declares is read as the descriptor of the definition, if the comments above it say
its directives. -/
theorem readDefinition_placed {file : String} {line : Nat} {notes : List String}
    (h : List.Forall₂ Says notes d.directives) :
    readDefinition ⟨file, line⟩ notes
        ⟨placed (d.result.map wordToken), d.name, placed d.parameters.tokens⟩ =
      .ok (d.descriptor file line) := by
  have hwords : resultWords (placed (d.result.map wordToken)) =
      d.result.filter (!storageWords.contains ·) := by
    have hspell : Token.spelling ∘ wordToken = id := funext spelling_wordToken
    rw [resultWords, spellings_placed, List.map_map, hspell, List.map_id]
  have hne : (d.result.filter (!storageWords.contains ·)).isEmpty = false := by
    obtain ⟨w, hw, -⟩ := exists_typeWord d.result_reads
    cases hlist : d.result.filter (!storageWords.contains ·) with
    | nil => rw [hlist] at hw; contradiction
    | cons => rfl
  have hps := d.parameters.readParameters_tokens
  simp only [readDefinition, hwords, hne, d.result_reads, hps, readAnnotations_eq d h]
  rfl

/-- The tokens of the header, wherever they stand, are read as the definition. -/
theorem exists_reads {file : String} {notes : List String} {tokens : List Placed} {line : Nat}
    (htokens : tokens.map (·.token) = d.header) (h : List.Forall₂ Says notes d.directives) :
    ∃ definition, Reads ⟨file, line⟩ notes tokens definition (d.descriptor file line) ∧
      definition.name = d.name := by
  have hmove := readDeclarator_map keepsTokens_forgetLine tokens
  rw [map_forgetLine htokens, readDeclarator_placed_header] at hmove
  cases hread : readDeclarator tokens with
  | error fault =>
    rw [hread] at hmove
    contradiction
  | ok definition =>
    rw [hread] at hmove
    have heq := Except.ok.inj hmove
    refine ⟨definition, ⟨?_, hread, ?_⟩, (congrArg Declarator.name heq).symm⟩
    · rw [← looksLikeDefinition_map keepsTokens_forgetLine, map_forgetLine htokens]
      exact d.looksLikeDefinition_placed_header
    · rw [← readDefinition_move keepsTokens_forgetLine, ← heq]
      exact d.readDefinition_placed h

end Definition

end CBind.Source
