import CBind.Proofs.Source.Grammar

/-!
# The words that spell types

What reads as a type is spelled with stars and the words of a small vocabulary. None of them is a word
that the reader treats in a way of its own, such as `typedef` or the words of attributes.

The last word of a parameter is its name exactly if the grammar gives it one: a type in the order of C
ends with a star, a qualifier, a specifier, or a name of fixed width that has nothing but qualifiers
in front of it.
-/

namespace CBind.Source

/-- The names of integers of fixed width. -/
def fixedWidthWords : List String :=
  ["int8_t", "uint8_t", "int16_t", "uint16_t", "int32_t", "uint32_t", "int64_t", "uint64_t", "size_t",
    "ssize_t", "intptr_t", "uintptr_t", "ptrdiff_t", "off_t"]

/-- All words that results and types are spelled with. -/
def vocabulary : List String :=
  storageWords ++ qualifiers ++ specifierWords ++ fixedWidthWords

/-- Only the names of fixed width have one. -/
theorem mem_fixedWidthWords {w : String} {s : ScalarType} (h : fixedWidth? w = some s) :
    w ∈ fixedWidthWords := by
  unfold fixedWidth? at h
  split at h
  · next hw => simp_all [fixedWidthWords]
  split at h
  · next hw => simp_all [fixedWidthWords]
  split at h
  · next hw => simp_all [fixedWidthWords]
  split at h
  · next hw => simp_all [fixedWidthWords]
  split at h
  · next hw =>
    simp only [List.contains_iff_mem, List.mem_cons, List.not_mem_nil, or_false] at hw
    rcases hw with rfl | rfl <;> decide
  split at h
  · next hw =>
    simp only [List.contains_iff_mem, List.mem_cons, List.not_mem_nil, or_false] at hw
    rcases hw with rfl | rfl | rfl | rfl | rfl | rfl | rfl | rfl <;> decide
  · contradiction

/-- A scalar is one name of fixed width, or specifiers and at least one of them. -/
theorem scalar?_eq_some {words : List String} {s : ScalarType} (h : scalar? words = some s) :
    (∃ w ∈ fixedWidthWords, words = [w]) ∨ words ≠ [] ∧ ∀ w ∈ words, w ∈ specifierWords := by
  have hcombine : ∀ ws, combineSpecifiers ws = some s → ws ≠ [] ∧ ∀ w ∈ ws, w ∈ specifierWords := by
    intro ws hws
    refine ⟨by rintro rfl; simp [combineSpecifiers] at hws, ?_⟩
    unfold combineSpecifiers at hws
    dsimp only at hws
    split at hws
    · contradiction
    · next hall => simpa using hall
  unfold scalar? at h
  split at h
  · next w =>
    cases hw : fixedWidth? w with
    | none => exact .inr (hcombine _ (by simpa [hw] using h))
    | some s' => exact .inl ⟨w, mem_fixedWidthWords hw, rfl⟩
  · exact .inr (hcombine _ h)

/-- What reads as a type has a scalar. -/
theorem scalar?_of_readType {words : List String} {d : DeclaredType} (h : readType words = .ok d) :
    ∃ s, scalar? (typeWords words) = some s := by
  cases hs : scalar? (typeWords words) with
  | none => simp [readType, hs] at h
  | some s => exact ⟨s, rfl⟩

/-- What reads as a type is spelled with stars and words of the vocabulary. -/
theorem mem_vocabulary_of_readType {words : List String} {d : DeclaredType}
    (h : readType words = .ok d) {w : String} (hw : w ∈ words) : w = "*" ∨ w ∈ vocabulary := by
  obtain ⟨s, hs⟩ := scalar?_of_readType h
  by_cases hstar : w = "*"
  · exact .inl hstar
  by_cases hqualifier : isQualifier w = true
  · have : w ∈ qualifiers := by simpa [isQualifier] using hqualifier
    exact .inr (by simp [vocabulary, this])
  have htype : w ∈ typeWords words := by simp [typeWords, hw, hstar, hqualifier]
  rcases scalar?_eq_some hs with ⟨v, hv, hone⟩ | ⟨-, hall⟩
  · rw [hone, List.mem_singleton] at htype
    exact .inr (by simp [vocabulary, htype, hv])
  · exact .inr (by simp [vocabulary, hall w htype])

/-- What reads as a type holds a word that is neither star nor qualifier nor announces a tag. -/
theorem exists_typeWord {words : List String} {d : DeclaredType} (h : readType words = .ok d) :
    ∃ w ∈ words, isQualifier w = false ∧ isTagKeyword w = false := by
  obtain ⟨s, hs⟩ := scalar?_of_readType h
  have htag : ∀ w ∈ specifierWords ++ fixedWidthWords, isTagKeyword w = false := by decide
  obtain ⟨w, hw, hknown⟩ : ∃ w ∈ typeWords words, w ∈ specifierWords ++ fixedWidthWords := by
    rcases scalar?_eq_some hs with ⟨v, hv, hone⟩ | ⟨hne, hall⟩
    · exact ⟨v, by simp [hone], by simp [hv]⟩
    · obtain ⟨v, hv⟩ := List.exists_mem_of_ne_nil _ hne
      exact ⟨v, hv, by simp [hall v hv]⟩
  simp only [typeWords, List.mem_filter, Bool.and_eq_true, Bool.not_eq_true'] at hw
  exact ⟨w, hw.1, hw.2.2, htag w hknown⟩

/-- Recognize the stars and words of a signature: none of them shapes the header. -/
def Token.isSignatureWord : Token → Bool
  | star => true
  | ident name => isWord name.toList && name != "typedef" && !attributeWords.contains name
  | _ => false

/-- The token of a word or star is spelled as it. -/
theorem spelling_wordToken (w : String) : (wordToken w).spelling = w := by
  unfold wordToken
  split
  · next h => exact h.symm
  · rfl

/-- Stars and the words of the vocabulary make signatures. -/
theorem isSignatureWord_wordToken {w : String} (h : w = "*" ∨ w ∈ vocabulary) :
    (wordToken w).isSignatureWord = true := by
  have hall : ∀ v ∈ vocabulary, (wordToken v).isSignatureWord = true := by decide +kernel
  rcases h with rfl | h
  · rfl
  · exact hall w h

/-- A plain name may stand in a signature. -/
theorem IsPlainName.isSignatureWord {name : String} (h : IsPlainName name) :
    (Token.ident name).isSignatureWord = true := by
  simp only [Token.isSignatureWord, h.word, h.notAttribute, Bool.not_false, Bool.and_true,
    Bool.true_and, bne_iff_ne]
  exact h.notTypedef

/-- A type is spelled with stars and words. -/
theorem TypeSpelling.isSignatureWord_of_mem_tokens (t : TypeSpelling) {token : Token}
    (h : token ∈ t.tokens) : token.isSignatureWord = true := by
  obtain ⟨w, hw, rfl⟩ := List.mem_map.mp h
  exact isSignatureWord_wordToken (mem_vocabulary_of_readType t.reads hw)

/-- A parameter is spelled with stars and words. -/
theorem ParameterSpelling.isSignatureWord_of_mem_tokens (p : ParameterSpelling) {token : Token}
    (h : token ∈ p.tokens) : token.isSignatureWord = true := by
  rcases List.mem_append.mp h with h | h
  · exact p.type.isSignatureWord_of_mem_tokens h
  · obtain ⟨n, hn, rfl⟩ := List.mem_map.mp h
    exact (p.plain n (by simpa using hn)).isSignatureWord

/-- The last word of a type in the order of C is reserved, or nothing but qualifiers stands in front
of it. -/
theorem TypeSpelling.getLast?_reserved (t : TypeSpelling) {front : List String} {last : String}
    (h : t.words ++ t.pointers = front ++ [last]) (hstar : last ≠ "*") :
    isReserved last = true ∨ ∀ w ∈ front, isQualifier w = true := by
  have hreserved : ∀ w ∈ specifierWords, isReserved w = true := by decide
  have hlast : last ∈ t.words ++ t.pointers := by simp [h]
  by_cases hqualifier : isQualifier last = true
  · exact .inl (by simp [isReserved, hqualifier])
  -- The last word is no star and no qualifier, so it stands among the words and nothing behind them.
  have hpointers : t.pointers = [] := by
    cases hp : t.pointers.getLast? with
    | none => exact List.getLast?_eq_none_iff.mp hp
    | some w =>
      obtain ⟨init, hinit⟩ := List.getLast?_eq_some_iff.mp hp
      have hw : w = last := by
        have := congrArg List.getLast? h
        simpa [hinit] using this
      have := t.pointers_only w (by simp [hinit])
      rw [hw] at this
      exact absurd (this.resolve_left hstar) hqualifier
  rw [hpointers, List.append_nil] at h
  have hread := t.reads
  rw [hpointers, List.append_nil, h] at hread
  obtain ⟨s, hs⟩ := scalar?_of_readType hread
  have hsplit : typeWords (front ++ [last]) = typeWords front ++ [last] := by
    simp [typeWords, hstar, hqualifier]
  rw [hsplit] at hs
  rcases scalar?_eq_some hs with ⟨v, -, hone⟩ | ⟨-, hall⟩
  · have hnone : typeWords front = [] := by
      have := congrArg List.length hone
      simp only [List.length_append, List.length_singleton] at this
      exact List.length_eq_zero_iff.mp (by omega)
    refine .inr fun w hw => ?_
    have hne : w ≠ "*" := by
      rintro rfl
      exact t.words_ne_star (by simp [h, hw])
    have := List.filter_eq_nil_iff.mp hnone w hw
    simpa [hne] using this
  · exact .inl (hreserved last (hall last (by simp)))

end CBind.Source
