import CBind.Proofs.Source.Matching
import CBind.Proofs.Source.Vocabulary
import Mathlib.Data.List.Induction

/-!
# Parameters written as arrays

A parameter may be written with sizes in brackets behind its name. In the list of parameters it stays in one
piece, as a comma between brackets separates nothing. Sizes that hold neither brackets of their own nor
parentheses are peeled off from the last one to the first, and each counts as a star behind the type: the
parameter is read like the address that it is passed as.

A parenthesis anywhere in a parameter gives the parameter up, and so does one in a size. Nothing is said here of
sizes that hold brackets of their own and no parenthesis.
-/

namespace CBind.Source

open CBind.Text

/-- A size in brackets: any tokens with complete brackets and parentheses, but no ellipsis. -/
structure ArraySize where
  opening : Placed
  inner : List Placed
  closing : Placed
  opening_eq : opening.token = .openBracket
  closing_eq : closing.token = .closeBracket
  brackets_matched : Matched .openBracket .closeBracket inner
  parens_matched : Matched .openParen .closeParen inner
  inner_fixed : ∀ t ∈ inner, t.token ≠ .ellipsis

/-- The tokens of a size, its brackets included. -/
def ArraySize.tokens (s : ArraySize) : List Placed :=
  s.opening :: (s.inner ++ [s.closing])

/-- A size that holds neither parentheses nor brackets of its own. -/
def ArraySize.Flat (s : ArraySize) : Prop :=
  ∀ t ∈ s.inner, t.token ≠ .openBracket ∧ t.token ≠ .openParen

/-- A parameter written as an array: tokens that spell a type, a name, and at least one size. -/
structure ArrayParameter where
  type : List Placed
  element : DeclaredType
  word : Placed
  name : String
  sizes : List ArraySize
  type_reads : readType (type.map (·.token.spelling)) = .ok element
  word_eq : word.token = .ident name
  name_free : isReserved name = false
  sizes_ne_nil : sizes ≠ []

namespace ArrayParameter

/-- The parameter as it is written. -/
def tokens (p : ArrayParameter) : List Placed :=
  p.type ++ p.word :: p.sizes.flatMap ArraySize.tokens

/-- A star for each size. -/
def stars (p : ArrayParameter) : List Placed :=
  List.replicate p.sizes.length ⟨.star, p.word.line⟩

/-- The parameter with a star in front of its name for each size. -/
def starred (p : ArrayParameter) : List Placed :=
  p.type ++ p.stars ++ [p.word]

end ArrayParameter

/-! ## The words of a type -/

/-- A word of a type does not shape parameters. -/
theorem ne_of_mem_vocabulary {t : Token} (h : t.spelling = "*" ∨ t.spelling ∈ vocabulary) :
    t ∉ [.openParen, .closeParen, .openBracket, .closeBracket, .comma, .ellipsis] := by
  have hall : ∀ t ∈ [Token.openParen, .closeParen, .openBracket, .closeBracket, .comma, .ellipsis],
      t.spelling ≠ "*" ∧ t.spelling ∉ vocabulary := by decide +kernel
  exact fun hmem => h.elim (hall t hmem).1 (hall t hmem).2

/-- Stars behind a type give the type of an address. -/
theorem readType_append_stars {words : List String} {d : DeclaredType} (h : readType words = .ok d) (n : Nat) :
    ∃ address, readType (words ++ List.replicate (n + 1) "*") = .ok address ∧ address.type ≠ .void := by
  obtain ⟨s, hs⟩ := scalar?_of_readType h
  have hwords : typeWords (words ++ List.replicate (n + 1) "*") = typeWords words := by
    simp [typeWords]
  have hcount : (words ++ List.replicate (n + 1) "*").count "*" = words.count "*" + n + 1 := by
    rw [List.count_append, List.count_replicate_self, Nat.add_assoc]
  refine ⟨.full (addressTimes (words.count "*" + n) s.address), ?_, ?_⟩
  · rw [readType, hwords, hs, hcount]
  · cases words.count "*" + n with
    | zero => cases s <;> simp [DeclaredType.full, addressTimes, ScalarType.address]
    | succ m => simp [DeclaredType.full, addressTimes]

/-! ## Sizes stay with their parameter -/

section Separating

variable {group more : List Placed}

/-- Tokens that shape no parameters join the group that is being read. -/
theorem splitAtCommas_words {words : List Placed}
    (h : ∀ t ∈ words, t.token ∉ [.openParen, .closeParen, .openBracket, .closeBracket, .comma, .ellipsis])
    (depth : Nat) (group more : List Placed) :
    splitAtCommas depth group (words ++ more) = splitAtCommas depth (group ++ words) more := by
  induction words generalizing group with
  | nil => simp
  | cons t words ih =>
    have ht := h t List.mem_cons_self
    have hstep : splitAtCommas depth group (t :: words ++ more) =
        splitAtCommas depth (group ++ [t]) (words ++ more) := by
      rw [List.cons_append, splitAtCommas.eq_def]
      dsimp only
      split <;> simp_all
    rw [hstep, ih (fun u hu => h u (List.mem_cons_of_mem t hu)), List.append_assoc, List.singleton_append]

/-- Inside a bracket a token moves the count of what is open, a comma included. -/
theorem splitAtCommas_step {parens brackets : Nat} {t : Placed} (hparens : t.token = .closeParen → parens ≠ 0)
    (hbrackets : t.token = .closeBracket → brackets ≠ 0) (group rest : List Placed) :
    splitAtCommas (parens + brackets + 1) group (t :: rest) =
      splitAtCommas (countPair .openParen .closeParen parens t +
        countPair .openBracket .closeBracket brackets t + 1) (group ++ [t]) rest := by
  have hcount {depth : Nat} (h : depth = countPair .openParen .closeParen parens t +
      countPair .openBracket .closeBracket brackets t + 1) : splitAtCommas depth (group ++ [t]) rest =
        splitAtCommas (countPair .openParen .closeParen parens t +
          countPair .openBracket .closeBracket brackets t + 1) (group ++ [t]) rest := by rw [h]
  rw [splitAtCommas.eq_def]
  dsimp only
  split
  · next ht => exact hcount (by simp only [countPair, ht, ↓reduceIte, reduceCtorEq]; omega)
  · next ht => exact hcount (by simp only [countPair, ht, ↓reduceIte, reduceCtorEq]; omega)
  · next ht =>
    have := hparens ht
    exact hcount (by simp only [countPair, ht, ↓reduceIte, reduceCtorEq]; omega)
  · next ht =>
    have := hbrackets ht
    exact hcount (by simp only [countPair, ht, ↓reduceIte, reduceCtorEq]; omega)
  · next ht =>
    rw [if_neg (Nat.succ_ne_zero _)]
    exact hcount (by simp only [countPair, ht, ↓reduceIte, reduceCtorEq])
  · next h1 h2 h3 h4 h5 =>
    exact hcount (by rw [countPair, countPair, if_neg h1, if_neg h3, if_neg h2, if_neg h4])

/-- Inside a bracket nothing is separated, as long as no more is closed than is open. -/
theorem splitAtCommas_inside {parens brackets : Nat} {inner : List Placed}
    (hparens : unopened .openParen .closeParen inner ≤ parens)
    (hbrackets : unopened .openBracket .closeBracket inner ≤ brackets) (group more : List Placed) :
    splitAtCommas (parens + brackets + 1) group (inner ++ more) =
      splitAtCommas (inner.foldl (countPair .openParen .closeParen) parens +
        inner.foldl (countPair .openBracket .closeBracket) brackets + 1) (group ++ inner) more := by
  induction inner generalizing parens brackets group with
  | nil => simp
  | cons t inner ih =>
    simp only [unopened] at hparens hbrackets
    rw [List.cons_append, splitAtCommas_step, ih, List.foldl_cons, List.foldl_cons, List.append_assoc,
      List.singleton_append]
    · unfold countPair
      split_ifs at hparens ⊢ <;> omega
    · unfold countPair
      split_ifs at hbrackets ⊢ <;> omega
    · intro ht
      simp only [ht, ↓reduceIte, reduceCtorEq] at hparens
      omega
    · intro ht
      simp only [ht, ↓reduceIte, reduceCtorEq] at hbrackets
      omega

/-- A size joins the group that is being read, whatever it holds. -/
theorem ArraySize.splitAtCommas_append (s : ArraySize) (group more : List Placed) :
    splitAtCommas 0 group (s.tokens ++ more) = splitAtCommas 0 (group ++ s.tokens) more := by
  have hopening : splitAtCommas 0 group (s.tokens ++ more) =
      splitAtCommas 1 (group ++ [s.opening]) (s.inner ++ s.closing :: more) := by
    rw [tokens, List.cons_append, List.append_assoc, List.singleton_append, splitAtCommas, s.opening_eq]
  have hinner := @splitAtCommas_inside 0 0 s.inner (Nat.le_of_eq s.parens_matched.1)
    (Nat.le_of_eq s.brackets_matched.1) (group ++ [s.opening]) (s.closing :: more)
  rw [s.parens_matched.foldl_countPair (by simp), s.brackets_matched.foldl_countPair (by simp)] at hinner
  rw [hopening, hinner, splitAtCommas, s.closing_eq, tokens]
  simp

/-- Sizes join the group that is being read. -/
theorem splitAtCommas_sizes (sizes : List ArraySize) (group more : List Placed) :
    splitAtCommas 0 group (sizes.flatMap ArraySize.tokens ++ more) =
      splitAtCommas 0 (group ++ sizes.flatMap ArraySize.tokens) more := by
  induction sizes generalizing group with
  | nil => simp
  | cons s sizes ih =>
    rw [List.flatMap_cons, List.append_assoc, s.splitAtCommas_append, ih, List.append_assoc]

end Separating

/-! ## Sizes are peeled off -/

section Peeling

/-- A flat size is peeled off the end. -/
theorem ArraySize.Flat.peelBrackets {s : ArraySize} (h : s.Flat) (front : List Placed) (count : Nat) :
    peelBrackets (front ++ s.tokens).reverse count = peelBrackets front.reverse (count + 1) := by
  have hreverse : (front ++ s.tokens).reverse = s.closing :: (s.inner.reverse ++ s.opening :: front.reverse) := by
    simp [tokens]
  have hopening : (s.inner.reverse ++ s.opening :: front.reverse).dropWhile (·.token != .openBracket) =
      s.opening :: front.reverse := by
    have hinner : ∀ t ∈ s.inner.reverse, (t.token != .openBracket) = true := fun t ht =>
      bne_iff_ne.mpr (h t (List.mem_reverse.mp ht)).1
    rw [List.dropWhile_append_of_pos hinner, List.dropWhile_cons_of_neg (by simp [s.opening_eq])]
  rw [hreverse, CBind.Source.peelBrackets, if_pos (by simp [s.closing_eq])]
  split
  · next hnone =>
    rw [hopening] at hnone
    contradiction
  · next hsome =>
    rw [hopening] at hsome
    cases hsome
    rfl

/-- Flat sizes are peeled off the end, and counted. -/
theorem peelBrackets_sizes {sizes : List ArraySize} (h : ∀ s ∈ sizes, s.Flat) (front : List Placed)
    (count : Nat) : peelBrackets (front ++ sizes.flatMap ArraySize.tokens).reverse count =
      peelBrackets front.reverse (count + sizes.length) := by
  induction sizes using List.reverseRecOn generalizing count with
  | nil => simp
  | append_singleton sizes s ih =>
    have hlast : s.Flat := h s (by simp)
    rw [List.flatMap_append, List.flatMap_singleton, ← List.append_assoc, hlast.peelBrackets,
      ih (fun u hu => h u (List.mem_append_left _ hu)), List.length_append, List.length_singleton,
      Nat.add_assoc, Nat.add_comm 1]

end Peeling

namespace ArrayParameter

variable {p : ArrayParameter}

/-- The words of the type shape no parameters. -/
theorem ne_of_mem_type {t : Placed} (ht : t ∈ p.type) :
    t.token ∉ [.openParen, .closeParen, .openBracket, .closeBracket, .comma, .ellipsis] :=
  ne_of_mem_vocabulary (mem_vocabulary_of_readType p.type_reads (List.mem_map_of_mem ht))

/-- The parameter stays in one piece. -/
theorem splitAtCommas_tokens (p : ArrayParameter) (more : List Placed) :
    splitAtCommas 0 [] (p.tokens ++ more) = splitAtCommas 0 p.tokens more := by
  have hword : p.word.token ∉ [.openParen, .closeParen, .openBracket, .closeBracket, .comma, .ellipsis] := by
    simp [p.word_eq]
  rw [tokens, List.append_cons, List.append_assoc, splitAtCommas_words, splitAtCommas_sizes, List.nil_append]
  intro t ht
  rcases List.mem_append.mp ht with ht | ht
  · exact ne_of_mem_type ht
  · rwa [List.mem_singleton.mp ht]

/-- No ellipsis stands in the parameter. -/
theorem ne_ellipsis_of_mem_tokens {t : Placed} (ht : t ∈ p.tokens) : t.token ≠ .ellipsis := by
  rcases List.mem_append.mp ht with ht | ht
  · exact fun h => ne_of_mem_type ht (by simp [h])
  rcases List.mem_cons.mp ht with rfl | ht
  · simp [p.word_eq]
  obtain ⟨s, -, ht⟩ := List.mem_flatMap.mp ht
  rcases List.mem_cons.mp ht with rfl | ht
  · simp [s.opening_eq]
  rcases List.mem_append.mp ht with ht | ht
  · exact s.inner_fixed t ht
  · simp [List.mem_singleton.mp ht, s.closing_eq]

/-- A parameter whose last word is a name behind a type and in front of brackets that are peeled off is read
as the type with a star for each of them. -/
theorem readParameter_of_peel {tokens type : List Placed} {word : Placed} {name : String} {arrays : Nat}
    (hellipsis : ∀ t ∈ tokens, t.token ≠ .ellipsis) (hparen : ∀ t ∈ tokens, t.token ≠ .openParen)
    (hpeel : peelBrackets tokens.reverse 0 = some (word :: type.reverse, arrays))
    (hword : word.token = .ident name) (hfree : isReserved name = false)
    (htype : ∃ w ∈ type.map (·.token.spelling), isQualifier w = false ∧ isTagKeyword w = false)
    {declared : DeclaredType}
    (hread : readType (type.map (·.token.spelling) ++ List.replicate arrays "*") = .ok declared)
    (hvoid : declared.type ≠ .void) : readParameter tokens = .ok ⟨declared, some name⟩ := by
  have hne : tokens ≠ [] := by
    rintro rfl
    simp [peelBrackets] at hpeel
  have hname : parameterName? (type ++ [word]) = some name := by
    obtain ⟨w, hw, hqualifier, htag⟩ := htype
    have hany : ((type.map (·.token.spelling)).any fun w => !isQualifier w && !isTagKeyword w) = true :=
      List.any_eq_true.mpr ⟨w, hw, by simp [hqualifier, htag]⟩
    rw [parameterName?, List.getLast?_concat, List.dropLast_concat, Option.bind_some, hword, Token.name?,
      Option.filter, hany, hfree]
    rfl
  have hnone (c : Token) (h : ∀ t ∈ tokens, t.token ≠ c) : ¬ tokens.any (·.token == c) = true := by
    simpa using h
  unfold readParameter
  rw [if_neg (by simpa using hne), if_neg (hnone _ hellipsis), if_neg (hnone _ hparen), hpeel]
  simp only [List.reverse_cons, List.reverse_reverse, hname, Option.isSome_some, ↓reduceIte,
    List.dropLast_concat, hread, if_neg hvoid]

variable {declared : DeclaredType}

/-- With stars in front of its name the parameter is read as the type behind as many stars. -/
theorem readParameter_starred
    (hread : readType (p.type.map (·.token.spelling) ++ List.replicate p.sizes.length "*") = .ok declared)
    (hvoid : declared.type ≠ .void) : readParameter p.starred = .ok ⟨declared, some p.name⟩ := by
  have hwords : (p.type ++ p.stars).map (·.token.spelling) =
      p.type.map (·.token.spelling) ++ List.replicate p.sizes.length "*" := by
    rw [List.map_append, stars, List.map_replicate]
    rfl
  have hshapes : ∀ t ∈ p.starred, t.token ≠ .ellipsis ∧ t.token ≠ .openParen := by
    intro t ht
    rcases List.mem_append.mp ht with ht | ht
    · rcases List.mem_append.mp ht with ht | ht
      · have := ne_of_mem_type ht
        simp_all
      · simp [List.eq_of_mem_replicate ht]
    · simp [List.mem_singleton.mp ht, p.word_eq]
  have hpeel : peelBrackets p.starred.reverse 0 = some (p.word :: (p.type ++ p.stars).reverse, 0) := by
    rw [starred, List.reverse_concat, peelBrackets, if_neg (by simp [p.word_eq])]
  obtain ⟨w, hw, hplain⟩ := exists_typeWord p.type_reads
  refine readParameter_of_peel (fun t ht => (hshapes t ht).1) (fun t ht => (hshapes t ht).2) hpeel p.word_eq
    p.name_free ⟨w, ?_, hplain⟩ ?_ hvoid
  · rw [hwords]
    exact List.mem_append_left _ hw
  · rwa [hwords, List.replicate_zero, List.append_nil]

/-- With flat sizes behind its name the parameter is read as the type behind as many stars. -/
theorem readParameter_tokens (hflat : ∀ s ∈ p.sizes, s.Flat)
    (hread : readType (p.type.map (·.token.spelling) ++ List.replicate p.sizes.length "*") = .ok declared)
    (hvoid : declared.type ≠ .void) : readParameter p.tokens = .ok ⟨declared, some p.name⟩ := by
  have hparen : ∀ t ∈ p.tokens, t.token ≠ .openParen := by
    intro t ht
    rcases List.mem_append.mp ht with ht | ht
    · exact fun h => ne_of_mem_type ht (by simp [h])
    rcases List.mem_cons.mp ht with rfl | ht
    · simp [p.word_eq]
    obtain ⟨s, hs, ht⟩ := List.mem_flatMap.mp ht
    rcases List.mem_cons.mp ht with rfl | ht
    · simp [s.opening_eq]
    rcases List.mem_append.mp ht with ht | ht
    · exact (hflat s hs t ht).2
    · simp [List.mem_singleton.mp ht, s.closing_eq]
  have hpeel : peelBrackets p.tokens.reverse 0 = some (p.word :: p.type.reverse, p.sizes.length) := by
    rw [tokens, List.append_cons, peelBrackets_sizes hflat, List.reverse_concat, peelBrackets,
      if_neg (by simp [p.word_eq]), Nat.zero_add]
  exact readParameter_of_peel (fun t ht => ne_ellipsis_of_mem_tokens ht) hparen hpeel p.word_eq p.name_free
    (exists_typeWord p.type_reads) hread hvoid

end ArrayParameter

/-- A parameter that holds a parenthesis and no ellipsis is not supported. -/
theorem readParameter_of_openParen {tokens : List Placed} {t : Placed} (ht : t ∈ tokens)
    (hparen : t.token = .openParen) (hellipsis : ∀ t ∈ tokens, t.token ≠ .ellipsis) :
    readParameter tokens = .error (.unsupported (joinWith " " (tokens.map (·.token.spelling)))) := by
  have hne : tokens ≠ [] := List.ne_nil_of_mem ht
  have hnone : ¬ tokens.any (·.token == .ellipsis) = true := by simpa using hellipsis
  have hany : tokens.any (·.token == .openParen) = true := List.any_eq_true.mpr ⟨t, ht, by simp [hparen]⟩
  rw [readParameter, if_neg (by simpa using hne), if_neg hnone, if_pos hany]

/-- Parameters written as arrays decay. Such a parameter stays in one piece in a list of parameters. If its
sizes hold neither brackets of their own nor parentheses, it is read like the parameter with a star for each
size, which has the type of an address and the name; if one of them holds a parenthesis, the parameter is not
supported. -/
theorem readParameter_array (p : ArrayParameter) :
    (∀ more, splitAtCommas 0 [] (p.tokens ++ more) = splitAtCommas 0 p.tokens more) ∧
    (∃ declared, readType (p.type.map (·.token.spelling) ++ List.replicate p.sizes.length "*") = .ok declared ∧
      readParameter p.starred = .ok ⟨declared, some p.name⟩ ∧
      ((∀ s ∈ p.sizes, s.Flat) → readParameter p.tokens = .ok ⟨declared, some p.name⟩)) ∧
    ((∃ s ∈ p.sizes, ∃ t ∈ s.inner, t.token = .openParen) →
      readParameter p.tokens = .error (.unsupported (joinWith " " (p.tokens.map (·.token.spelling))))) := by
  obtain ⟨n, hn⟩ := Nat.exists_eq_add_one_of_ne_zero (mt List.length_eq_zero_iff.mp p.sizes_ne_nil)
  obtain ⟨declared, hread, hvoid⟩ := readType_append_stars p.type_reads n
  rw [← hn] at hread
  refine ⟨p.splitAtCommas_tokens, ⟨declared, hread, p.readParameter_starred hread hvoid, fun hflat =>
    p.readParameter_tokens hflat hread hvoid⟩, ?_⟩
  · rintro ⟨s, hs, t, ht, hparen⟩
    refine readParameter_of_openParen (t := t) ?_ hparen fun u hu => p.ne_ellipsis_of_mem_tokens hu
    refine List.mem_append_right _ (List.mem_cons_of_mem _ (List.mem_flatMap.mpr ⟨s, hs, ?_⟩))
    exact List.mem_cons_of_mem _ (List.mem_append_left _ ht)

/-- A size that stands on the first line. -/
def ArraySize.onFirstLine (inner : List Token)
    (hbrackets : Matched .openBracket .closeBracket (inner.map (⟨·, 1⟩)))
    (hparens : Matched .openParen .closeParen (inner.map (⟨·, 1⟩))) (hfixed : .ellipsis ∉ inner) : ArraySize where
  opening := ⟨.openBracket, 1⟩
  inner := inner.map (⟨·, 1⟩)
  closing := ⟨.closeBracket, 1⟩
  opening_eq := rfl
  closing_eq := rfl
  brackets_matched := hbrackets
  parens_matched := hparens
  inner_fixed := fun t ht h => by
    obtain ⟨u, hu, rfl⟩ := List.mem_map.mp ht
    exact hfixed (h ▸ hu)

namespace ArrayParameter

/-- The parameter `const float m[ROWS][2, 3]`. -/
def matrix : ArrayParameter where
  type := [⟨.ident "const", 1⟩, ⟨.ident "float", 1⟩]
  element := .full .float32
  word := ⟨.ident "m", 1⟩
  name := "m"
  sizes := [.onFirstLine [.ident "ROWS"] ⟨rfl, rfl⟩ ⟨rfl, rfl⟩ (by simp),
    .onFirstLine [.literal "2", .comma, .literal "3"] ⟨rfl, rfl⟩ ⟨rfl, rfl⟩ (by simp)]
  type_reads := by decide +kernel
  word_eq := rfl
  name_free := by decide +kernel
  sizes_ne_nil := by simp

/-- The parameter `char buf[sizeof(int)]`. -/
def bytesOfInt : ArrayParameter where
  type := [⟨.ident "char", 1⟩]
  element := .narrow .i8
  word := ⟨.ident "buf", 1⟩
  name := "buf"
  sizes := [.onFirstLine [.ident "sizeof", .openParen, .ident "int", .closeParen] ⟨rfl, rfl⟩ ⟨rfl, rfl⟩ (by simp)]
  type_reads := by decide +kernel
  word_eq := rfl
  name_free := by decide +kernel
  sizes_ne_nil := by simp

/-- The parameter `int a[n[0]]`. -/
def indexedSize : ArrayParameter where
  type := [⟨.ident "int", 1⟩]
  element := .full .int32
  word := ⟨.ident "a", 1⟩
  name := "a"
  sizes := [.onFirstLine [.ident "n", .openBracket, .literal "0", .closeBracket] ⟨rfl, rfl⟩ ⟨rfl, rfl⟩ (by simp)]
  type_reads := by decide +kernel
  word_eq := rfl
  name_free := by decide +kernel
  sizes_ne_nil := by simp

end ArrayParameter

/-- A parameter with two sizes, one of them with a comma, is read as the address of an address, and one with a
parenthesis in its size is not supported. -/
theorem readParameter_matrix_and_sizeof :
    let p := ArrayParameter.matrix
    let q := ArrayParameter.bytesOfInt
    (p.tokens = tokenize "const float m[ROWS][2, 3]" ∧ q.tokens = tokenize "char buf[sizeof(int)]") ∧
      readParameter p.tokens = .ok ⟨.full (.pointerTo (.pointerTo .float32)), some "m"⟩ ∧
      readParameter q.tokens =
        .error (.unsupported (joinWith " " ["char", "buf", "[", "sizeof", "(", "int", ")", "]"])) := by
  intro p q
  obtain ⟨-, ⟨declared, hread, -, hflat⟩, -⟩ := readParameter_array p
  have hsizes : ∀ s ∈ p.sizes, s.Flat := by
    intro s hs
    simp only [p, ArrayParameter.matrix, List.mem_cons, List.not_mem_nil, or_false] at hs
    rcases hs with rfl | rfl <;> simp [ArraySize.Flat, ArraySize.onFirstLine]
  have hdeclared : declared = .full (.pointerTo (.pointerTo .float32)) := by
    have hvalue : readType (p.type.map (·.token.spelling) ++ List.replicate p.sizes.length "*") =
        .ok (.full (.pointerTo (.pointerTo .float32))) := by decide +kernel
    rw [hvalue] at hread
    exact (Except.ok.inj hread).symm
  refine ⟨⟨by decide +kernel, by decide +kernel⟩, hdeclared ▸ hflat hsizes, ?_⟩
  exact (readParameter_array q).2.2 ⟨_, List.mem_singleton.mpr rfl, ⟨.openParen, 1⟩, by decide +kernel, rfl⟩

/-- Two parameters written as arrays are refused, although each is read with a star in place of its size: one
with a parenthesis in the size, and one with brackets in it. -/
theorem array_parameters_refused :
    let q := ArrayParameter.bytesOfInt
    let r := ArrayParameter.indexedSize
    (q.tokens = tokenize "char buf[sizeof(int)]" ∧ r.tokens = tokenize "int a[n[0]]") ∧
      readParameter q.starred = .ok ⟨.full .bytePointer, some "buf"⟩ ∧
      readParameter q.tokens = .error (.unsupported "char buf [ sizeof ( int ) ]") ∧
      readParameter r.starred = .ok ⟨.full (.pointerTo .int32), some "a"⟩ ∧
      readParameter r.tokens = .error (.unsupported "int a [*") := by
  decide +kernel

end CBind.Source
