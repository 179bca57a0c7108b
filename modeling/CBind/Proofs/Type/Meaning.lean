import CBind.Proofs.Source.Vocabulary

/-!
# Types mean what they mean in C

The scalar types of C are spelled by multisets of specifier words, or by one name of fixed width. In the
LP64 model each of them has a width, and the integers have a sign. A list of tokens that spells one of them,
in any order and with qualifiers anywhere, is read as the canonical type of that width. The sign is kept for
integers of 8 and 16 bits, which are passed at their declared width; wider integers of either sign have one
canonical type. Each star adds one level of address.

Words of no scalar type and specifiers that C does not combine are refused. Nothing is said here of
repeated words that C refuses and the reader takes, such as `int int`.
-/

namespace CBind

open CBind.Source

/-- The integer types of C that specifier words name. -/
inductive IntegerRank where
  | char
  | short
  | int
  | long
  | longLong

/-- The width of an integer type in the LP64 model. -/
def IntegerRank.bits : IntegerRank → Nat
  | char => 8
  | short => 16
  | int => 32
  | long => 64
  | longLong => 64

/-- The words that name an integer type beside a word for its sign; `int` may go without any. -/
def IntegerRank.words : IntegerRank → List (List String)
  | char => [["char"]]
  | short => [["short"], ["short", "int"]]
  | int => [["int"], []]
  | long => [["long"], ["long", "int"]]
  | longLong => [["long", "long"], ["long", "long", "int"]]

/-- The words for a sign. Without one an integer is signed, and so is plain `char`. -/
def signWords : Bool → List (List String)
  | true => [[], ["signed"]]
  | false => [["unsigned"]]

/-- The integers of fixed width, and those of the width of an address, with their widths and signs. -/
def fixedWidthIntegers : List (String × Nat × Bool) :=
  [("int8_t", 8, true), ("uint8_t", 8, false), ("int16_t", 16, true), ("uint16_t", 16, false),
    ("int32_t", 32, true), ("uint32_t", 32, false), ("int64_t", 64, true), ("uint64_t", 64, false),
    ("size_t", 64, false), ("ssize_t", 64, true), ("intptr_t", 64, true), ("uintptr_t", 64, false),
    ("ptrdiff_t", 64, true), ("off_t", 64, true)]

/-- A scalar type of C in the LP64 model. -/
inductive CScalar where
  | void
  | integer (bits : Nat) (signed : Bool)
  | real (bits : Nat)

/-- The words spell a scalar type of C. -/
inductive Spells : List String → CScalar → Prop
  | void : Spells ["void"] .void
  | float : Spells ["float"] (.real 32)
  | double : Spells ["double"] (.real 64)
  | integer {rank : IntegerRank} {signed : Bool} {sign words : List String} (hsign : sign ∈ signWords signed)
      (hwords : words ∈ rank.words) (hne : sign ++ words ≠ []) :
      Spells (sign ++ words) (.integer rank.bits signed)
  | fixedWidth {name : String} {bits : Nat} {signed : Bool}
      (h : (name, bits, signed) ∈ fixedWidthIntegers) : Spells [name] (.integer bits signed)

/-- The declared type passes values of a scalar type: a narrow integer as 32 bits with its width and sign
beside them, everything else at its own width. -/
def CScalar.PassedAs (d : DeclaredType) : CScalar → Prop
  | void => d = .full .void
  | integer bits signed =>
    if bits < 32 then d.type = .int32 ∧ d.width.map (fun w => (w.bits, w.isSigned)) = some (bits, signed)
    else d.type.isInteger = true ∧ 8 * d.type.size = bits ∧ d.width = none
  | real bits => (d.type = .float32 ∨ d.type = .float64) ∧ 8 * d.type.size = bits ∧ d.width = none

/-- What the address of a scalar type knows of its elements: bytes are told apart, 16 bits have no canonical
type. -/
def CScalar.pointee (element : CType) : CScalar → Pointee
  | void => .untyped
  | integer bits _ => if bits = 8 then .byte else if bits = 16 then .untyped else .element element
  | real _ => .element element

/-- Addresses nested one in another, the innermost of which knows what `p` describes. -/
def nestedAddress (p : Pointee) : Nat → CType
  | 0 => .ofPointee p
  | n + 1 => .ofPointee (.element (nestedAddress p n))

/-- The declared type behind stars: without stars that of the scalar, else nested addresses without a
width. -/
def CScalar.behindStars (d : DeclaredType) (m : CScalar) : Nat → DeclaredType
  | 0 => d
  | n + 1 => .full (nestedAddress (m.pointee d.type) n)

/-- The tokens in another order, or with a qualifier more or less. -/
inductive Respells : List String → List String → Prop
  | reorder {tokens other : List String} (h : tokens.Perm other) : Respells tokens other
  | qualify {q : String} (front back : List String) (h : isQualifier q = true) :
      Respells (front ++ back) (front ++ q :: back)
  | unqualify {q : String} (front back : List String) (h : isQualifier q = true) :
      Respells (front ++ q :: back) (front ++ back)

/-- The tokens hold a word of no scalar type, or words that C does not combine. -/
inductive Misspelled (tokens : List String) : Prop
  | unknown {w : String} (hw : w ∈ tokens)
      (h : w ∉ "*" :: (qualifiers ++ specifierWords ++ fixedWidthWords))
  | combined {w : String} (hw : w ∈ ["float", "double", "void"]) (hmem : w ∈ tokens)
      (h : 1 < (typeWords tokens).length)
  | longChar {w : String} (hmem : "char" ∈ tokens) (hw : w ∈ ["short", "int", "long"]) (h : w ∈ tokens)
  | longShort (hmem : "short" ∈ tokens) (h : "long" ∈ tokens)
  | longLongLong (h : 3 ≤ tokens.count "long") (hchar : "char" ∉ tokens) (hshort : "short" ∉ tokens)

/-! ## The order of words and the qualifiers -/

/-- Specifiers combine alike in any order. -/
theorem combineSpecifiers_perm {words other : List String} (h : words.Perm other) :
    combineSpecifiers words = combineSpecifiers other := by
  have hcontains (w : String) : words.contains w = other.contains w := h.contains_eq
  have hall : words.all specifierWords.contains = other.all specifierWords.contains := h.all_eq
  simp only [combineSpecifiers, hcontains, hall, h.count_eq, h.length_eq]

/-- A scalar is read off its words in any order. -/
theorem scalar?_perm {words other : List String} (h : words.Perm other) : scalar? words = scalar? other := by
  have hcombine := combineSpecifiers_perm h
  match words, other with
  | [w], other =>
    rw [List.singleton_perm.mp h]
  | [], other =>
    rw [List.nil_perm.mp h]
  | v :: w :: words, [] => simpa using h.length_eq
  | v :: w :: words, [u] => simpa using h.length_eq
  | v :: w :: words, u :: x :: other => simpa only [scalar?] using hcombine

/-- A qualifier is neither a word of the scalar nor a star. -/
theorem typeWords_qualifier {q : String} (hq : isQualifier q = true) (front back : List String) :
    typeWords (front ++ q :: back) = typeWords (front ++ back) ∧
      (front ++ q :: back).count "*" = (front ++ back).count "*" := by
  have hne : q ≠ "*" := by
    rintro rfl
    exact absurd hq (by decide)
  constructor
  · simp [typeWords, hq]
  · simp [hne]

/-- Another spelling has the same words and stars in some order. -/
theorem Respells.typeWords_perm {tokens other : List String} (h : Respells tokens other) :
    (typeWords tokens).Perm (typeWords other) ∧ tokens.count "*" = other.count "*" := by
  cases h with
  | reorder h => exact ⟨h.filter _, h.count_eq _⟩
  | qualify front back hq =>
    obtain ⟨hwords, hstars⟩ := typeWords_qualifier hq front back
    exact ⟨.of_eq hwords.symm, hstars.symm⟩
  | unqualify front back hq =>
    obtain ⟨hwords, hstars⟩ := typeWords_qualifier hq front back
    exact ⟨.of_eq hwords, hstars⟩

/-- Another spelling is read as the same type, or refused as well. -/
theorem Respells.readType_eq {tokens other : List String} (h : Respells tokens other) :
    (readType tokens).toOption = (readType other).toOption := by
  obtain ⟨hwords, hstars⟩ := h.typeWords_perm
  unfold readType
  rw [scalar?_perm hwords, hstars]
  cases scalar? (typeWords other) with
  | none => rfl
  | some scalar => cases other.count "*" <;> rfl

/-! ## Types that are read -/

/-- Stars nest addresses. -/
theorem addressTimes_ofPointee (p : Pointee) (n : Nat) : addressTimes n (.ofPointee p) = nestedAddress p n := by
  induction n with
  | zero => rfl
  | succ n ih => rw [addressTimes, ih, nestedAddress, CType.ofPointee]

/-- The scalar that a scalar type of C is read as. -/
def CScalar.scalar : CScalar → ScalarType
  | void => .void
  | integer bits signed =>
    if bits = 8 then .int8 signed else if bits = 16 then .int16 signed
    else if bits = 32 then .int32 else .int64
  | real bits => if bits = 32 then .float32 else .float64

/-- The words of a scalar type of C are read as its scalar. -/
theorem scalar?_of_spells {words : List String} {m : CScalar} (h : Spells words m) :
    scalar? words = some m.scalar := by
  cases h with
  | void => decide
  | float => decide
  | double => decide
  | @integer rank signed sign words hsign hwords hne =>
    have hall (signed : Bool) : ∀ sign ∈ signWords signed, ∀ words ∈ rank.words, sign ++ words ≠ [] →
        scalar? (sign ++ words) = some (CScalar.integer rank.bits signed).scalar := by
      cases rank <;> cases signed <;> decide
    exact hall signed sign hsign words hwords hne
  | @fixedWidth name bits signed hname =>
    have hall : ∀ entry ∈ fixedWidthIntegers,
        scalar? [entry.1] = some (CScalar.integer entry.2.1 entry.2.2).scalar := by decide
    exact hall _ hname

/-- The widths that integers of C have. -/
theorem bits_of_spells {words : List String} {bits : Nat} {signed : Bool}
    (h : Spells words (.integer bits signed)) : bits ∈ [8, 16, 32, 64] := by
  cases h with
  | @integer rank => cases rank <;> decide
  | fixedWidth hname =>
    have hall : ∀ entry ∈ fixedWidthIntegers, entry.2.1 ∈ [8, 16, 32, 64] := by decide
    exact hall _ hname

/-- The scalar of a type that words spell passes its values, and its address knows of its elements what it
should. -/
theorem passedAs_of_spells {words : List String} {m : CScalar} (h : Spells words m) :
    m.PassedAs m.scalar.declared ∧ m.scalar.address = .ofPointee (m.pointee m.scalar.declared.type) := by
  cases m with
  | void => exact ⟨rfl, rfl⟩
  | real bits =>
    cases h with
    | float => exact ⟨⟨.inl rfl, rfl, rfl⟩, rfl⟩
    | double => exact ⟨⟨.inr rfl, rfl, rfl⟩, rfl⟩
  | integer bits signed =>
    have hbits := bits_of_spells h
    simp only [List.mem_cons, List.not_mem_nil, or_false] at hbits
    rcases hbits with rfl | rfl | rfl | rfl
    · cases signed <;> exact ⟨⟨rfl, rfl⟩, rfl⟩
    · cases signed <;> exact ⟨⟨rfl, rfl⟩, rfl⟩
    · exact ⟨⟨rfl, rfl, rfl⟩, rfl⟩
    · exact ⟨⟨rfl, rfl, rfl⟩, rfl⟩

/-- Tokens that spell a scalar type of C, in any order and with qualifiers and stars anywhere, are read as
the type that passes its values behind as many stars. -/
theorem readType_of_spells {tokens words : List String} {m : CScalar} (h : Spells words m)
    (htokens : (typeWords tokens).Perm words) :
    ∃ d, m.PassedAs d ∧ readType tokens = .ok (m.behindStars d (tokens.count "*")) := by
  obtain ⟨hpassed, haddress⟩ := passedAs_of_spells h
  refine ⟨m.scalar.declared, hpassed, ?_⟩
  unfold readType
  rw [scalar?_perm htokens, scalar?_of_spells h]
  cases tokens.count "*" with
  | zero => rfl
  | succ n =>
    dsimp only
    rw [haddress, addressTimes_ofPointee, CScalar.behindStars]

/-! ## Types that are refused -/

/-- What the words of a scalar have in common. -/
structure Combine (words : List String) : Prop where
  known : ∀ w ∈ words, w ∈ specifierWords ++ fixedWidthWords
  alone : ∀ w ∈ ["float", "double", "void"], w ∈ words → words.length = 1
  char : "char" ∈ words → ∀ w ∈ ["short", "int", "long"], w ∉ words
  short : "short" ∈ words → "long" ∉ words
  longs : "char" ∉ words → "short" ∉ words → words.count "long" ≤ 2

/-- A word on its own combines with nothing. -/
theorem combine_singleton {w : String} (h : w ∈ specifierWords ++ fixedWidthWords) : Combine [w] := by
  have hall : ∀ v ∈ specifierWords ++ fixedWidthWords,
      ("char" ∈ [v] → ∀ w ∈ ["short", "int", "long"], w ∉ [v]) ∧ ("short" ∈ [v] → "long" ∉ [v]) ∧
        [v].count "long" ≤ 2 := by
    decide
  obtain ⟨hchar, hshort, hlongs⟩ := hall w h
  exact ⟨fun v hv => List.mem_singleton.mp hv ▸ h, fun _ _ _ => rfl, hchar, hshort, fun _ _ => hlongs⟩

/-- The words of a scalar combine. -/
theorem combine_of_scalar? {words : List String} {scalar : ScalarType} (h : scalar? words = some scalar) :
    Combine words := by
  by_cases hone : words.length = 1
  · obtain ⟨w, rfl⟩ := List.length_eq_one_iff.mp hone
    rcases scalar?_eq_some h with ⟨v, hv, hsame⟩ | ⟨-, hall⟩
    · exact combine_singleton (List.mem_append_right _ (List.singleton_inj.mp hsame ▸ hv))
    · exact combine_singleton (List.mem_append_left _ (hall w List.mem_cons_self))
  have hcombine : combineSpecifiers words = some scalar := by
    match words, hone with
    | [], _ => exact h
    | _ :: _ :: _, _ => exact h
  simp only [combineSpecifiers, if_neg hone, List.contains_eq_mem, Bool.or_eq_true, Bool.and_eq_true,
    Bool.not_eq_true', decide_eq_true_eq, decide_eq_false_iff_not, List.all_eq_false] at hcombine
  split_ifs at hcombine with hknown hvoid hreal hchar hplain hshort hlongs hnolong hint htwo
  all_goals
    have hknown : ∀ w ∈ words, w ∈ specifierWords ++ fixedWidthWords := fun w hw =>
      List.mem_append_left _ (by_contra fun hno => hknown ⟨w, hw, hno⟩)
    have halone : ∀ w ∈ ["float", "double", "void"], w ∈ words → words.length = 1 := by
      simp [hvoid, not_or.mp hreal]
  · obtain ⟨⟨hnolong, hnoshort⟩, hnoint⟩ := hplain
    have hnolong := List.count_eq_zero.mp hnolong
    exact ⟨hknown, halone, by simp [hnolong, hnoshort, hnoint], fun hmem => absurd hmem hnoshort,
      fun hnochar => absurd hchar hnochar⟩
  · exact ⟨hknown, halone, fun hmem => absurd hmem hchar, fun _ => List.count_eq_zero.mp hlongs,
      fun _ hnoshort => absurd hshort hnoshort⟩
  · exact ⟨hknown, halone, fun hmem => absurd hmem hchar, fun hmem => absurd hmem hshort,
      fun _ _ => by simp [hnolong]⟩
  · exact ⟨hknown, halone, fun hmem => absurd hmem hchar, fun hmem => absurd hmem hshort, fun _ _ => htwo⟩

/-- A word that is neither star nor qualifier is as often among the words as among the tokens. -/
theorem count_typeWords {w : String} (h : w ∉ "*" :: qualifiers) (tokens : List String) :
    (typeWords tokens).count w = tokens.count w := by
  refine List.count_filter ?_
  simpa [isQualifier] using h

/-- A word that is neither star nor qualifier is among the words exactly if it is a token. -/
theorem mem_typeWords_iff {w : String} (h : w ∉ "*" :: qualifiers) (tokens : List String) :
    w ∈ typeWords tokens ↔ w ∈ tokens := by
  rw [← List.count_pos_iff, count_typeWords h, List.count_pos_iff]

/-- Misspelled tokens name no scalar. -/
theorem Misspelled.scalar?_eq_none {tokens : List String} (h : Misspelled tokens) :
    scalar? (typeWords tokens) = none := by
  have hall : ∀ v ∈ specifierWords, v ∉ "*" :: qualifiers := by decide
  have hword {w : String} (hw : w ∈ specifierWords) : w ∈ typeWords tokens ↔ w ∈ tokens :=
    mem_typeWords_iff (hall w hw) tokens
  refine Option.eq_none_iff_forall_ne_some.mpr fun scalar hscalar => ?_
  have hcombine := combine_of_scalar? hscalar
  cases h with
  | @unknown w hw h =>
    rw [List.append_assoc, ← List.cons_append, List.mem_append, not_or] at h
    exact h.2 (hcombine.known w ((mem_typeWords_iff h.1 tokens).mpr hw))
  | @combined w hw hmem h =>
    have hreal : ∀ v ∈ ["float", "double", "void"], v ∈ specifierWords := by decide
    have hone := hcombine.alone w hw ((hword (hreal w hw)).mpr hmem)
    omega
  | @longChar w hmem hw h =>
    have hinteger : ∀ v ∈ ["short", "int", "long"], v ∈ specifierWords := by decide
    exact hcombine.char ((hword (by decide)).mpr hmem) w hw ((hword (hinteger w hw)).mpr h)
  | longShort hmem h => exact hcombine.short ((hword (by decide)).mpr hmem) ((hword (by decide)).mpr h)
  | longLongLong h hchar hshort =>
    have hlongs := hcombine.longs (fun hmem => hchar ((hword (by decide)).mp hmem))
      fun hmem => hshort ((hword (by decide)).mp hmem)
    rw [count_typeWords (by decide)] at hlongs
    omega

/-- Misspelled tokens are refused, and the fault shows them as they stand. -/
theorem Misspelled.readType_eq {tokens : List String} (h : Misspelled tokens) :
    readType tokens = .error (spellTokens tokens) := by
  rw [readType, h.scalar?_eq_none]

/-- Types are read as what they mean in C. Neither the order of the tokens nor qualifiers matter. Words that
spell a scalar type of C are read as the declared type that passes its values, behind stars as nested
addresses of what it is. Words of no scalar type and words that C does not combine are refused. -/
theorem readType_means (tokens : List String) :
    (∀ other, Respells tokens other → (readType tokens).toOption = (readType other).toOption) ∧
    (∀ words m, Spells words m → (typeWords tokens).Perm words →
      ∃ d, m.PassedAs d ∧ readType tokens = .ok (m.behindStars d (tokens.count "*"))) ∧
    (Misspelled tokens → readType tokens = .error (spellTokens tokens)) :=
  ⟨fun _ h => h.readType_eq, fun _ _ h htokens => readType_of_spells h htokens, fun h => h.readType_eq⟩

/-- Two stars among the words of a scalar: addresses of addresses of 64 bits. -/
theorem readType_means_unsigned_long_long :
    Spells ["unsigned", "long", "long", "int"] (.integer 64 false) ∧
    (typeWords ["long", "*", "int", "const", "unsigned", "*", "long"]).Perm
      ["unsigned", "long", "long", "int"] ∧
    ∃ d, (CScalar.integer 64 false).PassedAs d ∧
      readType ["long", "*", "int", "const", "unsigned", "*", "long"] =
        .ok ((CScalar.integer 64 false).behindStars d 2) := by
  have hspells : Spells (["unsigned"] ++ ["long", "long", "int"]) (.integer 64 false) :=
    @Spells.integer .longLong _ _ _ (by decide) (by decide) (by decide)
  have hwords : (typeWords ["long", "*", "int", "const", "unsigned", "*", "long"]).Perm
      ["unsigned", "long", "long", "int"] := by
    decide
  exact ⟨hspells, hwords, (readType_means _).2.1 _ _ hspells hwords⟩

end CBind
