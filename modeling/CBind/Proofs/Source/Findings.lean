import CBind.Source.Reading

/-!
# What a header adds to the findings

Reading a header looks at the names defined so far and at nothing else of the progress. It leaves
the findings there are in place and puts at most one behind them.

A header that reads as a definition of a name not defined so far adds its descriptor.
-/

namespace CBind.Source

/-- The header of a definition as the reader takes it apart: what it declares, and what the directives
in the comment lines `above` it and its types make of that. -/
structure Reads (location : Location) (above : List String) (header : List Placed)
    (definition : Declarator) (descriptor : Descriptor) : Prop where
  looks : looksLikeDefinition header = true
  declares : readDeclarator header = .ok definition
  gives : readDefinition location above definition = .ok descriptor

/-- The names that count as defined after headers of a token sequence were looked at. -/
def definedNames (file : String) (tokens : List Placed) (headers : List (List Placed)) : List String :=
  (headers.foldl (Progress.readBlock file tokens) {}).defined

/-- The name that a header asks to be defined, if it looks like a definition and has a declarator. -/
def blockName? (header : List Placed) : Option String :=
  if looksLikeDefinition (stripAttributes header) then
    (readDeclarator (stripAttributes header)).toOption.map (·.name)
  else none

/-- Note a name as defined. -/
def recordName (defined : List String) : Option String → List String
  | none => defined
  | some name => if defined.contains name then defined else name :: defined

/-- A linkage header does not look like a definition. -/
theorem isLinkageHeader_of_looksLikeDefinition {header : List Placed}
    (h : looksLikeDefinition (stripAttributes header) = true) : isLinkageHeader header = false := by
  cases hl : isLinkageHeader header with
  | false => rfl
  | true =>
    unfold isLinkageHeader at hl
    split at hl
    · next word language =>
      simp only [Bool.and_eq_true, beq_iff_eq] at hl
      have hlit : language.token ≠ .openParen := by
        intro he
        simp [he, Token.isLiteral] at hl
      simp [stripAttributes, looksLikeDefinition, hl.1, hlit] at h
    · contradiction

/-- Behind a matching parenthesis the text ends where it did. -/
theorem isSuffix_of_splitAtClose {depth : Nat} {tokens inner rest : List Placed}
    (h : splitAtClose depth tokens = some (inner, rest)) : rest <:+ tokens := by
  induction tokens generalizing depth inner with
  | nil => simp [splitAtClose] at h
  | cons t ts ih =>
    have hcons : ∀ d, consSplit t (splitAtClose d ts) = some (inner, rest) → rest <:+ t :: ts := by
      intro d hd
      cases hs : splitAtClose d ts with
      | none => simp [hs, consSplit] at hd
      | some p =>
        simp only [hs, consSplit, Option.some.injEq, Prod.mk.injEq] at hd
        exact (ih (hs.trans (by rw [← hd.2]))).trans (List.suffix_cons t ts)
    unfold splitAtClose at h
    split at h
    · exact hcons _ h
    · cases depth with
      | zero =>
        simp only [Option.some.injEq, Prod.mk.injEq] at h
        rw [← h.2]
        exact List.suffix_cons t ts
      | succ d => exact hcons _ h
    · exact hcons _ h

/-- Removing attributes adds no token. -/
theorem mem_of_mem_stripAttributes {header : List Placed} {t : Placed}
    (h : t ∈ stripAttributes header) : t ∈ header := by
  fun_induction stripAttributes header with
  | case1 => exact h
  | case2 => exact h
  | case3 => contradiction
  | case4 u next rest _ inner behind hsplit ih =>
    have := (isSuffix_of_splitAtClose hsplit).subset (ih h)
    exact List.mem_cons_of_mem u (List.mem_cons_of_mem next this)
  | case5 u next rest _ ih =>
    rcases List.mem_cons.mp h with rfl | h
    · exact List.mem_cons_self
    · exact List.mem_cons_of_mem u (ih h)

namespace Progress

variable {file : String} {tokens : List Placed}

/-- Reading a header depends on the names defined so far, not on the findings. -/
theorem readHeader_eq (p : Progress) (header : List Placed) :
    p.readHeader file tokens header =
      ⟨((⟨p.defined, []⟩ : Progress).readHeader file tokens header).defined,
        p.findings ++ ((⟨p.defined, []⟩ : Progress).readHeader file tokens header).findings⟩ := by
  cases header with
  | nil => simp [readHeader]
  | cons first rest =>
    simp only [readHeader]
    split
    · simp
    · split <;> simp

/-- Looking at a block depends on the names defined so far, not on the findings. -/
theorem readBlock_eq (p : Progress) (header : List Placed) :
    p.readBlock file tokens header =
      ⟨((⟨p.defined, []⟩ : Progress).readBlock file tokens header).defined,
        p.findings ++ ((⟨p.defined, []⟩ : Progress).readBlock file tokens header).findings⟩ := by
  unfold readBlock
  dsimp only
  split
  · exact readHeader_eq p _
  · simp

/-- Looking at blocks depends on the names defined so far, not on the findings. -/
theorem foldl_readBlock_eq (p : Progress) (headers : List (List Placed)) :
    headers.foldl (readBlock file tokens) p =
      ⟨(headers.foldl (readBlock file tokens) ⟨p.defined, []⟩).defined,
        p.findings ++ (headers.foldl (readBlock file tokens) ⟨p.defined, []⟩).findings⟩ := by
  induction headers generalizing p with
  | nil => simp
  | cons header rest ih =>
    rw [List.foldl_cons, List.foldl_cons, ih, readBlock_eq]
    rw [ih ((⟨p.defined, []⟩ : Progress).readBlock file tokens header)]
    simp

/-- The findings of a block and those of the blocks behind it. -/
theorem findings_foldl_cons (defined : List String) (header : List Placed)
    (rest : List (List Placed)) :
    ((header :: rest).foldl (readBlock file tokens) ⟨defined, []⟩).findings =
      ((⟨defined, []⟩ : Progress).readBlock file tokens header).findings ++
        (rest.foldl (readBlock file tokens)
          ⟨((⟨defined, []⟩ : Progress).readBlock file tokens header).defined, []⟩).findings := by
  rw [List.foldl_cons, foldl_readBlock_eq]

/-- Looking at a block notes the name that its header asks for. -/
theorem defined_readBlock (p : Progress) (header : List Placed) :
    (p.readBlock file tokens header).defined = recordName p.defined (blockName? header) := by
  unfold readBlock blockName?
  dsimp only
  split
  · cases hbare : stripAttributes header with
    | nil => next h => simp [hbare, looksLikeDefinition] at h
    | cons first rest =>
      simp only [readHeader]
      cases readDeclarator (first :: rest) with
      | error fault => rfl
      | ok d =>
        simp only [Except.toOption, Option.map_some, recordName]
        split <;> rfl
  · rfl

/-- Findings stay while blocks are looked at. -/
theorem isPrefix_findings_foldl (p : Progress) (headers : List (List Placed)) :
    p.findings <+: (headers.foldl (readBlock file tokens) p).findings := by
  rw [foldl_readBlock_eq]
  exact List.prefix_append _ _

/-- A header of a name not defined so far adds its descriptor and defines the name. -/
theorem readBlock_of_reads {p : Progress} {header rest : List Placed} {first : Placed}
    {definition : Declarator} {descriptor : Descriptor}
    (hstrip : stripAttributes header = first :: rest)
    (h : Reads ⟨file, first.line⟩ (commentsAbove tokens (first.line - 1)) (first :: rest) definition
      descriptor)
    (hnew : definition.name ∉ p.defined) :
    p.readBlock file tokens header =
      ⟨definition.name :: p.defined, p.findings ++ [.ok descriptor]⟩ := by
  have hname : p.defined.contains definition.name = false := by simpa using hnew
  unfold readBlock
  rw [hstrip, if_pos h.looks]
  simp only [readHeader, h.declares, hname, h.gives]
  rfl

end Progress

/-- A name is noted as defined if it was before or is noted now. -/
theorem mem_recordName {defined : List String} {asked : Option String} {name : String} :
    name ∈ recordName defined asked ↔ name ∈ defined ∨ asked = some name := by
  cases asked with
  | none => simp [recordName]
  | some other =>
    simp only [recordName, Option.some.injEq]
    split
    · next h =>
      have hother : other ∈ defined := by simpa using h
      refine ⟨.inl, ?_⟩
      rintro (h | rfl)
      · exact h
      · exact hother
    · rw [List.mem_cons, or_comm, eq_comm]

/-- The names defined behind headers are those defined in front and those the headers ask for. -/
theorem mem_defined_foldl {file : String} {tokens : List Placed} {p : Progress}
    {headers : List (List Placed)} {name : String} :
    name ∈ (headers.foldl (Progress.readBlock file tokens) p).defined ↔
      name ∈ p.defined ∨ ∃ header ∈ headers, blockName? header = some name := by
  induction headers generalizing p with
  | nil => simp
  | cons header rest ih =>
    rw [List.foldl_cons, ih, Progress.defined_readBlock, mem_recordName]
    simp only [List.mem_cons, exists_eq_or_imp, or_assoc]

/-- A name counts as defined if a header asks for it. -/
theorem mem_definedNames {file : String} {tokens : List Placed} {headers : List (List Placed)}
    {name : String} :
    name ∈ definedNames file tokens headers ↔
      ∃ header ∈ headers, blockName? header = some name := by
  rw [definedNames, mem_defined_foldl]
  simp

end CBind.Source
