import CBind.Proofs.Source.Findings

/-!
# What looking at a block reports

A finding tells which function it is about, if its header names one, and where the header starts.
Looking at the header of a block does one of four things: nothing, if the header is not taken for a
definition, or it reports a header without a declarator, a name that was defined before, or what the
declarator declares.
-/

namespace CBind

/-- The function that a fault is about, if it names one. -/
def Fault.function? : Fault → Option String
  | parse function _ _ => function
  | unsupportedType function _ _ => some function
  | symbolNotFound function _ _ => some function
  | argument function _ => some function
  | timeout function _ => some function
  | crash function _ => some function
  | poolClosed function => some function
  | _ => none

/-- The place in a source that a fault points at, if it points at one. -/
def Fault.location? : Fault → Option Location
  | parse _ location _ => some location
  | unsupportedType _ location _ => some location
  | symbolNotFound _ location _ => location
  | _ => none

end CBind

namespace CBind.Source

/-- The function that a finding describes or gives up, if it names one. -/
def Finding.name? : Finding → Option String
  | .ok d => some d.name
  | .error fault => fault.function?

/-- Where the header of a finding starts. -/
def Finding.location? : Finding → Option Location
  | .ok d => some d.location
  | .error fault => fault.location?

/-- The function that a header fault is about, if the header got as far as a name. -/
def HeaderFault.name? : HeaderFault → Option String
  | declarator .missingList => none
  | declarator .unrecognized => none
  | declarator (.unbalanced name) => some name
  | declarator (.trailing name) => some name
  | duplicate name => some name
  | missingResult name => some name
  | result name _ => some name
  | parameter name _ => some name
  | directive name _ => some name

/-- A placed header fault is about the same function. -/
theorem function?_toFault (location : Location) (fault : HeaderFault) :
    (fault.toFault location).function? = fault.name? := by
  cases fault with
  | declarator fault => cases fault <;> rfl
  | parameter name fault => cases fault <;> rfl
  | _ => rfl

/-- A placed header fault points at its place. -/
theorem location?_toFault (location : Location) (fault : HeaderFault) :
    (fault.toFault location).location? = some location := by
  cases fault with
  | declarator fault => cases fault <;> rfl
  | parameter name fault => cases fault <;> rfl
  | _ => rfl

section Definitions

variable {location : Location} {above : List String} {d : Declarator}

/-- A definition that is given up is given up by name. -/
theorem name?_of_readDefinition {fault : HeaderFault}
    (h : readDefinition location above d = .error fault) : fault.name? = some d.name := by
  unfold readDefinition at h
  dsimp only at h
  repeat' split at h
  all_goals cases h
  all_goals rfl

/-- A descriptor keeps the name and the place of the definition, and holds what its types and
parameters were read as. -/
theorem readDefinition_eq_ok {descriptor : Descriptor}
    (h : readDefinition location above d = .ok descriptor) :
    descriptor.name = d.name ∧ descriptor.location = location ∧
      readType (resultWords d.result) = .ok descriptor.returns ∧
      (descriptor.parameters = [] ∨
        readParameters (parameterGroups d.inner) = .ok descriptor.parameters) := by
  unfold readDefinition at h
  dsimp only at h
  split at h
  · contradiction
  split at h
  · contradiction
  next returns hreturns =>
  split at h
  · contradiction
  next parameters hparameters =>
  split at h
  · contradiction
  cases h
  refine ⟨rfl, rfl, hreturns, ?_⟩
  by_cases hvoid : isVoidList (parameterGroups d.inner) = true
  · rw [if_pos hvoid] at hparameters
    exact .inl (Except.ok.inj hparameters).symm
  · rw [if_neg hvoid] at hparameters
    exact .inr hparameters

/-- What a declarator gives is about the function it names. -/
theorem name?_mapError_readDefinition (place : Location) :
    Finding.name? ((readDefinition location above d).mapError (HeaderFault.toFault place)) =
      some d.name := by
  cases h : readDefinition location above d with
  | ok descriptor => exact congrArg some (readDefinition_eq_ok h).1
  | error fault => exact (function?_toFault place fault).trans (name?_of_readDefinition h)

/-- What a declarator gives points at the place of its header. -/
theorem location?_mapError_readDefinition :
    Finding.location? ((readDefinition location above d).mapError (HeaderFault.toFault location)) =
      some location := by
  cases h : readDefinition location above d with
  | ok descriptor => exact congrArg some (readDefinition_eq_ok h).2.1
  | error fault => exact location?_toFault location fault

end Definitions

namespace Progress

/-- All that looking at a block can do. -/
theorem readBlock_cases (p : Progress) (file : String) (tokens header : List Placed) :
    (looksLikeDefinition (stripAttributes header) = false ∧ p.readBlock file tokens header = p) ∨
    ∃ first rest, stripAttributes header = first :: rest ∧
      ((∃ fault, readDeclarator (first :: rest) = .error fault ∧
        p.readBlock file tokens header = ⟨p.defined, p.findings ++
          [.error ((HeaderFault.declarator fault).toFault ⟨file, first.line⟩)]⟩) ∨
      (∃ d, readDeclarator (first :: rest) = .ok d ∧ d.name ∈ p.defined ∧
        p.readBlock file tokens header = ⟨p.defined, p.findings ++
          [.error ((HeaderFault.duplicate d.name).toFault ⟨file, first.line⟩)]⟩) ∨
      ∃ d, readDeclarator (first :: rest) = .ok d ∧ d.name ∉ p.defined ∧
        p.readBlock file tokens header = ⟨d.name :: p.defined, p.findings ++
          [(readDefinition ⟨file, first.line⟩ (commentsAbove tokens (first.line - 1)) d).mapError
            (HeaderFault.toFault ⟨file, first.line⟩)]⟩) := by
  unfold readBlock
  dsimp only
  by_cases hlooks : looksLikeDefinition (stripAttributes header) = true
  · rw [if_pos hlooks]
    cases hbare : stripAttributes header with
    | nil => simp [hbare, looksLikeDefinition] at hlooks
    | cons first rest =>
      refine .inr ⟨first, rest, rfl, ?_⟩
      simp only [readHeader]
      cases hread : readDeclarator (first :: rest) with
      | error fault => exact .inl ⟨fault, rfl, rfl⟩
      | ok d =>
        by_cases hname : d.name ∈ p.defined
        · refine .inr (.inl ⟨d, rfl, hname, ?_⟩)
          simp only [List.contains_iff_mem.mpr hname, ↓reduceIte]
          rfl
        · have hcontains : p.defined.contains d.name = false := by simpa using hname
          refine .inr (.inr ⟨d, rfl, hname, ?_⟩)
          simp only [hcontains, Bool.false_eq_true, ↓reduceIte]
  · exact .inl ⟨by simpa using hlooks, if_neg hlooks⟩

end Progress

end CBind.Source
