import CBind.Call.Shape
import CBind.Proofs.Source.Placing
import CBind.Proofs.Source.Reports
import CBind.Proofs.Source.Scanning

/-!
# Every reading is well formed

Whatever the text, its tokens stand on lines that do not decrease, headers hold tokens in that order,
and each header is reported at its first token. So findings come in the order of their lines. A name
counts as defined before its descriptor is added, so no two descriptors have one name.

A parameter is only accepted with a type other than `void`, and a declared width stands beside 32-bit
integers only. Therefore every parameter of a descriptor has a machine class, and the shape of a call
has the classes of the parameters one by one.
-/

namespace CBind

/-- A descriptor of a function that can be called as it is described. -/
structure Descriptor.WellFormed (d : Descriptor) : Prop where
  parameter_ne_void : ∀ p ∈ d.parameters, p.declared.type ≠ .void
  parameter_width : ∀ p ∈ d.parameters, p.declared.width.isSome → p.declared.type = .int32
  result_width : d.returns.width.isSome → d.returns.type = .int32

/-- The shape of a call has the classes of the parameters, one for each, in order. -/
theorem CallShape.parameters_of {d : Descriptor} (h : d.WellFormed) :
    (CallShape.of d).parameters.map some = d.parameters.map fun p => AbiClass.of? p.declared :=
  parameters_of_ne_void h.parameter_ne_void

/-- A declared width stands beside a 32-bit integer only. -/
theorem type_of_readType {words : List String} {d : DeclaredType} (h : readType words = .ok d)
    (hwidth : d.width.isSome) : d.type = .int32 := by
  unfold readType at h
  split at h
  · contradiction
  · next scalar _ =>
    split at h
    · cases h
      cases scalar with
      | int8 signed => cases signed <;> rfl
      | int16 signed => cases signed <;> rfl
      | _ => contradiction
    · cases h
      contradiction

end CBind

namespace CBind.Source

/-- Locations of one file on lines that do not decrease. -/
def LinesUp (file : String) (locations : List (Option Location)) : Prop :=
  ∃ lines : List Nat, locations = lines.map (fun n => some ⟨file, n⟩) ∧ lines.Pairwise (· ≤ ·)

/-- A reading whose functions and faults are told apart and in order, and whose functions can be
called as they are described. -/
structure Reading.WellFormed (file : String) (r : Reading) : Prop where
  names_nodup : (r.descriptors.map (·.name)).Nodup
  descriptors_lineUp : LinesUp file (r.descriptors.map fun d => some d.location)
  diagnostics_lineUp : LinesUp file (r.diagnostics.map Fault.location?)
  descriptors_wellFormed : ∀ d ∈ r.descriptors, d.WellFormed

/-- Some of the locations line up if all do. -/
theorem LinesUp.sublist {file : String} {some' all : List (Option Location)} (h : LinesUp file all)
    (hsub : some'.Sublist all) : LinesUp file some' := by
  obtain ⟨lines, rfl, hlines⟩ := h
  obtain ⟨kept, hkept, rfl⟩ := List.sublist_map_iff.mp hsub
  exact ⟨kept, rfl, hlines.sublist hkept⟩

section Order

/-- The lines of a comment stand one below the other. -/
theorem pairwise_placeLines (line : Nat) (texts : List (List Char)) :
    (placeLines line texts).Pairwise (·.line ≤ ·.line) := by
  induction texts generalizing line with
  | nil => exact List.Pairwise.nil
  | cons text texts ih =>
    refine List.Pairwise.cons (fun t ht => ?_) (ih (line + 1))
    have := (line_of_mem_placeLines ht).1
    show line ≤ t.line
    omega

/-- Tokens stand on lines that do not decrease. -/
theorem pairwise_tokensFrom (line : Nat) (ls : List Lexeme) :
    (tokensFrom line ls).Pairwise (·.line ≤ ·.line) := by
  induction ls generalizing line with
  | nil => exact List.Pairwise.nil
  | cons l ls ih =>
    have hown : (l.tokens line).Pairwise (·.line ≤ ·.line) := by
      cases l with
      | blank c => exact List.Pairwise.nil
      | blockComment body closed => exact pairwise_placeLines line _
      | _ => exact List.pairwise_singleton _ _
    refine List.pairwise_append.mpr ⟨hown, ih _, fun t ht u hu => ?_⟩
    have hend := (Lexeme.line_of_mem_tokens ht).2
    have hstart := (line_of_mem_tokensFrom hu).1
    omega

/-- After a step a scan holds the tokens it held and the one it took, less some. -/
theorem Scan.sublist_step (s : Scan) (t : Placed) :
    ((s.step t).headers.flatten ++ (s.step t).header).Sublist
      (s.headers.flatten ++ s.header ++ [t]) := by
  have hclear : (s.headers.flatten ++ []).Sublist (s.headers.flatten ++ s.header ++ [t]) := by
    rw [List.append_assoc]
    exact (List.Sublist.refl _).append (List.nil_sublist _)
  by_cases hd : s.depth = 0
  · by_cases hc : t.token.isComment = true
    · rw [step_comment hc]
      exact List.sublist_append_left _ _
    · rcases step_outside_cases hd (by simpa using hc) with
        ⟨-, h⟩ | ⟨-, -, h⟩ | ⟨-, -, -, h⟩ | ⟨-, -, h⟩ <;> rw [h]
      · exact hclear
      · exact hclear
      · simp [enterBody]
      · simp [keep]
  · rw [step_inside hd]
    exact List.sublist_append_left _ _

/-- A scan holds tokens in the order it took them. -/
theorem Scan.sublist_run (s : Scan) (tokens : List Placed) :
    ((s.run tokens).headers.flatten ++ (s.run tokens).header).Sublist
      (s.headers.flatten ++ s.header ++ tokens) := by
  induction tokens generalizing s with
  | nil => simp [run]
  | cons t rest ih =>
    rw [run_cons]
    refine (ih (s.step t)).trans ?_
    rw [show s.headers.flatten ++ s.header ++ t :: rest =
      s.headers.flatten ++ s.header ++ [t] ++ rest by simp]
    exact (s.sublist_step t).append_right rest

/-- The headers of a text hold tokens of the text in their order. -/
theorem sublist_blockHeaders (tokens : List Placed) : (blockHeaders tokens).flatten.Sublist tokens :=
  (List.sublist_append_left _ _).trans (Scan.sublist_run {} tokens)

/-- Removing attributes keeps the order of what is left. -/
theorem sublist_stripAttributes (header : List Placed) : (stripAttributes header).Sublist header := by
  fun_induction stripAttributes header with
  | case1 => exact List.Sublist.refl _
  | case2 => exact List.Sublist.refl _
  | case3 => exact List.nil_sublist _
  | case4 t next rest _ inner behind hsplit ih =>
    have hrest := ih.trans (isSuffix_of_splitAtClose hsplit).sublist
    exact (hrest.cons next).cons t
  | case5 t next rest _ ih => exact ih.cons_cons t

/-- The tokens that headers start with, attributes aside. -/
def firstTokens (headers : List (List Placed)) : List Placed :=
  headers.flatMap fun header => (stripAttributes header).take 1

/-- Headers start in the order of their tokens. -/
theorem sublist_firstTokens (headers : List (List Placed)) :
    (firstTokens headers).Sublist headers.flatten := by
  induction headers with
  | nil => exact List.Sublist.refl _
  | cons header rest ih =>
    rw [firstTokens, List.flatMap_cons, List.flatten_cons]
    exact ((List.take_sublist 1 _).trans (sublist_stripAttributes header)).append ih

/-- Looking at a block reports at most once, where the header starts. -/
theorem Progress.locations_readBlock (p : Progress) (file : String) (tokens header : List Placed) :
    ∃ own : List Finding, (p.readBlock file tokens header).findings = p.findings ++ own ∧
      (own.map Finding.location?).Sublist
        (((stripAttributes header).take 1).map fun t => some ⟨file, t.line⟩) := by
  rcases p.readBlock_cases file tokens header with
    ⟨-, h⟩ | ⟨first, rest, hbare, ⟨fault, -, h⟩ | ⟨d, -, -, h⟩ | ⟨d, -, -, h⟩⟩
  · exact ⟨[], by simp [h], List.nil_sublist _⟩
  all_goals
    refine ⟨_, by rw [h], ?_⟩
    rw [hbare]
    refine List.singleton_sublist.mpr (List.mem_singleton.mpr ?_)
  · exact location?_toFault _ (.declarator fault)
  · exact location?_toFault _ (.duplicate d.name)
  · exact location?_mapError_readDefinition

/-- Findings come in the order in which their headers start. -/
theorem Progress.locations_foldl (p : Progress) (file : String) (tokens : List Placed)
    (headers : List (List Placed)) :
    ∃ own : List Finding,
      (headers.foldl (Progress.readBlock file tokens) p).findings = p.findings ++ own ∧
      (own.map Finding.location?).Sublist
        ((firstTokens headers).map fun t => some ⟨file, t.line⟩) := by
  induction headers generalizing p with
  | nil => exact ⟨[], by simp, List.nil_sublist _⟩
  | cons header rest ih =>
    obtain ⟨own, hown, hplace⟩ := p.locations_readBlock file tokens header
    obtain ⟨later, hlater, hplaces⟩ := ih (p.readBlock file tokens header)
    refine ⟨own ++ later, by rw [List.foldl_cons, hlater, hown, List.append_assoc], ?_⟩
    rw [firstTokens, List.flatMap_cons, List.map_append, List.map_append]
    exact hplace.append hplaces

/-- The findings of a text stand on lines that do not decrease. -/
theorem linesUp_readTokens (file : String) {tokens : List Placed}
    (h : tokens.Pairwise (·.line ≤ ·.line)) :
    LinesUp file ((readTokens file tokens).map Finding.location?) := by
  obtain ⟨own, hown, hplaces⟩ :=
    Progress.locations_foldl {} file tokens (blockHeaders tokens)
  have hfirst : (firstTokens (blockHeaders tokens)).Sublist tokens :=
    (sublist_firstTokens _).trans (sublist_blockHeaders tokens)
  have hlines : LinesUp file ((firstTokens (blockHeaders tokens)).map fun t => some ⟨file, t.line⟩) :=
    ⟨(firstTokens (blockHeaders tokens)).map (·.line), by simp,
      List.pairwise_map.mpr (h.sublist hfirst)⟩
  have hfindings : readTokens file tokens = own := by simpa [readTokens] using hown
  rw [hfindings]
  exact hlines.sublist hplaces

end Order

section Parameters

/-- An accepted parameter is not `void`, and only a 32-bit integer has a declared width. -/
theorem readParameter_eq_ok {tokens : List Placed} {p : Parameter} (h : readParameter tokens = .ok p) :
    p.declared.type ≠ .void ∧ (p.declared.width.isSome → p.declared.type = .int32) := by
  unfold readParameter at h
  split at h
  · contradiction
  split at h
  · contradiction
  split at h
  · contradiction
  split at h
  · contradiction
  dsimp only at h
  split at h
  · contradiction
  next declared hread =>
  split at h
  · contradiction
  next hvoid =>
  cases h
  exact ⟨hvoid, type_of_readType hread⟩

/-- What holds for every accepted parameter holds for all parameters of an accepted list. -/
theorem forall_readParameters {P : Parameter → Prop}
    (hP : ∀ tokens p, readParameter tokens = .ok p → P p) {groups : List (List Placed)}
    {ps : List Parameter} (h : readParameters groups = .ok ps) : ∀ p ∈ ps, P p := by
  induction groups generalizing ps with
  | nil =>
    cases h
    simp
  | cons group rest ih =>
    unfold readParameters at h
    split at h
    · contradiction
    next p hp =>
    split at h
    · contradiction
    next others hothers =>
    cases h
    exact List.forall_mem_cons.mpr ⟨hP group p hp, ih hothers⟩

/-- What a declarator is read as can be called as it is described. -/
theorem wellFormed_of_readDefinition {location : Location} {above : List String} {d : Declarator}
    {descriptor : Descriptor} (h : readDefinition location above d = .ok descriptor) :
    descriptor.WellFormed := by
  obtain ⟨-, -, hreturns, hparameters⟩ := readDefinition_eq_ok h
  have hall : ∀ p ∈ descriptor.parameters,
      p.declared.type ≠ .void ∧ (p.declared.width.isSome → p.declared.type = .int32) := by
    rcases hparameters with hnone | hread
    · simp [hnone]
    · exact forall_readParameters (fun _ _ => readParameter_eq_ok) hread
  exact ⟨fun p hp => (hall p hp).1, fun p hp => (hall p hp).2, type_of_readType hreturns⟩

end Parameters

/-- The functions described so far have one name each, all of them count as defined, and they can be
called as they are described. -/
structure Progress.Sound (p : Progress) : Prop where
  names_nodup : ((Reading.mk p.findings).descriptors.map (·.name)).Nodup
  defined : ∀ d ∈ (Reading.mk p.findings).descriptors, d.name ∈ p.defined
  wellFormed : ∀ d ∈ (Reading.mk p.findings).descriptors, d.WellFormed

namespace Progress

variable {p : Progress}

/-- Nothing is described at the start. -/
theorem Sound.start : Progress.Sound {} :=
  ⟨List.nodup_nil, by simp [Reading.descriptors], by simp [Reading.descriptors]⟩

/-- A further fault describes nothing. -/
theorem Sound.error (h : p.Sound) (fault : Fault) {defined : List String}
    (hdefined : ∀ name ∈ p.defined, name ∈ defined) :
    Sound ⟨defined, p.findings ++ [.error fault]⟩ := by
  have hsame : (Reading.mk (p.findings ++ [.error fault])).descriptors =
      (Reading.mk p.findings).descriptors := by
    simp [Reading.descriptors]
  exact ⟨by rw [hsame]; exact h.names_nodup, by rw [hsame]; exact fun d hd => hdefined _ (h.defined d hd),
    by rw [hsame]; exact h.wellFormed⟩

/-- A further descriptor of a new name keeps the names apart. -/
theorem Sound.ok (h : p.Sound) {d : Descriptor} (hnew : d.name ∉ p.defined) (hd : d.WellFormed) :
    Sound ⟨d.name :: p.defined, p.findings ++ [.ok d]⟩ := by
  have hmore : (Reading.mk (p.findings ++ [.ok d])).descriptors =
      (Reading.mk p.findings).descriptors ++ [d] := by
    simp [Reading.descriptors]
  refine ⟨?_, ?_, ?_⟩
  · rw [hmore, List.map_append]
    refine List.nodup_append.mpr ⟨h.names_nodup, by simp, fun a ha b hb => ?_⟩
    obtain ⟨e, he, rfl⟩ := List.mem_map.mp ha
    rw [List.map_singleton, List.mem_singleton] at hb
    rintro rfl
    exact hnew (hb ▸ h.defined e he)
  · rw [hmore]
    intro e he
    rcases List.mem_append.mp he with he | he
    · exact List.mem_cons_of_mem _ (h.defined e he)
    · rw [List.mem_singleton.mp he]
      exact List.mem_cons_self
  · rw [hmore]
    exact List.forall_mem_append.mpr ⟨h.wellFormed, by simpa using hd⟩

/-- Looking at a block keeps the descriptors sound. -/
theorem Sound.readBlock (h : p.Sound) (file : String) (tokens header : List Placed) :
    (p.readBlock file tokens header).Sound := by
  rcases p.readBlock_cases file tokens header with
    ⟨-, hread⟩ | ⟨first, rest, -, ⟨fault, -, hread⟩ | ⟨d, -, -, hread⟩ | ⟨d, -, hnew, hread⟩⟩ <;>
    rw [hread]
  · exact h
  · exact h.error _ fun _ => id
  · exact h.error _ fun _ => id
  · cases hd : readDefinition ⟨file, first.line⟩ (commentsAbove tokens (first.line - 1)) d with
    | error fault => exact h.error _ fun _ => List.mem_cons_of_mem _
    | ok descriptor =>
      have hname := (readDefinition_eq_ok hd).1
      rw [← hname] at hnew ⊢
      exact h.ok hnew (wellFormed_of_readDefinition hd)

/-- Looking at blocks keeps the descriptors sound. -/
theorem Sound.foldl (h : p.Sound) (file : String) (tokens : List Placed)
    (headers : List (List Placed)) :
    (headers.foldl (Progress.readBlock file tokens) p).Sound := by
  induction headers generalizing p with
  | nil => exact h
  | cons header rest ih => exact ih (h.readBlock file tokens header)

end Progress

/-- Places of findings of one kind are places of findings. -/
theorem sublist_map_filterMap {α β γ : Type} {f : α → Option β} {g : β → γ} {k : α → γ}
    (h : ∀ a b, f a = some b → g b = k a) (l : List α) :
    ((l.filterMap f).map g).Sublist (l.map k) := by
  induction l with
  | nil => exact List.Sublist.refl _
  | cons a l ih =>
    cases hf : f a with
    | none =>
      rw [List.filterMap_cons_none hf]
      exact ih.cons _
    | some b =>
      rw [List.filterMap_cons_some hf, List.map_cons, List.map_cons, h a b hf]
      exact ih.cons_cons _

/-- Every reading is well formed: its parameters have as many names and widths as types, and a call of
each of its functions passes exactly its parameters. -/
theorem readSource_wellFormed (file text : String) :
    (readSource file text).WellFormed file ∧
    ∀ d ∈ (readSource file text).descriptors,
      (d.parameters.map (·.name)).length = d.parameterTypes.length ∧
      (d.parameters.map (·.declared.width)).length = d.parameterTypes.length ∧
      (CallShape.of d).parameters.map some = d.parameters.map (fun p => AbiClass.of? p.declared) ∧
      (CallShape.of d).parameters.length = d.arity := by
  have hlines := linesUp_readTokens file (pairwise_tokensFrom 1 (lexemes text.toList))
  have hsound : Progress.Sound ((blockHeaders (tokenize text)).foldl
      (Progress.readBlock file (tokenize text)) {}) :=
    Progress.Sound.start.foldl file _ _
  refine ⟨⟨hsound.names_nodup, hlines.sublist ?_, hlines.sublist ?_, hsound.wellFormed⟩, ?_⟩
  · refine sublist_map_filterMap (fun finding d h => ?_) _
    cases finding <;> cases h
    rfl
  · refine sublist_map_filterMap (fun finding fault h => ?_) _
    cases finding <;> cases h
    rfl
  · intro d hd
    have hclasses := CallShape.parameters_of (hsound.wellFormed d hd)
    have harity : (CallShape.of d).parameters.length = d.arity := by
      simpa [Descriptor.arity] using congrArg List.length hclasses
    exact ⟨by simp [Descriptor.parameterTypes], by simp [Descriptor.parameterTypes], hclasses, harity⟩

end CBind.Source
