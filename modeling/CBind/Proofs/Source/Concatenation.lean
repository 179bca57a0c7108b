import CBind.Proofs.Source.Comments
import CBind.Proofs.Source.Cutting
import CBind.Proofs.Source.Findings
import CBind.Proofs.Source.Placing
import CBind.Proofs.Source.Relocation
import CBind.Proofs.Source.Scanning
import Mathlib.Tactic.SplitIfs

/-!
# Reading one text behind another

A text may be read in two parts if nothing of the first part reaches into the second: its last
character is a line feed that was cut off as a blank, its last line holds code, so that no comment
of it stands above the second part, and its scan ends outside all braces and parentheses, without a
header. If moreover no name is defined in both parts, the findings are those of the parts, the
second ones as many lines further down as the first part has lines.
-/

namespace CBind

/-- A location a number of lines further down. -/
def Location.below (n : Nat) (l : Location) : Location :=
  { l with line := l.line + n }

/-- A descriptor of a function a number of lines further down. -/
def Descriptor.below (n : Nat) (d : Descriptor) : Descriptor :=
  { d with location := d.location.below n }

/-- A fault a number of lines further down; a fault without a location stays. -/
def Fault.below (n : Nat) : Fault → Fault
  | parse function location message => parse function (location.below n) message
  | unsupportedType function location type => unsupportedType function (location.below n) type
  | symbolNotFound function location library =>
    symbolNotFound function (location.map (Location.below n)) library
  | fault => fault

end CBind

namespace CBind.Source

/-- A finding a number of lines further down. -/
def Finding.below (n : Nat) : Finding → Finding
  | .ok d => .ok (d.below n)
  | .error fault => .error (fault.below n)

/-- Moving down keeps tokens. -/
theorem keepsTokens_below (n : Nat) : KeepsTokens (Placed.below n) := fun _ => rfl

/-- Moving no lines down changes no token. -/
@[simp]
theorem Placed.below_zero : Placed.below 0 = id := rfl

/-- Moving no lines down changes no location. -/
@[simp]
theorem location_below_zero : Location.below 0 = id := rfl

/-- Moving no lines down changes no finding. -/
@[simp]
theorem Finding.below_zero : Finding.below 0 = id := by
  funext finding
  cases finding with
  | ok d => simp [below, Descriptor.below]
  | error fault => cases fault <;> simp [below, Fault.below]

/-- A text ends with a line feed that is cut off as a blank. -/
def EndsLine (cs : List Char) : Prop :=
  (lexemes cs).getLast? = some (.blank '\n')

instance (cs : List Char) : Decidable (EndsLine cs) :=
  inferInstanceAs (Decidable (_ = _))

section Tokens

variable {a b : String}

/-- Behind a text that ends its line, the tokens of a further text follow. -/
theorem tokenize_append (h : EndsLine a.toList) :
    tokenize (a ++ b) =
      tokenize a ++ (tokenize b).map (Placed.below (a.toList.count '\n')) := by
  obtain ⟨front, hfront⟩ := List.getLast?_eq_some_iff.mp h
  have hlast : a.toList.getLast? = some '\n' := by
    rw [← flatMap_text_lexemesFrom true a.toList]
    show ((lexemes a.toList).flatMap Lexeme.text).getLast? = some '\n'
    rw [hfront]
    simp [Lexeme.text]
  have hcut : lexemes (a.toList ++ b.toList) = lexemes a.toList ++ lexemes b.toList := by
    rw [lexemes, lexemesFrom_append]
    · rw [show (lexemesFrom true a.toList).foldl Lexeme.lineStartAfter true = true by
        rw [← lexemes, hfront, List.foldl_append]
        rfl]
      rfl
    · intro l hl
      exact .inl ⟨'\n', Option.some.inj (hl.symm.trans h)⟩
    · rw [hlast]
      simp
  rw [tokenize, String.toList_append, hcut, tokensFrom_append, lexemes, lineFeedsOf_lexemesFrom,
    tokensFrom_add]
  rfl

/-- The tokens of a text that ends its line stand above the line behind it. -/
theorem line_le_of_mem_tokenize (h : EndsLine a.toList) {t : Placed} (ht : t ∈ tokenize a) :
    t.line ≤ a.toList.count '\n' := by
  obtain ⟨front, hfront⟩ := List.getLast?_eq_some_iff.mp h
  have hfeeds : lineFeedsOf front + 1 = a.toList.count '\n' := by
    rw [← lineFeedsOf_lexemesFrom true, ← lexemes, hfront]
    rw [lineFeedsOf, lineFeedsOf, List.flatMap_append, List.count_append]
    rfl
  rw [tokenize, hfront, tokensFrom_append] at ht
  have hmem : t ∈ tokensFrom 1 front := by simpa [tokensFrom, Lexeme.tokens] using ht
  have := (line_of_mem_tokensFrom hmem).2
  omega

end Tokens

/-- A fault of a header that stands further down is the fault further down. -/
theorem toFault_below (n : Nat) (location : Location) (fault : HeaderFault) :
    fault.toFault (location.below n) = (fault.toFault location).below n := by
  cases fault with
  | declarator fault => cases fault <;> rfl
  | parameter name fault => cases fault <;> rfl
  | _ => rfl

/-- A declarator that stands further down declares the function further down. -/
theorem readDefinition_below (n : Nat) (location : Location) (above : List String) (d : Declarator) :
    readDefinition (location.below n) above (d.move (Placed.below n)) =
      (readDefinition location above d).map (Descriptor.below n) := by
  rw [readDefinition_move (keepsTokens_below n)]
  simp only [readDefinition]
  repeat' split
  all_goals rfl

/-- What a finding gives does not depend on whether it is moved before or after it is placed. -/
theorem mapError_toFault_below (n : Nat) (location : Location) (r : Except HeaderFault Descriptor) :
    ((r.map (Descriptor.below n)).mapError (HeaderFault.toFault (location.below n)) : Finding) =
      Finding.below n (r.mapError (HeaderFault.toFault location)) := by
  cases r with
  | ok d => rfl
  | error fault => exact congrArg Except.error (toFault_below n location fault)

namespace Progress

variable {file : String} {tokens tokens' : List Placed} {defined defined' : List String} {n : Nat}

/-- A header that moves down gives its finding further down, if its name is as new and the comments
above it are the same. -/
theorem findings_readBlock_below {header : List Placed}
    (hnames : ∀ name, blockName? header = some name → (name ∈ defined' ↔ name ∈ defined))
    (habove : ∀ first ∈ stripAttributes header,
      commentsAbove tokens' (first.line + n - 1) = commentsAbove tokens (first.line - 1)) :
    ((⟨defined', []⟩ : Progress).readBlock file tokens' (header.map (Placed.below n))).findings =
      ((⟨defined, []⟩ : Progress).readBlock file tokens header).findings.map (Finding.below n) := by
  unfold readBlock
  dsimp only
  rw [stripAttributes_map (keepsTokens_below n), looksLikeDefinition_map (keepsTokens_below n)]
  split
  · next hlooks =>
    cases hbare : stripAttributes header with
    | nil => rfl
    | cons first rest =>
      have hcomments := habove first (by rw [hbare]; exact List.mem_cons_self)
      have hread := readDeclarator_map (keepsTokens_below n) (first :: rest)
      rw [List.map_cons] at hread ⊢
      simp only [readHeader, hread]
      cases hd : readDeclarator (first :: rest) with
      | error fault => exact congrArg (fun f => [Except.error f]) (toFault_below n ⟨file, first.line⟩ _)
      | ok d =>
        have hname : blockName? header = some d.name := by
          rw [blockName?, if_pos hlooks, hbare, hd]
          rfl
        have hcontains : defined'.contains d.name = defined.contains d.name := by
          rw [Bool.eq_iff_iff, List.contains_iff_mem, List.contains_iff_mem]
          exact hnames d.name hname
        have hgives := readDefinition_below n ⟨file, first.line⟩ (commentsAbove tokens (first.line - 1)) d
        simp only [Except.map]
        rw [show (d.move (Placed.below n)).name = d.name from rfl, hcontains]
        split
        · rfl
        · simp only [List.nil_append, List.map_cons, List.map_nil]
          rw [← mapError_toFault_below, ← hgives, ← hcomments]
          rfl
  · rfl

/-- Headers that move down give their findings further down, if their names are as new and the
comments above them are the same. -/
theorem findings_foldl_below {headers : List (List Placed)}
    (hnames : ∀ header ∈ headers, ∀ name, blockName? header = some name →
      (name ∈ defined' ↔ name ∈ defined))
    (habove : ∀ header ∈ headers, ∀ first ∈ stripAttributes header,
      commentsAbove tokens' (first.line + n - 1) = commentsAbove tokens (first.line - 1)) :
    ((headers.map (List.map (Placed.below n))).foldl (readBlock file tokens') ⟨defined', []⟩).findings =
      (headers.foldl (readBlock file tokens) ⟨defined, []⟩).findings.map (Finding.below n) := by
  induction headers generalizing defined defined' with
  | nil => rfl
  | cons header rest ih =>
    rw [List.map_cons, findings_foldl_cons, findings_foldl_cons, List.map_append,
      findings_readBlock_below (hnames header List.mem_cons_self) (habove header List.mem_cons_self)]
    refine congrArg (_ ++ ·) (ih (fun h hh name hname => ?_) fun h hh => habove h (.tail _ hh))
    rw [defined_readBlock, defined_readBlock, mem_recordName, mem_recordName,
      hnames h (List.mem_cons_of_mem _ hh) name hname, blockName?_map (keepsTokens_below n)]

end Progress

/-- The findings of two token sequences, the second one below the first. -/
theorem readTokens_append {file : String} {a b : List Placed} {n : Nat}
    (ha : ∀ t ∈ a, 1 ≤ t.line ∧ t.line ≤ n) (hb : ∀ t ∈ b, 1 ≤ t.line)
    (hcode : hasCode a n = true) (hdepth : (Scan.run {} a).depth = 0)
    (hparens : (Scan.run {} a).parens = 0) (hheader : (Scan.run {} a).header = [])
    (hnames : ∀ name ∈ definedNames file a (blockHeaders a),
      name ∉ definedNames file b (blockHeaders b)) :
    readTokens file (a ++ b.map (Placed.below n)) =
      readTokens file a ++ (readTokens file b).map (Finding.below n) := by
  have hbelow : ∀ t ∈ b.map (Placed.below n), n < t.line := by
    intro t ht
    obtain ⟨u, hu, rfl⟩ := List.mem_map.mp ht
    have := hb u hu
    show n < u.line + n
    omega
  -- The first sequence is read as if nothing followed.
  have hfirst : ((blockHeaders a).foldl (Progress.readBlock file (a ++ b.map (Placed.below n)))
      {}).findings = readTokens file a := by
    have h := @Progress.findings_foldl_below file a (a ++ b.map (Placed.below n)) [] [] 0
      (blockHeaders a) (fun _ _ _ _ => Iff.rfl) (fun header hmem first hfirst => ?_)
    · simpa [readTokens] using h
    · have := (ha first (mem_of_mem_blockHeaders hmem (mem_of_mem_stripAttributes hfirst))).2
      rw [Nat.add_zero]
      exact commentsAbove_append_left hbelow (by omega)
  rw [readTokens, blockHeaders_append hdepth hparens hheader,
    blockHeaders_map (keepsTokens_below n), List.foldl_append, Progress.foldl_readBlock_eq, hfirst]
  refine congrArg (_ ++ ·) (Progress.findings_foldl_below (fun header hmem name hname => ?_)
    fun header hmem first hfirst => ?_)
  · refine ⟨fun hdefined => ?_, by simp⟩
    rw [mem_defined_foldl] at hdefined
    have hother : name ∈ definedNames file a (blockHeaders a) :=
      mem_definedNames.mpr (hdefined.resolve_left (by simp))
    exact absurd (mem_definedNames.mpr ⟨header, hmem, hname⟩) (hnames name hother)
  · have := hb first (mem_of_mem_blockHeaders hmem (mem_of_mem_stripAttributes hfirst))
    rw [show first.line + n - 1 = n + (first.line - 1) by omega]
    exact commentsAbove_append_right ha hcode b _

/-- A text that ends its line behind code, outside all braces and parentheses and without a header,
is read apart from what follows: if no name is defined in both, the findings of both texts together
are those of the first, and those of the second as many lines down as the first has. -/
theorem readSource_append (file a b : String) (hline : EndsLine a.toList)
    (hcode : hasCode (tokenize a) (a.toList.count '\n') = true)
    (hdepth : (Scan.run {} (tokenize a)).depth = 0)
    (hparens : (Scan.run {} (tokenize a)).parens = 0)
    (hheader : (Scan.run {} (tokenize a)).header = [])
    (hnames : ∀ name ∈ definedNames file (tokenize a) (blockHeaders (tokenize a)),
      name ∉ definedNames file (tokenize b) (blockHeaders (tokenize b))) :
    (readSource file (a ++ b)).descriptors =
        (readSource file a).descriptors ++
          (readSource file b).descriptors.map (Descriptor.below (a.toList.count '\n')) ∧
      (readSource file (a ++ b)).diagnostics =
        (readSource file a).diagnostics ++
          (readSource file b).diagnostics.map (Fault.below (a.toList.count '\n')) := by
  have hfindings : readTokens file (tokenize (a ++ b)) = readTokens file (tokenize a) ++
      (readTokens file (tokenize b)).map (Finding.below (a.toList.count '\n')) := by
    rw [tokenize_append hline]
    exact readTokens_append
      (fun t ht => ⟨one_le_line_of_mem_tokenize ht, line_le_of_mem_tokenize hline ht⟩)
      (fun t ht => one_le_line_of_mem_tokenize ht) hcode hdepth hparens hheader hnames
  simp only [readSource, Reading.descriptors, Reading.diagnostics, hfindings, List.filterMap_append,
    List.filterMap_map, List.map_filterMap]
  constructor
  · refine congrArg (fun f => _ ++ List.filterMap f _) (funext fun finding => ?_)
    cases finding <;> rfl
  · refine congrArg (fun f => _ ++ List.filterMap f _) (funext fun finding => ?_)
    cases finding <;> rfl

/-- A function with a malformed one behind it, and a further text with its own. -/
theorem readSource_append_two_functions :
    let a := "// @async\nint f(int x)\n\x7b\n  return x;\n\x7d\nint v(...) \x7b \x7d\n"
    let b := "// @cost low\nlong g(void) \x7b return 1; \x7d\nint h(struct s x) \x7b return 0; \x7d\n"
    (readSource "x.c" (a ++ b)).descriptors =
        (readSource "x.c" a).descriptors ++ (readSource "x.c" b).descriptors.map (Descriptor.below 6) ∧
      (readSource "x.c" (a ++ b)).diagnostics =
        (readSource "x.c" a).diagnostics ++ (readSource "x.c" b).diagnostics.map (Fault.below 6) ∧
      (readSource "x.c" (a ++ b)).descriptors.map (·.location.line) = [2, 8] := by
  intro a b
  have h := readSource_append "x.c" a b (by decide +kernel) (by decide +kernel) (by decide +kernel)
    (by decide +kernel) (by decide +kernel) (by decide +kernel)
  rw [show a.toList.count '\n' = 6 by decide +kernel] at h
  exact ⟨h.1, h.2, by decide +kernel⟩

end CBind.Source
