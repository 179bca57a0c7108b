import CBind.Source.Reading

/-!
# Reading headers by position

Headers and parameters are read by positions in lists here, and counts are taken down, with operations that are
not defined everywhere: an element that is not there, a range that does not lie in the list, a difference below
zero, and widths that are not one for each parameter all end the reading with a mishap. Operations that are
defined everywhere stay as they are: looking for the first or last token of a kind, the first and the last element
of a list, and a count that stays at zero when it is taken down there. Counts go up without a bound.

A block is read as soon as the scan comes to it, and what is found is stored with the parameters by columns.
-/

namespace CBind.Source

/-- How an operation that is not defined everywhere goes wrong. -/
inductive Mishap where
  | noElement (position length : Nat)
  | noRange (first behind length : Nat)
  | belowZero (count taken : Nat)
  | notOneEach (widths parameters : Nat)
deriving DecidableEq, Repr

/-- What is computed, unless something goes wrong on the way. -/
abbrev Checked (α : Type) := Except Mishap α

/-- The element at a position. -/
def elementAt {α : Type} (xs : List α) (position : Nat) : Checked α :=
  match xs[position]? with
  | some x => .ok x
  | none => .error (.noElement position xs.length)

/-- The elements from the position `first` on and in front of the position `behind`. -/
def rangeOf {α : Type} (xs : List α) (first behind : Nat) : Checked (List α) :=
  if first ≤ behind ∧ behind ≤ xs.length then .ok ((xs.take behind).drop first)
  else .error (.noRange first behind xs.length)

/-- Take a count down. -/
def takeDown (count taken : Nat) : Checked Nat :=
  if taken ≤ count then .ok (count - taken) else .error (.belowZero count taken)

namespace Checked

variable {α β : Type}

@[simp] theorem ok_bind (a : α) (f : α → Checked β) : (Except.ok a >>= f : Checked β) = f a := rfl

@[simp] theorem pure_eq_ok (a : α) : (pure a : Checked α) = .ok a := rfl

end Checked

section Operations

variable {α : Type} {xs : List α} {x : α} {position first behind count taken : Nat}

theorem elementAt_ok (h : xs[position]? = some x) : elementAt xs position = .ok x := by
  rw [elementAt, h]

/-- An element behind a run stands at the length of the run. -/
theorem elementAt_length {front rest : List α}
    (hxs : xs = front ++ x :: rest) (hposition : position = front.length) : elementAt xs position = .ok x := by
  subst hxs hposition
  exact elementAt_ok (by simp)

theorem rangeOf_ok (hfirst : first ≤ behind) (hbehind : behind ≤ xs.length) :
    rangeOf xs first behind = .ok ((xs.take behind).drop first) :=
  if_pos ⟨hfirst, hbehind⟩

theorem takeDown_ok (h : taken ≤ count) : takeDown count taken = .ok (count - taken) :=
  if_pos h

/-- Nothing is below zero in taking one off a number that is not zero. -/
@[simp] theorem takeDown_succ (n : Nat) : takeDown (n + 1) 1 = .ok n :=
  takeDown_ok (Nat.succ_pos n)

end Operations

/-- A place behind the elements, an upside down range and a difference below zero are not answered. -/
example : elementAt [5] 1 = .error (.noElement 1 1) ∧ rangeOf [5, 6] 2 1 = .error (.noRange 2 1 2) ∧
    takeDown 0 1 = .error (.belowZero 0 1) := ⟨rfl, rfl, rfl⟩

/-- The position of the last element of a kind. -/
def lastPosition? {α : Type} (p : α → Bool) : List α → Option Nat
  | [] => none
  | x :: rest =>
    match lastPosition? p rest with
    | some position => some (position + 1)
    | none => if p x then some 0 else none

/-! ## Parentheses and attributes -/

/-- Look for the parenthesis at which the depth comes back to zero; the tokens start at the given position. -/
def closeFrom (depth position : Nat) : List Placed → Checked (Option Nat)
  | [] => .ok none
  | t :: rest =>
    match t.token with
    | .openParen => closeFrom (depth + 1) (position + 1) rest
    | .closeParen => do
      let depth ← takeDown depth 1
      if depth = 0 then .ok (some position) else closeFrom depth (position + 1) rest
    | _ => closeFrom depth (position + 1) rest

/-- The position of the parenthesis that matches the one at a position. -/
def matchingParen (tokens : List Placed) (opening : Nat) : Checked (Option Nat) :=
  closeFrom 0 opening (tokens.drop opening)

/-- A parenthesis is found where the tokens start or behind. -/
theorem le_of_closeFrom {depth position close : Nat} {tokens : List Placed}
    (h : closeFrom depth position tokens = .ok (some close)) : position ≤ close := by
  induction tokens generalizing depth position with
  | nil => cases h
  | cons t rest ih =>
    unfold closeFrom at h
    split at h
    · exact Nat.le_of_succ_le (ih h)
    · unfold takeDown at h
      split at h
      · rw [Checked.ok_bind] at h
        split at h
        · cases h
          exact Nat.le_refl _
        · exact Nat.le_of_succ_le (ih h)
      · cases h
    · exact Nat.le_of_succ_le (ih h)

/-- Remove the attribute groups from a position on. -/
def stripFrom (header : List Placed) (position : Nat) : Checked (List Placed) :=
  if position < header.length then do
    let t ← elementAt header position
    if isAttributeWord t.token && header[position + 1]?.any (·.token == .openParen) then
      match _h : matchingParen header (position + 1) with
      | .error mishap => .error mishap
      | .ok none => .ok []
      | .ok (some close) => stripFrom header (close + 1)
    else return t :: (← stripFrom header (position + 1))
  else .ok []
termination_by header.length - position
decreasing_by
  · have := le_of_closeFrom _h
    omega
  · omega

/-! ## Declarators -/

/-- Decide whether a header is taken for a definition. -/
def looksAt (header : List Placed) : Checked Bool :=
  match header.findIdx? (·.token == .openParen) with
  | none => .ok false
  | some opening => do
    let front ← rangeOf header 0 opening
    return header.getLast?.any (·.token == .closeParen) && !front.any (·.token == .equals) &&
      !header.any (·.token == .ident "typedef")

/-- Where the parts of a declarator stand. -/
structure DeclaratorPlaces where
  name : String
  opening : Nat
  close : Nat

/-- The identifier directly in front of a position. -/
def nameBefore? (header : List Placed) : Nat → Checked (Option String)
  | 0 => .ok none
  | position + 1 => do return (← elementAt header position).token.name?

/-- Find the parts of a header. -/
def declaratorPlaces (header : List Placed) : Checked (Except DeclaratorFault DeclaratorPlaces) :=
  match header.findIdx? (·.token == .openParen) with
  | none => .ok (.error .missingList)
  | some opening => do
    match (← nameBefore? header opening).filter (!isReserved ·) with
    | none => return .error .unrecognized
    | some name =>
      match ← matchingParen header opening with
      | none => return .error (.unbalanced name)
      | some close =>
        return if close + 1 = header.length then .ok ⟨name, opening, close⟩ else .error (.trailing name)

/-! ## Parameters -/

/-- Separate tokens at the commas outside brackets. The group that is read starts at the position `start`; the
tokens that are left start at `position`. -/
def groupsFrom (tokens : List Placed) (depth start position : Nat) : List Placed → Checked (List (List Placed))
  | [] => do return [← rangeOf tokens start tokens.length]
  | t :: rest =>
    match t.token with
    | .openParen => groupsFrom tokens (depth + 1) start (position + 1) rest
    | .openBracket => groupsFrom tokens (depth + 1) start (position + 1) rest
    | .closeParen => groupsFrom tokens (depth - 1) start (position + 1) rest
    | .closeBracket => groupsFrom tokens (depth - 1) start (position + 1) rest
    | .comma =>
      if depth = 0 then do
        let group ← rangeOf tokens start position
        return group :: (← groupsFrom tokens depth (position + 1) (position + 1) rest)
      else groupsFrom tokens depth start (position + 1) rest
    | _ => groupsFrom tokens depth start (position + 1) rest

/-- The groups of a parameter list. -/
def groupsOf (tokens : List Placed) : Checked (List (List Placed)) :=
  if tokens.isEmpty then .ok [] else groupsFrom tokens 0 0 0 tokens

/-- Recognize the list that consists of the word `void`. -/
def isVoidAt (groups : List (List Placed)) : Checked Bool :=
  if groups.length = 1 then do
    let group ← elementAt groups 0
    if group.length = 1 then return (← elementAt group 0).token.name? == some "void" else return false
  else .ok false

/-- A position found in a list lies in it. -/
theorem lastPosition?_lt {α : Type} {p : α → Bool} {xs : List α} {position : Nat}
    (h : lastPosition? p xs = some position) : position < xs.length := by
  induction xs generalizing position with
  | nil => cases h
  | cons x rest ih =>
    unfold lastPosition? at h
    split at h
    · next found hfound =>
      cases h
      exact Nat.succ_lt_succ (ih hfound)
    · split at h
      · cases h
        exact Nat.succ_pos _
      · cases h

/-- Take bracket groups off the end of the tokens in front of a position, and count them. -/
def withoutArrays (tokens : List Placed) (behind arrays : Nat) : Checked (Option (Nat × Nat)) :=
  if 0 < behind then do
    let t ← elementAt tokens (← takeDown behind 1)
    if t.token == .closeBracket then
      match _hfront : rangeOf tokens 0 behind with
      | .error mishap => .error mishap
      | .ok front =>
        match _hopening : lastPosition? (·.token == .openBracket) front with
        | none => .ok none
        | some opening => withoutArrays tokens opening (arrays + 1)
    else return some (behind, arrays)
  else .ok (some (behind, arrays))
termination_by behind
decreasing_by
  have hlt := lastPosition?_lt _hopening
  unfold rangeOf at _hfront
  split at _hfront
  · cases _hfront
    rw [List.drop_zero, List.length_take] at hlt
    omega
  · cases _hfront

/-- Split the words of a parameter into those of its type and its name. -/
def nameApart (core : List Placed) : Checked (List String × Option String) :=
  let words := core.map (·.token.spelling)
  match core.getLast?.bind (·.token.name?) with
  | none => .ok (words, none)
  | some last => do
    let front ← rangeOf words 0 (← takeDown words.length 1)
    return if !isReserved last && front.any (fun w => !isQualifier w && !isTagKeyword w) then
      (words.dropLast, some last)
    else (words, none)

/-- Read one parameter. -/
def parameterAt (tokens : List Placed) : Checked (Except ParameterFault Parameter) :=
  if tokens.isEmpty then .ok (.error .empty)
  else if tokens.any (·.token == .ellipsis) then .ok (.error .variadic)
  else if tokens.any (·.token == .openParen) then
    .ok (.error (.unsupported (CBind.Text.joinWith " " (tokens.map (·.token.spelling)))))
  else do
    match ← withoutArrays tokens tokens.length 0 with
    | none => return .error .unbalancedBracket
    | some (behind, arrays) =>
      let (spelled, name) ← nameApart (← rangeOf tokens 0 behind)
      match readType (spelled ++ List.replicate arrays "*") with
      | .error type => return .error (.unsupported type)
      | .ok declared =>
        return if declared.type = .void then .error (.unsupported "void") else .ok ⟨declared, name⟩

/-- Read parameters from left to right, stopping at the first fault. -/
def parametersAt : List (List Placed) → Checked (Except ParameterFault (List Parameter))
  | [] => .ok (.ok [])
  | group :: rest => do
    match ← parameterAt group with
    | .error fault => return .error fault
    | .ok p =>
      match ← parametersAt rest with
      | .error fault => return .error fault
      | .ok ps => return .ok (p :: ps)

/-- Read a parameter list. -/
def parameterListAt (groups : List (List Placed)) : Checked (Except ParameterFault (List Parameter)) := do
  if ← isVoidAt groups then return .ok [] else parametersAt groups

/-! ## Annotations -/

/-- Collect the comment lines above a line, from the bottom up; `block` holds those below. -/
def commentBlock (tokens : List Placed) (line : Nat) (block : List String) : Checked (List String) :=
  if 1 < line then
    match _h : takeDown line 1 with
    | .error mishap => .error mishap
    | .ok above =>
      if hasCode tokens above then .ok block
      else
        match commentsOn tokens above with
        | [] => .ok block
        | texts => commentBlock tokens above (joinComments texts :: block)
  else .ok block
termination_by line
decreasing_by
  unfold takeDown at _h
  split at _h
  · cases _h
    omega
  · cases _h

/-- Spell a directive without its mark. -/
def DirectiveWord.spelling : DirectiveWord → String
  | policy p => p.spelling
  | cost => "cost"

/-- The groups of a directive line: the line, the word and the argument. -/
def directiveGroups? (line : String) : Option (List String) :=
  (rawDirective? line).map fun d => [String.ofList (CBind.Text.trim line.toList), d.word.spelling, d.argument]

/-- Read the directives of comment lines, each by the groups of its line. -/
def settingsAt (s : Settings) : List String → Checked (Except DirectiveFault Settings)
  | [] => .ok (.ok s)
  | line :: rest =>
    match directiveGroups? line with
    | none => settingsAt s rest
    | some groups => do
      let word ← elementAt groups 1
      let raw : RawDirective := ⟨if word = "sync" then .policy .sync
        else if word = "async" then .policy .async else .cost, groups[2]?.getD ""⟩
      match raw.check with
      | .error fault => return .error fault
      | .ok directive =>
        match s.add directive with
        | .error fault => return .error fault
        | .ok s' => settingsAt s' rest

/-! ## Definitions -/

/-- A descriptor as it is stored: what is known of the parameters stands in columns. -/
structure StoredDescriptor where
  name : String
  returns : CType
  parameterTypes : List CType
  parameterNames : List (Option String)
  returnWidth : Option NarrowInt
  parameterWidths : List (Option NarrowInt)
  annotations : Annotations
  location : Location
deriving DecidableEq, Repr

namespace StoredDescriptor

/-- Write what is known of the parameters in columns. -/
def ofDescriptor (d : Descriptor) : StoredDescriptor where
  name := d.name
  returns := d.returns.type
  parameterTypes := d.parameters.map (·.declared.type)
  parameterNames := d.parameters.map (·.name)
  returnWidth := d.returns.width
  parameterWidths := d.parameters.map (·.declared.width)
  annotations := d.annotations
  location := d.location

/-- A descriptor without widths. -/
def new (name : String) (returns : CType) (parameters : List (CType × Option String)) (annotations : Annotations)
    (location : Location) : StoredDescriptor where
  name := name
  returns := returns
  parameterTypes := parameters.map (·.1)
  parameterNames := parameters.map (·.2)
  returnWidth := none
  parameterWidths := List.replicate parameters.length none
  annotations := annotations
  location := location

/-- Record the declared widths; there has to be one for each parameter. -/
def withWidths (d : StoredDescriptor) (returnWidth : Option NarrowInt) (widths : List (Option NarrowInt)) :
    Checked StoredDescriptor :=
  if widths.length = d.parameterTypes.length then
    .ok { d with returnWidth := returnWidth, parameterWidths := widths }
  else .error (.notOneEach widths.length d.parameterTypes.length)

end StoredDescriptor

/-- Read what a declarator declares. -/
def definitionAt (location : Location) (tokens header : List Placed) (places : DeclaratorPlaces) :
    Checked (Except HeaderFault StoredDescriptor) := do
  let words := resultWords (← rangeOf header 0 (← takeDown places.opening 1))
  if words.isEmpty then return .error (.missingResult places.name)
  else
    match readType words with
    | .error type => return .error (.result places.name type)
    | .ok returns =>
      let inner ← rangeOf header (places.opening + 1) places.close
      match ← parameterListAt (← groupsOf inner) with
      | .error fault => return .error (.parameter places.name fault)
      | .ok parameters =>
        match ← settingsAt {} (← commentBlock tokens location.line []) with
        | .error fault => return .error (.directive places.name fault)
        | .ok settings =>
          let bare := StoredDescriptor.new places.name returns.type
            (parameters.map fun p => (p.declared.type, p.name)) settings.annotations location
          return .ok (← bare.withWidths returns.width (parameters.map (·.declared.width)))

/-! ## The scan -/

/-- The state between two tokens: the counts, the header, and what was found so far. -/
structure Walk where
  depth : Nat := 0
  parens : Nat := 0
  header : List Placed := []
  defined : List String := []
  findings : List (Except Fault StoredDescriptor) := []

namespace Walk

/-- Add a finding. -/
def give (w : Walk) (location : Location) (defined : List String) (r : Except HeaderFault StoredDescriptor) :
    Walk :=
  { w with defined := defined, findings := w.findings ++ [r.mapError (HeaderFault.toFault location)] }

/-- Read one header without attributes. -/
def readHeader (file : String) (tokens : List Placed) (w : Walk) (header : List Placed) : Checked Walk :=
  match header with
  | [] => .ok w
  | first :: _ => do
    let location : Location := ⟨file, first.line⟩
    match ← declaratorPlaces header with
    | .error fault => return w.give location w.defined (.error (.declarator fault))
    | .ok places =>
      if w.defined.contains places.name then
        return w.give location w.defined (.error (.duplicate places.name))
      else
        return w.give location (places.name :: w.defined) (← definitionAt location tokens header places)

/-- Look at the header in front of a brace block. -/
def readBlock (file : String) (tokens : List Placed) (w : Walk) : Checked Walk := do
  let bare ← stripFrom w.header 0
  if ← looksAt bare then w.readHeader file tokens bare else return w

/-- Take one token that is not a comment outside all braces. -/
def takeOutside (file : String) (tokens : List Placed) (w : Walk) (t : Placed) : Checked Walk :=
  let keep : Walk := { w with header := w.header ++ [t] }
  let clear : Walk := { w with header := [] }
  match t.token with
  | .preprocessor => .ok clear
  | .closeBrace => .ok clear
  | .semicolon => .ok (if w.parens = 0 then clear else keep)
  | .openBrace =>
    if w.parens = 0 then
      if isLinkageHeader w.header then .ok clear
      else do return { ← w.readBlock file tokens with header := [], depth := 1 }
    else .ok keep
  | .openParen => .ok { keep with parens := w.parens + 1 }
  | .closeParen => .ok { keep with parens := w.parens - 1 }
  | _ => .ok keep

/-- Take one token that is not a comment inside a body. -/
def takeInside (w : Walk) (t : Placed) : Checked Walk :=
  match t.token with
  | .openBrace => .ok { w with depth := w.depth + 1 }
  | .closeBrace => do return { w with depth := ← takeDown w.depth 1 }
  | _ => .ok w

/-- Take one token; comments are passed over. -/
def take (file : String) (tokens : List Placed) (w : Walk) (t : Placed) : Checked Walk :=
  if t.token.isComment then .ok w
  else if 0 < w.depth then w.takeInside t
  else w.takeOutside file tokens t

end Walk

/-- Read the tokens of a source, block by block. -/
def readTokensAt (file : String) (tokens : List Placed) : Checked (List (Except Fault StoredDescriptor)) := do
  return (← tokens.foldlM (Walk.take file tokens) {}).findings

end CBind.Source
