import CBind.Source.Scan
import CBind.Type.Spelling

/-!
# Taking a header apart

A header with a parenthesized list at its end, no `=` in front of the list and no `typedef` is taken
for a function definition, once its attribute groups are removed. The identifier in front of the
list is the name, what precedes it spells the result, and commas outside nested brackets separate
the parameters.
-/

namespace CBind.Source

/-- The words that say how a function is stored or linked. -/
def storageWords : List String :=
  ["static", "inline", "extern", "__inline", "__inline__", "_Noreturn"]

/-- The words that spell types and so name neither functions nor parameters. -/
def typeKeywords : List String :=
  ["void", "char", "short", "int", "long", "float", "double", "signed", "unsigned", "_Bool",
    "bool", "struct", "union", "enum", "const", "volatile", "restrict"]

/-- The words that a parenthesized attribute group may follow. -/
def attributeWords : List String :=
  ["__attribute__", "__declspec", "__asm__", "asm"]

/-- Recognize a word that names neither a function nor a parameter. -/
def isReserved (word : String) : Bool :=
  typeKeywords.contains word || storageWords.contains word || isQualifier word

/-- Recognize an attribute word. -/
def isAttributeWord (t : Token) : Bool :=
  t.name?.any attributeWords.contains

/-- Put a token in front of the first part of a split. -/
def consSplit (t : Placed) : Option (List Placed × List Placed) → Option (List Placed × List Placed)
  | none => none
  | some (inner, rest) => some (t :: inner, rest)

/-- Split behind an opening parenthesis at the closing one that matches it, where `depth` further
parentheses are open. The closing parenthesis belongs to neither part. -/
def splitAtClose (depth : Nat) : List Placed → Option (List Placed × List Placed)
  | [] => none
  | t :: rest =>
    match t.token with
    | .openParen => consSplit t (splitAtClose (depth + 1) rest)
    | .closeParen =>
      match depth with
      | 0 => some ([], rest)
      | d + 1 => consSplit t (splitAtClose d rest)
    | _ => consSplit t (splitAtClose depth rest)

/-- The text behind a matching parenthesis is shorter. -/
theorem length_splitAtClose_lt {depth : Nat} {tokens inner rest : List Placed}
    (h : splitAtClose depth tokens = some (inner, rest)) : rest.length < tokens.length := by
  induction tokens generalizing depth inner with
  | nil => simp [splitAtClose] at h
  | cons t ts ih =>
    have step : ∀ d, consSplit t (splitAtClose d ts) = some (inner, rest) →
        rest.length < ts.length + 1 := by
      intro d hd
      cases hs : splitAtClose d ts with
      | none => simp [hs, consSplit] at hd
      | some p =>
        obtain ⟨inner', rest'⟩ := p
        simp only [hs, consSplit, Option.some.injEq, Prod.mk.injEq] at hd
        obtain ⟨-, rfl⟩ := hd
        exact Nat.lt_succ_of_lt (ih hs)
    unfold splitAtClose at h
    split at h
    · exact step _ h
    · cases depth with
      | zero =>
        simp only [Option.some.injEq, Prod.mk.injEq] at h
        obtain ⟨-, rfl⟩ := h
        exact Nat.lt_succ_self _
      | succ d => exact step _ h
    · exact step _ h

/-- Remove every attribute word that a parenthesized group follows, together with the group. A group
without an end cuts the header off in front of its word. -/
def stripAttributes : List Placed → List Placed
  | [] => []
  | [t] => [t]
  | t :: next :: rest =>
    if isAttributeWord t.token && next.token == .openParen then
      match _h : splitAtClose 0 rest with
      | none => []
      | some (_, behind) => stripAttributes behind
    else t :: stripAttributes (next :: rest)
termination_by tokens => tokens.length
decreasing_by
  · have := length_splitAtClose_lt _h
    simp only [List.length_cons]
    omega
  · simp

/-- Decide whether a header without attributes is taken for a function definition. -/
def looksLikeDefinition (header : List Placed) : Bool :=
  header.any (·.token == .openParen) &&
    header.getLast?.any (·.token == .closeParen) &&
    !(header.takeWhile (·.token != .openParen)).any (·.token == .equals) &&
    !header.any (·.token == .ident "typedef")

/-- A header split into the tokens of the result, the name, and the tokens between the parentheses
of the parameter list. -/
structure Declarator where
  result : List Placed
  name : String
  inner : List Placed
deriving DecidableEq, Repr

/-- Why a header has no declarator. -/
inductive DeclaratorFault where
  | missingList
  | unrecognized
  | unbalanced (name : String)
  | trailing (name : String)
deriving DecidableEq, Repr

/-- The name in front of a parameter list: the last identifier, unless it is reserved. -/
def declaredName? (front : List Placed) : Option String :=
  (front.getLast?.bind (·.token.name?)).filter (!isReserved ·)

/-- Take a header apart at its first parenthesis. -/
def readDeclarator (header : List Placed) : Except DeclaratorFault Declarator :=
  let front := header.takeWhile (·.token != .openParen)
  match header.dropWhile (·.token != .openParen) with
  | [] => .error .missingList
  | _ :: behind =>
    match declaredName? front with
    | none => .error .unrecognized
    | some name =>
      match splitAtClose 0 behind with
      | none => .error (.unbalanced name)
      | some (inner, rest) =>
        if rest.isEmpty then .ok ⟨front.dropLast, name, inner⟩ else .error (.trailing name)

/-- Separate tokens at the commas that stand outside `depth` open brackets; `group` holds the
tokens read since the last separating comma. -/
def splitAtCommas (depth : Nat) (group : List Placed) : List Placed → List (List Placed)
  | [] => [group]
  | t :: rest =>
    match t.token with
    | .openParen => splitAtCommas (depth + 1) (group ++ [t]) rest
    | .openBracket => splitAtCommas (depth + 1) (group ++ [t]) rest
    | .closeParen => splitAtCommas (depth - 1) (group ++ [t]) rest
    | .closeBracket => splitAtCommas (depth - 1) (group ++ [t]) rest
    | .comma =>
      if depth = 0 then group :: splitAtCommas 0 [] rest
      else splitAtCommas depth (group ++ [t]) rest
    | _ => splitAtCommas depth (group ++ [t]) rest

/-- The token groups of a parameter list; an empty list has none. -/
def parameterGroups (inner : List Placed) : List (List Placed) :=
  if inner.isEmpty then [] else splitAtCommas 0 [] inner

/-- Recognize the parameter list that consists of the word `void`. -/
def isVoidList : List (List Placed) → Bool
  | [[t]] => t.token == .ident "void"
  | _ => false

end CBind.Source
