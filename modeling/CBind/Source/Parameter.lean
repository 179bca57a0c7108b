import CBind.Function.Descriptor
import CBind.Source.Declarator

/-!
# Reading one parameter

A parameter is spelled by type tokens, then possibly a name, then possibly bracket groups. Each
bracket group counts as one more star. The last identifier is the name if it is not reserved and the
tokens in front of it already hold a type word other than `struct`, `union` and `enum`; otherwise it
belongs to the type, and the parameter has no name.

Ellipses, parentheses and unpaired brackets cannot be bound.
-/

namespace CBind.Source

/-- Why a parameter cannot be bound. -/
inductive ParameterFault where
  | empty
  | variadic
  | unbalancedBracket
  | unsupported (type : String)
deriving DecidableEq, Repr

/-- Peel bracket groups off the end of a parameter, given in reverse, and count them. A group
reaches back to the nearest opening bracket. -/
def peelBrackets (reversed : List Placed) (count : Nat) : Option (List Placed × Nat) :=
  match reversed with
  | [] => some ([], count)
  | t :: rest =>
    if t.token == .closeBracket then
      match h : rest.dropWhile (·.token != .openBracket) with
      | [] => none
      | _ :: remaining => peelBrackets remaining (count + 1)
    else some (t :: rest, count)
termination_by reversed.length
decreasing_by
  have h1 := (List.dropWhile_sublist (l := rest) (·.token != .openBracket)).length_le
  rw [h] at h1
  simp only [List.length_cons] at h1 ⊢
  omega

/-- Recognize the words that only announce the tag of a type. -/
def isTagKeyword (word : String) : Bool :=
  word == "struct" || word == "union" || word == "enum"

/-- The name at the end of a parameter without bracket groups, if its last token is one. -/
def parameterName? (tokens : List Placed) : Option String :=
  (tokens.getLast?.bind (·.token.name?)).filter fun last =>
    !isReserved last &&
      (tokens.dropLast.map (·.token.spelling)).any fun w => !isQualifier w && !isTagKeyword w

/-- Read the tokens of one parameter. -/
def readParameter (tokens : List Placed) : Except ParameterFault Parameter :=
  if tokens.isEmpty then .error .empty
  else if tokens.any (·.token == .ellipsis) then .error .variadic
  else if tokens.any (·.token == .openParen) then
    .error (.unsupported (CBind.Text.joinWith " " (tokens.map (·.token.spelling))))
  else
    match peelBrackets tokens.reverse 0 with
    | none => .error .unbalancedBracket
    | some (reversed, arrays) =>
      let core := reversed.reverse
      let name := parameterName? core
      let spelled := if name.isSome then core.dropLast else core
      match readType (spelled.map (·.token.spelling) ++ List.replicate arrays "*") with
      | .error type => .error (.unsupported type)
      | .ok declared =>
        if declared.type = .void then .error (.unsupported "void") else .ok ⟨declared, name⟩

/-- Read parameters from left to right, stopping at the first fault. -/
def readParameters : List (List Placed) → Except ParameterFault (List Parameter)
  | [] => .ok []
  | group :: rest =>
    match readParameter group with
    | .error fault => .error fault
    | .ok p =>
      match readParameters rest with
      | .error fault => .error fault
      | .ok ps => .ok (p :: ps)

end CBind.Source
