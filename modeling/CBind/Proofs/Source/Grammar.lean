import CBind.Proofs.Source.Cutting
import CBind.Proofs.Source.Matching
import CBind.Source.Reading

/-!
# The restricted grammar of function definitions

The definitions that the reader promises to understand: directives that do not contradict each other,
a result, a name, parameters, and a body. A parameter is a type in the order of C, words first and
stars behind, and possibly a name.

A text writes such definitions down with blanks wherever it likes. Only three things are fixed: a word
ends where it is written to end, a directive stands alone on its line, and its line is the one
directly above the next directive or the header. Each definition starts on a line of its own.
-/

namespace CBind.Source

open CBind.Text

/-- Recognize a text that is cut off as one word. -/
def isWord : List Char → Bool
  | [] => false
  | c :: rest => (isLetter c || c == '_') && rest.all (continuesWord false)

/-- A word that a function or a parameter may have as its name. -/
structure IsPlainName (name : String) : Prop where
  word : isWord name.toList = true
  notReserved : isReserved name = false
  notTypedef : name ≠ "typedef"
  notAttribute : attributeWords.contains name = false

/-- A type in the order of C, with what it is read as. -/
structure TypeSpelling where
  words : List String
  pointers : List String
  declared : DeclaredType
  words_ne_star : "*" ∉ words
  pointers_only : ∀ w ∈ pointers, w = "*" ∨ isQualifier w = true
  reads : readType (words ++ pointers) = .ok declared

/-- A parameter of a type other than `void`, with or without a name. -/
structure ParameterSpelling where
  type : TypeSpelling
  name : Option String
  type_ne_void : type.declared.type ≠ .void
  plain : ∀ n ∈ name, IsPlainName n

/-- What may stand between the parentheses of a definition. -/
inductive ParameterList where
  | empty
  | void
  | parameters (first : ParameterSpelling) (rest : List ParameterSpelling)

/-- The policy that a directive chooses. -/
def Directive.policy? : Directive → Option Policy
  | policy p => some p
  | cost _ => none

/-- The cost that a directive chooses. -/
def Directive.cost? : Directive → Option Cost
  | policy _ => none
  | cost c => some c

/-- A function definition of the restricted grammar. -/
structure Definition where
  directives : List Directive
  result : List String
  returns : DeclaredType
  name : String
  parameters : ParameterList
  body : List Char
  cost_given : .cost .unspecified ∉ directives
  one_policy : ∀ p q, .policy p ∈ directives → .policy q ∈ directives → p = q
  one_cost : ∀ c d, .cost c ∈ directives → .cost d ∈ directives → c = d
  result_reads : readType (result.filter (!storageWords.contains ·)) = .ok returns
  name_plain : IsPlainName name
  body_matched : Matched .openBrace .closeBrace (tokensFrom 1 (lexemesFrom false body))
  body_finished : ∀ l, (lexemesFrom false body).getLast? = some l → l.isFinished = true

/-- The token of a word or star of a type. -/
def wordToken (w : String) : Token :=
  if w = "*" then .star else .ident w

/-- The tokens that write a type. -/
def TypeSpelling.tokens (t : TypeSpelling) : List Token :=
  (t.words ++ t.pointers).map wordToken

/-- The tokens that write a parameter. -/
def ParameterSpelling.tokens (p : ParameterSpelling) : List Token :=
  p.type.tokens ++ p.name.toList.map .ident

/-- The parameter that a spelling declares. -/
def ParameterSpelling.parameter (p : ParameterSpelling) : Parameter :=
  ⟨p.type.declared, p.name⟩

/-- The tokens between the parentheses. -/
def ParameterList.tokens : ParameterList → List Token
  | empty => []
  | void => [.ident "void"]
  | parameters first rest => first.tokens ++ rest.flatMap fun p => .comma :: p.tokens

/-- The parameters that a list declares. -/
def ParameterList.declared : ParameterList → List Parameter
  | parameters first rest => (first :: rest).map ParameterSpelling.parameter
  | _ => []

namespace Definition

/-- The tokens of the header. -/
def header (d : Definition) : List Token :=
  d.result.map wordToken ++ .ident d.name :: .openParen :: (d.parameters.tokens ++ [.closeParen])

/-- What the directives choose; the policy is `sync` and the cost unspecified where they are silent. -/
def annotations (d : Definition) : Annotations :=
  ⟨(d.directives.findSome? Directive.policy?).getD .sync,
    (d.directives.findSome? Directive.cost?).getD .unspecified⟩

/-- What the definition means to a reader that finds its header on the given line. -/
def descriptor (file : String) (line : Nat) (d : Definition) : Descriptor :=
  ⟨d.name, d.returns, d.parameters.declared, d.annotations, ⟨file, line⟩⟩

end Definition

/-- A text of blanks. -/
def Blank (text : List Char) : Prop :=
  ∀ c ∈ text, isBlank c = true

instance (text : List Char) : Decidable (Blank text) :=
  List.decidableBAll (fun c => isBlank c = true) text

/-- A text of blanks within one line. -/
def BlankInLine (text : List Char) : Prop :=
  Blank text ∧ '\n' ∉ text

/-- The text writes tokens one behind the other, each with blanks behind it, and no word runs into
what follows it. -/
inductive WritesTokens : List Token → List Char → Prop
  | nil : WritesTokens [] []
  | cons {t : Token} {ts : List Token} {gap text : List Char} (hgap : Blank gap)
      (hword : t.name?.isSome → ∀ c, (gap ++ text).head? = some c → continuesWord false c = false)
      (htext : WritesTokens ts text) : WritesTokens (t :: ts) (t.spelling.toList ++ gap ++ text)

/-- The text is a comment line that holds one directive. -/
inductive WritesDirective : Directive → List Char → Prop
  | policy {indent before behind : List Char} (p : Policy) (hindent : BlankInLine indent)
      (hbefore : BlankInLine before) (hbehind : BlankInLine behind) :
      WritesDirective (.policy p)
        (indent ++ '/' :: '/' :: (before ++ '@' :: p.spelling.toList ++ behind) ++ ['\n'])
  | cost {indent before gap behind : List Char} (c : Cost) (hindent : BlankInLine indent)
      (hbefore : BlankInLine before) (hgap : BlankInLine gap) (hne : gap ≠ [])
      (hbehind : BlankInLine behind) :
      WritesDirective (.cost c)
        (indent ++ '/' :: '/' :: (before ++ ("@cost".toList ++ gap ++ c.spelling.toList) ++ behind) ++
          ['\n'])

/-- The text is a comment line for each directive. -/
inductive WritesDirectives : List Directive → List Char → Prop
  | nil : WritesDirectives [] []
  | cons {d : Directive} {ds : List Directive} {line text : List Char} (hline : WritesDirective d line)
      (htext : WritesDirectives ds text) : WritesDirectives (d :: ds) (line ++ text)

/-- The text writes a definition down, up to its closing brace. Its header starts behind the given
number of line feeds. -/
structure Writes (d : Definition) (feeds : Nat) (text : List Char) : Prop where
  parts : ∃ gap comments indent header,
    text = gap ++ comments ++ indent ++ header ++ '\x7b' :: (d.body ++ ['\x7d']) ∧
      feeds = (gap ++ comments).count '\n' ∧ Blank gap ∧ WritesDirectives d.directives comments ∧
      BlankInLine indent ∧ WritesTokens d.header header

/-- The text writes definitions down one behind the other, each starting on a line of its own; the
text starts on the given line, and each definition comes with the line of its header. -/
inductive WritesAll : Nat → List (Definition × Nat) → List Char → Prop
  | nil {line : Nat} {gap : List Char} (hgap : Blank gap) : WritesAll line [] gap
  | last {line feeds : Nat} {d : Definition} {text gap : List Char} (htext : Writes d feeds text)
      (hgap : Blank gap) : WritesAll line [(d, line + feeds)] (text ++ gap)
  | cons {line feeds : Nat} {d : Definition} {ds : List (Definition × Nat)}
      {text gap more : List Char} (htext : Writes d feeds text) (hgap : BlankInLine gap)
      (hmore : WritesAll (line + (text.count '\n' + 1)) ds more) :
      WritesAll line ((d, line + feeds) :: ds) (text ++ gap ++ '\n' :: more)

/-- Write tokens with one space behind each. -/
def writeTokens (ts : List Token) : List Char :=
  ts.flatMap fun t => t.spelling.toList ++ [' ']

/-- Write a directive on a line of its own. -/
def writeDirective : Directive → List Char
  | .policy p => '/' :: '/' :: ([' '] ++ '@' :: p.spelling.toList) ++ ['\n']
  | .cost c => '/' :: '/' :: ([' '] ++ ("@cost".toList ++ [' '] ++ c.spelling.toList)) ++ ['\n']

/-- Write a definition below its directives. -/
def Definition.write (d : Definition) : List Char :=
  d.directives.flatMap writeDirective ++ writeTokens d.header ++ '\x7b' :: (d.body ++ ['\x7d'])

/-- Tokens are written with spaces between them. -/
theorem writesTokens_writeTokens (ts : List Token) : WritesTokens ts (writeTokens ts) := by
  induction ts with
  | nil => exact .nil
  | cons t ts ih =>
    refine .cons (by decide) (fun _ c hc => ?_) ih
    cases hc
    decide

/-- A directive is written on a comment line. -/
theorem writesDirective_writeDirective (d : Directive) : WritesDirective d (writeDirective d) := by
  have hnone : BlankInLine [] := ⟨by decide, by decide⟩
  have hspace : BlankInLine [' '] := ⟨by decide, by decide⟩
  cases d with
  | policy p => simpa [writeDirective] using WritesDirective.policy p hnone hspace hnone
  | cost c => simpa [writeDirective] using WritesDirective.cost c hnone hspace hspace (by simp) hnone

/-- Every definition of the grammar can be written down. -/
theorem Definition.writes_write (d : Definition) :
    Writes d ((d.directives.flatMap writeDirective).count '\n') d.write := by
  have hdirectives (ds : List Directive) : WritesDirectives ds (ds.flatMap writeDirective) := by
    induction ds with
    | nil => exact .nil
    | cons d ds ih => exact .cons (writesDirective_writeDirective d) ih
  exact ⟨[], d.directives.flatMap writeDirective, [], writeTokens d.header, by simp [write], rfl,
    by decide, hdirectives _, ⟨by decide, by decide⟩, writesTokens_writeTokens _⟩

end CBind.Source
