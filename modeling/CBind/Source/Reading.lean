import CBind.Fault
import CBind.Source.Directive
import CBind.Source.Parameter

/-!
# Reading a source text

Every top-level header that looks like a function definition gives one finding: a descriptor, or a
fault that says why the function cannot be bound. Reading goes on behind a fault.

A name counts as defined once its header has a declarator, even if a later step fails; a second
header with that name is a duplicate. The directives of a function are those in the comment lines
directly above the line of its first token, attributes aside: the lines between must hold comments
and no other token.
-/

namespace CBind.Source

open CBind.Text

/-- Why a header gives no descriptor. -/
inductive HeaderFault where
  | declarator (fault : DeclaratorFault)
  | duplicate (name : String)
  | missingResult (name : String)
  | result (name : String) (type : String)
  | parameter (name : String) (fault : ParameterFault)
  | directive (name : String) (fault : DirectiveFault)
deriving DecidableEq, Repr

/-- Place a header fault and word it. -/
def HeaderFault.toFault (location : Location) : HeaderFault → Fault
  | declarator .missingList => .parse none location "missing parameter list"
  | declarator .unrecognized => .parse none location "unrecognized function declarator"
  | declarator (.unbalanced name) =>
    .parse (some name) location ("unbalanced parameter list in '" ++ name ++ "'")
  | declarator (.trailing name) =>
    .parse (some name) location
      ("unrecognized declarator after parameter list of '" ++ name ++ "'")
  | duplicate name => .parse (some name) location ("duplicate definition of '" ++ name ++ "'")
  | missingResult name => .parse (some name) location ("missing return type for '" ++ name ++ "'")
  | result name type => .unsupportedType name location type
  | parameter name .empty => .parse (some name) location ("empty parameter in '" ++ name ++ "'")
  | parameter name .variadic =>
    .parse (some name) location
      ("variadic parameter list in '" ++ name ++ "' cannot be bound")
  | parameter name .unbalancedBracket =>
    .parse (some name) location ("unbalanced '[' in '" ++ name ++ "'")
  | parameter name (.unsupported type) => .unsupportedType name location type
  | directive name fault =>
    .parse (some name) location ("in annotations of '" ++ name ++ "': " ++ fault.message)

/-- The comment texts of a token sequence that stand on a line, in order. -/
def commentsOn (tokens : List Placed) (line : Nat) : List String :=
  tokens.filterMap fun t =>
    match t.token with
    | .comment text => if t.line = line then some text else none
    | _ => none

/-- Join comment texts of one line by spaces; nothing is put in front of the first text that is not
empty. -/
def joinComments (texts : List String) : String :=
  texts.foldl (fun joined text => if joined.isEmpty then text else joined ++ " " ++ text) ""

/-- Whether a token other than a comment starts on a line. -/
def hasCode (tokens : List Placed) (line : Nat) : Bool :=
  tokens.any fun t => !t.token.isComment && t.line == line

/-- The comment lines directly above line `n + 1`, from top to bottom. -/
def commentsAbove (tokens : List Placed) : Nat → List String
  | 0 => []
  | n + 1 =>
    if hasCode tokens (n + 1) then []
    else
      match commentsOn tokens (n + 1) with
      | [] => []
      | texts => commentsAbove tokens n ++ [joinComments texts]

/-- The tokens of a result that spell its type. -/
def resultWords (tokens : List Placed) : List String :=
  (tokens.map (·.token.spelling)).filter (!storageWords.contains ·)

/-- Read what a declarator declares; `above` holds the comment lines over it. -/
def readDefinition (location : Location) (above : List String) (d : Declarator) :
    Except HeaderFault Descriptor :=
  let words := resultWords d.result
  if words.isEmpty then .error (.missingResult d.name)
  else
    match readType words with
    | .error type => .error (.result d.name type)
    | .ok returns =>
      let groups := parameterGroups d.inner
      match if isVoidList groups then .ok [] else readParameters groups with
      | .error fault => .error (.parameter d.name fault)
      | .ok parameters =>
        match readAnnotations above with
        | .error fault => .error (.directive d.name fault)
        | .ok annotations => .ok ⟨d.name, returns, parameters, annotations, location⟩

/-- One function definition met in a source: understood, or given up with a fault. -/
abbrev Finding := Except Fault Descriptor

/-- The definitions met so far, and the names that count as defined. -/
structure Progress where
  defined : List String := []
  findings : List Finding := []
deriving Repr

/-- Read one header without attributes. -/
def Progress.readHeader (file : String) (tokens : List Placed) (p : Progress)
    (header : List Placed) : Progress :=
  match header with
  | [] => p
  | first :: _ =>
    let location : Location := ⟨file, first.line⟩
    let give (defined : List String) (r : Except HeaderFault Descriptor) : Progress :=
      ⟨defined, p.findings ++ [r.mapError (HeaderFault.toFault location)]⟩
    match readDeclarator header with
    | .error fault => give p.defined (.error (.declarator fault))
    | .ok d =>
      if p.defined.contains d.name then give p.defined (.error (.duplicate d.name))
      else give (d.name :: p.defined)
        (readDefinition location (commentsAbove tokens (first.line - 1)) d)

/-- Look at the header of a brace block: read it if it looks like a function definition. -/
def Progress.readBlock (file : String) (tokens : List Placed) (p : Progress)
    (header : List Placed) : Progress :=
  let bare := stripAttributes header
  if looksLikeDefinition bare then p.readHeader file tokens bare else p

/-- The findings of a token sequence. -/
def readTokens (file : String) (tokens : List Placed) : List Finding :=
  ((blockHeaders tokens).foldl (Progress.readBlock file tokens) {}).findings

/-- What reading a source gives: its findings in source order. -/
structure Reading where
  findings : List Finding
deriving Repr

namespace Reading

/-- The functions that were understood. -/
def descriptors (r : Reading) : List Descriptor :=
  r.findings.filterMap fun
    | .ok d => some d
    | .error _ => none

/-- The faults of the functions that were not. -/
def diagnostics (r : Reading) : List Fault :=
  r.findings.filterMap fun
    | .ok _ => none
    | .error fault => some fault

/-- The descriptor of a function by name. -/
def find? (r : Reading) (name : String) : Option Descriptor :=
  r.descriptors.find? (·.name == name)

end Reading

/-- Read a source text; the file name is used for locations only. -/
def readSource (file text : String) : Reading :=
  ⟨readTokens file (tokenize text)⟩

end CBind.Source
