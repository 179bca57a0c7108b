import CBind.Toml.Value

/-!
# TOML documents

A document is a sequence of lines: headers that open a table, headers that add a table to a series,
and assignments to the table that was opened last. Each table may be opened once, and each key
assigned once.

A text that is no document gives nothing; what is wrong with it is not reported.
-/

namespace CBind.Toml

/-- What one line of a document says. -/
inductive Statement where
  | header (above : List String) (name : String)
  | seriesHeader (above : List String) (name : String)
  | assignment (names : List String) (name : String) (value : Item)
deriving Repr

/-- Read what may follow a statement on its line, and the end of the line or of the text. -/
def statementEnd? (cs : Rest) : Option Rest :=
  match dropComment (dropSpace cs) with
  | [] => some []
  | cs => lineEnd? cs

/-- Read a statement without what follows it. -/
def statement? (cs : Rest) : Option (Statement × Rest) :=
  match cs with
  | '[' :: '[' :: rest =>
    match key? rest with
    | some ((above, name), ']' :: ']' :: rest) => some (.seriesHeader above name, rest)
    | _ => none
  | '[' :: rest =>
    match key? rest with
    | some ((above, name), ']' :: rest) => some (.header above name, rest)
    | _ => none
  | _ =>
    match key? cs with
    | some ((names, name), '=' :: rest) =>
      (value? depthLimit (dropSpace rest)).map fun (value, rest) =>
        (.assignment names name value, rest)
    | _ => none

/-- Read the statements of a text; the number bounds its lines. -/
def statements? : Nat → Rest → Option (List Statement)
  | 0, _ => none
  | fuel + 1, cs =>
    match dropSpace cs with
    | [] => some []
    | '#' :: rest => (statementEnd? ('#' :: rest)).bind (statements? fuel)
    | cs =>
      match lineEnd? cs with
      | some rest => statements? fuel rest
      | none =>
        match statement? cs with
        | none => none
        | some (s, rest) =>
          match statementEnd? rest with
          | none => none
          | some rest => (statements? fuel rest).map (s :: ·)

/-- Change the table that header names lead to, making the tables that are missing on the way. -/
def atTable (change : TableForm → Entries → Option Entries) (form : TableForm) (entries : Entries) :
    List String → Option Entries
  | [] => change form entries
  | name :: names =>
    match lookup? entries name with
    | none =>
      (atTable change .implied [] names).map fun inner =>
        assign name (.table .implied inner) entries
    | some (.table .braced _) => none
    | some (.table form inner) =>
      (atTable change form inner names).map fun inner => assign name (.table form inner) entries
    | some (.series tables) =>
      match tables.getLast? with
      | none => none
      | some inner =>
        (atTable change .headed inner names).map fun inner =>
          assign name (.series (tables.dropLast ++ [inner])) entries
    | some _ => none

/-- A document under construction: its root table, and the names of the table that is open. -/
structure Draft where
  entries : Entries := []
  opened : List String := []
deriving Repr

/-- Open a table: a new one, or one that longer headers implied. -/
def openTable (name : String) (entries : Entries) : Option Entries :=
  match lookup? entries name with
  | none => some (assign name (.table .headed []) entries)
  | some (.table .implied inner) => some (assign name (.table .headed inner) entries)
  | some _ => none

/-- Add an empty table to a series. -/
def openElement (name : String) (entries : Entries) : Option Entries :=
  match lookup? entries name with
  | none => some (assign name (.series [[]]) entries)
  | some (.series tables) => some (assign name (.series (tables ++ [[]])) entries)
  | some _ => none

/-- Take one statement into a document. -/
def Draft.step (d : Draft) : Statement → Option Draft
  | .header above name =>
    (atTable (fun _ => openTable name) .headed d.entries above).map fun entries =>
      ⟨entries, above ++ [name]⟩
  | .seriesHeader above name =>
    (atTable (fun _ => openElement name) .headed d.entries above).map fun entries =>
      ⟨entries, above ++ [name]⟩
  | .assignment names name value =>
    (atTable (fun form inner => insertDotted false form inner names name value) .headed d.entries
      d.opened).map fun entries => { d with entries }

/-- Read a text as a document. A byte order mark in front is not part of it. -/
def document? (text : String) : Option Entries :=
  let cs := match text.toList with
    | '\uFEFF' :: rest => rest
    | cs => cs
  match statements? (cs.length + 1) cs with
  | none => none
  | some lines => (lines.foldlM Draft.step {}).map (·.entries)

end CBind.Toml
