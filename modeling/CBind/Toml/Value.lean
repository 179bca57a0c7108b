import CBind.Toml.Scalar

/-!
# Keys and values of a TOML document

A key is one name or several joined by dots. A value is a scalar, a list in brackets, or a table in
braces. Lists may run over lines and hold comments; tables in braces may not.

A dotted key makes the tables that it leads through, and may add to tables that dotted keys made, but
to no others.
-/

namespace CBind.Toml

/-! ## Keys -/

/-- Recognize the characters of a name that needs no marks. -/
def isBareKeyChar (c : Char) : Bool :=
  let n := c.toNat
  (48 ≤ n && n ≤ 57) || (65 ≤ n && n ≤ 90) || (97 ≤ n && n ≤ 122) || c == '_' || c == '-'

/-- Read one name of a key. -/
def keyName? (cs : Rest) : Option (String × Rest) :=
  let line (escapes : Bool) (mark : Char) (rest : Rest) : Option (String × Rest) :=
    lineText? escapes mark (rest.length + 1) [] rest
  match cs with
  | '"' :: rest => line true '"' rest
  | '\'' :: rest => line false '\'' rest
  | _ =>
    let name := cs.takeWhile isBareKeyChar
    if name.isEmpty then none else some (String.ofList name, cs.drop name.length)

/-- Read the names of a key; the number bounds how many. -/
def keyNames? : Nat → Rest → Option (List String × Rest)
  | 0, _ => none
  | fuel + 1, cs =>
    match keyName? (dropSpace cs) with
    | none => none
    | some (name, rest) =>
      match dropSpace rest with
      | '.' :: rest => (keyNames? fuel rest).map fun (names, rest) => (name :: names, rest)
      | rest => some ([name], rest)

/-- How deeply values may nest, and how many names a key may have. -/
def depthLimit : Nat := 79

/-- Read a key: the names it leads through, and the last one. -/
def key? (cs : Rest) : Option ((List String × String) × Rest) :=
  match keyNames? depthLimit cs with
  | none => none
  | some (names, rest) => (names.getLast?).map fun last => ((names.dropLast, last), rest)

/-! ## Tables under construction -/

/-- Add a value below dotted names. `entered` says whether a dotted name led to this table. -/
def insertDotted (entered : Bool) (form : TableForm) (entries : Entries) (names : List String)
    (last : String) (value : Item) : Option Entries :=
  match names with
  | [] =>
    if (form == .dotted) != entered || (lookup? entries last).isSome then none
    else some (assign last value entries)
  | name :: names =>
    match lookup? entries name with
    | none =>
      (insertDotted true .dotted [] names last value).map fun inner =>
        assign name (.table .dotted inner) entries
    | some (.table .dotted inner) =>
      (insertDotted true .dotted inner names last value).map fun inner =>
        assign name (.table .dotted inner) entries
    | some (.table .implied inner) =>
      (insertDotted true .implied inner names last value).map fun inner =>
        assign name (.table .implied inner) entries
    | some (.series tables) =>
      match tables.getLast? with
      | none => none
      | some inner =>
        (insertDotted true .headed inner names last value).map fun inner =>
          assign name (.series (tables.dropLast ++ [inner])) entries
    | some _ => none

/-! ## Values -/

/-- Drop a comment. -/
def dropComment : Rest → Rest
  | '#' :: rest => rest.dropWhile isPlain
  | cs => cs

/-- Drop spaces, line ends and comments. -/
def dropFiller : Nat → Rest → Rest
  | 0, cs => cs
  | fuel + 1, cs =>
    match dropSpace cs with
    | '#' :: rest =>
      match lineEnd? (rest.dropWhile isPlain) with
      | some rest => dropFiller fuel rest
      | none => '#' :: rest
    | cs =>
      match lineEnd? cs with
      | some rest => dropFiller fuel rest
      | none => cs

/-- Read the values of a list behind its bracket, each with the given reader. -/
def listItems? (value : Rest → Option (Item × Rest)) : Nat → Rest → Option (List Item × Rest)
  | 0, _ => none
  | fuel + 1, cs =>
    match dropFiller cs.length cs with
    | ']' :: rest => some ([], rest)
    | cs =>
      match value cs with
      | none => none
      | some (item, rest) =>
        match dropFiller rest.length rest with
        | ',' :: rest => (listItems? value fuel rest).map fun (items, rest) => (item :: items, rest)
        | ']' :: rest => some ([item], rest)
        | _ => none

/-- Read the assignments of a table in braces behind an assignment or the brace. -/
def tableItems? (value : Rest → Option (Item × Rest)) :
    Nat → Entries → Rest → Option (Entries × Rest)
  | 0, _, _ => none
  | fuel + 1, entries, cs =>
    match key? cs with
    | none => none
    | some ((names, last), rest) =>
      match rest with
      | '=' :: rest =>
        match value (dropSpace rest) with
        | none => none
        | some (item, rest) =>
          match insertDotted false .braced entries names last item with
          | none => none
          | some entries =>
            match dropSpace rest with
            | ',' :: rest => tableItems? value fuel entries rest
            | '}' :: rest => some (entries, rest)
            | _ => none
      | _ => none

/-- Read a table in braces behind its brace. -/
def bracedTable? (value : Rest → Option (Item × Rest)) (cs : Rest) : Option (Entries × Rest) :=
  match dropSpace cs with
  | '}' :: rest => some ([], rest)
  | _ => tableItems? value (cs.length + 1) [] cs

/-- Read a value that nests no deeper than a number of lists and tables. -/
def value? : Nat → Rest → Option (Item × Rest)
  | 0, cs => match cs with
    | '[' :: _ => none
    | '\x7b' :: _ => none
    | _ => scalar? cs
  | depth + 1, cs => match cs with
    | '[' :: rest => (listItems? (value? depth) (rest.length + 1) rest).map fun (items, rest) =>
        (.list items, rest)
    | '\x7b' :: rest => (bracedTable? (value? depth) rest).map fun (entries, rest) =>
        (.table .braced entries, rest)
    | _ => scalar? cs

end CBind.Toml
