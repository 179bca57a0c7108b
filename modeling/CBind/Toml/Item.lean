/-!
# Items of a TOML document

A document is a table of items. Tables remember how they came about, because that decides what may
still be added to them: a table written in braces is closed, a table with a header of its own takes no
second header, and a table that a dotted key made takes no header at all.

A date or time is kept as the text it was written as.
-/

namespace CBind.Toml

/-- How a table came about. -/
inductive TableForm where
  | braced
  | headed
  | implied
  | dotted
deriving DecidableEq, Repr

/-- An item of a document. -/
inductive Item where
  | text (s : String)
  | integer (n : Int)
  | float (bits : UInt64)
  | boolean (b : Bool)
  | moment (written : String)
  | list (items : List Item)
  | table (form : TableForm) (entries : List (String × Item))
  | series (tables : List (List (String × Item)))
deriving Repr, Inhabited

/-- The entries of a table. -/
abbrev Entries := List (String × Item)

/-- The item of a key. -/
def lookup? (entries : Entries) (key : String) : Option Item :=
  (entries.find? (·.1 == key)).map (·.2)

/-- Give a key an item, in place of the one it has or at the end. -/
def assign (key : String) (item : Item) : Entries → Entries
  | [] => [(key, item)]
  | (k, old) :: rest => if k == key then (key, item) :: rest else (k, old) :: assign key item rest

end CBind.Toml
