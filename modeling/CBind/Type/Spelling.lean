import CBind.Text.Lines
import CBind.Type.Canonical
import CBind.Type.Width

/-!
# Reading a C type from its tokens

A type is spelled by specifier words, qualifiers and stars in any order. Qualifiers change nothing,
each star adds one level of address, and the remaining words must name one scalar of the LP64 model.
Structures, enumerations, type names of the program and `long double` have no canonical
counterpart; the reader then answers with the offending spelling.
-/

namespace CBind

open CBind.Text

/-- A canonical type together with the declared width of a narrow integer. -/
structure DeclaredType where
  type : CType
  width : Option NarrowInt
deriving DecidableEq, Repr

namespace DeclaredType

/-- A type that is passed at its full width. -/
def full (t : CType) : DeclaredType :=
  ⟨t, none⟩

/-- An integer that is passed at a narrow declared width. -/
def narrow (w : NarrowInt) : DeclaredType :=
  ⟨.int32, some w⟩

/-- Name a declared type in reports. -/
def spelling (d : DeclaredType) : String :=
  match d.width with
  | some w => w.spelling
  | none => d.type.spelling

end DeclaredType

/-- A scalar before stars are applied. -/
inductive ScalarType where
  | void
  | int8 (signed : Bool)
  | int16 (signed : Bool)
  | int32
  | int64
  | float32
  | float64
deriving DecidableEq, Repr

/-- The words that qualify a type without changing it. -/
def qualifiers : List String :=
  ["const", "volatile", "restrict", "__restrict", "__restrict__", "register"]

/-- Recognize a qualifier. -/
def isQualifier (word : String) : Bool :=
  qualifiers.contains word

/-- The scalar that a fixed-width type name stands for. -/
def fixedWidth? (word : String) : Option ScalarType :=
  if word == "int8_t" then some (.int8 true)
  else if word == "uint8_t" then some (.int8 false)
  else if word == "int16_t" then some (.int16 true)
  else if word == "uint16_t" then some (.int16 false)
  else if ["int32_t", "uint32_t"].contains word then some .int32
  else if ["int64_t", "uint64_t", "size_t", "ssize_t", "intptr_t", "uintptr_t", "ptrdiff_t",
      "off_t"].contains word then some .int64
  else none

/-- The specifier words that combine freely. -/
def specifierWords : List String :=
  ["long", "char", "short", "int", "signed", "unsigned", "float", "double", "void"]

/-- Combine specifier words into a scalar. The order of the words does not matter; plain `char` is
signed. -/
def combineSpecifiers (words : List String) : Option ScalarType :=
  let signed := !words.contains "unsigned"
  let longs := words.count "long"
  if !words.all specifierWords.contains then none
  else if words.contains "void" then
    if words.length = 1 then some .void else none
  else if words.contains "float" || words.contains "double" then
    if words.length = 1 then some (if words.contains "float" then .float32 else .float64) else none
  else if words.contains "char" then
    if longs = 0 && !words.contains "short" && !words.contains "int" then some (.int8 signed)
    else none
  else if words.contains "short" then
    if longs = 0 then some (.int16 signed) else none
  else if longs = 0 then
    if words.contains "int" || words.contains "signed" || words.contains "unsigned" then some .int32
    else none
  else if longs ≤ 2 then some .int64
  else none

/-- Read a scalar from its words: one fixed-width name, or specifiers. -/
def scalar? (words : List String) : Option ScalarType :=
  match words with
  | [word] => (fixedWidth? word).or (combineSpecifiers words)
  | _ => combineSpecifiers words

/-- The declared type of a scalar without stars. -/
def ScalarType.declared : ScalarType → DeclaredType
  | void => .full .void
  | int8 signed => .narrow (if signed then .i8 else .u8)
  | int16 signed => .narrow (if signed then .i16 else .u16)
  | int32 => .full .int32
  | int64 => .full .int64
  | float32 => .full .float32
  | float64 => .full .float64

/-- The address of a scalar. Sixteen-bit elements have no canonical type, so their address is
untyped. -/
def ScalarType.address : ScalarType → CType
  | void => .untypedPointer
  | int8 _ => .bytePointer
  | int16 _ => .untypedPointer
  | int32 => .pointerTo .int32
  | int64 => .pointerTo .int64
  | float32 => .pointerTo .float32
  | float64 => .pointerTo .float64

/-- Wrap a type in further levels of address. -/
def addressTimes : Nat → CType → CType
  | 0, t => t
  | n + 1, t => .pointerTo (addressTimes n t)

/-- Drop each space that stands directly before a star. -/
def closeStars : List Char → List Char
  | [] => []
  | ' ' :: '*' :: rest => '*' :: closeStars rest
  | c :: rest => c :: closeStars rest

/-- Spell a list of type tokens the way an error shows it. -/
def spellTokens (tokens : List String) : String :=
  String.ofList (closeStars (joinWith " " tokens).toList)

/-- The tokens of a type that are neither stars nor qualifiers. -/
def typeWords (tokens : List String) : List String :=
  tokens.filter fun t => t != "*" && !isQualifier t

/-- Read a declared type from its tokens, or give the offending spelling. -/
def readType (tokens : List String) : Except String DeclaredType :=
  match scalar? (typeWords tokens) with
  | none => .error (spellTokens tokens)
  | some s =>
    match tokens.count "*" with
    | 0 => .ok s.declared
    | depth + 1 => .ok (.full (addressTimes depth s.address))

end CBind
