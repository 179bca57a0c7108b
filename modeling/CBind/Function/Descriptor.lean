import CBind.Function.Annotations
import CBind.Number.Numeral
import CBind.Text.Lines
import CBind.Type.Spelling

/-!
# Function descriptors

A descriptor is what the reader of a source knows about one function: its name, its result, its
parameters with their names and declared widths, what its directives say, and where it stands.
-/

namespace CBind

/-- A line of a file, counted from one. -/
structure Location where
  file : String
  line : Nat
deriving DecidableEq, Repr

/-- Write a location for a report. -/
def Location.spelling (l : Location) : String :=
  l.file ++ ":" ++ decimal l.line

/-- A parameter with its declared type and, where the source gives one, its name. -/
structure Parameter where
  declared : DeclaredType
  name : Option String
deriving DecidableEq, Repr

/-- A function that the reader understood. -/
structure Descriptor where
  name : String
  returns : DeclaredType
  parameters : List Parameter
  annotations : Annotations
  location : Location
deriving DecidableEq, Repr

namespace Descriptor

/-- The number of parameters. -/
def arity (d : Descriptor) : Nat :=
  d.parameters.length

/-- The canonical types of the parameters. -/
def parameterTypes (d : Descriptor) : List CType :=
  d.parameters.map (·.declared.type)

/-- Write a descriptor for a report: the signature at declared widths, then the annotations. -/
def spelling (d : Descriptor) : String :=
  d.returns.spelling ++ " " ++ d.name ++ "(" ++
    CBind.Text.joinWith ", " (d.parameters.map (·.declared.spelling)) ++ ") [" ++
    d.annotations.policy.spelling ++ ", cost " ++ d.annotations.cost.spelling ++ "]"

end Descriptor

end CBind
