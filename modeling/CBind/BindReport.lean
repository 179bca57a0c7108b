import CBind.Fault

/-!
# Reports of binding a source

A report lists the functions of a source that were bound and the faults of those that were skipped.
A skipped function is found by the name its fault carries.
-/

namespace CBind

/-- The function that a skipped definition names, if its fault is of a kind that skips one. -/
def Fault.skipped? : Fault → Option String
  | .parse function _ _ => function
  | .unsupportedType function _ _ => some function
  | .symbolNotFound function _ _ => some function
  | _ => none

/-- What happened to each function of a source. -/
structure BindReport where
  source : String
  library : String
  cached : Bool
  bound : List String
  skipped : List Fault
deriving DecidableEq, Repr

namespace BindReport

/-- The fault of the first skipped function of a name. -/
def skipReason? (r : BindReport) (name : String) : Option Fault :=
  r.skipped.find? fun fault => fault.skipped? == some name

/-- Write a report: a line of counts, then a line for each skipped function. -/
def spelling (r : BindReport) : String :=
  r.source ++ ": " ++ decimal r.bound.length ++ " bound, " ++ decimal r.skipped.length ++
    " skipped" ++ (if r.cached then " (cached build)" else "") ++ "\n" ++
    String.join (r.skipped.map fun fault => "  skipped: " ++ fault.message ++ "\n")

end BindReport

end CBind
