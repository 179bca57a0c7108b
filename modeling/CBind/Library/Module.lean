import CBind.Call.Binding
import CBind.Library.Loaded
import CBind.Library.Use
import CBind.Source.Reading

/-!
# Modules

A module is a loaded library with the functions of its source that could be bound. Each function of the
source is either bound or skipped: the reader gave it up, or the library does not export it.

Asking for a function that is not bound gives the fault for which it was skipped, if there is one by its
name.
-/

namespace CBind

/-- A loaded library with its bindings and the report about them. -/
structure Module where
  library : Library
  bindings : List Binding
  report : BindReport
deriving DecidableEq, Repr

/-- Place the fault of a name that did not resolve at the definition of the function. -/
def placeMissing (r : Source.Reading) : Fault → Fault
  | .symbolNotFound function _ library =>
    .symbolNotFound function ((r.find? function).map (·.location)) library
  | fault => fault

namespace Module

/-- Bind the functions of a source that a library exports. -/
def bindAll (l : Library) (descriptors : List Descriptor) : List Binding :=
  descriptors.filterMap fun d =>
    match Binding.bind d l with
    | .ok b => some b
    | .error _ => none

/-- The module of a source and its library; `unresolved` holds the faults of names that did not
resolve. -/
def ofReading (source : String) (cached : Bool) (r : Source.Reading) (l : Library)
    (unresolved : List Fault) : Module :=
  let bindings := bindAll l r.descriptors
  { library := l
    bindings
    report :=
      { source
        library := l.path
        cached
        bound := bindings.map (·.name)
        skipped := r.diagnostics ++ unresolved.map (placeMissing r) } }

/-- The binding of a function, if it is bound. -/
def get? (m : Module) (name : String) : Option Binding :=
  m.bindings.find? (·.name == name)

/-- The binding of a function, or why there is none. -/
def binding (m : Module) (name : String) : Except Fault Binding :=
  match m.get? name with
  | some b => .ok b
  | none =>
    .error ((m.report.skipReason? name).getD (.symbolNotFound name none m.report.library))

/-- Describe a module by its library, its bound functions and the number of the skipped ones. -/
def describe (m : Module) : String :=
  "Module \x7b library: " ++ CBind.Text.quoted m.report.library ++ ", bound: [" ++
    CBind.Text.joinWith ", " (m.report.bound.map CBind.Text.quoted) ++ "], skipped: " ++
    decimal m.report.skipped.length ++ " \x7d"

end Module

/-- Describe a refused unload by the library and the number of other references. -/
def describeRefusal (library : String) (live : Nat) : String :=
  "UnloadRejected \x7b library: " ++ CBind.Text.quoted library ++ ", error: LibraryInUse \x7b library: " ++
    CBind.Text.quoted library ++ ", live_bindings: " ++ decimal live ++ " \x7d \x7d"

end CBind
