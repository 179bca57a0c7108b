import CBind.Call.Pool
import CBind.Library.Module

/-!
# Who refers to libraries

Handles, modules, bindings and calls refer to libraries. A module has a handle of its library and some
bindings, and a call that was accepted keeps the library of its binding until the call ends. Each of them
is made by a retained reference and goes by a released one; the libraries see these references only.

Many users work with the libraries at once. What any of them can do is an event, and so is what happens in
the pool in which calls run; a run is any order of possible events.
-/

namespace CBind

/-- The number of a loaded library. -/
abbrev LibraryId := Nat

/-- A library that was loaded, with its references. -/
structure UsedLibrary where
  library : Library
  use : LibraryUse
deriving DecidableEq, Repr

/-- A refused unload: the handle that is given back, and the number of the other references. -/
structure UnloadRefusal where
  handle : LibraryId
  library : String
  live : Nat
deriving DecidableEq, Repr

/-- The fault of a refused unload. -/
def UnloadRefusal.fault (r : UnloadRefusal) : Fault :=
  .libraryInUse r.library r.live

/-- Everything that refers to libraries. `refused` has the libraries of the handles whose holders were
refused an unload and have not counted the other references yet; `captured` logs which calls keep which
library until they end. -/
structure Holders where
  libraries : List UsedLibrary := []
  handles : List LibraryId := []
  refused : List LibraryId := []
  modules : List (LibraryId × List Binding) := []
  bindings : List (LibraryId × Binding) := []
  captured : List (CallId × LibraryId) := []
deriving DecidableEq, Repr

namespace Holders

/-! ## References -/

/-- Change the references of a library. -/
def changeUse (h : Holders) (l : LibraryId) (change : LibraryUse → LibraryUse) : Holders :=
  { h with libraries := h.libraries.modify l fun u => { u with use := change u.use } }

/-- Make one more reference to a library. -/
def retain (h : Holders) (l : LibraryId) : Holders :=
  h.changeUse l .retain

/-- Let go of a reference to a library. -/
def release (h : Holders) (l : LibraryId) : Holders :=
  h.changeUse l .release

/-- Let go of references, one to each library of a list. -/
def releaseAll (h : Holders) (ls : List LibraryId) : Holders :=
  ls.foldl release h

/-- The references of a library; one that was never loaded has none. -/
def use (h : Holders) (l : LibraryId) : LibraryUse :=
  (h.libraries[l]?.map (·.use)).getD ⟨0, false⟩

/-- The path of a library. -/
def path (h : Holders) (l : LibraryId) : String :=
  (h.libraries[l]?.map (·.library.path)).getD ""

/-! ## Handles, bindings and modules -/

/-- Load a library; its handle is the only reference. -/
def load (h : Holders) (library : Library) : Holders :=
  { h with
    libraries := h.libraries ++ [⟨library, .new⟩]
    handles := h.libraries.length :: h.handles }

/-- Load a library as a module with bindings. -/
def loadModule (h : Holders) (library : Library) (bindings : List Binding) : Holders :=
  { h with
    libraries := h.libraries ++ [⟨library, bindings.foldl (fun u _ => u.retain) .new⟩]
    modules := (h.libraries.length, bindings) :: h.modules }

/-- Copy the handle of a library. -/
def addHandle (h : Holders) (l : LibraryId) : Holders :=
  { h.retain l with handles := l :: h.handles }

/-- Let go of a handle. -/
def dropHandle (h : Holders) (l : LibraryId) : Holders :=
  { h.release l with handles := h.handles.erase l }

/-- Have a new binding, bound or copied. -/
def addBinding (h : Holders) (l : LibraryId) (b : Binding) : Holders :=
  { h.retain l with bindings := (l, b) :: h.bindings }

/-- Give a binding another policy. -/
def changePolicy (h : Holders) (l : LibraryId) (b : Binding) (policy : Policy) : Holders :=
  { h with bindings := (l, b.withPolicy policy) :: h.bindings.erase (l, b) }

/-- Let go of a binding. -/
def dropBinding (h : Holders) (l : LibraryId) (b : Binding) : Holders :=
  { h.release l with bindings := h.bindings.erase (l, b) }

/-- Take a module apart that has a library and bindings: these go, and its handle is a handle like others. -/
def dismantle (h : Holders) (i : Nat) (l : LibraryId) (bindings : List Binding) : Holders :=
  { h.releaseAll (bindings.map fun _ => l) with
    modules := h.modules.eraseIdx i
    handles := l :: h.handles }

/-- Take a module apart, if there is one; the answer has its library. -/
def dismantle? (h : Holders) (i : Nat) : Option (LibraryId × Holders) :=
  h.modules[i]?.map fun (l, bindings) => (l, h.dismantle i l bindings)

/-! ## Calls -/

/-- Let an accepted call keep a library until the call ends. -/
def capture (h : Holders) (call : CallId) (l : LibraryId) : Holders :=
  { h.retain l with captured := (call, l) :: h.captured }

/-- The library that a call keeps. -/
def capturedBy? (h : Holders) (call : CallId) : Option LibraryId :=
  (h.captured.find? (·.1 == call)).map (·.2)

/-- Let go of the libraries of calls that have ended. -/
def endCalls (h : Holders) (calls : List CallId) : Holders :=
  h.releaseAll (calls.filterMap h.capturedBy?)

/-! ## Unloading -/

/-- Close a library by a handle that is its last reference, if it is. -/
def tryUnload? (h : Holders) (l : LibraryId) : Option Holders :=
  if (h.use l).isLast then some (h.dropHandle l) else none

/-- Unload a library by one of its handles, without interruption: done, or refused, and then everything is
as it was. -/
def unload (h : Holders) (l : LibraryId) : Except UnloadRefusal Unit × Holders :=
  match h.tryUnload? l with
  | some closed => (.ok (), closed)
  | none => (.error ⟨l, h.path l, (h.use l).others⟩, h)

/-- Unload a module: its bindings go, then its library is unloaded by its handle. -/
def unloadModule? (h : Holders) (i : Nat) : Option (Except UnloadRefusal Unit × Holders) :=
  (h.dismantle? i).map fun (l, h) => h.unload l

/-! ## Who has what -/

/-- Whether somebody has a handle that is not in the middle of an unload. -/
def hasHandle (h : Holders) (l : LibraryId) : Bool :=
  decide (h.refused.count l < h.handles.count l)

/-- Whether somebody has a binding, or a module with it. -/
def hasBinding (h : Holders) (l : LibraryId) (b : Binding) : Bool :=
  h.bindings.contains (l, b) || h.modules.any fun m => m.1 == l && m.2.contains b

/-- Whether somebody can get at the handle of a library: by a handle, a module or a binding. -/
def reaches (h : Holders) (l : LibraryId) : Bool :=
  h.hasHandle l || h.modules.any (·.1 == l) || h.bindings.any (·.1 == l)

end Holders

/-- Users of libraries and the pool in which their calls run. -/
structure Usage where
  holders : Holders := {}
  pool : Pool
  next : CallId := 0
deriving DecidableEq, Repr

/-- What users of libraries can do, and what can happen to their calls. -/
inductive UsageEvent where
  | load (library : Library)
  | loadModule (library : Library) (functions : List Descriptor)
  | copyHandle (l : LibraryId)
  | dropHandle (l : LibraryId)
  | bind (l : LibraryId) (function : Descriptor)
  | copyBinding (l : LibraryId) (b : Binding)
  | withPolicy (l : LibraryId) (b : Binding) (policy : Policy)
  | dropBinding (l : LibraryId) (b : Binding)
  | dropModule (i : Nat)
  | call (l : LibraryId) (b : Binding) (arguments : List Value)
  | submitOther
  | pool (e : PoolEvent)
  | dismantle (i : Nat)
  | unloadModule (i : Nat)
  | unload (l : LibraryId)
  | tryUnload (l : LibraryId)
  | countOthers (l : LibraryId)
deriving DecidableEq, Repr

namespace Usage

/-- Nobody has loaded anything. -/
def new (size : Nat) : Usage :=
  { pool := .new size }

/-- Hand a call to the pool that keeps a library, or none. A pool that is shut down refuses it, and what the
call would have kept goes. -/
def submit (s : Usage) (kept : Option LibraryId) : Usage :=
  if s.pool.accepts then
    { holders := match kept with
        | some l => s.holders.capture s.next l
        | none => s.holders
      pool := (s.pool.step (.submit s.next)).getD s.pool
      next := s.next + 1 }
  else
    match kept with
    | some l => { s with holders := (s.holders.retain l).release l }
    | none => s

/-- Let something happen, if it can. -/
def step (s : Usage) : UsageEvent → Option Usage
  | .load library => some { s with holders := s.holders.load library }
  | .loadModule library functions =>
    some { s with holders := s.holders.loadModule library (Module.bindAll library functions) }
  | .copyHandle l =>
    if s.holders.reaches l then some { s with holders := s.holders.addHandle l } else none
  | .dropHandle l =>
    if s.holders.hasHandle l then some { s with holders := s.holders.dropHandle l } else none
  | .bind l function =>
    if s.holders.reaches l then
      match s.holders.libraries[l]?.map fun u => Binding.bind function u.library with
      | some (.ok b) => some { s with holders := s.holders.addBinding l b }
      | _ => some s
    else none
  | .copyBinding l b =>
    if s.holders.hasBinding l b then some { s with holders := s.holders.addBinding l b } else none
  | .withPolicy l b policy =>
    if s.holders.bindings.contains (l, b) then
      some { s with holders := s.holders.changePolicy l b policy }
    else none
  | .dropBinding l b =>
    if s.holders.bindings.contains (l, b) then some { s with holders := s.holders.dropBinding l b }
    else none
  | .dropModule i =>
    (s.holders.dismantle? i).map fun (l, holders) => { s with holders := holders.dropHandle l }
  | .call l b arguments =>
    if s.holders.hasBinding l b then
      match b.marshal arguments with
      | .ok _ => some (s.submit (some l))
      | .error _ => some s
    else none
  | .submitOther => some (s.submit none)
  | .pool (.submit _) => none
  | .pool e =>
    (s.pool.step e).map fun pool =>
      { s with holders := s.holders.endCalls (s.pool.endedSince pool), pool }
  | .dismantle i => (s.holders.dismantle? i).map fun (_, holders) => { s with holders }
  | .unloadModule i => (s.holders.unloadModule? i).map fun (_, holders) => { s with holders }
  | .unload l =>
    if s.holders.hasHandle l then some { s with holders := (s.holders.unload l).2 } else none
  | .tryUnload l =>
    if s.holders.hasHandle l then
      match s.holders.tryUnload? l with
      | some holders => some { s with holders }
      | none => some { s with holders := { s.holders with refused := l :: s.holders.refused } }
    else none
  | .countOthers l =>
    if s.holders.refused.contains l then
      some { s with holders := { s.holders with refused := s.holders.refused.erase l } }
    else none

/-- Let events happen one after the other. -/
def run (s : Usage) (events : List UsageEvent) : Option Usage :=
  events.foldlM step s

end Usage

end CBind
