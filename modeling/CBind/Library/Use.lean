/-!
# Libraries in use

A loaded library stays loaded as long as somebody refers to it: whoever holds a handle, every binding,
and every call that is queued or running. It counts its references, not who has them. Letting go of the last
one closes it.

Unloading takes the caller's handle. It closes the library if nothing else refers to it; otherwise the
handle is given back with the number of the other references. The two are separate steps, and other threads
may let go of references in between.
-/

namespace CBind

/-- The references to a library, and whether it is loaded. -/
structure LibraryUse where
  references : Nat
  isLoaded : Bool := true
deriving DecidableEq, Repr

/-- What the holder of a handle can do with it. -/
inductive LibraryEvent where
  | copyHandle
  | dropHandle
deriving DecidableEq, Repr

namespace LibraryUse

/-- A library that was just loaded: its handle is the only reference. -/
def new : LibraryUse := { references := 1 }

/-- Make one more reference. -/
def retain (u : LibraryUse) : LibraryUse :=
  { u with references := u.references + 1 }

/-- Let go of a reference; the last one closes the library. -/
def release (u : LibraryUse) : LibraryUse :=
  { references := u.references - 1, isLoaded := u.isLoaded && decide (1 < u.references) }

/-- The references besides the caller's own. -/
def others (u : LibraryUse) : Nat :=
  u.references - 1

/-- Let the holder of a handle do something, if there is one. -/
def step (u : LibraryUse) : LibraryEvent → Option LibraryUse
  | .copyHandle => if 0 < u.references then some u.retain else none
  | .dropHandle => if 0 < u.references then some u.release else none

/-- Whether the caller's reference is the last one. -/
def isLast (u : LibraryUse) : Bool :=
  u.references == 1

/-- Unload without interruption: closed by the last reference, or refused with the number of the others. -/
def unload (u : LibraryUse) : Except Nat Unit × LibraryUse :=
  if u.isLast then (.ok (), u.release) else (.error u.others, u)

end LibraryUse

end CBind
