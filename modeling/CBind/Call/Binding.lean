import CBind.Call.Shape
import CBind.Call.Value
import CBind.Fault
import CBind.Library.Loaded
import CBind.Native.Process

/-!
# Call bindings

A binding joins what a source says about a function with the address of its code. A call checks all
arguments before anything runs: first their number, then each against the type of its parameter, from
left to right. Only then are they laid out in slots, one for each parameter, and passed on at the declared
widths.
-/

namespace CBind

/-- A function that can be called: what is known about it, where its code is, and where calls run. -/
structure Binding where
  descriptor : Descriptor
  address : UInt64
  policy : Policy
deriving DecidableEq, Repr

/-- Why arguments do not fit a function. -/
inductive ArgumentFault where
  | count (expected got : Nat)
  | type (index : Nat) (expected : CType) (got : Value)
deriving DecidableEq, Repr

/-- Word an argument fault. -/
def ArgumentFault.message : ArgumentFault → String
  | count expected got =>
    "expected " ++ decimal expected ++ " argument(s), got " ++ decimal got
  | type index expected got =>
    "argument " ++ decimal index ++ " expects " ++ expected.spelling ++ ", got " ++ got.kindName ++
      " (" ++ got.spelling ++ ")"

/-- Lay out arguments in slots, given the index of the first; the first that does not conform to its
type is the fault. -/
def layOut (index : Nat) : List Value → List CType → Except ArgumentFault (List UInt64)
  | v :: values, t :: types =>
    if v.conforms t then (layOut (index + 1) values types).map (v.store 0 :: ·)
    else .error (.type index t v)
  | _, _ => .ok []

namespace Binding

/-- Bind a function to its code in a library; calls run where the source says. -/
def bind (d : Descriptor) (l : Library) : Except Fault Binding :=
  (l.address d.name).map fun address => ⟨d, address, d.annotations.policy⟩

/-- The name of the bound function. -/
def name (b : Binding) : String :=
  b.descriptor.name

/-- The same binding with another policy. -/
def withPolicy (policy : Policy) (b : Binding) : Binding :=
  { b with policy }

/-- The word by which descriptions of bindings show a policy. -/
def policyWord : Policy → String
  | .sync => "Sync"
  | .async => "Async"

/-- Describe a binding by its function, its address and its policy. -/
def describe (b : Binding) (address : String) : String :=
  "CallBinding \x7b function: " ++ CBind.Text.quoted b.name ++ ", address: " ++ address ++
    ", policy: " ++ policyWord b.policy ++ " \x7d"

/-- Check the arguments of a call and lay them out in slots. -/
def marshal (b : Binding) (arguments : List Value) : Except Fault (List UInt64) :=
  let types := b.descriptor.parameterTypes
  let slots : Except ArgumentFault (List UInt64) :=
    if arguments.length = types.length then layOut 0 arguments types
    else .error (.count types.length arguments.length)
  slots.mapError fun fault => .argument b.name fault.message

/-- Run the code of a binding on slots and read what it returned. -/
def execute (b : Binding) (slots : List UInt64) (p : Process) : Value × Process :=
  let shape := CallShape.of b.descriptor
  let (word, p) := p.call b.address (shape.passAll slots)
  (Value.load (shape.giveBack word) b.descriptor.returns.type, p)

/-- Call on the calling thread, whatever the policy. -/
def callSync (b : Binding) (arguments : List Value) (p : Process) : Except Fault Value × Process :=
  match b.marshal arguments with
  | .error fault => (.error fault, p)
  | .ok slots =>
    let (v, p) := b.execute slots p
    (.ok v, p)

end Binding

end CBind
