/-!
# Canonical types

Everything that crosses the boundary to native code is one of a few types: integers and floats of
32 and 64 bits, and addresses. `void` stands in return position only. An address knows at most what
its elements are; it never knows how many there are.

Integers of 8 and 16 bits are 32-bit integers here; their declared width is kept beside the type.
-/

namespace CBind

/-- A type of the boundary. -/
inductive CType where
  | void
  | int32
  | int64
  | float32
  | float64
  | untypedPointer
  | bytePointer
  | pointerTo (element : CType)
deriving DecidableEq, Repr

/-- What an address points at. -/
inductive Pointee where
  | untyped
  | byte
  | element (type : CType)
deriving DecidableEq, Repr

namespace CType

/-- The address of what `p` describes. -/
def ofPointee : Pointee → CType
  | .untyped => untypedPointer
  | .byte => bytePointer
  | .element t => pointerTo t

/-- What an address type points at, and nothing for the other types. -/
def pointee? : CType → Option Pointee
  | untypedPointer => some .untyped
  | bytePointer => some .byte
  | pointerTo t => some (.element t)
  | _ => none

/-- The size of a value in bytes; `void` has none. -/
def size : CType → Nat
  | void => 0
  | int32 => 4
  | float32 => 4
  | _ => 8

/-- Recognize addresses. -/
def isPointer (t : CType) : Bool :=
  t.pointee?.isSome

/-- Recognize integers. -/
def isInteger : CType → Bool
  | int32 => true
  | int64 => true
  | _ => false

/-- Recognize the one address type that is read as text. -/
def isText : CType → Bool
  | bytePointer => true
  | _ => false

/-- Name a type in reports. -/
def spelling : CType → String
  | void => "void"
  | int32 => "i32"
  | int64 => "i64"
  | float32 => "f32"
  | float64 => "f64"
  | untypedPointer => "ptr<opaque>"
  | bytePointer => "ptr<u8>"
  | pointerTo t => "ptr<" ++ t.spelling ++ ">"

end CType

namespace Pointee

/-- The size of one element in bytes, if elements have one. -/
def elementSize? : Pointee → Option Nat
  | untyped => none
  | byte => some 1
  | element t => some t.size

end Pointee

end CBind
