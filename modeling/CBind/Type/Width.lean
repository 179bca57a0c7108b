/-!
# Declared widths of narrow integers

An integer scalar of 8 or 16 bits is passed as a 32-bit value, but the call is made at its declared
width: only the low bits count, and they are extended back by the declared sign.
-/

namespace CBind

/-- The declared width and signedness of an integer narrower than 32 bits. -/
inductive NarrowInt where
  | i8
  | u8
  | i16
  | u16
deriving DecidableEq, Repr

namespace NarrowInt

/-- The number of bits of a width. -/
def bits : NarrowInt → Nat
  | i8 => 8
  | u8 => 8
  | i16 => 16
  | u16 => 16

/-- Whether the top bit of a width is a sign. -/
def isSigned : NarrowInt → Bool
  | i8 => true
  | u8 => false
  | i16 => true
  | u16 => false

/-- Name a width in reports. -/
def spelling : NarrowInt → String
  | i8 => "i8"
  | u8 => "u8"
  | i16 => "i16"
  | u16 => "u16"

/-- Convert a value to the width and back, as an argument of a function is: only the low bits count, and
the sign of the width extends them. -/
def wrap (w : NarrowInt) (value : Int32) : Int32 :=
  match w with
  | i8 => value.toInt8.toInt32
  | u8 => value.toUInt32.toUInt8.toUInt32.toInt32
  | i16 => value.toInt16.toInt32
  | u16 => value.toUInt32.toUInt16.toUInt32.toInt32

end NarrowInt

end CBind
