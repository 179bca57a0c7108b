import CBind.Number.Arithmetic
import CBind.Number.Decimal
import CBind.Number.Shortest
import CBind.Type.Canonical

/-!
# Values that cross the boundary

A value is an integer, a float, an address or nothing. Floats are kept as bit patterns, so a value
keeps its NaN payload and its zero's sign. A value conforms to a parameter type only if it is of
exactly that kind: nothing is widened or converted.

Each value fits a slot of eight bytes. A narrower value occupies the low bytes of its slot and
leaves the rest as it was.
-/

namespace CBind

/-- A value passed to or returned by native code. -/
inductive Value where
  | int32 (n : Int32)
  | int64 (n : Int64)
  | float32 (bits : UInt32)
  | float64 (bits : UInt64)
  | address (a : UInt64)
  | void
deriving DecidableEq, Repr

namespace Value

/-- Name the kind of a value in reports. -/
def kindName : Value → String
  | int32 _ => "i32"
  | int64 _ => "i64"
  | float32 _ => "f32"
  | float64 _ => "f64"
  | address _ => "pointer"
  | void => "void"

/-- Decide whether a value may be passed for a parameter of a type. -/
def conforms : Value → CType → Bool
  | int32 _, .int32 => true
  | int64 _, .int64 => true
  | float32 _, .float32 => true
  | float64 _, .float64 => true
  | address _, t => t.isPointer
  | _, _ => false

/-- Write a value for a report. -/
def spelling : Value → String
  | int32 n => decimalInt n.toInt
  | int64 n => decimalInt n.toInt
  | float32 bits => FloatFormat.single.write bits.toNat
  | float64 bits => FloatFormat.double.write bits.toNat
  | address a => "0x" ++ hexadecimal a.toNat
  | void => "()"

/-- Compare values as numbers: floats by the rules of their format, so NaN equals nothing and the
two zeros are equal. -/
def sameNumber : Value → Value → Bool
  | int32 a, int32 b => a == b
  | int64 a, int64 b => a == b
  | float32 a, float32 b => FloatFormat.single.equal a.toNat b.toNat
  | float64 a, float64 b => FloatFormat.double.equal a.toNat b.toNat
  | address a, address b => a == b
  | void, void => true
  | _, _ => false

/-- Replace the low 32 bits of a slot. -/
def setLow32 (slot : UInt64) (low : UInt32) : UInt64 :=
  (slot >>> 32) <<< 32 ||| low.toUInt64

/-- Store a value at the start of a slot. -/
def store : Value → UInt64 → UInt64
  | int32 n, slot => setLow32 slot n.toUInt32
  | int64 n, _ => n.toUInt64
  | float32 bits, slot => setLow32 slot bits
  | float64 bits, _ => bits
  | address a, _ => a
  | void, slot => slot

/-- Read a slot as a value of a type. -/
def load (slot : UInt64) : CType → Value
  | .void => void
  | .int32 => int32 slot.toUInt32.toInt32
  | .int64 => int64 slot.toInt64
  | .float32 => float32 slot.toUInt32
  | .float64 => float64 slot
  | .untypedPointer => address slot
  | .bytePointer => address slot
  | .pointerTo _ => address slot

end Value

/-- Why a text is not a value of a type. -/
inductive ValueFault where
  | numeral (text : String) (type : CType) (fault : NumeralFault)
  | float (text : String) (type : CType) (fault : FloatFault)
  | noValue (text : String)
deriving DecidableEq, Repr

/-- Word a fault for a report. -/
def ValueFault.message : ValueFault → String
  | numeral text type fault =>
    "cannot parse '" ++ text ++ "' as " ++ type.spelling ++ ": " ++ fault.message
  | float text type fault =>
    "cannot parse '" ++ text ++ "' as " ++ type.spelling ++ ": " ++ fault.message
  | noValue text => "cannot pass '" ++ text ++ "' as void"

/-- Read an address: hexadecimal behind `0x`, decimal otherwise. -/
def readAddress (cs : List Char) : Except NumeralFault Nat :=
  match cs with
  | '0' :: 'x' :: rest => readNat 16 maxCount rest
  | _ => readNat 10 maxCount cs

/-- Read a text as a value of a type. -/
def Value.read (text : String) (type : CType) : Except ValueFault Value :=
  let pointer : Except ValueFault Value :=
    match readAddress text.toList with
    | .ok n => .ok (.address (UInt64.ofNat n))
    | .error fault => .error (.numeral text type fault)
  match type with
  | .void => .error (.noValue text)
  | .int32 =>
    match readInt (0x7fffffff) text.toList with
    | .ok n => .ok (.int32 (Int32.ofInt n))
    | .error fault => .error (.numeral text type fault)
  | .int64 =>
    match readInt (0x7fffffffffffffff) text.toList with
    | .ok n => .ok (.int64 (Int64.ofInt n))
    | .error fault => .error (.numeral text type fault)
  | .float32 =>
    match FloatFormat.single.read text with
    | .ok bits => .ok (.float32 (UInt32.ofNat bits))
    | .error fault => .error (.float text type fault)
  | .float64 =>
    match FloatFormat.double.read text with
    | .ok bits => .ok (.float64 (UInt64.ofNat bits))
    | .error fault => .error (.float text type fault)
  | .untypedPointer => pointer
  | .bytePointer => pointer
  | .pointerTo _ => pointer

end CBind
