import CBind.Function.Descriptor

/-!
# Call shapes

How a call is made depends only on the machine class of each parameter and of the result. A class
fixes how many bits of a slot count: an argument is cut down to them before the call and extended to its
word by its declared sign, and a narrow result is extended back to 32 bits in the same way after it.

`void` has no class, so it takes part in no shape.
-/

namespace CBind

/-- The machine class of a parameter or a result. -/
inductive AbiClass where
  | word32
  | narrow (width : NarrowInt)
  | word64
  | float32
  | float64
  | address
deriving DecidableEq, Repr

namespace AbiClass

/-- The class of a declared type; `void` has none. -/
def of? (d : DeclaredType) : Option AbiClass :=
  match d.type with
  | .void => none
  | .int32 => some (match d.width with
    | some w => narrow w
    | none => word32)
  | .int64 => some word64
  | .float32 => some float32
  | .float64 => some float64
  | .untypedPointer => some address
  | .bytePointer => some address
  | .pointerTo _ => some address

/-- A type other than `void` has a machine class. -/
theorem isSome_of? {d : DeclaredType} (h : d.type ≠ .void) : (of? d).isSome := by
  obtain ⟨type, width⟩ := d
  cases type with
  | void => exact absurd rfl h
  | _ => rfl

/-- The number of bits that a value of the class occupies in a call. -/
def bits : AbiClass → Nat
  | word32 => 32
  | narrow w => w.bits
  | word64 => 64
  | float32 => 32
  | float64 => 64
  | address => 64

/-- The class as a call shape shows it. -/
def spelling : AbiClass → String
  | word32 => "I32"
  | narrow w => w.spelling
  | word64 => "I64"
  | float32 => "F32"
  | float64 => "F64"
  | address => "Ptr"

/-- The number of bits of a slot that a value of the class occupies: a narrow integer travels as 32 bits. -/
def slotBits : AbiClass → Nat
  | narrow _ => 32
  | c => c.bits

/-- Whether the top bit of a value is a sign that extends to the rest of its word. -/
def isSigned : AbiClass → Bool
  | narrow w => w.isSigned
  | _ => false

/-- Pass a slot on as a word: load it, cut it down to the bits of the class, and extend these to the
whole word. -/
def pass (c : AbiClass) (slot : UInt64) : UInt64 :=
  let value := (slot.toBitVec.truncate c.slotBits).truncate c.bits
  ⟨if c.isSigned then value.signExtend 64 else value.zeroExtend 64⟩

/-- Put what a function returned into the return slot, at 32 bits for a narrow integer and at its
own width otherwise. -/
def giveBack (c : AbiClass) (result slot : UInt64) : UInt64 :=
  let low32 (word : BitVec 32) : UInt64 :=
    ⟨(slot.toBitVec >>> 32) <<< 32 ||| word.zeroExtend 64⟩
  match c with
  | word32 => low32 (result.toBitVec.truncate 32)
  | float32 => low32 (result.toBitVec.truncate 32)
  | narrow w =>
    let value := result.toBitVec.truncate w.bits
    low32 (if w.isSigned then value.signExtend 32 else value.zeroExtend 32)
  | word64 => result
  | float64 => result
  | address => result

end AbiClass

/-- The machine classes of a signature. -/
structure CallShape where
  parameters : List AbiClass
  result : Option AbiClass
deriving DecidableEq, Repr

namespace CallShape

/-- The shape of a function's signature. -/
def of (d : Descriptor) : CallShape :=
  ⟨d.parameters.filterMap fun p => AbiClass.of? p.declared, AbiClass.of? d.returns⟩

/-- If no parameter is `void`, a shape has the classes of the parameters, one for each, in order. -/
theorem parameters_of_ne_void {d : Descriptor} (h : ∀ p ∈ d.parameters, p.declared.type ≠ .void) :
    (of d).parameters.map some = d.parameters.map fun p => AbiClass.of? p.declared := by
  refine List.map_filterMap_some_eq_filter_map_isSome.trans (List.filter_eq_self.mpr ?_)
  intro c hc
  obtain ⟨p, hp, rfl⟩ := List.mem_map.mp hc
  exact AbiClass.isSome_of? (h p hp)

/-- The words a call passes: each slot cut down to the class of its parameter. -/
def passAll (s : CallShape) (slots : List UInt64) : List UInt64 :=
  List.zipWith AbiClass.pass s.parameters slots

/-- The return slot after a call that returned a word, if the shape has a result at all. -/
def giveBack (s : CallShape) (result : UInt64) : UInt64 :=
  match s.result with
  | some c => c.giveBack result 0
  | none => 0

end CallShape

end CBind
