import CBind.Native.Code
import CBind.Proofs.Call.Marshalling
import CBind.Proofs.Call.Widths

/-!
# Calls at declared widths

Native code is written for values of its declared types. A narrow one arrives in a word whose low 32 bits
hold it, extended by its sign; a narrow result is looked for in the low bits of a word, and nothing is
asked of the bits above.

A call gives such code every argument converted to its declared type and gives the result back as the
declared type has it. Arguments that differ by a multiple of the patterns of their widths are the same call.
-/

namespace CBind

namespace NarrowInt

variable {w : NarrowInt}

/-- Cutting extended bits down again extends them less. -/
theorem truncate_extend {size k : Nat} (hk : k ≤ size) (p : BitVec w.bits) :
    (w.extend size p).truncate k = w.extend k p := by
  unfold extend
  split
  · ext i hi
    simp [BitVec.getElem_signExtend, show i < size by omega]
  · ext i hi
    simp [show i < size by omega]

/-- Extending bits to their own width changes nothing. -/
theorem extend_bits (p : BitVec w.bits) : w.extend w.bits p = p := by
  unfold extend
  split
  · exact BitVec.signExtend_eq p
  · exact BitVec.setWidth_eq p

/-- Conversion keeps the bits of the width. -/
theorem truncate_wrap (w : NarrowInt) (n : Int32) :
    (w.wrap n).toBitVec.truncate w.bits = n.toBitVec.truncate w.bits := by
  have hsize : w.bits ≤ 32 := by cases w <;> decide
  rw [toBitVec_wrap, truncate_extend hsize, extend_bits]

end NarrowInt

/-- A narrow integer is passed on as the bits of its width, extended to a word by its sign. -/
theorem AbiClass.pass_narrow (w : NarrowInt) (n : Int32) :
    (narrow w).pass ((Value.int32 n).store 0) =
      .ofBitVec (w.extend 64 (n.toBitVec.truncate w.bits)) := by
  have hlow : ((Value.int32 n).store 0).toBitVec.truncate 32 = n.toBitVec :=
    congrArg UInt32.toBitVec (Value.toUInt32_setLow32 0 n.toUInt32)
  exact congrArg (fun bits : BitVec 32 => UInt64.ofBitVec (w.extend 64 (bits.truncate w.bits))) hlow

namespace DeclaredType

/-- The width of a narrow integer type. -/
def narrow? (d : DeclaredType) : Option NarrowInt :=
  if d.type = .int32 then d.width else none

/-- Convert a value to a declared type, as an argument of a function is. -/
def convert (d : DeclaredType) (v : Value) : Value :=
  match d.narrow?, v with
  | some w, .int32 n => .int32 (w.wrap n)
  | _, v => v

/-- The values of a declared type: those of its canonical type that its width holds. -/
def Has (d : DeclaredType) (v : Value) : Prop :=
  v.conforms d.type = true ∧ ∀ w n, d.narrow? = some w → v = .int32 n → w.Holds n

/-- The value of a declared type in the word that a function returned: the bits of a narrow integer
extended by its sign. -/
def result (d : DeclaredType) (word : UInt64) : Value :=
  match d.narrow? with
  | some w => .int32 (.ofBitVec (w.extend 32 (word.toBitVec.truncate w.bits)))
  | none => Value.load word d.type

/-- Arguments that a declared type does not tell apart: narrow integers that agree modulo the number of
patterns of their width. -/
def Same (d : DeclaredType) (u v : Value) : Prop :=
  match d.narrow? with
  | some w => ∃ m n : Int32, u = .int32 m ∧ v = .int32 n ∧ m.toInt ≡ n.toInt [ZMOD w.patterns]
  | none => u = v

variable {d : DeclaredType} {u v : Value} {c : AbiClass}

/-- A type with a narrow width is the canonical integer type. -/
theorem type_of_narrow? {w : NarrowInt} (h : d.narrow? = some w) : d = ⟨.int32, some w⟩ := by
  obtain ⟨type, width⟩ := d
  rw [narrow?] at h
  split at h
  · cases h
    rename_i htype
    cases htype
    rfl
  · contradiction

/-- A slot that is not declared narrow is read at its full width, before the call and in it. -/
theorem load_pass_of_narrow?_eq_none (h : d.narrow? = none) (hc : AbiClass.of? d = some c)
    (slot : UInt64) : Value.load (c.pass slot) d.type = Value.load slot d.type := by
  obtain ⟨type, width⟩ := d
  have hlow (x : UInt64) :
      (UInt64.ofBitVec (((x.toBitVec.truncate 32).truncate 32).zeroExtend 64)).toUInt32 = x.toUInt32 := by
    rw [← UInt32.toBitVec_inj]
    simp
  have hall (x : UInt64) :
      UInt64.ofBitVec (((x.toBitVec.truncate 64).truncate 64).zeroExtend 64) = x := by
    rw [← UInt64.toBitVec_inj]
    simp
  cases type with
  | void => cases hc
  | int32 =>
    cases h
    cases hc
    exact congrArg (fun low : UInt32 => Value.int32 low.toInt32) (hlow slot)
  | float32 =>
    cases hc
    exact congrArg Value.float32 (hlow slot)
  | int64 =>
    cases hc
    exact congrArg (fun word : UInt64 => Value.int64 word.toInt64) (hall slot)
  | float64 =>
    cases hc
    exact congrArg Value.float64 (hall slot)
  | untypedPointer =>
    cases hc
    exact congrArg Value.address (hall slot)
  | bytePointer =>
    cases hc
    exact congrArg Value.address (hall slot)
  | pointerTo t =>
    cases hc
    exact congrArg Value.address (hall slot)

/-- A type that is not narrow converts nothing. -/
theorem convert_of_narrow?_eq_none (h : d.narrow? = none) : d.convert v = v := by
  unfold convert
  rw [h]

/-- An argument arrives as it is converted to its declared type. -/
theorem load_pass_store (hv : v.conforms d.type = true) (hc : AbiClass.of? d = some c) :
    Value.load (c.pass (v.store 0)) d.type = d.convert v := by
  cases hw : d.narrow? with
  | none =>
    rw [load_pass_of_narrow?_eq_none hw hc, Value.load_store hv, convert_of_narrow?_eq_none hw]
  | some w =>
    obtain rfl := type_of_narrow? hw
    cases hc
    cases v with
    | int32 n =>
      -- the reader sees the low half of a word that was extended to the top
      rw [AbiClass.pass_narrow]
      refine congrArg Value.int32 (Int32.toBitVec_inj.mp ?_)
      rw [NarrowInt.toBitVec_wrap]
      have hword : 32 ≤ 64 := by decide
      exact NarrowInt.truncate_extend hword _
    | _ => contradiction

/-- A converted argument is of its declared type. -/
theorem has_convert (hv : v.conforms d.type = true) : d.Has (d.convert v) := by
  cases hw : d.narrow? with
  | none =>
    rw [convert_of_narrow?_eq_none hw]
    refine ⟨hv, fun w n h => ?_⟩
    rw [hw] at h
    contradiction
  | some w =>
    obtain rfl := type_of_narrow? hw
    cases v with
    | int32 n =>
      refine ⟨rfl, ?_⟩
      rintro _ _ ⟨⟩ ⟨⟩
      exact w.holds_wrap n
    | _ => contradiction

/-- Arguments that a type does not tell apart are passed as the same word. -/
theorem Same.pass_eq (h : d.Same u v) (hc : AbiClass.of? d = some c) :
    c.pass (u.store 0) = c.pass (v.store 0) := by
  cases hw : d.narrow? with
  | none =>
    rw [Same, hw] at h
    rw [h]
  | some w =>
    rw [Same, hw] at h
    obtain ⟨m, n, rfl, rfl, hmod⟩ := h
    obtain rfl := type_of_narrow? hw
    cases hc
    rw [AbiClass.pass_narrow, AbiClass.pass_narrow, ← w.truncate_wrap m, ← w.truncate_wrap n,
      NarrowInt.wrap_eq_wrap_iff.mpr hmod]

/-- Arguments that a type does not tell apart conform to it together. -/
theorem Same.conforms (h : d.Same u v) : u.conforms d.type = v.conforms d.type := by
  cases hw : d.narrow? with
  | none =>
    rw [Same, hw] at h
    rw [h]
  | some w =>
    rw [Same, hw] at h
    obtain ⟨m, n, rfl, rfl, -⟩ := h
    obtain rfl := type_of_narrow? hw
    rfl

end DeclaredType

/-- What a function returned is given back as its declared type has it. -/
theorem CallShape.load_giveBack (d : Descriptor) (word : UInt64) :
    Value.load ((of d).giveBack word) d.returns.type = d.returns.result word := by
  obtain ⟨_, ⟨type, width⟩, _, _, _⟩ := d
  have hlow (low : BitVec 32) : (UInt64.ofBitVec ((0#64 >>> 32) <<< 32 ||| low.zeroExtend 64)).toUInt32 =
      .ofBitVec low := by
    rw [← UInt32.toBitVec_inj]
    simp
  cases type with
  | int32 =>
    cases width with
    | none => exact congrArg (fun low : UInt32 => Value.int32 low.toInt32) (hlow _)
    | some w => exact congrArg (fun low : UInt32 => Value.int32 low.toInt32) (hlow _)
  | float32 => exact congrArg Value.float32 (hlow _)
  | _ => rfl

namespace Descriptor

/-- Convert arguments to the declared types of their parameters. -/
def convert (d : Descriptor) (arguments : List Value) : List Value :=
  List.zipWith (fun p v => p.declared.convert v) d.parameters arguments

/-- Lists of arguments that no parameter tells apart. -/
def Same (d : Descriptor) (arguments others : List Value) : Prop :=
  List.Forall₂ (fun (p, u) v => p.declared.Same u v) (d.parameters.zip arguments) others

end Descriptor

/-- The code computes a function on the values of declared types: called with words that hold such
values, it does what the function does with them, and the low bits of the word it returns are those of
the function's result. -/
def NativeCode.Computes (code : NativeCode) (d : Descriptor)
    (f : List Value → ProcessState → Value × ProcessState) : Prop :=
  ∀ words s,
    List.Forall₂ (fun word p => p.declared.Has (Value.load word p.declared.type)) words d.parameters →
    (d.returns.result (code words s).1, (code words s).2) =
      f (List.zipWith Value.load words d.parameterTypes) s

/-- A process that has not ended and has some code at an address. -/
structure Process.Runs (p : Process) (address : UInt64) (code : NativeCode) : Prop where
  alive : p.state.ended = none
  code_at : (p.code.find? (·.1 == address)).map (·.2) = some code

/-- Code that is mapped runs when its address is called. -/
theorem Process.Runs.call_eq {p : Process} {address : UInt64} {code : NativeCode}
    (h : p.Runs address code) (words : List UInt64) :
    p.call address words = ((code words p.state).1, { p with state := (code words p.state).2 }) := by
  obtain ⟨⟨a, code⟩, hfind, rfl⟩ := Option.map_eq_some_iff.mp h.code_at
  rw [Process.call, h.alive, hfind]
  rfl

/-- Each class of a shape without `void` is that of its parameter. -/
theorem CallShape.forall₂_parameters {d : Descriptor}
    (h : ∀ p ∈ d.parameters, p.declared.type ≠ .void) :
    List.Forall₂ (fun c p => AbiClass.of? p.declared = some c) (of d).parameters d.parameters := by
  have hclasses := parameters_of_ne_void h
  rw [← List.forall₂_eq_eq_eq, List.forall₂_map_left_iff, List.forall₂_map_right_iff] at hclasses
  exact hclasses.imp fun _ _ => Eq.symm

section Words

variable {classes : List AbiClass} {parameters : List Parameter} {arguments others : List Value}

/-- The words of a call hold the converted arguments. -/
theorem forall₂_has_pass
    (hclasses : List.Forall₂ (fun c p => AbiClass.of? p.declared = some c) classes parameters)
    (hconforms : List.Forall₂ (fun v p => v.conforms p.declared.type = true) arguments parameters) :
    List.Forall₂ (fun word p => p.declared.Has (Value.load word p.declared.type))
      (List.zipWith AbiClass.pass classes (arguments.map (·.store 0))) parameters := by
  induction hconforms generalizing classes with
  | nil =>
    cases hclasses
    exact .nil
  | cons hv _ ih =>
    obtain _ | ⟨hc, hclasses⟩ := hclasses
    refine .cons ?_ (ih hclasses)
    rw [DeclaredType.load_pass_store hv hc]
    exact DeclaredType.has_convert hv

/-- The words of a call are read as the converted arguments. -/
theorem zipWith_load_pass
    (hclasses : List.Forall₂ (fun c p => AbiClass.of? p.declared = some c) classes parameters)
    (hconforms : List.Forall₂ (fun v p => v.conforms p.declared.type = true) arguments parameters) :
    List.zipWith Value.load (List.zipWith AbiClass.pass classes (arguments.map (·.store 0)))
        (parameters.map (·.declared.type)) =
      List.zipWith (fun p v => p.declared.convert v) parameters arguments := by
  induction hconforms generalizing classes with
  | nil =>
    cases hclasses
    rfl
  | cons hv _ ih =>
    obtain _ | ⟨hc, hclasses⟩ := hclasses
    exact congrArg₂ List.cons (DeclaredType.load_pass_store hv hc) (ih hclasses)

/-- Arguments that no parameter tells apart are passed as the same words. -/
theorem zipWith_pass_eq
    (hclasses : List.Forall₂ (fun c p => AbiClass.of? p.declared = some c) classes parameters)
    (hlength : arguments.length = parameters.length)
    (hsame : List.Forall₂ (fun (p, u) v => p.declared.Same u v) (parameters.zip arguments) others) :
    List.zipWith AbiClass.pass classes (others.map (·.store 0)) =
      List.zipWith AbiClass.pass classes (arguments.map (·.store 0)) := by
  induction hclasses generalizing arguments others with
  | nil => rfl
  | cons hc _ ih =>
    obtain _ | ⟨u, arguments⟩ := arguments
    · contradiction
    obtain _ | ⟨hv, hsame⟩ := hsame
    exact congrArg₂ List.cons (hv.pass_eq hc).symm (ih (Nat.succ.inj hlength) hsame)

/-- Arguments that no parameter tells apart conform together. -/
theorem forall₂_conforms_of_same
    (hconforms : List.Forall₂ (fun v p => v.conforms p.declared.type = true) arguments parameters)
    (hsame : List.Forall₂ (fun (p, u) v => p.declared.Same u v) (parameters.zip arguments) others) :
    List.Forall₂ (fun v p => v.conforms p.declared.type = true) others parameters := by
  induction hconforms generalizing others with
  | nil =>
    cases hsame
    exact .nil
  | cons hv _ ih =>
    obtain _ | ⟨hu, hsame⟩ := hsame
    exact .cons (hu.conforms ▸ hv) (ih hsame)

end Words

namespace Binding

variable {b : Binding} {arguments : List Value}

/-- The words that a call passes. -/
def words (b : Binding) (arguments : List Value) : List UInt64 :=
  (CallShape.of b.descriptor).passAll (arguments.map (·.store 0))

/-- Each accepted argument conforms to the type of its parameter. -/
theorem Accepts.forall₂_parameters (h : b.Accepts arguments) :
    List.Forall₂ (fun v p => v.conforms p.declared.type = true) arguments b.descriptor.parameters :=
  List.forall₂_map_right_iff.mp h

/-- A call with accepted arguments gives back the result at its declared width. -/
theorem Accepts.callSync_eq (h : b.Accepts arguments) (p : Process) :
    b.callSync arguments p =
      (.ok (b.descriptor.returns.result (p.call b.address (b.words arguments)).1),
        (p.call b.address (b.words arguments)).2) := by
  rw [callSync, marshal_eq_ok_iff.mpr ⟨h, rfl⟩, ← CallShape.load_giveBack]
  rfl

/-- A call of code that computes a function gives the function's answer for the converted arguments. -/
theorem Accepts.callSync_of_computes (h : b.Accepts arguments) {p : Process} {code : NativeCode}
    {f : List Value → ProcessState → Value × ProcessState} (hruns : p.Runs b.address code)
    (hcomputes : code.Computes b.descriptor f) :
    b.callSync arguments p =
      (.ok (f (b.descriptor.convert arguments) p.state).1,
        { p with state := (f (b.descriptor.convert arguments) p.state).2 }) := by
  have hclasses := CallShape.forall₂_parameters h.ne_void
  have hanswer := hcomputes (b.words arguments) p.state (forall₂_has_pass hclasses h.forall₂_parameters)
  have hread : List.zipWith Value.load (b.words arguments) b.descriptor.parameterTypes =
      b.descriptor.convert arguments := zipWith_load_pass hclasses h.forall₂_parameters
  rw [hread] at hanswer
  rw [h.callSync_eq, hruns.call_eq, ← hanswer]

/-- Arguments that no parameter tells apart are the same call. -/
theorem Accepts.callSync_eq_of_same {others : List Value} (h : b.Accepts arguments)
    (hsame : b.descriptor.Same arguments others) (p : Process) :
    b.callSync others p = b.callSync arguments p := by
  have hparameters := h.forall₂_parameters
  have hothers : b.Accepts others :=
    List.forall₂_map_right_iff.mpr (forall₂_conforms_of_same hparameters hsame)
  have hwords : b.words others = b.words arguments :=
    zipWith_pass_eq (CallShape.forall₂_parameters h.ne_void) hparameters.length_eq hsame
  rw [hothers.callSync_eq, h.callSync_eq, hwords]

/-- A narrow result is one that its width holds. -/
theorem Accepts.callSync_narrow (h : b.Accepts arguments) {w : NarrowInt}
    (hw : b.descriptor.returns.narrow? = some w) (p : Process) :
    ∃ r q, b.callSync arguments p = (.ok (.int32 r), q) ∧ w.wrap r = r := by
  rw [h.callSync_eq, DeclaredType.result, hw]
  refine ⟨_, _, rfl, Int32.toBitVec_inj.mp ?_⟩
  have hsize : w.bits ≤ 32 := by cases w <;> decide
  rw [NarrowInt.toBitVec_wrap]
  change w.extend 32 ((w.extend 32 _).truncate w.bits) = w.extend 32 _
  rw [NarrowInt.truncate_extend hsize, NarrowInt.extend_bits]

/-- Narrow integers behave as at their declared widths. A call of code that computes a function is the
function on the converted arguments, whatever the arguments are otherwise; arguments that agree modulo the
patterns of the narrow parameters are the same call; a narrow result is in the range of its width.
Conversion is idempotent, and gives the one integer of the range that is congruent to its argument. -/
theorem call_at_declared_widths (b : Binding) (arguments : List Value) (h : b.Accepts arguments) :
    (∀ (p : Process) (code : NativeCode) f, p.Runs b.address code → code.Computes b.descriptor f →
      b.callSync arguments p =
        (.ok (f (b.descriptor.convert arguments) p.state).1,
          { p with state := (f (b.descriptor.convert arguments) p.state).2 })) ∧
    (∀ others, b.descriptor.Same arguments others →
      ∀ p, b.callSync others p = b.callSync arguments p) ∧
    (∀ w, b.descriptor.returns.narrow? = some w →
      ∀ p, ∃ r q, b.callSync arguments p = (.ok (.int32 r), q) ∧ w.wrap r = r) ∧
    ∀ (w : NarrowInt) (n : Int32),
      w.wrap (w.wrap n) = w.wrap n ∧ w.Holds (w.wrap n) ∧
      (w.wrap n).toInt ≡ n.toInt [ZMOD w.patterns] ∧
      ∀ m, w.Holds m → m.toInt ≡ n.toInt [ZMOD w.patterns] → m = w.wrap n := by
  refine ⟨fun p code f => h.callSync_of_computes, fun others => h.callSync_eq_of_same,
    fun w => h.callSync_narrow, fun w n => ?_⟩
  refine ⟨NarrowInt.wrap_of_holds (w.holds_wrap n), w.holds_wrap n, w.wrap_modEq n, ?_⟩
  intro m hm hmod
  exact NarrowInt.eq_of_modEq hm (w.holds_wrap n) (hmod.trans (w.wrap_modEq n).symm)

/-- A binding of a function that takes a narrow integer and a float and returns the low byte of the
first. -/
def lowByte : Binding where
  descriptor :=
    { name := "low_byte"
      returns := .narrow .u8
      parameters := [⟨.narrow .i16, some "x"⟩, ⟨.full .float64, none⟩]
      annotations := {}
      location := ⟨"low.c", 1⟩ }
  address := 64
  policy := .sync

/-- The low byte of an integer, whatever follows it. -/
def lowByteOf : List Value → ProcessState → Value × ProcessState
  | .int32 n :: _, s => (.int32 (NarrowInt.wrap .u8 n), s)
  | _, s => (.void, s)

/-- Code for it: it returns its argument as it came, with everything above the low byte. -/
def lowByteCode : NativeCode := fun words s => (wordAt words 0, s)

/-- The code computes the low byte: nobody looks at the bits above. -/
theorem lowByteCode_computes : lowByteCode.Computes lowByte.descriptor lowByteOf := by
  intro words s hwords
  obtain _ | ⟨-, hwords⟩ := hwords
  rename_i word _
  have hbits : (NarrowInt.wrap .u8 word.toUInt32.toInt32).toBitVec =
      NarrowInt.u8.extend 32 (word.toBitVec.truncate 8) := by
    rw [NarrowInt.toBitVec_wrap]
    have hbyte : 8 ≤ 32 := by decide
    exact congrArg (NarrowInt.u8.extend 32) (BitVec.setWidth_setWidth_of_le word.toBitVec hbyte)
  exact congrArg (fun n : Int32 => (Value.int32 n, s)) (Int32.toBitVec_inj.mp hbits).symm

/-- An integer beyond its declared 16 bits is passed as the one that it is congruent to, and its low byte
comes back. -/
theorem call_low_byte_beyond_width :
    let arguments : List Value := [.int32 40000, .float64 0x7ff8000000000001]
    let p : Process := { code := [(64, lowByteCode)] }
    lowByte.Accepts arguments ∧ p.Runs 64 lowByteCode ∧
    lowByte.descriptor.convert arguments = [.int32 (-25536), .float64 0x7ff8000000000001] ∧
    lowByte.callSync arguments p = (.ok (.int32 64), p) ∧
    lowByte.callSync [.int32 (-25536), .float64 0x7ff8000000000001] p = lowByte.callSync arguments p := by
  intro arguments p
  have haccepts : lowByte.Accepts arguments := .cons rfl (.cons rfl .nil)
  have hruns : p.Runs 64 lowByteCode := ⟨rfl, rfl⟩
  have hsame : lowByte.descriptor.Same arguments [.int32 (-25536), .float64 0x7ff8000000000001] :=
    .cons ⟨40000, -25536, rfl, rfl, by decide⟩ (.cons rfl .nil)
  obtain ⟨hcall, hothers, -⟩ := call_at_declared_widths lowByte arguments haccepts
  exact ⟨haccepts, hruns, by decide, hcall p _ _ hruns lowByteCode_computes, hothers _ hsame p⟩

end Binding

end CBind
