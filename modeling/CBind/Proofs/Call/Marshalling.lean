import CBind.Call.Invocation
import Mathlib.Data.List.Forall2

/-!
# Arguments are checked before a call

A binding accepts arguments if there is one for each parameter and each is of exactly the type of its
parameter. Accepted arguments are laid out in one slot each, and a slot read at the type of its parameter
gives the argument back with all its bits. Other arguments are refused with one fault, a wrong number
before the first misfit, and then no code runs and nothing is queued.

No value conforms to `void`, so a function with such a parameter accepts nothing, and the shape of a call
has a class for each slot.
-/

namespace CBind

namespace Value

/-- The low half of a slot is what was put there. -/
theorem toUInt32_setLow32 (slot : UInt64) (low : UInt32) : (setLow32 slot low).toUInt32 = low := by
  rw [setLow32, ← UInt32.toBitVec_inj]
  ext i hi
  simp

/-- A stored value is read back with all its bits, whatever the slot held before. -/
theorem load_store {v : Value} {t : CType} (h : v.conforms t = true) (slot : UInt64) :
    load (v.store slot) t = v := by
  cases v with
  | int32 n =>
    cases t with
    | int32 => exact congrArg (fun low : UInt32 => int32 low.toInt32) (toUInt32_setLow32 slot n.toUInt32)
    | _ => contradiction
  | int64 n =>
    cases t with
    | int64 => rfl
    | _ => contradiction
  | float32 bits =>
    cases t with
    | float32 => exact congrArg float32 (toUInt32_setLow32 slot bits)
    | _ => contradiction
  | float64 bits =>
    cases t with
    | float64 => rfl
    | _ => contradiction
  | address a =>
    cases t with
    | untypedPointer => rfl
    | bytePointer => rfl
    | pointerTo _ => rfl
    | _ => contradiction
  | void => contradiction

/-- Nothing may be passed as `void`. -/
theorem ne_void_of_conforms {v : Value} {t : CType} (h : v.conforms t = true) : t ≠ .void := by
  rintro rfl
  cases v <;> contradiction

end Value

/-- The first argument that does not conform to the type of its parameter. -/
structure FirstMisfit (arguments : List Value) (types : List CType) (index : Nat) (type : CType)
    (argument : Value) : Prop where
  argument_at : arguments[index]? = some argument
  type_at : types[index]? = some type
  misfit : argument.conforms type = false
  before : ∀ i < index, ∀ v t, arguments[i]? = some v → types[i]? = some t → v.conforms t = true

/-- A misfit behind a conforming argument is the first one. -/
theorem FirstMisfit.cons {arguments : List Value} {types : List CType} {index : Nat} {type : CType}
    {argument v : Value} {t : CType} (hfirst : v.conforms t = true)
    (h : FirstMisfit arguments types index type argument) :
    FirstMisfit (v :: arguments) (t :: types) (index + 1) type argument where
  argument_at := h.argument_at
  type_at := h.type_at
  misfit := h.misfit
  before i hi u s hu hs := by
    cases i with
    | zero =>
      cases hu
      cases hs
      exact hfirst
    | succ i => exact h.before i (by omega) u s hu hs

/-- Laying out as many arguments as there are types succeeds if all conform, and else stops at the first
misfit. -/
theorem layOut_cases (start : Nat) {arguments : List Value} {types : List CType}
    (hlength : arguments.length = types.length) :
    (List.Forall₂ (fun v t => v.conforms t = true) arguments types ∧
      layOut start arguments types = .ok (arguments.map (·.store 0))) ∨
    ∃ index type argument, FirstMisfit arguments types index type argument ∧
      layOut start arguments types = .error (.type (start + index) type argument) := by
  induction arguments generalizing start types with
  | nil =>
    obtain rfl := List.length_eq_zero_iff.mp hlength.symm
    exact .inl ⟨.nil, rfl⟩
  | cons v arguments ih =>
    obtain _ | ⟨t, types⟩ := types
    · contradiction
    rw [layOut]
    by_cases hv : v.conforms t = true
    · rw [if_pos hv]
      rcases ih (start + 1) (Nat.succ.inj hlength) with ⟨hall, h⟩ | ⟨index, type, argument, hmisfit, h⟩
      · exact .inl ⟨.cons hv hall, by rw [h]; rfl⟩
      · refine .inr ⟨index + 1, type, argument, hmisfit.cons hv, ?_⟩
        rw [h, Nat.add_right_comm, Nat.add_assoc]
        rfl
    · rw [if_neg hv]
      refine .inr ⟨0, t, v, ⟨rfl, rfl, by simpa using hv, ?_⟩, rfl⟩
      intro i hi
      omega

namespace Binding

/-- One argument for each parameter, and each of exactly the type of its parameter. -/
def Accepts (b : Binding) (arguments : List Value) : Prop :=
  List.Forall₂ (fun v t => v.conforms t = true) arguments b.descriptor.parameterTypes

/-- The fault for which arguments are refused: their number if it is wrong, else the first misfit. -/
inductive Refuses (b : Binding) (arguments : List Value) : ArgumentFault → Prop
  | count (h : arguments.length ≠ b.descriptor.arity) :
      Refuses b arguments (.count b.descriptor.arity arguments.length)
  | type {index : Nat} {type : CType} {argument : Value}
      (hlength : arguments.length = b.descriptor.arity)
      (h : FirstMisfit arguments b.descriptor.parameterTypes index type argument) :
      Refuses b arguments (.type index type argument)

variable {b : Binding} {arguments : List Value}

/-- Refused arguments are not accepted. -/
theorem Refuses.not_accepts {fault : ArgumentFault} (h : b.Refuses arguments fault) :
    ¬b.Accepts arguments := by
  intro haccepts
  cases h with
  | count h =>
    apply h
    rw [haccepts.length_eq, Descriptor.parameterTypes, List.length_map]
    rfl
  | type hlength h =>
    obtain ⟨hi, hv⟩ := List.getElem?_eq_some_iff.mp h.argument_at
    obtain ⟨hj, ht⟩ := List.getElem?_eq_some_iff.mp h.type_at
    have hconforms := (List.forall₂_iff_get.mp haccepts).2 _ hi hj
    rw [List.get_eq_getElem, List.get_eq_getElem, hv, ht, h.misfit] at hconforms
    contradiction

/-- Arguments are accepted and laid out, or refused with the fault that comes first. -/
theorem marshal_cases (b : Binding) (arguments : List Value) :
    (b.Accepts arguments ∧ b.marshal arguments = .ok (arguments.map (·.store 0))) ∨
    ∃ fault, b.Refuses arguments fault ∧
      b.marshal arguments = .error (.argument b.name fault.message) := by
  have harity : b.descriptor.parameterTypes.length = b.descriptor.arity := List.length_map _
  rw [marshal, harity]
  by_cases hlength : arguments.length = b.descriptor.arity
  · rw [if_pos hlength]
    rcases layOut_cases 0 (hlength.trans harity.symm) with ⟨hall, h⟩ | ⟨index, type, argument, hmisfit, h⟩
    · exact .inl ⟨hall, by rw [h]; rfl⟩
    · exact .inr ⟨_, .type hlength hmisfit, by rw [h, Nat.zero_add]; rfl⟩
  · rw [if_neg hlength]
    exact .inr ⟨_, .count hlength, rfl⟩

/-- Laid out arguments are accepted, and stand in one slot each. -/
theorem marshal_eq_ok_iff {slots : List UInt64} :
    b.marshal arguments = .ok slots ↔
      b.Accepts arguments ∧ slots = arguments.map (·.store 0) := by
  rcases b.marshal_cases arguments with ⟨haccepts, h⟩ | ⟨fault, hrefuses, h⟩
  · rw [h, Except.ok.injEq]
    exact ⟨fun hslots => ⟨haccepts, hslots.symm⟩, fun hslots => hslots.2.symm⟩
  · rw [h]
    constructor
    · intro hslots
      contradiction
    · intro hslots
      exact absurd hslots.1 hrefuses.not_accepts

/-- A function that accepts arguments has no parameter of type `void`. -/
theorem Accepts.ne_void (h : b.Accepts arguments) :
    ∀ p ∈ b.descriptor.parameters, p.declared.type ≠ .void := by
  intro p hp
  have htype : p.declared.type ∈ b.descriptor.parameterTypes := List.mem_map_of_mem hp
  obtain ⟨i, hi, hget⟩ := List.getElem_of_mem htype
  have hconforms := (List.forall₂_iff_get.mp h).2 i (h.length_eq ▸ hi) hi
  rw [List.get_eq_getElem, List.get_eq_getElem, hget] at hconforms
  exact Value.ne_void_of_conforms hconforms

/-- A call of a function that accepts arguments passes one class for each argument. -/
theorem Accepts.length_classes (h : b.Accepts arguments) :
    (CallShape.of b.descriptor).parameters.length = arguments.length := by
  have hclasses := congrArg List.length (CallShape.parameters_of_ne_void h.ne_void)
  rw [List.length_map, List.length_map] at hclasses
  rw [hclasses, h.length_eq, Descriptor.parameterTypes, List.length_map]

/-- The slot of an accepted argument is read back as the argument. -/
theorem Accepts.load_slot (h : b.Accepts arguments) {i : Nat} {slot : UInt64} {v : Value} {t : CType}
    (hslot : (arguments.map (·.store 0))[i]? = some slot) (hv : arguments[i]? = some v)
    (ht : b.descriptor.parameterTypes[i]? = some t) : Value.load slot t = v := by
  rw [List.getElem?_map, hv] at hslot
  cases hslot
  obtain ⟨hi, rfl⟩ := List.getElem?_eq_some_iff.mp hv
  obtain ⟨hj, rfl⟩ := List.getElem?_eq_some_iff.mp ht
  exact Value.load_store ((List.forall₂_iff_get.mp h).2 i hi hj) 0

/-- Arguments are checked completely before a call. They are laid out exactly if all are accepted, in one
slot for each class that the call passes, and each slot gives its argument back bit by bit. Otherwise both
ways to call answer with the fault that comes first, run nothing and queue nothing. -/
theorem marshal_checks_arguments (b : Binding) (arguments : List Value) :
    ((∃ slots, b.marshal arguments = .ok slots) ↔ b.Accepts arguments) ∧
    (¬b.Accepts arguments → ∃ fault, b.Refuses arguments fault ∧
      b.marshal arguments = .error (.argument b.name fault.message) ∧
      (∀ p : Process, b.callSync arguments p = (.error (.argument b.name fault.message), p)) ∧
      ∀ w : CallWorkshop, b.callAsync arguments w = (.error (.argument b.name fault.message), w)) ∧
    ∀ slots : List UInt64, b.marshal arguments = .ok slots →
      slots.length = (CallShape.of b.descriptor).parameters.length ∧
      ∀ (i : Nat) slot v t, slots[i]? = some slot → arguments[i]? = some v →
        b.descriptor.parameterTypes[i]? = some t → Value.load slot t = v := by
  refine ⟨?_, ?_, ?_⟩
  · constructor
    · rintro ⟨slots, h⟩
      exact (marshal_eq_ok_iff.mp h).1
    · intro h
      exact ⟨_, marshal_eq_ok_iff.mpr ⟨h, rfl⟩⟩
  · intro hnot
    rcases b.marshal_cases arguments with ⟨haccepts, -⟩ | ⟨fault, hrefuses, h⟩
    · exact absurd haccepts hnot
    · refine ⟨fault, hrefuses, h, fun p => ?_, fun w => ?_⟩
      · rw [callSync, h]
      · rw [callAsync, h]
  · intro slots h
    obtain ⟨haccepts, rfl⟩ := marshal_eq_ok_iff.mp h
    refine ⟨by rw [List.length_map, haccepts.length_classes], ?_⟩
    intro i slot v t hslot hv ht
    exact haccepts.load_slot hslot hv ht

/-- A function of a float and a byte. -/
def scaled : Binding where
  descriptor :=
    { name := "scaled"
      returns := .full .float64
      parameters := [⟨.full .float64, some "x"⟩, ⟨.narrow .u8, some "n"⟩]
      annotations := {}
      location := ⟨"scaled.c", 1⟩ }
  address := 0x7e0000000010
  policy := .async

/-- A NaN keeps its payload in its slot, and a long is no byte. -/
theorem marshal_checks_nan_and_long :
    (∃ slots, scaled.marshal [.float64 0x7ff8deadbeef0001, .int32 300] = .ok slots ∧
      Value.load 0x7ff8deadbeef0001 .float64 = .float64 0x7ff8deadbeef0001) ∧
    ¬scaled.Accepts [.float64 0x7ff8deadbeef0001, .int64 300] ∧
    ∃ fault, scaled.Refuses [.float64 0x7ff8deadbeef0001, .int64 300] fault ∧
      ∀ w : CallWorkshop, scaled.callAsync [.float64 0x7ff8deadbeef0001, .int64 300] w =
        (.error (.argument "scaled" fault.message), w) := by
  have hslots : scaled.marshal [.float64 0x7ff8deadbeef0001, .int32 300] =
    .ok [0x7ff8deadbeef0001, 300] := rfl
  have hrefuses : scaled.Refuses [.float64 0x7ff8deadbeef0001, .int64 300]
      (.type 1 .int32 (.int64 300)) :=
    .type rfl ⟨rfl, rfl, rfl, fun i hi v t hv ht => by
      obtain rfl : i = 0 := by omega
      cases hv
      cases ht
      rfl⟩
  obtain ⟨-, -, hbits⟩ := marshal_checks_arguments scaled [.float64 0x7ff8deadbeef0001, .int32 300]
  obtain ⟨-, hrefused, -⟩ := marshal_checks_arguments scaled [.float64 0x7ff8deadbeef0001, .int64 300]
  refine ⟨⟨_, hslots, (hbits _ hslots).2 0 _ _ _ rfl rfl rfl⟩, hrefuses.not_accepts, ?_⟩
  obtain ⟨fault, hfault, -, -, hqueued⟩ := hrefused hrefuses.not_accepts
  exact ⟨fault, hfault, hqueued⟩

end Binding

end CBind
