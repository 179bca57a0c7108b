import CBind.Call.Value
import CBind.Proofs.Number.Digits

/-!
# The texts of integers and addresses

What a report writes of an integer or of an address is a text that the value is read from again, at exactly
the types that the value conforms to: decimal with a sign in front of negative integers, hexadecimal behind
`0x` for addresses. Other texts are read too, with a plus, zeros in front or, for an address, in decimal; the
value that they give is one of the type, so writing it leads to its own text and nowhere else.
-/

namespace CBind

/-- An address is read from what it is written in. -/
theorem readAddress_hexadecimal {a : Nat} (h : a ≤ maxCount) :
    readAddress ("0x" ++ hexadecimal a).toList = .ok a := by
  have hchars : ("0x" ++ hexadecimal a).toList = '0' :: 'x' :: digits 16 a := by
    simp [hexadecimal]
  rw [hchars, readAddress, readNat_digits (by omega) (by omega) h]

namespace Value

/-- Addresses of all types are read alike. -/
theorem read_of_isPointer {t : CType} (h : t.isPointer = true) (text : String) :
    read text t =
      match readAddress text.toList with
      | .ok n => .ok (address (UInt64.ofNat n))
      | .error fault => .error (.numeral text t fault) := by
  cases t with
  | untypedPointer => rfl
  | bytePointer => rfl
  | pointerTo element => rfl
  | _ => contradiction

/-- A text is read as a value of the type. -/
theorem conforms_of_read {text : String} {t : CType} {v : Value} (h : read text t = .ok v) :
    v.conforms t = true := by
  by_cases hpointer : t.isPointer = true
  · rw [read_of_isPointer hpointer] at h
    split at h <;> cases h
    exact hpointer
  · cases t with
    | untypedPointer => exact absurd rfl hpointer
    | bytePointer => exact absurd rfl hpointer
    | pointerTo element => exact absurd rfl hpointer
    | void => cases h
    | _ =>
      rw [read] at h
      split at h <;> cases h
      rfl

/-- A 32-bit integer is read from what it is written in. -/
theorem read_spelling_int32 (n : Int32) : read (int32 n).spelling .int32 = .ok (int32 n) := by
  have hlow := n.le_toInt
  have hhigh := n.toInt_lt
  have hread : readInt 0x7fffffff (decimalInt n.toInt).toList = .ok n.toInt :=
    readInt_decimalInt (by omega) (by omega)
  rw [spelling, read, hread]
  exact congrArg (fun n => Except.ok (int32 n)) (Int32.ofInt_toInt n)

/-- A 64-bit integer is read from what it is written in. -/
theorem read_spelling_int64 (n : Int64) : read (int64 n).spelling .int64 = .ok (int64 n) := by
  have hlow := n.le_toInt
  have hhigh := n.toInt_lt
  have hread : readInt 0x7fffffffffffffff (decimalInt n.toInt).toList = .ok n.toInt :=
    readInt_decimalInt (by omega) (by omega)
  rw [spelling, read, hread]
  exact congrArg (fun n => Except.ok (int64 n)) (Int64.ofInt_toInt n)

/-- An address is read from what it is written in, whatever it points at. -/
theorem read_spelling_address (a : UInt64) {t : CType} (h : t.isPointer = true) :
    read (address a).spelling t = .ok (address a) := by
  have hbound : a.toNat ≤ maxCount := Nat.le_of_lt_succ a.toNat_lt
  rw [read_of_isPointer h, spelling, readAddress_hexadecimal hbound]
  exact congrArg (fun a => Except.ok (address a)) UInt64.ofNat_toNat

/-- A 32-bit integer is read at no other type. -/
theorem read_spelling_int32_iff (n : Int32) (t : CType) :
    read (int32 n).spelling t = .ok (int32 n) ↔ (int32 n).conforms t = true := by
  refine ⟨conforms_of_read, fun h => ?_⟩
  cases t with
  | int32 => exact read_spelling_int32 n
  | _ => contradiction

/-- A 64-bit integer is read at no other type. -/
theorem read_spelling_int64_iff (n : Int64) (t : CType) :
    read (int64 n).spelling t = .ok (int64 n) ↔ (int64 n).conforms t = true := by
  refine ⟨conforms_of_read, fun h => ?_⟩
  cases t with
  | int64 => exact read_spelling_int64 n
  | _ => contradiction

/-- An address is read at the types of addresses. -/
theorem read_spelling_address_iff (a : UInt64) (t : CType) :
    read (address a).spelling t = .ok (address a) ↔ t.isPointer = true :=
  ⟨conforms_of_read, read_spelling_address a⟩

/-- A value of an integer type or an address type is read from what it is written in. -/
theorem read_spelling_of_conforms {v : Value} {t : CType} (ht : t.isInteger = true ∨ t.isPointer = true)
    (h : v.conforms t = true) : read v.spelling t = .ok v := by
  cases v with
  | int32 n => exact (read_spelling_int32_iff n t).mpr h
  | int64 n => exact (read_spelling_int64_iff n t).mpr h
  | address a => exact (read_spelling_address_iff a t).mpr h
  | float32 bits =>
    cases t with
    | float32 => rcases ht with ht | ht <;> contradiction
    | _ => contradiction
  | float64 bits =>
    cases t with
    | float64 => rcases ht with ht | ht <;> contradiction
    | _ => contradiction
  | void => contradiction

/-- Integers and addresses are read from what they are written in at the types that they conform to and at
no others; for an address these are all address types. Whatever text is read at an integer or an address
type, the value conforms to the type and is read from its own text again. -/
theorem read_spelling :
    (∀ (n : Int32) (t : CType),
      read (int32 n).spelling t = .ok (int32 n) ↔ (int32 n).conforms t = true) ∧
    (∀ (n : Int64) (t : CType),
      read (int64 n).spelling t = .ok (int64 n) ↔ (int64 n).conforms t = true) ∧
    (∀ (a : UInt64) (t : CType),
      read (address a).spelling t = .ok (address a) ↔ t.isPointer = true) ∧
    ∀ (text : String) (t : CType) (v : Value), t.isInteger = true ∨ t.isPointer = true →
      read text t = .ok v → v.conforms t = true ∧ read v.spelling t = .ok v := by
  refine ⟨read_spelling_int32_iff, read_spelling_int64_iff, read_spelling_address_iff, ?_⟩
  intro text t v ht h
  have hconforms := conforms_of_read h
  exact ⟨hconforms, read_spelling_of_conforms ht hconforms⟩

/-- The least integers and the last address are read from what they are written in. An address may be read
with a plus behind `0x` and zeros in front of it, but it is not written so. -/
theorem read_spelling_extremes :
    read "-2147483648" .int32 = .ok (int32 (-2147483648)) ∧
    read "-9223372036854775808" .int64 = .ok (int64 (-9223372036854775808)) ∧
    read "0xffffffffffffffff" (.pointerTo .float32) = .ok (address 0xffffffffffffffff) ∧
    ((CType.isInteger .bytePointer = true ∨ CType.isPointer .bytePointer = true) ∧
      read "0x+00aF" .bytePointer = .ok (address 175) ∧ (address 175).conforms .bytePointer = true ∧
      read "0xaf" .bytePointer = .ok (address 175)) := by
  obtain ⟨hint, hlong, haddress, htext⟩ := read_spelling
  have hpointer : CType.isInteger .bytePointer = true ∨ CType.isPointer .bytePointer = true := .inr rfl
  have hplus : read "0x+00aF" .bytePointer = .ok (address 175) := by rfl
  have hint' : (int32 (-2147483648)).spelling = "-2147483648" := by decide +kernel
  have hlong' : (int64 (-9223372036854775808)).spelling = "-9223372036854775808" := by decide +kernel
  have hlast : (address 0xffffffffffffffff).spelling = "0xffffffffffffffff" := by decide +kernel
  have hshort : (address 175).spelling = "0xaf" := by decide +kernel
  refine ⟨?_, ?_, ?_, hpointer, hplus, ?_⟩
  · rw [← hint', hint]
    rfl
  · rw [← hlong', hlong]
    rfl
  · rw [← hlast, haddress]
    rfl
  · rw [← hshort]
    exact htext _ _ _ hpointer hplus

end Value

end CBind
