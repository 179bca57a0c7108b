import CBind.Type.Width
import Mathlib.Data.Int.ModEq

/-!
# Conversion to a narrow width

A width holds the integers of its range. Conversion cuts an integer down to the low bits of the width and
extends these by the sign of the width. In the range, it is the one integer that is congruent to what was
converted, modulo the number of patterns of the width.
-/

namespace CBind.NarrowInt

/-- The number of bit patterns of a width. -/
def patterns (w : NarrowInt) : Nat :=
  2 ^ w.bits

/-- The integers that a width can hold. -/
def Holds (w : NarrowInt) (n : Int32) : Prop :=
  if w.isSigned then -(2 ^ (w.bits - 1)) ≤ n.toInt ∧ n.toInt < 2 ^ (w.bits - 1)
  else 0 ≤ n.toInt ∧ n.toInt < 2 ^ w.bits

instance (w : NarrowInt) (n : Int32) : Decidable (w.Holds n) := by
  unfold Holds
  infer_instance

/-- Extend the bits of a width by its sign. -/
def extend (w : NarrowInt) (size : Nat) (pattern : BitVec w.bits) : BitVec size :=
  if w.isSigned then pattern.signExtend size else pattern.zeroExtend size

variable {w : NarrowInt}

/-- Conversion keeps the low bits and extends them by the sign of the width. -/
theorem toBitVec_wrap (w : NarrowInt) (n : Int32) :
    (w.wrap n).toBitVec = w.extend 32 (n.toBitVec.truncate w.bits) := by
  cases w with
  | i8 =>
    rw [wrap, Int8.toBitVec_toInt32, Int32.toBitVec_toInt8]
    exact congrArg _ (BitVec.signExtend_eq_setWidth_of_le _ (by decide))
  | u8 => rfl
  | i16 =>
    rw [wrap, Int16.toBitVec_toInt32, Int32.toBitVec_toInt16]
    exact congrArg _ (BitVec.signExtend_eq_setWidth_of_le _ (by decide))
  | u16 => rfl

/-- A narrow width has fewer bits than the integers it is carried in. -/
theorem patterns_dvd (w : NarrowInt) : w.patterns ∣ 2 ^ 32 :=
  pow_dvd_pow 2 (by cases w <;> decide)

/-- An integer is congruent to its bits, read without a sign. -/
theorem toInt_modEq_toNat (w : NarrowInt) (n : Int32) :
    n.toInt ≡ n.toBitVec.toNat [ZMOD w.patterns] := by
  have hdvd : (w.patterns : Int) ∣ (2 ^ 32 : Nat) := Int.natCast_dvd_natCast.mpr w.patterns_dvd
  have h : n.toInt ≡ n.toBitVec.toNat [ZMOD (2 ^ 32 : Nat)] := by
    rw [← Int32.toInt_toBitVec, BitVec.toInt_eq_toNat_bmod]
    exact Int.bmod_emod
  exact h.of_dvd hdvd

/-- Conversion gives the residue in the range: the balanced one if the width has a sign, else the least. -/
theorem toInt_wrap (w : NarrowInt) (n : Int32) :
    (w.wrap n).toInt = if w.isSigned then n.toInt.bmod w.patterns else n.toInt % w.patterns := by
  have hsize : w.bits < 32 := by cases w <;> decide
  have hmod : n.toInt % w.patterns = n.toBitVec.toNat % w.patterns := w.toInt_modEq_toNat n
  rw [← Int32.toInt_toBitVec, toBitVec_wrap, extend]
  split
  · rw [BitVec.toInt_signExtend_of_le hsize.le, BitVec.toInt_setWidth, ← Int.emod_bmod n.toInt, hmod,
      Int.emod_bmod]
    rfl
  · have hlt : n.toBitVec.toNat % 2 ^ w.bits < 2 ^ w.bits := Nat.mod_lt _ (Nat.two_pow_pos _)
    have hfits : 2 ^ w.bits ≤ 2 ^ 31 := Nat.pow_le_pow_right (by decide) (by omega)
    have htoNat : ((n.toBitVec.truncate w.bits).zeroExtend 32).toNat =
        n.toBitVec.toNat % 2 ^ w.bits := by
      rw [BitVec.toNat_setWidth, BitVec.toNat_setWidth, Nat.mod_eq_of_lt (by omega)]
    rw [BitVec.toInt_eq_toNat_of_lt (by omega), htoNat, hmod]
    rfl

/-- Conversion gives an integer of the range. -/
theorem holds_wrap (w : NarrowInt) (n : Int32) : w.Holds (w.wrap n) := by
  have hlow := Int.le_bmod (x := n.toInt) (Nat.two_pow_pos w.bits)
  have hhigh := Int.bmod_lt (x := n.toInt) (Nat.two_pow_pos w.bits)
  rw [Holds, toInt_wrap]
  cases w <;> simp only [isSigned, bits, patterns, reduceIte, Bool.false_eq_true] at hlow hhigh ⊢ <;> omega

/-- Conversion changes an integer by a multiple of the number of patterns. -/
theorem wrap_modEq (w : NarrowInt) (n : Int32) :
    (w.wrap n).toInt ≡ n.toInt [ZMOD w.patterns] := by
  rw [toInt_wrap]
  split
  · exact Int.bmod_emod
  · exact Int.mod_modEq _ _

/-- Congruent integers of the range are equal. -/
theorem eq_of_modEq {m n : Int32} (hm : w.Holds m) (hn : w.Holds n)
    (h : m.toInt ≡ n.toInt [ZMOD w.patterns]) : m = n := by
  rw [← Int32.toInt_inj]
  have hdvd := h.dvd
  cases w <;> simp only [Holds, isSigned, bits, patterns, reduceIte, Bool.false_eq_true] at hm hn hdvd <;>
    omega

/-- Conversion does not tell integers apart that differ by a multiple of the number of patterns. -/
theorem wrap_eq_wrap_iff {m n : Int32} :
    w.wrap m = w.wrap n ↔ m.toInt ≡ n.toInt [ZMOD w.patterns] := by
  constructor
  · intro h
    exact (w.wrap_modEq m).symm.trans (h ▸ w.wrap_modEq n)
  · intro h
    exact eq_of_modEq (w.holds_wrap m) (w.holds_wrap n)
      ((w.wrap_modEq m).trans (h.trans (w.wrap_modEq n).symm))

/-- An integer of the range is converted to itself. -/
theorem wrap_of_holds {n : Int32} (h : w.Holds n) : w.wrap n = n :=
  eq_of_modEq (w.holds_wrap n) h (w.wrap_modEq n)

end CBind.NarrowInt
