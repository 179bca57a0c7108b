import Mathlib.Algebra.Polynomial.Div
import Mathlib.Algebra.CharP.Two
import Mathlib.Algebra.Field.ZMod

/-!
# Bits as polynomials

A run of bits is a polynomial over the field of two elements, the first bit with the highest power. Runs one
behind the other, and runs that are added bit by bit, are polynomials that are shifted and added. A word of 32
bits is sent least significant bit first, so its lowest bit goes with the highest power.
-/

namespace CBind.Digest

open Polynomial

/-- A bit as an element of the field of two elements. -/
def bitValue (b : Bool) : ZMod 2 :=
  if b then 1 else 0

/-- The polynomial of a run of bits, the first one with the highest power. -/
noncomputable def bitsPolynomial : List Bool → (ZMod 2)[X]
  | [] => 0
  | b :: rest => C (bitValue b) * X ^ rest.length + bitsPolynomial rest

/-- The bits of a word in the order in which they are sent, least significant first. -/
def wordBits (word : UInt32) : List Bool :=
  (List.range 32).map word.toBitVec.getLsbD

/-- The bits of a byte in the order in which they are sent, least significant first. -/
def byteBits (byte : UInt8) : List Bool :=
  (List.range 8).map byte.toBitVec.getLsbD

/-- The bits of bytes in the order in which they are sent. -/
def messageBits (bytes : List UInt8) : List Bool :=
  bytes.flatMap byteBits

/-! ## Bits -/

@[simp]
theorem bitValue_false : bitValue false = 0 := rfl

@[simp]
theorem bitValue_true : bitValue true = 1 := rfl

/-- Bits are added without a carry. -/
theorem bitValue_xor (a b : Bool) : bitValue (a ^^ b) = bitValue a + bitValue b := by
  revert a b
  decide

/-- Bits are told apart by their values. -/
theorem bitValue_eq_one_iff (b : Bool) : bitValue b = 1 ↔ b = true := by
  revert b
  decide

@[simp]
theorem length_wordBits (word : UInt32) : (wordBits word).length = 32 := by
  simp [wordBits]

@[simp]
theorem length_byteBits (byte : UInt8) : (byteBits byte).length = 8 := by
  simp [byteBits]

/-- A message has eight bits for each byte. -/
theorem length_messageBits (bytes : List UInt8) : (messageBits bytes).length = 8 * bytes.length := by
  induction bytes with
  | nil => rfl
  | cons b rest ih =>
    rw [messageBits, List.flatMap_cons, List.length_append, length_byteBits, ← messageBits, ih,
      List.length_cons, Nat.mul_succ, Nat.add_comm]

/-- A byte is known by its bits. -/
theorem byteBits_inj {a b : UInt8} (h : byteBits a = byteBits b) : a = b := by
  apply UInt8.toBitVec_inj.mp
  apply BitVec.eq_of_getLsbD_eq
  intro i hi
  exact List.map_inj_left.mp h i (List.mem_range.mpr hi)

/-- A message is known by its bits. -/
theorem messageBits_inj {a b : List UInt8} (hlength : a.length = b.length)
    (h : messageBits a = messageBits b) : a = b := by
  induction a generalizing b with
  | nil => exact (List.length_eq_zero_iff.mp hlength.symm).symm
  | cons x a ih =>
    cases b with
    | nil => contradiction
    | cons y b =>
      rw [messageBits, messageBits, List.flatMap_cons, List.flatMap_cons] at h
      obtain ⟨hbyte, hrest⟩ := List.append_inj h (by simp)
      rw [byteBits_inj hbyte, ih (Nat.succ.inj hlength) hrest]

/-- Bits differ where their exclusive or is a one. -/
theorem getElem?_ne_of_zipWith_xor {l m : List Bool} {k : Nat}
    (h : (List.zipWith (· ^^ ·) l m)[k]? = some true) : l[k]? ≠ m[k]? := by
  obtain ⟨x, y, hx, hy, hxy⟩ := List.getElem?_zipWith_eq_some.mp h
  rw [hx, hy]
  rintro hsame
  rw [Option.some.inj hsame, Bool.xor_self] at hxy
  contradiction

/-- Runs of one length are the same where their exclusive or has no ones. -/
theorem eq_of_zipWith_xor_all_false {l m : List Bool} (hlength : l.length = m.length)
    (h : ∀ b ∈ List.zipWith (· ^^ ·) l m, b = false) : l = m := by
  induction l generalizing m with
  | nil => exact (List.length_eq_zero_iff.mp hlength.symm).symm
  | cons a l ih =>
    cases m with
    | nil => contradiction
    | cons b m =>
      rw [List.zipWith_cons_cons, List.forall_mem_cons] at h
      rw [ih (Nat.succ.inj hlength) h.2, bne_eq_false_iff_eq.mp h.1]

/-! ## Polynomials of bits -/

/-- A run behind another one shifts it. -/
theorem bitsPolynomial_append (l m : List Bool) :
    bitsPolynomial (l ++ m) = X ^ m.length * bitsPolynomial l + bitsPolynomial m := by
  induction l with
  | nil => simp [bitsPolynomial]
  | cons b l ih =>
    rw [List.cons_append, bitsPolynomial, ih, bitsPolynomial, List.length_append, pow_add]
    ring

/-- Zeros are the zero polynomial. -/
theorem bitsPolynomial_of_all_false {l : List Bool} (h : ∀ b ∈ l, b = false) : bitsPolynomial l = 0 := by
  induction l with
  | nil => rfl
  | cons b l ih =>
    obtain ⟨rfl, hl⟩ := List.forall_mem_cons.mp h
    rw [bitsPolynomial, ih hl, bitValue_false, C_0, zero_mul, zero_add]

/-- Runs that are added bit by bit are added as polynomials. -/
theorem bitsPolynomial_zipWith_xor {l m : List Bool} (h : l.length = m.length) :
    bitsPolynomial (List.zipWith (· ^^ ·) l m) = bitsPolynomial l + bitsPolynomial m := by
  induction l generalizing m with
  | nil =>
    obtain rfl := List.length_eq_zero_iff.mp h.symm
    simp [bitsPolynomial]
  | cons a l ih =>
    cases m with
    | nil => contradiction
    | cons b m =>
      have hlength : l.length = m.length := Nat.succ.inj h
      rw [List.zipWith_cons_cons, bitsPolynomial, bitsPolynomial, bitsPolynomial, ih hlength, bitValue_xor,
        List.length_zipWith, hlength, Nat.min_self, C_add]
      ring

/-- A run of bits has a degree below its length. -/
theorem degree_bitsPolynomial_lt (l : List Bool) : (bitsPolynomial l).degree < l.length := by
  induction l with
  | nil => simp [bitsPolynomial]
  | cons b l ih =>
    rw [bitsPolynomial, List.length_cons]
    refine lt_of_le_of_lt (degree_add_le _ _) (max_lt ?_ ?_)
    · exact lt_of_le_of_lt (degree_C_mul_X_pow_le _ _) (by exact_mod_cast Nat.lt_succ_self _)
    · exact ih.trans (by exact_mod_cast Nat.lt_succ_self _)

/-- The bits of a run are its coefficients. -/
theorem coeff_bitsPolynomial {l : List Bool} {k : Nat} {b : Bool} (h : l[k]? = some b) :
    (bitsPolynomial l).coeff (l.length - 1 - k) = bitValue b := by
  induction l generalizing k with
  | nil => contradiction
  | cons a l ih =>
    rw [bitsPolynomial, coeff_add, coeff_C_mul_X_pow, List.length_cons, Nat.add_sub_cancel]
    cases k with
    | zero =>
      obtain rfl := Option.some.inj h
      rw [Nat.sub_zero, if_pos rfl, coeff_eq_zero_of_degree_lt (degree_bitsPolynomial_lt l), add_zero]
    | succ k =>
      rw [List.getElem?_cons_succ] at h
      have hk := (List.getElem?_eq_some_iff.mp h).1
      rw [if_neg (by omega), zero_add, Nat.add_comm k 1, ← Nat.sub_sub, ih h]

/-- Only zeros are the zero polynomial. -/
theorem all_false_of_bitsPolynomial_eq_zero {l : List Bool} (h : bitsPolynomial l = 0) :
    ∀ b ∈ l, b = false := by
  intro b hb
  obtain ⟨k, hk⟩ := List.getElem?_of_mem hb
  have hcoeff := coeff_bitsPolynomial hk
  rw [h, coeff_zero] at hcoeff
  cases b with
  | false => rfl
  | true => exact absurd hcoeff.symm one_ne_zero

/-- A run whose ones all stand in a window is the window, shifted. -/
theorem bitsPolynomial_eq_window {l : List Bool} {start width : Nat}
    (h : ∀ k, l[k]? = some true → start ≤ k ∧ k < start + width) :
    bitsPolynomial l = X ^ (l.length - start - width) * bitsPolynomial ((l.drop start).take width) := by
  have hbefore : ∀ b ∈ l.take start, b = false := by
    intro b hb
    obtain ⟨k, hk⟩ := List.getElem?_of_mem hb
    rw [List.getElem?_take, Option.ite_none_right_eq_some] at hk
    refine Bool.eq_false_iff.mpr fun htrue => ?_
    have := h k (htrue ▸ hk.2)
    omega
  have hbehind : ∀ b ∈ (l.drop start).drop width, b = false := by
    intro b hb
    obtain ⟨k, hk⟩ := List.getElem?_of_mem hb
    rw [List.drop_drop, List.getElem?_drop] at hk
    refine Bool.eq_false_iff.mpr fun htrue => ?_
    have := h _ (htrue ▸ hk)
    omega
  have hl : l = l.take start ++ ((l.drop start).take width ++ (l.drop start).drop width) := by
    rw [List.take_append_drop, List.take_append_drop]
  conv_lhs => rw [hl]
  rw [bitsPolynomial_append, bitsPolynomial_of_all_false hbefore, mul_zero, zero_add,
    bitsPolynomial_append, bitsPolynomial_of_all_false hbehind, add_zero, List.length_drop,
    List.length_drop]

/-! ## Words -/

/-- The polynomial of a word. -/
noncomputable def wordPolynomial (word : UInt32) : (ZMod 2)[X] :=
  bitsPolynomial (wordBits word)

/-- The word with the coefficients of a polynomial below degree 32. -/
noncomputable def polynomialWord (p : (ZMod 2)[X]) : UInt32 :=
  ⟨(BitVec.ofBoolListLE ((List.range 32).map fun k => decide (p.coeff (31 - k) = 1))).setWidth 32⟩

/-- A word is known by its polynomial. -/
theorem polynomialWord_wordPolynomial (word : UInt32) : polynomialWord (wordPolynomial word) = word := by
  apply UInt32.toBitVec_inj.mp
  apply BitVec.eq_of_getLsbD_eq
  intro i hi
  have hbit : (wordBits word)[i]? = some (word.toBitVec.getLsbD i) := by
    rw [wordBits, List.getElem?_map, List.getElem?_range hi]
    rfl
  have hcoeff : (wordPolynomial word).coeff (31 - i) = bitValue (word.toBitVec.getLsbD i) := by
    have h := coeff_bitsPolynomial hbit
    rwa [length_wordBits] at h
  rw [polynomialWord, BitVec.getLsbD_setWidth, BitVec.getLsbD_ofBoolListLE, List.getD_eq_getElem?_getD,
    List.getElem?_map, List.getElem?_range hi]
  simp [hi, hcoeff, bitValue_eq_one_iff]

/-- Words that are added bit by bit are added as polynomials. -/
theorem wordPolynomial_xor (a b : UInt32) :
    wordPolynomial (a ^^^ b) = wordPolynomial a + wordPolynomial b := by
  have hbits : wordBits (a ^^^ b) = List.zipWith (· ^^ ·) (wordBits a) (wordBits b) := by
    simp [wordBits, List.zipWith_map, List.zipWith_self]
  rw [wordPolynomial, hbits, bitsPolynomial_zipWith_xor (by simp)]
  rfl

/-- A word that is shifted right by one place is sent one bit earlier, with a zero at its end. -/
theorem wordBits_eq_cons (word : UInt32) :
    wordBits word = word.toBitVec.getLsbD 0 :: (wordBits word).tail ∧
      wordBits (word >>> 1) = (wordBits word).tail ++ [false] := by
  have hfirst : List.range 32 = 0 :: (List.range 31).map Nat.succ := List.range_succ_eq_map
  have hlast : List.range 32 = List.range 31 ++ [31] := List.range_succ
  have htail : (wordBits word).tail = (List.range 31).map fun k => word.toBitVec.getLsbD (k + 1) := by
    rw [wordBits, hfirst]
    simp
  refine ⟨by rw [htail, wordBits, hfirst]; simp, ?_⟩
  rw [htail, wordBits, hlast, List.map_append]
  refine congrArg₂ (· ++ ·) (List.map_congr_left fun k _ => ?_) ?_
  · simp [Nat.add_comm]
  · simp

/-- The bit that leaves the register goes to the power above it. -/
theorem wordPolynomial_shiftRight (word : UInt32) :
    X * wordPolynomial word =
      C (bitValue (word.toBitVec.getLsbD 0)) * X ^ 32 + wordPolynomial (word >>> 1) := by
  obtain ⟨hword, hshift⟩ := wordBits_eq_cons word
  have hlength : (wordBits word).tail.length = 31 := by simp
  rw [wordPolynomial, wordPolynomial, hword, hshift, bitsPolynomial, bitsPolynomial_append, hlength]
  simp [bitsPolynomial]
  ring

/-- A byte as a word is the byte sent first, and zeros. -/
theorem wordPolynomial_toUInt32 (byte : UInt8) :
    wordPolynomial byte.toUInt32 = X ^ 24 * bitsPolynomial (byteBits byte) := by
  have hrange : List.range 32 = List.range 8 ++ (List.range 24).map (8 + ·) := by
    rw [← List.range_add]
  have hbits : wordBits byte.toUInt32 = byteBits byte ++ List.replicate 24 false := by
    rw [wordBits, byteBits, hrange, List.map_append, List.map_map]
    refine congrArg₂ (· ++ ·) (List.map_congr_left fun k hk => ?_) ?_
    · have hk := List.mem_range.mp hk
      simp
      omega
    · refine List.eq_replicate_of_mem fun b hb => ?_
      obtain ⟨k, -, rfl⟩ := List.mem_map.mp hb
      simp
  rw [wordPolynomial, hbits, bitsPolynomial_append, List.length_replicate,
    bitsPolynomial_of_all_false fun b hb => List.eq_of_mem_replicate hb, add_zero]

end CBind.Digest
