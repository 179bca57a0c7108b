import CBind.Digest.Crc
import CBind.Proofs.Digest.BitPolynomials
import CBind.Sample.Kernels
import Mathlib.RingTheory.AdjoinRoot

/-!
# The CRC-32 is a remainder

The bits of a message are a polynomial over the field of two elements. It is shifted by 32 places, its first
32 coefficients are complemented, and it is divided by the polynomial of IEEE 802.3, `0x04c11db7` with the
highest power added. The complement of the remainder is the check, sent least significant bit first like every
other word. The first coefficients are complemented by adding ones in front, so that messages shorter than
the check are covered too.

The register that takes the bits one by one holds the remainder of what it has taken: one turn multiplies it
by `X` and divides. Host code and the sampled kernel make the mask of a turn in different ways, and get the
same one.

The polynomial divides no run of 32 bits or fewer, wherever it stands, but zeros. So messages of one length
that differ in such a run alone have different checks.
-/

namespace CBind.Digest

open Polynomial

/-! ## The polynomial -/

/-- The polynomial of IEEE 802.3: the powers whose bits are set in `0x04c11db7`, and the highest one. -/
noncomputable def generator : (ZMod 2)[X] :=
  X ^ 32 + bitsPolynomial (wordBits 0x04c11db7).reverse

/-- The remainder of a message: its polynomial shifted by 32 places, with ones added in front, divided by the
generator. -/
noncomputable def crcRemainder (bits : List Bool) : (ZMod 2)[X] :=
  (X ^ 32 * bitsPolynomial bits + X ^ bits.length * bitsPolynomial (List.replicate 32 true)) %ₘ generator

/-- The CRC-32 of a message: the complement of its remainder, as a word. -/
noncomputable def ieeeCrc (bits : List Bool) : UInt32 :=
  ~~~ polynomialWord (crcRemainder bits)

/-- The generator, power by power. -/
theorem generator_eq : generator =
    X ^ 32 + X ^ 26 + X ^ 23 + X ^ 22 + X ^ 16 + X ^ 12 + X ^ 11 + X ^ 10 + X ^ 8 + X ^ 7 + X ^ 5 + X ^ 4 +
      X ^ 2 + X + 1 := by
  have hbits : (wordBits 0x04c11db7).reverse =
      [false, false, false, false, false, true, false, false, true, true, false, false, false, false, false,
        true, false, false, false, true, true, true, false, true, true, false, true, true, false, true, true,
        true] := by decide
  rw [generator, hbits]
  simp only [bitsPolynomial, bitValue_false, bitValue_true, C_0, C_1, List.length_cons, List.length_nil]
  ring

/-- The generator starts with its highest power. -/
theorem generator_monic : generator.Monic :=
  monic_X_pow_add (by simpa using degree_bitsPolynomial_lt (wordBits 0x04c11db7).reverse)

/-- The generator has degree 32. -/
theorem degree_generator : generator.degree = 32 := by
  have hlow := degree_bitsPolynomial_lt (wordBits 0x04c11db7).reverse
  rw [List.length_reverse, length_wordBits] at hlow
  rw [generator, degree_add_eq_left_of_degree_lt (by rwa [degree_X_pow]), degree_X_pow]
  rfl

/-- Nothing but the register's polynomial is left of the generator below its highest power. -/
theorem generator_eq_add : generator = X ^ 32 + wordPolynomial crcPolynomial := by
  have hbits : (wordBits 0x04c11db7).reverse = wordBits crcPolynomial := by decide
  rw [generator, hbits, wordPolynomial]

/-- The generator is not divisible by a power. -/
theorem isCoprime_generator (n : Nat) : IsCoprime generator (X ^ n) := by
  have hcoeff : generator.coeff 0 ≠ 0 := by
    rw [generator_eq]
    simp
  have hnot : ¬X ∣ generator := fun h => hcoeff (X_dvd_iff.mp h)
  exact ((irreducible_X.coprime_iff_not_dvd.mpr hnot).symm).pow_right

/-! ## The register -/

/-- The lowest bit of a word, as a word. -/
theorem and_one_eq (word : UInt32) : word &&& 1 = if word.toBitVec.getLsbD 0 then 1 else 0 := by
  apply UInt32.toBitVec_inj.mp
  rw [UInt32.toBitVec_and]
  have h := BitVec.and_one_eq_setWidth_ofBool_getLsbD (x := word.toBitVec)
  cases hb : word.toBitVec.getLsbD 0 with
  | false =>
    rw [hb] at h
    exact h
  | true =>
    rw [hb] at h
    exact h

/-- The mask lets the polynomial through where a one leaves the register. -/
theorem crcBit_eq (crc : UInt32) :
    crcBit crc = crc >>> 1 ^^^ if crc.toBitVec.getLsbD 0 then crcPolynomial else 0 := by
  rw [crcBit, and_one_eq]
  cases crc.toBitVec.getLsbD 0 <;> rfl

/-- The mask of the sampled kernel is made from signed words, and is the same one. -/
theorem crcTurn_eq_crcBit (crc : UInt32) : Sample.crcTurn crc = crcBit crc := by
  rw [crcBit_eq, Sample.crcTurn, and_one_eq]
  cases crc.toBitVec.getLsbD 0 <;> rfl

/-- One turn multiplies by `X`, and takes the generator off where that has reached its power. -/
theorem wordPolynomial_crcBit (crc : UInt32) :
    wordPolynomial (crcBit crc) =
      X * wordPolynomial crc + C (bitValue (crc.toBitVec.getLsbD 0)) * generator := by
  rw [crcBit_eq, wordPolynomial_xor, wordPolynomial_shiftRight, generator_eq_add]
  cases crc.toBitVec.getLsbD 0 with
  | false =>
    have hzero : wordPolynomial 0 = 0 := bitsPolynomial_of_all_false (by decide)
    simp [hzero]
  | true =>
    have htwice : (X ^ 32 : (ZMod 2)[X]) + X ^ 32 = 0 := CharTwo.add_self_eq_zero _
    simp only [bitValue_true, C_1, one_mul, if_true]
    linear_combination -htwice

/-- Taking bits out multiplies by a power of `X`, up to the generator. -/
theorem mk_crcBits (n : Nat) (crc : UInt32) :
    AdjoinRoot.mk generator (wordPolynomial (crcBits n crc)) =
      AdjoinRoot.mk generator (X ^ n * wordPolynomial crc) := by
  induction n generalizing crc with
  | zero => rw [crcBits, pow_zero, one_mul]
  | succ n ih =>
    rw [crcBits, ih, wordPolynomial_crcBit, map_mul, map_add, map_mul _ (C _), AdjoinRoot.mk_self, mul_zero,
      add_zero, ← map_mul, ← mul_assoc, ← pow_succ]

/-- Taking a byte in moves the register by eight places, and adds the byte behind it. -/
theorem mk_crcByte (crc : UInt32) (byte : UInt8) :
    AdjoinRoot.mk generator (wordPolynomial (crcByte crc byte)) =
      AdjoinRoot.mk generator (X ^ 8 * wordPolynomial crc + X ^ 32 * bitsPolynomial (byteBits byte)) := by
  rw [crcByte, mk_crcBits, wordPolynomial_xor, wordPolynomial_toUInt32, mul_add, ← mul_assoc, ← pow_add]

/-- Taking a message in moves the register by its bits, and adds it behind. -/
theorem mk_foldl_crcByte (bytes : List UInt8) (crc : UInt32) :
    AdjoinRoot.mk generator (wordPolynomial (bytes.foldl crcByte crc)) =
      AdjoinRoot.mk generator (X ^ (messageBits bytes).length * wordPolynomial crc +
        X ^ 32 * bitsPolynomial (messageBits bytes)) := by
  induction bytes generalizing crc with
  | nil => simp [messageBits, bitsPolynomial]
  | cons byte rest ih =>
    have hbits : messageBits (byte :: rest) = byteBits byte ++ messageBits rest := List.flatMap_cons
    rw [List.foldl_cons, ih, map_add, map_mul, mk_crcByte, ← map_mul, ← map_add, hbits,
      List.length_append, length_byteBits, bitsPolynomial_append, pow_add]
    refine congrArg _ ?_
    ring

/-- The register after a message is the remainder of the message. -/
theorem wordPolynomial_foldl_crcByte (bytes : List UInt8) :
    wordPolynomial (bytes.foldl crcByte 0xffffffff) = crcRemainder (messageBits bytes) := by
  have hones : wordPolynomial 0xffffffff = bitsPolynomial (List.replicate 32 true) :=
    congrArg bitsPolynomial (by decide)
  have hsame := AdjoinRoot.mk_eq_mk.mp (mk_foldl_crcByte bytes 0xffffffff)
  have hdegree : (wordPolynomial (bytes.foldl crcByte 0xffffffff)).degree < generator.degree := by
    have h := degree_bitsPolynomial_lt (wordBits (bytes.foldl crcByte 0xffffffff))
    rw [length_wordBits] at h
    exact h.trans_eq degree_generator.symm
  rw [crcRemainder, ← (modByMonic_eq_self_iff generator_monic).mpr hdegree,
    modByMonic_eq_of_dvd_sub generator_monic hsame, hones, add_comm]

/-- The check of a message is the CRC-32 of its bits. -/
theorem crc32_eq_ieeeCrc (bytes : List UInt8) : crc32 bytes = ieeeCrc (messageBits bytes) := by
  rw [crc32, ieeeCrc, ← wordPolynomial_foldl_crcByte, polynomialWord_wordPolynomial]

/-- The value that tables of checks give for the digits one to nine. -/
example : ieeeCrc (messageBits "123456789".toUTF8.toList) = 0xcbf43926 := by
  rw [← crc32_eq_ieeeCrc]
  decide +kernel

/-! ## The sampled kernel -/

/-- The sampled kernel takes a byte in as host code does. -/
theorem crcUpdate_eq_crcByte (crc : UInt32) (byte : UInt8) :
    Sample.crcUpdate crc byte = crcByte crc byte := by
  have hturn : Sample.crcTurn = crcBit := funext crcTurn_eq_crcBit
  rw [Sample.crcUpdate, hturn]
  rfl

/-- The check of a message is the loop of the sampled kernel over its bytes. -/
theorem crc32_eq_foldl_crcUpdate (bytes : List UInt8) :
    crc32 bytes = ~~~ bytes.foldl Sample.crcUpdate 0xffffffff := by
  have hupdate : Sample.crcUpdate = crcByte := funext₂ crcUpdate_eq_crcByte
  rw [crc32, hupdate]

/-- The loop of the sampled kernel goes over the bytes that stand in memory from its index on. -/
theorem forIndices_crcUpdate {m : Memory} {address : Nat} (bytes : List UInt8) (i : Nat) (crc : UInt32)
    (h : ∀ k < bytes.length, m.byte? (address + (i + k)) = bytes[k]?) :
    forIndices (fun i crc => do return Sample.crcUpdate crc (← m.byte? (address + i))) bytes.length i crc =
      some (bytes.foldl Sample.crcUpdate crc) := by
  induction bytes generalizing i crc with
  | nil => rfl
  | cons byte rest ih =>
    have hbyte : m.byte? (address + i) = some byte := h 0 (Nat.succ_pos _)
    have hrest : ∀ k < rest.length, m.byte? (address + (i + 1 + k)) = rest[k]? := fun k hk => by
      rw [Nat.add_assoc i 1 k, Nat.add_comm 1 k]
      exact h (k + 1) (Nat.succ_lt_succ hk)
    rw [List.length_cons, forIndices, hbyte]
    exact ih (i + 1) _ hrest

/-- Called on bytes in memory, the sampled kernel gives their check. -/
theorem crcRun_eq {m : Memory} {address : Nat} {bytes : List UInt8}
    (h : ∀ k < bytes.length, m.byte? (address + k) = bytes[k]?) :
    Sample.crcRun address bytes.length m = some (crc32 bytes) := by
  have hloop := forIndices_crcUpdate bytes 0 0xffffffff (by simpa using h)
  rw [Sample.crcRun, hloop, crc32_eq_foldl_crcUpdate]
  rfl

/-! ## Bursts -/

/-- Two messages differ in none but the 32 bits from a place on. -/
def DifferWithin (start : Nat) (a b : List UInt8) : Prop :=
  ∀ k, (messageBits a)[k]? ≠ (messageBits b)[k]? → start ≤ k ∧ k < start + 32

/-- Messages of one length with one check differ by a multiple of the generator. -/
theorem generator_dvd_of_crc32_eq {a b : List UInt8} (hlength : a.length = b.length)
    (h : crc32 a = crc32 b) :
    generator ∣ bitsPolynomial (List.zipWith (· ^^ ·) (messageBits a) (messageBits b)) := by
  have hbits : (messageBits a).length = (messageBits b).length := by
    rw [length_messageBits, length_messageBits, hlength]
  have hregister : a.foldl crcByte 0xffffffff = b.foldl crcByte 0xffffffff := UInt32.not_inj.mp h
  have hsame := mk_foldl_crcByte a 0xffffffff
  rw [hregister, mk_foldl_crcByte, hbits, AdjoinRoot.mk_eq_mk, add_sub_add_left_eq_sub, ← mul_sub,
    CharTwo.sub_eq_add, add_comm, ← bitsPolynomial_zipWith_xor hbits] at hsame
  exact (isCoprime_generator 32).dvd_of_dvd_mul_left hsame

/-- A multiple of the generator whose ones all stand within 32 places has none. -/
theorem all_false_of_generator_dvd {l : List Bool} {start : Nat} (h : generator ∣ bitsPolynomial l)
    (hburst : ∀ k, l[k]? = some true → start ≤ k ∧ k < start + 32) : ∀ b ∈ l, b = false := by
  have hwindow := bitsPolynomial_eq_window hburst
  rw [hwindow] at h
  have hdvd : generator ∣ bitsPolynomial ((l.drop start).take 32) :=
    (isCoprime_generator _).dvd_of_dvd_mul_left h
  have hdegree : (bitsPolynomial ((l.drop start).take 32)).degree < generator.degree := by
    refine (degree_bitsPolynomial_lt _).trans_le ?_
    rw [degree_generator]
    exact_mod_cast List.length_take_le 32 _
  rw [eq_zero_of_dvd_of_degree_lt hdvd hdegree, mul_zero] at hwindow
  exact all_false_of_bitsPolynomial_eq_zero hwindow

/-- Messages of one length that differ within 32 places alone are told apart by their checks. -/
theorem eq_of_crc32_eq {a b : List UInt8} {start : Nat} (hlength : a.length = b.length)
    (hburst : DifferWithin start a b) (h : crc32 a = crc32 b) : a = b := by
  have hbits : (messageBits a).length = (messageBits b).length := by
    rw [length_messageBits, length_messageBits, hlength]
  have hsame := all_false_of_generator_dvd (generator_dvd_of_crc32_eq hlength h) fun k hk =>
    hburst k (getElem?_ne_of_zipWith_xor hk)
  exact messageBits_inj hlength (eq_of_zipWith_xor_all_false hbits hsame)

/-! ## The check -/

/-- The check of bytes is the CRC-32 of IEEE 802.3, and the byte-wise loop of the sampled kernel gives it as
well. No other message of that length that differs within 32 places alone has the same check. -/
theorem crc32_standard (bytes : List UInt8) :
    crc32 bytes = ieeeCrc (messageBits bytes) ∧
      crc32 bytes = ~~~ bytes.foldl Sample.crcUpdate 0xffffffff ∧
      (∀ (m : Memory) (address : Nat), (∀ k < bytes.length, m.byte? (address + k) = bytes[k]?) →
        Sample.crcRun address bytes.length m = some (crc32 bytes)) ∧
      ∀ (other : List UInt8) (start : Nat), bytes.length = other.length → bytes ≠ other →
        DifferWithin start bytes other → crc32 bytes ≠ crc32 other := by
  refine ⟨crc32_eq_ieeeCrc bytes, crc32_eq_foldl_crcUpdate bytes, fun m address h => crcRun_eq h, ?_⟩
  intro other start hlength hne hburst hsame
  exact hne (eq_of_crc32_eq hlength hburst hsame)

/-- Two bits that are 31 places apart, in bytes that stand in memory. -/
theorem crc32_standard_two_bits :
    Sample.crcRun 64 5 ⟨#[⟨64, #[1, 2, 3, 4, 5]⟩]⟩ = some (crc32 [1, 2, 3, 4, 5]) ∧
      crc32 [1, 2, 3, 4, 5] ≠ crc32 [1, 3, 3, 4, 133] := by
  obtain ⟨-, -, hrun, hburst⟩ := crc32_standard [1, 2, 3, 4, 5]
  refine ⟨hrun _ 64 (by decide +kernel), hburst [1, 3, 3, 4, 133] 8 rfl (by decide) fun k hk => ?_⟩
  have hbits : ∀ k < 40, (messageBits [1, 2, 3, 4, 5])[k]? ≠ (messageBits [1, 3, 3, 4, 133])[k]? →
      8 ≤ k ∧ k < 8 + 32 := by decide
  by_cases hlt : k < 40
  · exact hbits k hlt hk
  · have hend : ∀ bytes : List UInt8, bytes.length = 5 → (messageBits bytes)[k]? = none :=
      fun bytes hlength => List.getElem?_eq_none (by rw [length_messageBits, hlength]; omega)
    exact absurd ((hend _ rfl).trans (hend _ rfl).symm) hk

end CBind.Digest
