import CBind.Number.Numeral
import Mathlib.Tactic.SplitIfs

/-!
# What is written in digits is read again

The digits of a number stand for the number: reading them one after the other gives it back, in every base
that has digits, as long as it does not exceed the bound. So different numbers have different digits. A sign
is no digit, so it can be told from the number behind it, and integers are read back with their sign.
-/

namespace CBind

/-! ## Digits -/

/-- A digit of a number is a digit of the base. -/
theorem exists_digitChar_of_mem_digits {base n : Nat} (hbase : 2 ≤ base) {c : Char}
    (hc : c ∈ digits base n) : ∃ d < base, c = digitChar d := by
  fun_induction digits base n with
  | case1 n h => exact ⟨n, by omega, List.mem_singleton.mp hc⟩
  | case2 n h ih =>
    rcases List.mem_append.mp hc with hc | hc
    · exact ih hc
    · exact ⟨n % base, Nat.mod_lt _ (by omega), List.mem_singleton.mp hc⟩

/-- A number has few digits if it is small. -/
theorem length_digits_le {base n width : Nat} (hwidth : 0 < width)
    (h : n < Nat.pow base width) : (digits base n).length ≤ width := by
  fun_induction digits base n generalizing width with
  | case1 n hsmall => exact hwidth
  | case2 n hlarge ih =>
    obtain ⟨width, rfl⟩ : ∃ w, width = w + 1 := ⟨width - 1, by omega⟩
    change n < Nat.pow base width * base at h
    have hpos : 0 < width := by
      rcases Nat.eq_zero_or_pos width with rfl | hpos
      · change n < 1 * base at h
        omega
      · exact hpos
    have hshort : (digits base (n / base)).length ≤ width :=
      ih hpos (Nat.div_lt_of_lt_mul (by rwa [Nat.mul_comm] at h))
    rw [List.length_append, List.length_singleton]
    omega

/-- A number has a digit. -/
theorem digits_ne_nil (base n : Nat) : digits base n ≠ [] := by
  unfold digits
  split_ifs <;> simp

/-- The character of a digit stands for the digit. -/
theorem digitValue?_digitChar {base d : Nat} (hd : d < base) (hbase : base ≤ 36) :
    digitValue? base (digitChar d) = some d := by
  have hall : ∀ d < 36, (digitChar d).toNat = if d < 10 then 48 + d else 87 + d := by decide
  rw [digitValue?, hall d (by omega)]
  by_cases hdecimal : d < 10
  · have hrange : 48 + d ≤ 57 := by omega
    simp [hdecimal, hrange, hd]
  · have hrange : ¬87 + d ≤ 57 ∧ 97 ≤ 87 + d ∧ 87 + d ≤ 122 := by omega
    simp [hdecimal, hrange, hd]

/-- Digits are no signs. -/
theorem digitChar_ne_sign {d : Nat} (h : d < 36) : digitChar d ≠ '+' ∧ digitChar d ≠ '-' := by
  have hall : ∀ d < 36, digitChar d ≠ '+' ∧ digitChar d ≠ '-' := by decide
  exact hall d h

/-! ## Reading digits -/

section Reading

variable {base bound n : Nat}

/-- A digit is read behind those in front of it. -/
theorem readMagnitude_digitChar {d : Nat} (hbase : base ≤ 36) (hd : d < base) (h : n * base + d ≤ bound)
    (overflow : NumeralFault) (rest : List Char) :
    readMagnitude base bound overflow n (digitChar d :: rest) =
      readMagnitude base bound overflow (n * base + d) rest := by
  rw [readMagnitude, digitValue?_digitChar hd hbase]
  exact if_pos h

/-- Reading the digits of a number gives the number, whatever follows. -/
theorem readMagnitude_digits (hlow : 2 ≤ base) (hhigh : base ≤ 36) (h : n ≤ bound)
    (overflow : NumeralFault) (rest : List Char) :
    readMagnitude base bound overflow 0 (digits base n ++ rest) =
      readMagnitude base bound overflow n rest := by
  fun_induction digits base n generalizing rest with
  | case1 n hsmall =>
    rw [List.singleton_append, readMagnitude_digitChar hhigh (by omega) (by omega), Nat.zero_mul,
      Nat.zero_add]
  | case2 n hlarge ih =>
    have hparts : n / base * base + n % base = n := Nat.div_add_mod' n base
    have hfront : n / base ≤ bound := Nat.le_trans (Nat.div_le_self n base) h
    rw [List.append_assoc, ih hfront, List.singleton_append,
      readMagnitude_digitChar hhigh (Nat.mod_lt n (by omega)) (by omega), hparts]

/-- The digits of a number alone give the number. -/
theorem readMagnitude_all_digits (hlow : 2 ≤ base) (hhigh : base ≤ 36) (h : n ≤ bound)
    (overflow : NumeralFault) : readMagnitude base bound overflow 0 (digits base n) = .ok n := by
  have hread := readMagnitude_digits hlow hhigh h overflow []
  rw [List.append_nil] at hread
  exact hread

/-- Different numbers have different digits. -/
theorem digits_inj {m : Nat} (hlow : 2 ≤ base) (hhigh : base ≤ 36) (h : digits base m = digits base n) :
    m = n := by
  have hm := readMagnitude_all_digits hlow hhigh (Nat.le_max_left m n) .tooLarge
  rw [h, readMagnitude_all_digits hlow hhigh (Nat.le_max_right m n)] at hm
  exact (Except.ok.inj hm).symm

/-- A number is written in digits, none of them a sign. -/
theorem exists_digits_eq_cons (hlow : 2 ≤ base) (hhigh : base ≤ 36) (n : Nat) :
    ∃ c cs, digits base n = c :: cs ∧ c ≠ '+' ∧ c ≠ '-' := by
  obtain ⟨c, cs, hcons⟩ := List.exists_cons_of_ne_nil (digits_ne_nil base n)
  obtain ⟨d, hd, rfl⟩ :=
    exists_digitChar_of_mem_digits hlow (hcons ▸ List.mem_cons_self : c ∈ digits base n)
  exact ⟨_, cs, hcons, digitChar_ne_sign (by omega)⟩

/-- A numeral that begins with no sign is all digits. -/
theorem readNat_cons {c : Char} (h : c ≠ '+') (cs : List Char) :
    readNat base bound (c :: cs) = readMagnitude base bound .tooLarge 0 (c :: cs) := by
  unfold readNat
  split <;> simp_all

/-- A number is read from its digits. -/
theorem readNat_digits (hlow : 2 ≤ base) (hhigh : base ≤ 36) (h : n ≤ bound) :
    readNat base bound (digits base n) = .ok n := by
  obtain ⟨c, cs, hcons, hplus, -⟩ := exists_digits_eq_cons hlow hhigh n
  rw [hcons, readNat_cons hplus, ← hcons, readMagnitude_all_digits hlow hhigh h]

end Reading

/-! ## Decimal numbers -/

/-- Different numbers are written differently. -/
theorem decimal_inj {m n : Nat} (h : decimal m = decimal n) : m = n :=
  digits_inj (by omega) (by omega) (String.ofList_injective h)

/-- A decimal number has no hyphen. -/
theorem noHyphen_decimal (n : Nat) : '-' ∉ (decimal n).toList := by
  rw [decimal, String.toList_ofList]
  intro h
  obtain ⟨d, hd, hc⟩ := exists_digitChar_of_mem_digits (by omega) h
  exact (digitChar_ne_sign (by omega)).2 hc.symm

/-- A decimal number ends in a digit. -/
theorem exists_getLast?_decimal (n : Nat) : ∃ d < 10, (decimal n).toList.getLast? = some (digitChar d) := by
  rw [decimal, String.toList_ofList]
  unfold digits
  split_ifs with h
  · exact ⟨n, by omega, rfl⟩
  · exact ⟨n % 10, Nat.mod_lt n (by omega), List.getLast?_concat⟩

/-- An integer that begins with no sign is all digits. -/
theorem readInt_cons {bound : Nat} {c : Char} (hplus : c ≠ '+') (hminus : c ≠ '-') (cs : List Char) :
    readInt bound (c :: cs) = (readMagnitude 10 bound .tooLarge 0 (c :: cs)).map Int.ofNat := by
  unfold readInt
  split <;> simp_all

/-- The digits of a negative integer stand behind its sign. -/
theorem readInt_minus_cons (bound : Nat) (c : Char) (cs : List Char) :
    readInt bound ('-' :: c :: cs) =
      (readMagnitude 10 (bound + 1) .tooSmall 0 (c :: cs)).map fun n => -Int.ofNat n := by
  unfold readInt
  split <;> simp_all

/-- An integer is read from what it is written in. -/
theorem readInt_decimalInt {bound : Nat} {n : Int} (hlow : -(bound : Int) - 1 ≤ n) (hhigh : n ≤ bound) :
    readInt bound (decimalInt n).toList = .ok n := by
  have hbase : 2 ≤ 10 ∧ 10 ≤ 36 := by decide
  cases n with
  | ofNat m =>
    obtain ⟨c, cs, hcons, hplus, hminus⟩ := exists_digits_eq_cons hbase.1 hbase.2 m
    rw [decimalInt, decimal, String.toList_ofList, hcons, readInt_cons hplus hminus, ← hcons,
      readMagnitude_all_digits hbase.1 hbase.2 (Int.ofNat_le.mp hhigh)]
    rfl
  | negSucc m =>
    have hbound : m + 1 ≤ bound + 1 := by omega
    obtain ⟨c, cs, hcons, -⟩ := exists_digits_eq_cons hbase.1 hbase.2 (m + 1)
    have hchars : (decimalInt (.negSucc m)).toList = '-' :: c :: cs := by
      simp [decimalInt, decimal, hcons]
    rw [hchars, readInt_minus_cons, ← hcons, readMagnitude_all_digits hbase.1 hbase.2 hbound]
    rfl

end CBind
