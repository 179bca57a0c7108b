/-!
# Powers of two and ten

The powers that floats, words and decimal places are made of.
-/

namespace CBind

/-- A power of two. -/
@[inline]
def twoTo (n : Nat) : Nat :=
  1 <<< n

/-- A power of ten. -/
@[inline]
def tenTo (n : Nat) : Nat :=
  Nat.pow 10 n

@[simp]
theorem twoTo_zero : twoTo 0 = 1 := rfl

/-- Exponents add up in a product of powers of two. -/
theorem twoTo_add (m n : Nat) : twoTo (m + n) = twoTo m * twoTo n := by
  simp only [twoTo, Nat.shiftLeft_eq, Nat.one_mul, Nat.pow_add]

end CBind
