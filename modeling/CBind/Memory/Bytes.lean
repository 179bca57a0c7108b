import CBind.Number.Power

/-!
# Little-endian words

A word of a given size is stored with its least significant byte first. Storing keeps the word modulo
the number of patterns of its size, and loading any bytes gives a word of their number.
-/

namespace CBind

/-- The bytes of a word of `size` bytes, least significant first. -/
def storeWord : Nat → Nat → List UInt8
  | 0, _ => []
  | size + 1, word => UInt8.ofNat (word % 256) :: storeWord size (word / 256)

/-- The word that bytes spell, least significant first. -/
def loadWord : List UInt8 → Nat
  | [] => 0
  | b :: rest => b.toNat + 256 * loadWord rest

/-- A stored word has its size. -/
@[simp]
theorem length_storeWord (size word : Nat) : (storeWord size word).length = size := by
  induction size generalizing word with
  | zero => rfl
  | succ n ih => simp [storeWord, ih]

/-- Loading a stored word gives the word back, up to its size. -/
theorem loadWord_storeWord (size word : Nat) :
    loadWord (storeWord size word) = word % twoTo (8 * size) := by
  induction size generalizing word with
  | zero => simp [storeWord, loadWord, Nat.mod_one]
  | succ n ih =>
    have h : word % 256 % 256 = word % 256 := Nat.mod_mod_of_dvd _ (Nat.dvd_refl _)
    simp only [storeWord, loadWord, ih, UInt8.toNat_ofNat', Nat.reducePow, h]
    rw [Nat.mul_succ, Nat.add_comm (8 * n) 8, twoTo_add, show twoTo 8 = 256 from rfl,
      Nat.mod_mul, Nat.add_comm]

end CBind
