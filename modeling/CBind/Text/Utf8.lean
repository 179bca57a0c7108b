/-!
# UTF-8

Encoding turns characters into bytes. Decoding works on one sequence at a time: a sequence at the
front of the bytes either is the encoding of a character, or it is broken off at the first byte that
cannot continue it. Strict decoding refuses a text with a broken sequence; lossy decoding puts one
replacement character in its place and goes on behind the part that was read.
-/

namespace CBind.Text

/-- The bytes of one character. -/
def encodeChar (c : Char) : List UInt8 :=
  let n := c.toNat
  let tail (k : Nat) : UInt8 := UInt8.ofNat (0x80 + n >>> (6 * k) % 64)
  if n < 0x80 then [UInt8.ofNat n]
  else if n < 0x800 then [UInt8.ofNat (0xc0 + n >>> 6), tail 0]
  else if n < 0x10000 then [UInt8.ofNat (0xe0 + n >>> 12), tail 1, tail 0]
  else [UInt8.ofNat (0xf0 + n >>> 18), tail 2, tail 1, tail 0]

/-- The bytes of a text. -/
def encodeChars (cs : List Char) : List UInt8 :=
  cs.flatMap encodeChar

/-- The bytes of a string. -/
def utf8 (s : String) : List UInt8 :=
  encodeChars s.toList

/-- What stands at the front of some bytes: a character, or a broken sequence; and the bytes behind
it. -/
inductive Sequence where
  | char (c : Char) (rest : List UInt8)
  | broken (rest : List UInt8)
deriving Repr

/-- The bytes behind a sequence. -/
def Sequence.rest : Sequence → List UInt8
  | char _ rest => rest
  | broken rest => rest

/-- Read continuation bytes: `owed` of them, the first between `low` and `high` and the others
between `0x80` and `0xbf`. -/
def continueSequence (owed low high value : Nat) (bytes : List UInt8) : Sequence :=
  match owed, bytes with
  | 0, rest => .char (Char.ofNat value) rest
  | _ + 1, [] => .broken []
  | owed + 1, b :: rest =>
    if low ≤ b.toNat ∧ b.toNat ≤ high then
      continueSequence owed 0x80 0xbf (value * 64 + (b.toNat - 0x80)) rest
    else .broken (b :: rest)

/-- Read the sequence that starts with a byte. -/
def readSequence (lead : UInt8) (rest : List UInt8) : Sequence :=
  let b := lead.toNat
  if b < 0x80 then .char (Char.ofNat b) rest
  else if 0xc2 ≤ b ∧ b ≤ 0xdf then continueSequence 1 0x80 0xbf (b - 0xc0) rest
  else if b = 0xe0 then continueSequence 2 0xa0 0xbf (b - 0xe0) rest
  else if b = 0xed then continueSequence 2 0x80 0x9f (b - 0xe0) rest
  else if 0xe1 ≤ b ∧ b ≤ 0xef then continueSequence 2 0x80 0xbf (b - 0xe0) rest
  else if b = 0xf0 then continueSequence 3 0x90 0xbf (b - 0xf0) rest
  else if 0xf1 ≤ b ∧ b ≤ 0xf3 then continueSequence 3 0x80 0xbf (b - 0xf0) rest
  else if b = 0xf4 then continueSequence 3 0x80 0x8f (b - 0xf0) rest
  else .broken rest

/-- What is left behind continuation bytes is no longer than what was there. -/
theorem length_rest_continueSequence_le (owed low high value : Nat) (bytes : List UInt8) :
    (continueSequence owed low high value bytes).rest.length ≤ bytes.length := by
  fun_induction continueSequence owed low high value bytes with
  | case1 => exact Nat.le_refl _
  | case2 => exact Nat.le_refl _
  | case3 low high value owed b rest h ih => exact Nat.le_succ_of_le ih
  | case4 => exact Nat.le_refl _

/-- A sequence takes at least its first byte. -/
theorem length_rest_readSequence_lt (lead : UInt8) (rest : List UInt8) :
    (readSequence lead rest).rest.length < (lead :: rest).length := by
  have h := fun o l u v => length_rest_continueSequence_le o l u v rest
  unfold readSequence
  dsimp only
  repeat' split
  all_goals first
    | exact Nat.lt_succ_self _
    | exact Nat.lt_succ_of_le (h _ _ _ _)

/-- Decode bytes that must be well formed, given the characters read so far in reverse. -/
def decodeStrictFrom? (done : List Char) : List UInt8 → Option (List Char)
  | [] => some done.reverse
  | b :: rest =>
    match _h : readSequence b rest with
    | .char c behind => decodeStrictFrom? (c :: done) behind
    | .broken _ => none
termination_by bytes => bytes.length
decreasing_by
  have := length_rest_readSequence_lt b rest
  rw [_h] at this
  exact this

/-- Decode bytes that must be well formed. -/
def decodeStrict? (bytes : List UInt8) : Option (List Char) :=
  decodeStrictFrom? [] bytes

/-- The character that stands for a broken sequence. -/
def replacementChar : Char := Char.ofNat 0xfffd

/-- Decode bytes, putting the replacement character in place of each broken sequence, given the
characters read so far in reverse. -/
def decodeLossyFrom (done : List Char) : List UInt8 → List Char
  | [] => done.reverse
  | b :: rest =>
    match _h : readSequence b rest with
    | .char c behind => decodeLossyFrom (c :: done) behind
    | .broken behind => decodeLossyFrom (replacementChar :: done) behind
termination_by bytes => bytes.length
decreasing_by
  all_goals
    have := length_rest_readSequence_lt b rest
    rw [_h] at this
    exact this

/-- Decode bytes, putting the replacement character in place of each broken sequence. -/
def decodeLossy (bytes : List UInt8) : List Char :=
  decodeLossyFrom [] bytes

/-- Decode well-formed bytes to a string. -/
def textOfUtf8? (bytes : List UInt8) : Option String :=
  (decodeStrict? bytes).map String.ofList

/-- Decode bytes to a string, replacing broken sequences. -/
def textOfUtf8Lossy (bytes : List UInt8) : String :=
  String.ofList (decodeLossy bytes)

end CBind.Text
