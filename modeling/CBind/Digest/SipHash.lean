import CBind.Memory.Bytes

/-!
# SipHash-1-3 with zero keys

A keyed 64-bit digest of a byte stream: the stream is read in words of eight bytes, one round of
mixing follows each word, and three rounds follow the last word, which holds the bytes that are left
and the length of the stream modulo 256 in its top byte. Both keys are zero.
-/

namespace CBind.Digest

/-- The four words of the mixing state. -/
structure SipState where
  v0 : UInt64
  v1 : UInt64
  v2 : UInt64
  v3 : UInt64
deriving DecidableEq, Repr

/-- Rotate a word to the left. -/
def rotateLeft (x : UInt64) (n : UInt64) : UInt64 :=
  (x <<< n) ||| (x >>> (64 - n))

namespace SipState

/-- The state before the first word, for zero keys. -/
def start : SipState :=
  ⟨0x736f6d6570736575, 0x646f72616e646f6d, 0x6c7967656e657261, 0x7465646279746573⟩

/-- One round of mixing. -/
def round (s : SipState) : SipState :=
  let v0 := s.v0 + s.v1
  let v1 := rotateLeft s.v1 13 ^^^ v0
  let v0 := rotateLeft v0 32
  let v2 := s.v2 + s.v3
  let v3 := rotateLeft s.v3 16 ^^^ v2
  let v0 := v0 + v3
  let v3 := rotateLeft v3 21 ^^^ v0
  let v2 := v2 + v1
  let v1 := rotateLeft v1 17 ^^^ v2
  let v2 := rotateLeft v2 32
  ⟨v0, v1, v2, v3⟩

/-- Take in one word of the stream. -/
def absorb (s : SipState) (word : UInt64) : SipState :=
  let mixed := { s with v3 := s.v3 ^^^ word }.round
  { mixed with v0 := mixed.v0 ^^^ word }

/-- The digest of the state behind the last word. -/
def finish (s : SipState) : UInt64 :=
  let s := { s with v2 := s.v2 ^^^ 0xff }.round.round.round
  s.v0 ^^^ s.v1 ^^^ s.v2 ^^^ s.v3

end SipState

/-- Take in a stream of which `done` bytes were taken before, and close it with its length. -/
def absorbStream (s : SipState) (done : Nat) : List UInt8 → SipState
  | b0 :: b1 :: b2 :: b3 :: b4 :: b5 :: b6 :: b7 :: rest =>
    absorbStream (s.absorb (UInt64.ofNat (loadWord [b0, b1, b2, b3, b4, b5, b6, b7]))) (done + 8)
      rest
  | tail =>
    let length := (done + tail.length) % 256
    s.absorb (UInt64.ofNat (loadWord tail + length <<< 56))

/-- The digest of a byte stream. -/
def sipHash (stream : List UInt8) : UInt64 :=
  (absorbStream .start 0 stream).finish

end CBind.Digest
