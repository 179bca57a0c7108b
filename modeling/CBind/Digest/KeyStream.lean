import CBind.Digest.SipHash
import CBind.Number.Numeral
import CBind.Text.Utf8

/-!
# Keys of a sequence of parts

A key is the digest of a byte stream that frames each of its parts: a text is its UTF-8 bytes and the
byte `0xff`, which occurs in no UTF-8 text; content is its length in eight little-endian bytes and
then its bytes. A key is written as sixteen hexadecimal digits.
-/

namespace CBind.Digest

/-- A part of a key. -/
inductive KeyPart where
  | text (s : String)
  | content (bytes : List UInt8)
deriving DecidableEq, Repr

/-- The bytes that frame a part in the stream. -/
def KeyPart.frame : KeyPart → List UInt8
  | text s => CBind.Text.utf8 s ++ [0xff]
  | content bytes => storeWord 8 bytes.length ++ bytes

/-- The stream of a sequence of parts. -/
def keyStream (parts : List KeyPart) : List UInt8 :=
  parts.flatMap KeyPart.frame

/-- Write a digest as a key. -/
def keyText (digest : UInt64) : String :=
  String.ofList (padZeros 16 (digits 16 digest.toNat))

/-- The key of a sequence of parts. -/
def keyOf (parts : List KeyPart) : String :=
  keyText (sipHash (keyStream parts))

end CBind.Digest
