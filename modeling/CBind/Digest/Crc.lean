/-!
# CRC-32, bit by bit

The remainder register is shifted right by one bit for each bit of the data, least significant bit of
each byte first, and the reflected polynomial is added whenever a one leaves the register. The
register starts with all bits set and is complemented at the end.
-/

namespace CBind.Digest

/-- The polynomial of IEEE 802.3, coefficients reversed. -/
def crcPolynomial : UInt32 := 0xedb88320

/-- Shift one bit out of the register. -/
def crcBit (crc : UInt32) : UInt32 :=
  (crc >>> 1) ^^^ (crcPolynomial &&& (0 - (crc &&& 1)))

/-- Shift a number of bits out of the register. -/
def crcBits : Nat → UInt32 → UInt32
  | 0, crc => crc
  | n + 1, crc => crcBits n (crcBit crc)

/-- Take one byte into the register. -/
def crcByte (crc : UInt32) (byte : UInt8) : UInt32 :=
  crcBits 8 (crc ^^^ byte.toUInt32)

/-- The CRC-32 of a byte string. -/
def crc32 (bytes : List UInt8) : UInt32 :=
  ~~~ bytes.foldl crcByte 0xffffffff

end CBind.Digest
