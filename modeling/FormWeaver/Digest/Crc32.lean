/-!
# CRC-32

The checksum of archives: the remainder of the message's bits, lowest bit first, by the polynomial
`0xEDB88320`, from all ones and complemented at the end.
-/

namespace FormWeaver.Digest.Crc32

/-- Shifts bits out of the remainder. -/
def shift : Nat → UInt32 → UInt32
  | 0, r => r
  | n + 1, r => shift n (if r &&& 1 = 1 then (r >>> 1) ^^^ 0xEDB88320 else r >>> 1)

/-- Takes one byte into the remainder. -/
def step (r : UInt32) (b : UInt8) : UInt32 := shift 8 (r ^^^ b.toUInt32)

/-- The checksum of the bytes. -/
def checksum (bytes : List UInt8) : UInt32 := ~~~(bytes.foldl step 0xFFFFFFFF)

end FormWeaver.Digest.Crc32
