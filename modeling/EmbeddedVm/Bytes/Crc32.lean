import EmbeddedVm.Bytes.LittleEndian

/-!
# The checksum of a module's payload

CRC-32 with the reflected polynomial `0xEDB88320`, all-ones start value and complemented result:
the register is shifted right once per bit, and the polynomial is added where a one falls out.
-/

namespace EmbeddedVm.Crc32

/-- The reflected generator polynomial. -/
def polynomial : UInt32 := 0xEDB88320

/-- One bit: shift right, and add the polynomial if the bit shifted out was set. -/
def shift (register : UInt32) : UInt32 :=
  if register &&& 1 = 1 then (register >>> 1) ^^^ polynomial else register >>> 1

/-- `n` bits. -/
def shifts : Nat → UInt32 → UInt32
  | 0, register => register
  | n + 1, register => shifts n (shift register)

/-- One byte: add it to the low bits and shift eight times. -/
def absorb (register : UInt32) (b : UInt8) : UInt32 :=
  shifts 8 (register ^^^ b.toUInt32)

/-- The checksum of a byte string. -/
def checksum (bs : Bytes) : UInt32 :=
  ~~~ (bs.foldl absorb 0xFFFFFFFF)

end EmbeddedVm.Crc32
