/-!
# Byte strings and their little-endian words

Every multi-byte number of a module file is stored least significant byte first. This module holds
the two directions, `littleEndian` and `ofLittleEndian`, on natural numbers; the fixed widths are
cut out of them. `overwriteWord?` replaces four bytes of a string that is already written.
-/

namespace EmbeddedVm

/-- A byte string. -/
abbrev Bytes := List UInt8

namespace Bytes

/-! ## 1. Words -/

/-- The `width` low bytes of `n`, least significant first. -/
def littleEndian : (width : Nat) → (n : Nat) → Bytes
  | 0, _ => []
  | width + 1, n => UInt8.ofNat n :: littleEndian width (n / 256)

/-- The number whose bytes, least significant first, are given. -/
def ofLittleEndian : Bytes → Nat
  | [] => 0
  | b :: bs => b.toNat + 256 * ofLittleEndian bs

@[simp] theorem length_littleEndian (width n : Nat) : (littleEndian width n).length = width := by
  induction width generalizing n with
  | zero => rfl
  | succ width ih => simp [littleEndian, ih]

def u8 (v : UInt8) : Bytes := [v]

/-- A 16-bit word. -/
def u16 (v : UInt16) : Bytes := littleEndian 2 v.toNat

/-- A 32-bit word. -/
def u32 (v : UInt32) : Bytes := littleEndian 4 v.toNat

/-- A signed 32-bit word, in two's complement. -/
def i32 (v : Int32) : Bytes := u32 v.toUInt32

/-- A 64-bit word. -/
def u64 (v : UInt64) : Bytes := littleEndian 8 v.toNat

/-! ## 2. Text -/

/-- The UTF-8 bytes of a text. -/
def ofText (s : String) : Bytes := s.toUTF8.data.toList

/-- The text a byte string encodes in UTF-8, if it does. -/
def toText? (bs : Bytes) : Option String := String.fromUTF8? ⟨bs.toArray⟩

/-- A text behind the 32-bit count of its bytes; a count above `2 ^ 32 - 1` loses its high bits. -/
def text (s : String) : Bytes := u32 (.ofNat s.utf8ByteSize) ++ ofText s

/-! ## 3. Overwriting -/

/-- Replaces the four bytes at `offset` by a 32-bit word; `none` where fewer than four stand
    there. -/
def overwriteWord? (bs : Bytes) (offset : Nat) (word : UInt32) : Option Bytes :=
  if offset + 4 ≤ bs.length then
    some (bs.take offset ++ u32 word ++ bs.drop (offset + 4))
  else
    none

/-! ## 4. Hexadecimal -/

/-- The hexadecimal digit of a number below sixteen, in lower case. -/
def hexDigit (n : Nat) : Char :=
  if n < 10 then Char.ofNat (48 + n) else Char.ofNat (87 + n)

/-- Two lower-case hexadecimal digits per byte. -/
def toHex (bs : Bytes) : String :=
  String.ofList (bs.flatMap fun b => [hexDigit (b.toNat / 16), hexDigit (b.toNat % 16)])

/-- The value of a hexadecimal digit of either case. -/
def hexValue? (c : Char) : Option Nat :=
  if '0' ≤ c ∧ c ≤ '9' then some (c.toNat - 48)
  else if 'a' ≤ c ∧ c ≤ 'f' then some (c.toNat - 87)
  else if 'A' ≤ c ∧ c ≤ 'F' then some (c.toNat - 55)
  else none

/-- Reads pairs of hexadecimal digits. -/
def ofHexDigits? : List Char → Option Bytes
  | [] => some []
  | [_] => none
  | hi :: lo :: rest => do
    let h ← hexValue? hi
    let l ← hexValue? lo
    let bs ← ofHexDigits? rest
    some (UInt8.ofNat (16 * h + l) :: bs)

/-- Reads a hexadecimal text. -/
def ofHex? (s : String) : Option Bytes := ofHexDigits? s.toList

end Bytes

/-- The hexadecimal digits of a number, in lower case and without leading zeros. -/
def hexDigits (n : Nat) : List Char := Nat.toDigits 16 n

/-- A number in hexadecimal behind `0x`, with leading zeros up to `width` digits. -/
def hexLiteral (width : Nat) (n : Nat) : String :=
  let digits := hexDigits n
  String.ofList ('0' :: 'x' :: (List.replicate (width - digits.length) '0' ++ digits))

end EmbeddedVm
