import EmbeddedVm.Bytes.LittleEndian

/-!
# Text across the C interface

C passes a text by a pointer to bytes that end before the first zero byte. Such bytes need not be
UTF-8, and the pointer may be NULL. The other way, a text with a zero byte in it cannot be passed.
-/

namespace EmbeddedVm

/-- A text from C: the bytes before its terminator. `none` is NULL. -/
abbrev CText := Option Bytes

/-- The text that begins a piece of memory. -/
def CText.ofMemory (memory : Bytes) : CText := some (memory.takeWhile (· != 0))

/-- A text as C can have it, if it can. -/
def exportable? (s : String) : Option String := if s.contains '\x00' then none else some s

/-- A text as C can have it; empty where it cannot. -/
def exported (s : String) : String := (exportable? s).getD ""

namespace Bytes

/-! ## Reading bytes that may not be UTF-8 -/

/-- The bounds of the bytes that may follow a first byte in UTF-8; `none` where none can. -/
def followers? (first : UInt8) : Option (List (UInt8 × UInt8)) :=
  let any : UInt8 × UInt8 := (0x80, 0xBF)
  if first < 0x80 then some []
  else if first < 0xC2 then none
  else if first < 0xE0 then some [any]
  else if first = 0xE0 then some [(0xA0, 0xBF), any]
  else if first = 0xED then some [(0x80, 0x9F), any]
  else if first < 0xF0 then some [any, any]
  else if first = 0xF0 then some [(0x90, 0xBF), any, any]
  else if first < 0xF4 then some [any, any, any]
  else if first = 0xF4 then some [(0x80, 0x8F), any, any]
  else none

/-- How many bytes lie within the bounds, one after the other. -/
def within : List (UInt8 × UInt8) → Bytes → Nat
  | (low, high) :: bounds, b :: bs => if low ≤ b ∧ b ≤ high then within bounds bs + 1 else 0
  | _, _ => 0

/-- Reads one character, or the longest beginning of one as the replacement character, per unit of
    fuel. -/
def decodeLossy : (fuel : Nat) → Bytes → String
  | 0, _ | _, [] => ""
  | fuel + 1, b :: bs =>
    match followers? b with
    | none => "\uFFFD" ++ decodeLossy fuel bs
    | some bounds =>
      let n := within bounds bs
      let here := if n = bounds.length then toText? (b :: bs.take n) else none
      here.getD "\uFFFD" ++ decodeLossy fuel (bs.drop n)

/-- The text of a byte string, with replacement characters for what is not UTF-8. -/
def toTextLossy (bs : Bytes) : String := decodeLossy bs.length bs

end Bytes

end EmbeddedVm
