import EmbeddedVm.Bytes.LittleEndian
import EmbeddedVm.Number.Binary64

/-!
# Reading a byte string from the front

A `Cursor` is the rest of a byte string and the number of bytes already read. A `Decoder` is a
computation over a cursor that may fail; the cursor it leaves behind is part of the outcome in
either case, because a failed read of a word consumes nothing while a failed read of a text may
have consumed its length.
-/

namespace EmbeddedVm

/-! ## 1. Causes of failure -/

/-- Why bytes do not decode. The offset is where the item starts that is cut off or wrong. -/
inductive DecodeError where
  | unexpectedEnd (offset : Nat)
  | invalidUtf8 (offset : Nat)
  | invalidOpcode (byte : UInt8) (offset : Nat)
  | invalidTag (what : String) (tag : UInt8) (offset : Nat)
deriving DecidableEq, Repr, Inhabited

def DecodeError.message : DecodeError → String
  | unexpectedEnd offset => s!"Unexpected end of bytecode at offset {offset}"
  | invalidUtf8 offset => s!"Invalid UTF-8 string at offset {offset}"
  | invalidOpcode byte offset =>
    s!"Invalid opcode {hexLiteral 2 byte.toNat} at offset {offset}"
  | invalidTag what tag offset => s!"Invalid {what} tag {tag} at offset {offset}"

instance : ToString DecodeError := ⟨DecodeError.message⟩

/-! ## 2. Cursors -/

/-- A place in a byte string: how many bytes lie before it, and those after it. -/
structure Cursor where
  position : Nat
  rest : Bytes
deriving DecidableEq, Repr, Inhabited

/-- The start of a byte string. -/
def Cursor.ofBytes (bs : Bytes) : Cursor := ⟨0, bs⟩

/-- The number of bytes still to be read. -/
def Cursor.remaining (c : Cursor) : Nat := c.rest.length

/-- Whether any byte is left. -/
def Cursor.hasMore (c : Cursor) : Bool := !c.rest.isEmpty

/-- A read from a cursor: a result or a cause, and the cursor left behind. -/
abbrev Decoder := EStateM DecodeError Cursor

/-! ## 3. Items -/

namespace Decoder

/-- The next `n` bytes. Where fewer are left the cursor stays and the error names its position. -/
def take (n : Nat) : Decoder Bytes := fun c =>
  let chunk := c.rest.take n
  if chunk.length = n then .ok chunk ⟨c.position + n, c.rest.drop n⟩
  else .error (.unexpectedEnd c.position) c

/-- The number of bytes read so far. -/
def position : Decoder Nat := fun c => .ok c.position c

def u8 : Decoder UInt8 := return .ofNat (Bytes.ofLittleEndian (← take 1))

/-- A 16-bit word. -/
def u16 : Decoder UInt16 := return .ofNat (Bytes.ofLittleEndian (← take 2))

/-- A 32-bit word. -/
def u32 : Decoder UInt32 := return .ofNat (Bytes.ofLittleEndian (← take 4))

/-- A signed 32-bit word. -/
def i32 : Decoder Int32 := return (← u32).toInt32

/-- A double, as its bit pattern. -/
def f64 : Decoder Binary64 := return ⟨.ofNat (Bytes.ofLittleEndian (← take 8))⟩

/-- A text behind its byte count. Its bytes are consumed before they are judged. -/
def text : Decoder String := do
  let length ← u32
  let start ← position
  let bytes ← take length.toNat
  match Bytes.toText? bytes with
  | some s => pure s
  | none => throw (.invalidUtf8 start)

/-- `n` items in a row. -/
def times {α : Type} (item : Decoder α) : Nat → Decoder (List α)
  | 0 => pure []
  | n + 1 => do
    let a ← item
    let rest ← times item n
    pure (a :: rest)

end Decoder

end EmbeddedVm
