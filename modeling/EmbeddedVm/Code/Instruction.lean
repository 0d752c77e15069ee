import EmbeddedVm.Bytes.Cursor
import EmbeddedVm.Code.Opcode

/-!
# Instructions

An instruction is an operation code with its operands. Its encoding is the byte of the code and then
the operands, least significant byte first; a function body is the concatenation of its
instructions. `decodeBody` recovers the list together with the offset of each instruction.
-/

namespace EmbeddedVm

/-- An instruction. `pushString` takes a string of the module's pool, the offset of a jump counts
    from the next instruction, `callNative` calls an import of the host with the topmost `argc`
    values, and `callback` hands a function to the scheduler or to the reader of files. -/
inductive Instruction where
  | simple (op : SimpleOp)
  | pushInt (value : Int32)
  | pushFloat (value : Binary64)
  | pushString (index : UInt32)
  | loadLocal (slot : UInt16)
  | storeLocal (slot : UInt16)
  | loadStatic (cls : UInt32) (field : UInt16)
  | storeStatic (cls : UInt32) (field : UInt16)
  | jump (kind : Jump) (offset : Int32)
  | call (function : UInt32)
  | callNative (native : UInt16) (argc : UInt8)
  | callback (kind : Callback) (function : UInt32)
deriving DecidableEq, Repr, Inhabited

namespace Instruction

/-- The operation code of an instruction. -/
def opcode : Instruction → Opcode
  | simple op => .simple op
  | pushInt _ => .pushInt
  | pushFloat _ => .pushFloat
  | pushString _ => .pushString
  | loadLocal _ => .loadLocal
  | storeLocal _ => .storeLocal
  | loadStatic _ _ => .loadStatic
  | storeStatic _ _ => .storeStatic
  | jump kind _ => .jump kind
  | call _ => .call
  | callNative _ _ => .callNative
  | callback kind _ => .callback kind

/-- The number of bytes an instruction takes. -/
def size (i : Instruction) : Nat := 1 + i.opcode.operandSize

/-! ## 1. Encoding -/

def operands : Instruction → Bytes
  | simple _ => []
  | pushInt value => Bytes.i32 value
  | pushFloat value => Bytes.u64 value.bits
  | pushString index => Bytes.u32 index
  | loadLocal slot => Bytes.u16 slot
  | storeLocal slot => Bytes.u16 slot
  | loadStatic cls field => Bytes.u32 cls ++ Bytes.u16 field
  | storeStatic cls field => Bytes.u32 cls ++ Bytes.u16 field
  | jump _ offset => Bytes.i32 offset
  | call function => Bytes.u32 function
  | callNative native argc => Bytes.u16 native ++ Bytes.u8 argc
  | callback _ function => Bytes.u32 function

def encode (i : Instruction) : Bytes := i.opcode.toByte :: i.operands

/-- The bytes of a function body. -/
def encodeBody (body : List Instruction) : Bytes := body.flatMap encode

/-- An encoding is never empty and as long as `size` says. -/
theorem length_encode (i : Instruction) : i.encode.length = i.size := by
  cases i <;>
    simp [encode, operands, size, opcode, Opcode.operandSize, Bytes.u8, Bytes.u16, Bytes.u32,
      Bytes.i32, Bytes.u64]

/-! ## 2. Decoding -/

/-- The operands that follow an operation code. -/
def decodeOperands : Opcode → Decoder Instruction
  | .simple op => pure (simple op)
  | .pushInt => return pushInt (← Decoder.i32)
  | .pushFloat => return pushFloat (← Decoder.f64)
  | .pushString => return pushString (← Decoder.u32)
  | .loadLocal => return loadLocal (← Decoder.u16)
  | .storeLocal => return storeLocal (← Decoder.u16)
  | .loadStatic => return loadStatic (← Decoder.u32) (← Decoder.u16)
  | .storeStatic => return storeStatic (← Decoder.u32) (← Decoder.u16)
  | .jump kind => return jump kind (← Decoder.i32)
  | .call => return call (← Decoder.u32)
  | .callNative => return callNative (← Decoder.u16) (← Decoder.u8)
  | .callback kind => return callback kind (← Decoder.u32)

/-- One instruction. An unknown code is reported at its own offset. -/
def decode : Decoder Instruction := do
  let offset ← Decoder.position
  let byte ← Decoder.u8
  match Opcode.ofByte? byte with
  | some op => decodeOperands op
  | none => throw (.invalidOpcode byte offset)

/-- Instructions until the cursor is at its end, each with its offset; the fuel is the number of
    bytes, and every instruction takes at least one. -/
def decodeAll : (fuel : Nat) → Cursor → Except DecodeError (List (Nat × Instruction))
  | 0, _ => .ok []
  | fuel + 1, c =>
    if c.hasMore then
      match decode.run c with
      | .ok i c' => do
        let rest ← decodeAll fuel c'
        .ok ((c.position, i) :: rest)
      | .error e _ => .error e
    else
      .ok []

/-- The instructions of a function body, each with the offset of its first byte. -/
def decodeBody (code : Bytes) : Except DecodeError (List (Nat × Instruction)) :=
  decodeAll code.length (Cursor.ofBytes code)

end Instruction

end EmbeddedVm
