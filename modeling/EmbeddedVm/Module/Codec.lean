import EmbeddedVm.Bytes.Crc32
import EmbeddedVm.Bytes.Cursor
import EmbeddedVm.Module.Basic

/-!
# The file format of modules

A file is a header of sixteen bytes (magic, version, flags, checksum of everything behind it) and a
payload: the name, the pool of strings, the functions, the classes, the imports where the flags say
so, and the entry index. Counts and lengths stand before what they count. `encode` writes, `decode`
reads and refuses what is not such a file.
-/

namespace EmbeddedVm

/-! ## 1. Causes of refusal -/

/-- Why a byte string is no module. `unsupportedFlags` names those that have no meaning; a checksum
    is expected by the header, and the actual one is that of the payload. -/
inductive ModuleError where
  | decode (cause : DecodeError)
  | invalidMagic (found : Bytes)
  | unsupportedVersion (version : UInt32)
  | unsupportedFlags (flags : UInt32)
  | checksumMismatch (expected actual : UInt32)
  | trailingBytes (count : Nat)
deriving DecidableEq, Repr, Inhabited

namespace Module

/-- The first four bytes of every file: the letters `VSLB`. -/
def magic : Bytes := [0x56, 0x53, 0x4C, 0x42]

/-- The version of the format. -/
def version : UInt32 := 1

end Module

/-- The wording of a refusal. -/
def ModuleError.message : ModuleError → String
  | decode cause => "Decode error: " ++ cause.message
  | invalidMagic found =>
    "Invalid magic number: expected VSLB, got [" ++
      ", ".intercalate (found.map fun b => toString b.toNat) ++ "]"
  | unsupportedVersion found => s!"Unsupported version: {found} (current: {Module.version})"
  | unsupportedFlags flags => s!"Unsupported header flags: {hexLiteral 1 flags.toNat}"
  | checksumMismatch expected actual =>
    s!"Checksum mismatch: expected {hexLiteral 1 expected.toNat}, got {hexLiteral 1 actual.toNat}"
  | trailingBytes count => s!"{count} trailing bytes after module payload"

instance : ToString ModuleError := ⟨ModuleError.message⟩

/-! ## 2. Writing -/

/-- The bytes of an initial value: a tag and its content. -/
def Scalar.encode : Scalar → Bytes
  | null => [0]
  | bool b => [1, if b then 1 else 0]
  | int n => 2 :: Bytes.i32 n
  | float x => 3 :: Bytes.u64 x.bits
  | string s => 4 :: Bytes.text s

def Function.encode (f : Function) : Bytes :=
  Bytes.text f.name ++ Bytes.u16 f.paramCount ++ Bytes.u16 f.localCount ++
    Bytes.u32 (.ofNat f.code.length) ++ f.code

def StaticField.encode (f : StaticField) : Bytes := Bytes.text f.name ++ f.initial.encode

def Method.encode (m : Method) : Bytes := Bytes.text m.name ++ Bytes.u32 m.function

def Class.encode (c : Class) : Bytes :=
  Bytes.text c.name ++
    Bytes.u16 (.ofNat c.statics.length) ++ c.statics.flatMap StaticField.encode ++
    Bytes.u16 (.ofNat c.methods.length) ++ c.methods.flatMap Method.encode

namespace Module

/-- A table behind the 32-bit count of its entries. -/
def encodeTable {α : Type} (item : α → Bytes) (xs : List α) : Bytes :=
  Bytes.u32 (.ofNat xs.length) ++ xs.flatMap item

/-- The flags as written: whether there are imports is read off the table, not off the flag. -/
def writtenFlags (m : Module) : UInt32 :=
  if m.natives.isEmpty then m.flags &&& ~~~hasNatives else m.flags ||| hasNatives

/-- The bytes behind the header. -/
def encodePayload (m : Module) : Bytes :=
  Bytes.text m.name ++ encodeTable Bytes.text m.strings ++ encodeTable Function.encode m.functions ++
    encodeTable Class.encode m.classes ++
    (if m.natives.isEmpty then [] else encodeTable Bytes.text m.natives) ++
    Bytes.u32 m.entry

def encode (m : Module) : Bytes :=
  let payload := m.encodePayload
  magic ++ Bytes.u32 version ++ Bytes.u32 m.writtenFlags ++ Bytes.u32 (Crc32.checksum payload) ++
    payload

end Module

/-! ## 3. Reading -/

/-- An initial value. Every byte but zero is a true boolean. -/
def Scalar.decode : Decoder Scalar := do
  let offset ← Decoder.position
  let tag ← Decoder.u8
  match tag.toNat with
  | 0 => pure null
  | 1 => return bool ((← Decoder.u8) != 0)
  | 2 => return int (← Decoder.i32)
  | 3 => return float (← Decoder.f64)
  | 4 => return string (← Decoder.text)
  | _ => throw (.invalidTag "constant" tag offset)

def Function.decode : Decoder Function := do
  let name ← Decoder.text
  let paramCount ← Decoder.u16
  let localCount ← Decoder.u16
  let length ← Decoder.u32
  let code ← Decoder.take length.toNat
  pure { name, paramCount, localCount, code }

def StaticField.decode : Decoder StaticField := do
  let name ← Decoder.text
  let initial ← Scalar.decode
  pure { name, initial }

def Method.decode : Decoder Method := do
  let name ← Decoder.text
  let function ← Decoder.u32
  pure { name, function }

def Class.decode : Decoder Class := do
  let name ← Decoder.text
  let staticCount ← Decoder.u16
  let statics ← Decoder.times StaticField.decode staticCount.toNat
  let methodCount ← Decoder.u16
  let methods ← Decoder.times Method.decode methodCount.toNat
  pure { name, statics, methods }

namespace Module

/-- A table behind the 32-bit count of its entries. -/
def decodeTable {α : Type} (item : Decoder α) : Decoder (List α) := do
  let count ← Decoder.u32
  Decoder.times item count.toNat

/-- The payload of a module whose header has these flags. -/
def decodePayload (flags : UInt32) : Decoder Module := do
  let name ← Decoder.text
  let strings ← decodeTable Decoder.text
  let functions ← decodeTable Function.decode
  let classes ← decodeTable Class.decode
  let natives ← if flags &&& hasNatives != 0 then decodeTable Decoder.text else pure []
  let entry ← Decoder.u32
  pure { flags, name, strings, functions, classes, natives, entry }

/-- One item of a file, with the cursor behind it. -/
def readItem {α : Type} (item : Decoder α) (c : Cursor) : Except ModuleError (α × Cursor) :=
  match item.run c with
  | .ok a c' => .ok (a, c')
  | .error e _ => .error (.decode e)

/-- Reads a module. The header is judged field by field before anything behind it is looked at, and
    the checksum before the payload. -/
def decode (data : Bytes) : Except ModuleError Module := do
  let (found, c) ← readItem (Decoder.take 4) (Cursor.ofBytes data)
  if found ≠ magic then throw (.invalidMagic found)
  let (foundVersion, c) ← readItem Decoder.u32 c
  if foundVersion ≠ version then throw (.unsupportedVersion foundVersion)
  let (flags, c) ← readItem Decoder.u32 c
  if flags &&& ~~~knownFlags ≠ 0 then throw (.unsupportedFlags (flags &&& ~~~knownFlags))
  let (expected, c) ← readItem Decoder.u32 c
  let actual := Crc32.checksum c.rest
  if expected ≠ actual then throw (.checksumMismatch expected actual)
  let (m, c) ← readItem (decodePayload flags) c
  if c.hasMore then throw (.trailingBytes c.remaining)
  pure m

end Module

end EmbeddedVm
