import EmbeddedVm.Cli.Report
import EmbeddedVm.Cli.Usage
import EmbeddedVm.Number.Positional
import EmbeddedVm.Text.Quoted

/-!
# Listings of modules

`inspect` shows what is in a module file: its name and size, its functions, with their instructions
on demand, its classes and the host functions it needs. Operands are shown by the names they stand
for.
-/

namespace EmbeddedVm.Cli

/-! ## 1. Parts -/

/-- A number on the right of a column of a width. -/
def column (width : Nat) (fill : Char) (n : Nat) : String :=
  let digits := toString n
  String.ofList (List.replicate (width - digits.length) fill) ++ digits

/-- An integer with its sign. -/
def signed (n : Int) : String := if n < 0 then toString n else "+" ++ toString n

/-- The flags in hexadecimal, with the names of those that have one. -/
def describeFlags (flags : UInt32) : String :=
  let names :=
    (if flags &&& Module.hasNatives != 0 then ["natives"] else []) ++
    (if flags &&& Module.debugNames != 0 then ["debug-names"] else [])
  hexLiteral 1 flags.toNat ++
    if names.isEmpty then "" else " (" ++ ", ".intercalate names ++ ")"

def describeInitial : Scalar → String
  | .int n => toString n.toInt ++ " (int)"
  | .float x => x.display ++ " (float)"
  | .string s => Text.quoted s
  | v => v.display

/-- The name of a function, or a question mark. -/
def functionName (m : Module) (index : Nat) : String :=
  ((m.functions[index]?).map (·.name)).getD "?"

/-- The name of a static field behind that of its class, or a question mark. -/
def fieldName (m : Module) (cls field : Nat) : String :=
  (do
    let c ← m.classes[cls]?
    let f ← c.statics[field]?
    return c.name ++ "." ++ f.name : Option String).getD "?"

def describeOperands (m : Module) : Instruction → Option String
  | .simple _ => none
  | .pushInt n => some (toString n.toInt)
  | .pushFloat x => some x.display
  | .pushString i => some <| match m.strings[i.toNat]? with
    | some s => Text.quoted s
    | none => "#" ++ toString i.toNat
  | .loadLocal slot | .storeLocal slot => some (toString slot.toNat)
  | .loadStatic cls field | .storeStatic cls field => some (fieldName m cls.toNat field.toNat)
  | .jump _ distance => some (signed distance.toInt)
  | .call function | .callback _ function => some (functionName m function.toNat)
  | .callNative native argc =>
    some ((m.natives[native.toNat]?).getD "?" ++ "/" ++ toString argc.toNat)

/-- An instruction behind its place in the body. -/
def instructionLine (m : Module) (offset : Nat) (i : Instruction) : String :=
  "         " ++ column 4 '0' offset ++ "  " ++ i.opcode.name ++
    match describeOperands m i with
    | some operands => " " ++ operands
    | none => ""

/-! ## 2. The listing -/

def functionLines (m : Module) (code : Bool) (index : Nat) (f : Function) : List String :=
  ("  " ++ column 3 ' ' index ++ "  " ++ f.name ++ "  params=" ++ toString f.paramCount.toNat ++
    " locals=" ++ toString f.localCount.toNat ++ " code=" ++ toString f.code.length ++ "B") ::
  if code then
    match Instruction.decodeBody f.code with
    | .ok body => body.map fun (offset, i) => instructionLine m offset i
    | .error _ => []
  else []

def classLines (m : Module) (c : Class) : List String :=
  ("  " ++ c.name) ::
  (c.statics.map fun f => "    static " ++ f.name ++ " = " ++ describeInitial f.initial) ++
  c.methods.map fun f => "    method " ++ f.name ++ " -> " ++ functionName m f.function.toNat

/-- All lines about a module whose file has so many bytes. -/
def listing (m : Module) (size : Nat) (code : Bool) : List String :=
  ["Module:    " ++ m.name,
   "Size:      " ++ toString size ++ " bytes",
   "Flags:     " ++ describeFlags m.flags,
   "Entry:     " ++ (m.entryFunction?.map (·.name)).getD "?",
   "",
   "Functions (" ++ toString m.functions.length ++ "):"] ++
  (m.functions.zipIdx.flatMap fun (f, index) => functionLines m code index f) ++
  ["", "Classes (" ++ toString m.classes.length ++ "):"] ++
  m.classes.flatMap (classLines m) ++
  if m.natives.isEmpty then []
  else ["", "Natives (" ++ toString m.natives.length ++ "):"] ++ m.natives.map ("  " ++ ·)

/-- **The command `inspect`.** -/
def inspect (files : Files) (file : String) (code : Bool) : Except Failure String := do
  let bytes ← (files.read file).mapError fun e =>
    .error ("failed to read '" ++ file ++ "'") [e.message]
  let m ← (Module.load bytes).mapError fun e =>
    .error ("'" ++ file ++ "' is not valid Vessel bytecode") (loadChain e)
  return unlines (listing m bytes.length code)

end EmbeddedVm.Cli
