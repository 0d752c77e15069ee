import EmbeddedVm.Code.Instruction
import EmbeddedVm.Module.Basic

/-!
# Well-formed modules

`Module.verify` accepts a module whose names are unique, whose operands all refer to something that
exists, whose jumps all land on instructions, and none of whose functions can run past the end of
its body. It stops at the first fault, and the order of the checks is fixed: all function
signatures, all classes, the entry point, then the bodies one by one.
-/

namespace EmbeddedVm

/-! ## 1. Faults -/

/-- What an operand refers to. -/
inductive Reference where
  | string
  | local
  | cls
  | static
  | function
  | native
deriving DecidableEq, Repr, Inhabited

def Reference.name : Reference → String
  | string => "string"
  | .local => "local"
  | cls => "class"
  | static => "static"
  | function => "function"
  | native => "native"

/-- What must be defined only once. -/
inductive Definition where
  | function
  | cls
  | staticField
  | method
deriving DecidableEq, Repr, Inhabited

def Definition.name : Definition → String
  | function => "function"
  | cls => "class"
  | staticField => "static field"
  | method => "method"

/-- Why a module is not well formed. A jump lands where no instruction starts, an operand refers to
    nothing, and a callback takes another number of parameters than the instruction hands over. A
    body falls off its end where its last instruction lets control continue, or there is none. The
    entry function does not exist or takes parameters. -/
inductive VerifyError where
  | decode (function : String) (cause : DecodeError)
  | invalidJumpTarget (function : String) (target : Int) (offset : Nat)
  | invalidReference (function : String) (what : Reference) (index : Nat) (offset : Nat)
  | callbackArity (function callback : String) (expected : Nat)
  | fallOffEnd (function : String)
  | localsBelowParams (function : String)
  | duplicate (what : Definition) (name : String)
  | invalidMethod (cls method : String) (function : UInt32)
  | invalidEntryPoint (index : UInt32)
deriving DecidableEq, Repr, Inhabited

/-- The wording of a fault. -/
def VerifyError.message : VerifyError → String
  | decode function cause => s!"In function '{function}': " ++ cause.message
  | invalidJumpTarget function target offset =>
    s!"In function '{function}': invalid jump target {target} at offset {offset}"
  | invalidReference function what index offset =>
    s!"In function '{function}': invalid {what.name} reference {index} at offset {offset}"
  | callbackArity function callback expected =>
    s!"In function '{function}': callback '{callback}' must take {expected} parameter(s)"
  | fallOffEnd function => s!"Execution falls off end of function '{function}'"
  | localsBelowParams function => s!"Function '{function}' declares fewer locals than parameters"
  | duplicate what name => s!"Duplicate {what.name} '{name}'"
  | invalidMethod cls method function =>
    s!"Method '{cls}.{method}' refers to missing function {function}"
  | invalidEntryPoint index => s!"Invalid entry point {index}"

instance : ToString VerifyError := ⟨VerifyError.message⟩

/-- The number of parameters an intrinsic's callback must take: a finished read hands over the
    contents, the others hand over nothing. -/
def Callback.arity : Callback → UInt16
  | asyncRead => 1
  | _ => 0

/-- The offset a jump leads to, counted without wrapping. -/
def jumpTarget (offset : Nat) (i : Instruction) (relative : Int32) : Int :=
  (offset + i.size : Nat) + relative.toInt

namespace Module

/-! ## 2. Names and signatures -/

/-- The functions after those named in `seen`: names are new, and parameters are locals. -/
def checkFunctions : (seen : List String) → List Function → Except VerifyError Unit
  | _, [] => .ok ()
  | seen, f :: rest =>
    if f.name ∈ seen then .error (.duplicate .function f.name)
    else if f.localCount < f.paramCount then .error (.localsBelowParams f.name)
    else checkFunctions (f.name :: seen) rest

/-- The static fields of a class after those named in `seen`: names are new. -/
def checkStatics (cls : String) : (seen : List String) → List StaticField → Except VerifyError Unit
  | _, [] => .ok ()
  | seen, f :: rest =>
    if f.name ∈ seen then .error (.duplicate .staticField (cls ++ "." ++ f.name))
    else checkStatics cls (f.name :: seen) rest

/-- The methods of a class after those named in `seen`: names are new, and each has its function. -/
def checkMethods (functions : Nat) (cls : String) :
    (seen : List String) → List Method → Except VerifyError Unit
  | _, [] => .ok ()
  | seen, m :: rest =>
    if m.name ∈ seen then .error (.duplicate .method (cls ++ "." ++ m.name))
    else if functions ≤ m.function.toNat then .error (.invalidMethod cls m.name m.function)
    else checkMethods functions cls (m.name :: seen) rest

/-- The classes after those named in `seen`. -/
def checkClasses (functions : Nat) : (seen : List String) → List Class → Except VerifyError Unit
  | _, [] => .ok ()
  | seen, c :: rest =>
    if c.name ∈ seen then .error (.duplicate .cls c.name)
    else do
      checkStatics c.name [] c.statics
      checkMethods functions c.name [] c.methods
      checkClasses functions (c.name :: seen) rest

/-- The entry function exists and takes no parameters. -/
def checkEntry (m : Module) : Except VerifyError Unit :=
  match m.entryFunction? with
  | some f => if f.paramCount = 0 then .ok () else .error (.invalidEntryPoint m.entry)
  | none => .error (.invalidEntryPoint m.entry)

/-! ## 3. Bodies -/

/-- One instruction of a body whose instructions start at `starts`. -/
def checkInstruction (m : Module) (f : Function) (starts : List Nat) (offset : Nat) :
    Instruction → Except VerifyError Unit
  | .pushString index =>
    if index.toNat < m.strings.length then .ok ()
    else .error (.invalidReference f.name .string index.toNat offset)
  | .loadLocal slot | .storeLocal slot =>
    if slot < f.localCount then .ok ()
    else .error (.invalidReference f.name .local slot.toNat offset)
  | .loadStatic cls field | .storeStatic cls field =>
    match m.classes[cls.toNat]? with
    | none => .error (.invalidReference f.name .cls cls.toNat offset)
    | some c =>
      if field.toNat < c.statics.length then .ok ()
      else .error (.invalidReference f.name .static field.toNat offset)
  | .jump kind relative =>
    let target := jumpTarget offset (.jump kind relative) relative
    if 0 ≤ target ∧ target.toNat ∈ starts then .ok ()
    else .error (.invalidJumpTarget f.name target offset)
  | .call function =>
    if function.toNat < m.functions.length then .ok ()
    else .error (.invalidReference f.name .function function.toNat offset)
  | .callNative native _ =>
    if native.toNat < m.natives.length then .ok ()
    else .error (.invalidReference f.name .native native.toNat offset)
  | .callback kind function =>
    match m.functions[function.toNat]? with
    | none => .error (.invalidReference f.name .function function.toNat offset)
    | some callee =>
      if callee.paramCount = kind.arity then .ok ()
      else .error (.callbackArity f.name callee.name kind.arity.toNat)
  | .simple _ | .pushInt _ | .pushFloat _ => .ok ()

/-- The body ends with an instruction behind which control does not continue. -/
def endsWell (body : List (Nat × Instruction)) : Bool :=
  match body.getLast? with
  | some (_, i) => i.opcode.isTerminator
  | none => false

/-- The body of a function: it decodes, each instruction is sound, and the last one ends it. -/
def checkBody (m : Module) (f : Function) : Except VerifyError Unit := do
  let body ← (Instruction.decodeBody f.code).mapError (.decode f.name)
  let starts := body.map (·.1)
  body.forM fun (offset, i) => m.checkInstruction f starts offset i
  if endsWell body then .ok () else .error (.fallOffEnd f.name)

/-- **The checks on a module**, the first fault found. -/
def verify (m : Module) : Except VerifyError Unit := do
  checkFunctions [] m.functions
  checkClasses m.functions.length [] m.classes
  m.checkEntry
  m.functions.forM m.checkBody

end Module

end EmbeddedVm
