import EmbeddedVm.Module.Pool
import EmbeddedVm.Module.Verify

/-!
# Assembling modules

A `ModuleBuilder` collects the parts of a module. Functions are declared first, so that they can
refer to each other, and their bodies are given later as lists of `BodyOp`s. Jumps name labels; the
operand of a jump is filled in when the whole body is there. Strings and imports are interned in
pools shared by all bodies.
-/

namespace EmbeddedVm

/-! ## 1. Bodies -/

/-- One action in writing a function body. A label is made unbound, and the last of its bindings
    counts. `raw` writes the byte of an operation code without operands, `pushName` pushes the name
    of the function itself. -/
inductive BodyOp where
  | label
  | bind (label : Nat)
  | jump (kind : Jump) (label : Nat)
  | emit (i : Instruction)
  | raw (op : Opcode)
  | pushText (text : String)
  | pushName
  | throwText (text : String)
  | callNative (name : String) (argc : UInt8)
deriving DecidableEq, Repr, Inhabited

/-- Strings and imports, each once. -/
structure Pools where
  strings : Pool := .empty
  natives : Pool := .empty
deriving Inhabited

/-- Interns a string; its number is kept in 32 bits. -/
def Pools.string (p : Pools) (text : String) : Pools × UInt32 :=
  let (strings, i) := p.strings.intern text
  ({ p with strings }, .ofNat i)

/-- Interns an import; its number is kept in 16 bits. -/
def Pools.native (p : Pools) (name : String) : Pools × UInt16 :=
  let (natives, i) := p.natives.intern name
  -- the 65537th import gets the number of the first
  ({ p with natives }, .ofNat i)

/-- A body under construction. The operands of jumps are zero in `code`; `fixups` lists their
    offsets, each with its label, and `labels` where each label is bound. -/
structure Draft where
  code : Bytes := []
  labels : List (Option Nat) := []
  fixups : List (Nat × Nat) := []
deriving DecidableEq, Repr, Inhabited

namespace Draft

/-- Appends bytes. -/
def write (d : Draft) (bytes : Bytes) : Draft := { d with code := d.code ++ bytes }

/-- Carries out one action in the body of a function; `none` for a label that was never made, and
    for a bare operation code that needs operands. -/
def apply (name : String) (p : Pools) (d : Draft) : BodyOp → Option (Pools × Draft)
  | .label => some (p, { d with labels := d.labels ++ [none] })
  | .bind l =>
    if l < d.labels.length then some (p, { d with labels := d.labels.set l (some d.code.length) })
    else none
  | .jump kind l =>
    if l < d.labels.length then
      some (p, { d.write (Instruction.jump kind 0).encode with
        fixups := d.fixups ++ [(d.code.length + 1, l)] })
    else none
  | .emit i => some (p, d.write i.encode)
  | .raw op => if op.operandSize = 0 then some (p, d.write [op.toByte]) else none
  | .pushText text =>
    let (p, i) := p.string text
    some (p, d.write (Instruction.pushString i).encode)
  | .pushName =>
    let (p, i) := p.string name
    some (p, d.write (Instruction.pushString i).encode)
  | .throwText text =>
    let (p, i) := p.string text
    some (p, (d.write (Instruction.pushString i).encode).write (Instruction.simple .throw).encode)
  | .callNative native argc =>
    let (p, i) := p.native native
    some (p, d.write (Instruction.callNative i argc).encode)

/-- Carries out the actions of a body. -/
def applyAll (name : String) (p : Pools) (d : Draft) : List BodyOp → Option (Pools × Draft)
  | [] => some (p, d)
  | op :: rest => do
    let (p, d) ← d.apply name p op
    d.applyAll name p rest

/-- The operand of a jump, from the end of its four bytes to where the label is bound. -/
def distance (operand target : Nat) : Int32 := Int32.ofInt ((target : Int) - (operand + 4))

/-- Fills in the operands of jumps; the second part says whether some label was never bound. -/
def resolve (labels : List (Option Nat)) (code : Bytes) : List (Nat × Nat) → Bytes × Bool
  | [] => (code, false)
  | (operand, l) :: rest =>
    match labels[l]?.join with
    | some target =>
      let patched := Bytes.overwriteWord? code operand (distance operand target).toUInt32
      resolve labels (patched.getD code) rest
    | none => ((resolve labels code rest).1, true)

/-- The finished body, and whether a jump in it has an unbound label. -/
def finish (d : Draft) : Bytes × Bool := resolve d.labels d.code d.fixups

end Draft

/-! ## 2. Modules -/

/-- Why a module cannot be built: a function was declared and never defined, a jump in it refers to
    a label that was never bound, or the result is not well formed. -/
inductive BuildError where
  | undefinedFunction (name : String)
  | unboundLabel (function : String)
  | verify (cause : VerifyError)
deriving DecidableEq, Repr, Inhabited

def BuildError.message : BuildError → String
  | undefinedFunction name => s!"Function '{name}' declared but never defined"
  | unboundLabel function => s!"Unbound label in function '{function}'"
  | verify cause => cause.message

instance : ToString BuildError := ⟨BuildError.message⟩

/-- A module under construction. `functions` are the declared ones, with those that are defined; in
    the definitions of those in `unbound` a label stayed unbound, the first first. -/
structure ModuleBuilder where
  name : String
  pools : Pools := {}
  functions : List (String × Option Function) := []
  classes : List Class := []
  unbound : List String := []
  entry : UInt32 := 0
  flags : UInt32 := 0
deriving Inhabited

/-- A member of a class. -/
inductive Member where
  | static (field : StaticField)
  | method (binding : Method)
deriving DecidableEq, Repr, Inhabited

namespace ModuleBuilder

/-- Declares a function and returns its index; a name that is declared keeps its index. -/
def declare (b : ModuleBuilder) (name : String) : ModuleBuilder × UInt32 :=
  match b.functions.findIdx? (·.1 == name) with
  | some i => (b, .ofNat i)
  | none => ({ b with functions := b.functions ++ [(name, none)] }, .ofNat b.functions.length)

/-- Defines a declared function. Its locals are at least its parameters. `none` if the index is not
    declared or an action of the body cannot be carried out. -/
def define (b : ModuleBuilder) (index : UInt32) (params locals : UInt16) (body : List BodyOp) :
    Option ModuleBuilder := do
  let (name, _) ← b.functions[index.toNat]?
  let (pools, draft) ← Draft.applyAll name b.pools {} body
  let (code, incomplete) := draft.finish
  let f : Function :=
    { name, paramCount := params, localCount := if locals < params then params else locals, code }
  some { b with
    pools
    functions := b.functions.set index.toNat (name, some f)
    -- a later definition under this name does not take it off the list
    unbound := if incomplete then b.unbound ++ [name] else b.unbound }

def addMember (c : Class) : Member → Class
  | .static field => { c with statics := c.statics ++ [field] }
  | .method binding => { c with methods := c.methods ++ [binding] }

/-- Adds members to a class, new or opened again, and returns its index. -/
def cls (b : ModuleBuilder) (name : String) (members : List Member) : ModuleBuilder × UInt32 :=
  match b.classes.findIdx? (·.name == name) with
  | some i => ({ b with classes := b.classes.modify i (members.foldl addMember ·) }, .ofNat i)
  | none =>
    ({ b with classes := b.classes ++ [members.foldl addMember ⟨name, [], []⟩] },
      .ofNat b.classes.length)

/-- Interns a string. -/
def string (b : ModuleBuilder) (text : String) : ModuleBuilder × UInt32 :=
  let (pools, i) := b.pools.string text
  ({ b with pools }, i)

/-- Imports a host function. -/
def native (b : ModuleBuilder) (name : String) : ModuleBuilder × UInt16 :=
  let (pools, i) := b.pools.native name
  ({ b with pools }, i)

/-- The bodies of all declared functions; the error is the first that has none. -/
def definitions : List (String × Option Function) → Except BuildError (List Function)
  | [] => .ok []
  | (_, some f) :: rest => do
    let fs ← definitions rest
    .ok (f :: fs)
  | (name, none) :: _ => .error (.undefinedFunction name)

/-- **Assembles and verifies the module.** -/
def build (b : ModuleBuilder) : Except BuildError Module :=
  match b.unbound with
  | name :: _ => .error (.unboundLabel name)
  | [] => do
    let functions ← definitions b.functions
    let m : Module :=
      { flags := b.flags, name := b.name, strings := b.pools.strings.texts, functions
        classes := b.classes, natives := b.pools.natives.texts, entry := b.entry }
    m.verify.mapError .verify
    pure m

end ModuleBuilder

end EmbeddedVm
