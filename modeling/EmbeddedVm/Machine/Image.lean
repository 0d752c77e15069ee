import EmbeddedVm.Host.Natives
import EmbeddedVm.Machine.Error

/-!
# Linked modules

Linking prepares a module for running: bodies are decoded once, jumps lead to instruction indices
instead of byte offsets, imports are bound to host functions, and the event facilities the code can
use are noted. Of a verified module only a missing import can keep it from linking.
-/

namespace EmbeddedVm

/-- Which event facilities something uses: timers and callbacks of every sweep, and background
    reads. -/
structure Capabilities where
  cooperative : Bool := false
  asyncIo : Bool := false
deriving DecidableEq, Repr, Inhabited

/-- A decoded instruction. The `target` of a jump is the index of the instruction it leads to. -/
structure Step where
  instruction : Instruction
  target : Nat := 0
deriving DecidableEq, Repr, Inhabited

/-- A function ready to run. -/
structure LinkedFunction where
  name : String
  params : Nat
  locals : Nat
  code : Array Step
deriving DecidableEq, Repr, Inhabited

/-- A module ready to run, with its functions and imports at the indices they have in it. -/
structure Image (ν : Type) where
  module : Module
  functions : Array LinkedFunction
  imports : Imports ν
  capabilities : Capabilities
deriving Inhabited

namespace Image

variable {ν : Type}

/-! ## 1. Linking -/

/-- Resolves the destination of an instruction of a body whose instructions start at `starts`. -/
def linkStep (function : String) (starts : List Nat) (offset : Nat) (i : Instruction) :
    Except LinkError Step :=
  match i with
  | .jump _ relative =>
    let target := jumpTarget offset i relative
    if 0 ≤ target then
      match starts.idxOf? target.toNat with
      | some index => .ok ⟨i, index⟩
      | none => .error (.invalidJump function target)
    else .error (.invalidJump function target)
  | _ => .ok ⟨i, 0⟩

/-- Prepares a function. -/
def linkFunction (f : Function) : Except LinkError LinkedFunction := do
  let body ← (Instruction.decodeBody f.code).mapError (.decode f.name)
  let starts := body.map (·.1)
  let steps ← body.mapM fun (offset, i) => linkStep f.name starts offset i
  pure ⟨f.name, f.paramCount.toNat, f.localCount.toNat, steps.toArray⟩

/-- What an instruction uses. -/
def uses : Instruction → Capabilities
  | .callback .asyncRead _ => { asyncIo := true }
  | .callback _ _ => { cooperative := true }
  | .simple .timerCancel => { cooperative := true }
  | _ => {}

/-- What some instruction of the functions uses. -/
def usesOf (functions : List LinkedFunction) : Capabilities where
  cooperative := functions.any fun f => f.code.any fun s => (uses s.instruction).cooperative
  asyncIo := functions.any fun f => f.code.any fun s => (uses s.instruction).asyncIo

/-- **Links a module** against the host's functions. -/
def link (natives : NativeTable ν) (m : Module) : Except LinkError (Image ν) := do
  let imports ← (Imports.resolve natives m.natives).mapError .unresolvedNative
  let functions ← m.functions.mapM linkFunction
  pure ⟨m, functions.toArray, imports, usesOf functions⟩

/-! ## 2. Looking things up -/

def functionIndex? (image : Image ν) (name : String) : Option Nat := image.module.functionIndex? name

/-- Index and definition of a class. -/
def class? (image : Image ν) (name : String) : Option (Nat × Class) :=
  match image.module.classes.findIdx? (·.name == name) with
  | some i => (image.module.classes[i]?).map fun c => (i, c)
  | none => none

/-- The definition of a static field by indices. -/
def static? (image : Image ν) (cls field : Nat) : Option (Class × StaticField) := do
  let c ← image.module.classes[cls]?
  let f ← c.statics[field]?
  some (c, f)

end Image

end EmbeddedVm
