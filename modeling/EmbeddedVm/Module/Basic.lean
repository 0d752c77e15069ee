import EmbeddedVm.Bytes.LittleEndian
import EmbeddedVm.Value.Scalar

/-!
# Modules

A module is what a file of byte code holds: a pool of strings, functions, classes with static
fields and methods, the names of the host functions it imports, and the index of the function to
start with. A value of this type need not be well formed; `Module.verify` says which are.
-/

namespace EmbeddedVm

/-- A function. The parameters are the first locals, and `localCount` includes them. -/
structure Function where
  name : String
  paramCount : UInt16
  localCount : UInt16
  code : Bytes
deriving DecidableEq, Repr, Inhabited

/-- A static field. The kind of its initial value is the declared kind; `null` declares none. -/
structure StaticField where
  name : String
  initial : Scalar
deriving DecidableEq, Repr, Inhabited

/-- A static method, with the index of the function that implements it. -/
structure Method where
  name : String
  function : UInt32
deriving DecidableEq, Repr, Inhabited

structure Class where
  name : String
  statics : List StaticField
  methods : List Method
deriving DecidableEq, Repr, Inhabited

/-- A module. The `flags` are the flag word of the header, `natives` the imported host functions,
    and `entry` is the index of the function to start with. -/
structure Module where
  flags : UInt32
  name : String
  strings : List String
  functions : List Function
  classes : List Class
  natives : List String
  entry : UInt32
deriving DecidableEq, Repr, Inhabited

/-- The declared kind of a static field; a field that starts as null takes any kind. -/
def StaticField.kind? (f : StaticField) : Option Kind :=
  match f.initial.kind with
  | .null => none
  | k => some k

/-- The position of the first static field with a name. -/
def Class.staticIndex? (c : Class) (name : String) : Option Nat :=
  c.statics.findIdx? (·.name == name)

/-- The function of the first method with a name. -/
def Class.method? (c : Class) (name : String) : Option UInt32 :=
  (c.methods.find? (·.name == name)).map (·.function)

namespace Module

/-- A module without content. -/
def empty (name : String) : Module := ⟨0, name, [], [], [], [], 0⟩

/-- The position of the first function with a name. -/
def functionIndex? (m : Module) (name : String) : Option Nat :=
  m.functions.findIdx? (·.name == name)

/-- The first class with a name. -/
def class? (m : Module) (name : String) : Option Class :=
  m.classes.find? (·.name == name)

/-- The function to start with, if its index is in range. -/
def entryFunction? (m : Module) : Option Function :=
  m.functions[m.entry.toNat]?

/-! ## Header flags -/

/-- The module imports host functions. -/
def hasNatives : UInt32 := 1

/-- The module keeps names for debugging. -/
def debugNames : UInt32 := 2

/-- The flags that have a meaning. -/
def knownFlags : UInt32 := hasNatives ||| debugNames

end Module

end EmbeddedVm
