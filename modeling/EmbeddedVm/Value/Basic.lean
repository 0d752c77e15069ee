import EmbeddedVm.Value.Scalar

/-!
# Values inside the machine

The machine's values are scalars whose strings are replaced by handles into the heap of strings.
-/

namespace EmbeddedVm

/-- A reference to a string of the heap: the index of its slot. -/
structure Handle where
  index : Nat
deriving DecidableEq, Repr, Inhabited

/-- A value on the stack, in a local or in a static field. -/
inductive Value where
  | null
  | bool (value : Bool)
  | int (value : Int32)
  | float (value : Binary64)
  | string (handle : Handle)
deriving DecidableEq, Repr, Inhabited

namespace Value

def kind : Value → Kind
  | null => .null
  | bool _ => .bool
  | int _ => .int
  | float _ => .float
  | string _ => .string

/-- The reference a value holds, if any. -/
def handle? : Value → Option Handle
  | string h => some h
  | _ => none

/-- A field declared with a kind takes values of that kind and null; one without takes all. -/
def fits (v : Value) : Option Kind → Bool
  | none => true
  | some k => v.kind == k || v.kind == .null

end Value

end EmbeddedVm
