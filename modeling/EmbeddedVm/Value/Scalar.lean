import EmbeddedVm.Number.Binary64

/-!
# Scalars

The values that cross a border: initial values of static fields in a module file, arguments and
results of calls by the host, and what a host reads from a static field. Inside the machine a
string is a handle into the heap; here it is its text.
-/

namespace EmbeddedVm

/-- The kinds of values. -/
inductive Kind where
  | null
  | bool
  | int
  | float
  | string
deriving DecidableEq, Repr, Inhabited

def Kind.name : Kind → String
  | null => "null"
  | bool => "bool"
  | int => "int"
  | float => "float"
  | string => "string"

/-- Every kind, in the order in which they are numbered. -/
def Kind.all : List Kind := [null, bool, int, float, string]

def Kind.number : Kind → Nat
  | null => 0
  | bool => 1
  | int => 2
  | float => 3
  | string => 4

/-- A value that holds no reference into the machine. -/
inductive Scalar where
  | null
  | bool (value : Bool)
  | int (value : Int32)
  | float (value : Binary64)
  | string (value : String)
deriving DecidableEq, Repr, Inhabited

def Scalar.kind : Scalar → Kind
  | null => .null
  | bool _ => .bool
  | int _ => .int
  | float _ => .float
  | string _ => .string

end EmbeddedVm
