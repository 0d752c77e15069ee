import EmbeddedVm.Number.Positional
import EmbeddedVm.Value.Scalar

/-!
# Scalars in print, and as numbers

The printed form of a scalar is what string concatenation uses and what a thrown value becomes as a
message.
-/

namespace EmbeddedVm.Scalar

def display : Scalar → String
  | null => "null"
  | bool b => if b then "true" else "false"
  | int n => toString n.toInt
  | float x => x.display
  | string s => s

/-- The integer, if it is one. -/
def toInt? : Scalar → Option Int32
  | int n => some n
  | _ => none

/-- The float; an integer widens. -/
def toFloat? : Scalar → Option Binary64
  | float x => some x
  | int n => some (.ofInt32 n)
  | _ => none

/-- The truth value, if it is one. -/
def toBool? : Scalar → Option Bool
  | bool b => some b
  | _ => none

def toText? : Scalar → Option String
  | string s => some s
  | _ => none

def isNull (v : Scalar) : Bool := v.kind == .null

end EmbeddedVm.Scalar
