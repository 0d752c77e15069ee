import EmbeddedVm.CApi.Text
import EmbeddedVm.Instance.ErrorCode
import EmbeddedVm.Value.Display
import EmbeddedVm.Vm.Basic

/-!
# Values and types in C's hands

C holds values and types by pointers and asks for their parts one by one. A pointer may be NULL, so
every function answers for that too. A pointer to a place for a result appears as whether there is
such a place.
-/

namespace EmbeddedVm

/-! ## 1. Values -/

/-- A pointer to a value; `none` is NULL. -/
abbrev CValue := Option Scalar

namespace CValue

/-- A new string; NULL unless the text is UTF-8. -/
def ofText (text : CText) : CValue := do return .string (← (← text).toText?)

/-- The number of the kind; NULL counts as null. -/
def kind (v : CValue) : Nat := (v.getD .null).kind.number

/-- Reads a value of an expected kind: the outcome, and the value if there is one. -/
def readAs {α : Type} (expected : Kind) (get : Scalar → Option α) (v : CValue) (place : Bool) :
    ErrorCode × Option α :=
  match v, place with
  | some v, true =>
    if v.kind = .null then (.nullValue, none)
    else if v.kind = expected then
      match get v with
      | some a => (.ok, some a)
      | none => (.typeMismatch, none)
    else (.typeMismatch, none)
  | _, _ => (.invalidArgument, none)

/-- Reads an integer. -/
def asInt : CValue → (place : Bool) → ErrorCode × Option Int32 := readAs .int Scalar.toInt?

def asFloat : CValue → (place : Bool) → ErrorCode × Option Binary64 := readAs .float Scalar.toFloat?

/-- Reads a truth value. -/
def asBool : CValue → (place : Bool) → ErrorCode × Option Bool := readAs .bool Scalar.toBool?

/-- The text of a string that C can have. -/
def asText (v : CValue) : Option String := do exportable? (← (← v).toText?)

end CValue

/-! ## 2. Types -/

/-- A reflected class, with names as C can have them. -/
structure ReflectedType where
  name : String
  fields : List String
  methods : List String
deriving DecidableEq, Repr, Inhabited

/-- A pointer to a reflected class; `none` is NULL. -/
abbrev CType := Option ReflectedType

namespace CType

/-- A pointer to what is told about a class. -/
def ofInfo (info : Vm.ClassInfo) : CType :=
  some ⟨exported info.name, info.fields.map (exported ·.1), info.methods.map exported⟩

def name (t : CType) : Option String := t.map (·.name)

def fieldCount (t : CType) : Nat := (t.map (·.fields.length)).getD 0

def fieldName (t : CType) (i : Nat) : Option String := do (← t).fields[i]?

def methodCount (t : CType) : Nat := (t.map (·.methods.length)).getD 0

def methodName (t : CType) (i : Nat) : Option String := do (← t).methods[i]?

end CType

end EmbeddedVm
