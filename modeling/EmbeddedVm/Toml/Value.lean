import EmbeddedVm.Number.Binary64

/-!
# Values of a settings document

A document in TOML is a table of values by name. Dates are kept as written, because nothing here
computes with them.
-/

namespace EmbeddedVm.Toml

/-- A value. A date, a time, or both are kept as written. -/
inductive Value where
  | string (text : String)
  | integer (value : Int)
  | float (value : Binary64)
  | boolean (value : Bool)
  | dateTime (text : String)
  | array (elements : List Value)
  | table (entries : List (String × Value))
deriving Repr, Inhabited

/-- A table: names and values, the first written first. -/
abbrev Table := List (String × Value)

end EmbeddedVm.Toml
