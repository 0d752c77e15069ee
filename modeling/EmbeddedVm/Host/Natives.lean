/-!
# Host functions

A host registers functions under names. When a module is linked, each of its imports is resolved to
the function registered under its name, so that a call by import index needs no name. What a host
function is stays open: the tables are generic in the type `ν` of handlers.
-/

namespace EmbeddedVm

/-- The functions a host has registered, at most one per name, the first registered first. -/
structure NativeTable (ν : Type) where
  entries : List (String × ν) := []
deriving Repr, Inhabited

namespace NativeTable

variable {ν : Type}

/-- The handler registered under a name. -/
def find? (t : NativeTable ν) (name : String) : Option ν := t.entries.lookup name

/-- Whether a handler is registered under a name. -/
def contains (t : NativeTable ν) (name : String) : Bool := (t.find? name).isSome

/-- The number of names. -/
def size (t : NativeTable ν) : Nat := t.entries.length

/-- Registers a handler, in place of the one of that name if there is one. -/
def insert (t : NativeTable ν) (name : String) (handler : ν) : NativeTable ν :=
  if t.contains name then
    ⟨t.entries.map fun (n, h) => if n == name then (n, handler) else (n, h)⟩
  else
    ⟨t.entries ++ [(name, handler)]⟩

/-- The printed form, which shows only how many there are. -/
def describe (t : NativeTable ν) : String :=
  s!"NativeRegistry \x7b count: {t.size} \x7d"

end NativeTable

/-- The imports of a linked module: name and handler of each, in the module's order. -/
structure Imports (ν : Type) where
  entries : Array (String × ν) := #[]
deriving Repr, Inhabited

namespace Imports

variable {ν : Type}

/-- The handlers of a list of names. -/
def resolveList (t : NativeTable ν) : List String → Except String (List (String × ν))
  | [] => .ok []
  | name :: rest =>
    match t.find? name with
    | some handler => do
      let resolved ← resolveList t rest
      .ok ((name, handler) :: resolved)
    | none => .error name

/-- Resolves every import; the error is the first name without a handler. -/
def resolve (t : NativeTable ν) (names : List String) : Except String (Imports ν) := do
  let entries ← resolveList t names
  .ok ⟨entries.toArray⟩

/-- Gives every import of a name another handler. -/
def rebind (i : Imports ν) (name : String) (handler : ν) : Imports ν :=
  ⟨i.entries.map fun (n, h) => if n == name then (n, handler) else (n, h)⟩

/-- Name and handler of an import. -/
def get? (i : Imports ν) (index : Nat) : Option (String × ν) := i.entries[index]?

def size (i : Imports ν) : Nat := i.entries.size

end Imports

end EmbeddedVm
