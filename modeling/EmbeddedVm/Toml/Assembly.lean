import EmbeddedVm.Toml.Value

/-!
# Putting a document together

A document is a sequence of headers and assignments. A header opens a table or adds one to an array
of tables; an assignment with a dotted name makes tables on its way. Each table is open to
additions only in certain ways, depending on what made it, and nothing is defined twice.
-/

namespace EmbeddedVm.Toml

/-- What made a table, and with it who may still add to it. An implied table is on the way to a
    deeper header, and a header of its own may still come; to a dotted one only dotted names add. -/
inductive Origin where
  | implied
  | opened
  | dotted
deriving DecidableEq, Repr, Inhabited

/-- What stands under a name while a document is put together: a complete value, a table that may
    still grow, or the tables of an array, the last of which may still grow. -/
inductive Node where
  | leaf (value : Value)
  | table (origin : Origin) (entries : List (String × Node))
  | tables (elements : List (List (String × Node)))
deriving Inhabited

/-- The entries of a table under construction. -/
abbrev Entries := List (String × Node)

namespace Entries

def set (entries : Entries) (name : String) (node : Node) : Entries :=
  if (entries.lookup name).isSome then
    entries.map fun (n, old) => if n == name then (n, node) else (n, old)
  else entries ++ [(name, node)]

/-- Changes the table at the end of a path; tables that are missing are made with the given
    origin. A dotted path may pass only through tables without a header of their own. A value
    cannot be entered. -/
def within (dotted : Bool) (f : Option Origin → Entries → Option Entries) :
    (here : Option Origin) → (path : List String) → Entries → Option Entries
  | here, [], entries => f here entries
  | _, name :: path, entries =>
    match entries.lookup name with
    | none => do
      let origin := if dotted then Origin.dotted else .implied
      let inner ← within dotted f (some origin) path []
      some (entries.set name (.table origin inner))
    | some (.leaf _) => none
    | some (.table origin inner) =>
      if dotted && origin == .opened then none
      else do
        let inner ← within dotted f (some origin) path inner
        some (entries.set name (.table origin inner))
    | some (.tables elements) => do
      let last ← elements.getLast?
      let last ← within dotted f (some .opened) path last
      some (entries.set name (.tables (elements.dropLast ++ [last])))

/-- Opens the table of a header. -/
def openTable (name : String) (_ : Option Origin) (entries : Entries) : Option Entries :=
  match entries.lookup name with
  | none => some (entries.set name (.table .opened []))
  | some (.table .implied inner) => some (entries.set name (.table .opened inner))
  | some _ => none

/-- Adds a table to the array of a header. -/
def openElement (name : String) (_ : Option Origin) (entries : Entries) : Option Entries :=
  match entries.lookup name with
  | none => some (entries.set name (.tables [[]]))
  | some (.tables elements) => some (entries.set name (.tables (elements ++ [[]])))
  | some _ => none

/-- Assigns a value. The table of a dotted name is one that dotted names made. -/
def assign (isDotted : Bool) (name : String) (node : Node) (here : Option Origin)
    (entries : Entries) : Option Entries :=
  if isDotted && here != some .dotted then none
  else match entries.lookup name with
    | none => some (entries.set name node)
    | some _ => none

end Entries

/-! ## Statements -/

/-- A line of a document with something on it: the header of a table, the header of an element of an
    array of tables, or an assignment. -/
inductive Statement where
  | header (path : List String)
  | element (path : List String)
  | assignment (path : List String) (value : Value)
deriving Inhabited

/-- A document under construction: what is there, and the path of the table that assignments go
    to. -/
structure Draft where
  entries : Entries := []
  current : List String := []
deriving Inhabited

/-- Adds a value under a path, inside the table `here` that is being changed. -/
def Entries.assignPath (path : List String) (value : Value) (here : Option Origin)
    (entries : Entries) : Option Entries :=
  match path.getLast? with
  | none => none
  | some name =>
    let way := path.dropLast
    Entries.within true (Entries.assign (!way.isEmpty) name (.leaf value)) here way entries

/-- Carries out a statement, if it defines nothing twice. -/
def Draft.apply (d : Draft) : Statement → Option Draft
  | .header path => do
    let name ← path.getLast?
    let entries ← Entries.within false (Entries.openTable name) none path.dropLast d.entries
    some ⟨entries, path⟩
  | .element path => do
    let name ← path.getLast?
    let entries ← Entries.within false (Entries.openElement name) none path.dropLast d.entries
    some ⟨entries, path⟩
  | .assignment path value => do
    let entries ← Entries.within false (Entries.assignPath path value) none d.current d.entries
    some { d with entries }

mutual

def Node.toValue : Node → Value
  | .leaf value => value
  | .table _ entries => .table (Entries.toTable entries)
  | .tables elements => .array (Entries.toArray elements)

def Entries.toTable : Entries → Table
  | [] => []
  | (name, node) :: rest => (name, node.toValue) :: Entries.toTable rest

/-- The tables of the elements of an array. -/
def Entries.toArray : List Entries → List Value
  | [] => []
  | entries :: rest => .table (Entries.toTable entries) :: Entries.toArray rest

end

/-- The table of an inline table, if it defines nothing twice. -/
def inlineTable? (assignments : List (List String × Value)) : Option Table := do
  let entries ← assignments.foldlM (fun entries (path, value) =>
    Entries.assignPath path value none entries) ([] : Entries)
  some (Entries.toTable entries)

/-- The table of a document, if it defines nothing twice. -/
def table? (statements : List Statement) : Option Table := do
  let d ← statements.foldlM Draft.apply {}
  some (Entries.toTable d.entries)

end EmbeddedVm.Toml
