import EmbeddedVm.Bytes.LittleEndian

/-!
# Files

The machine sees its files as a tree under one working directory: plain files with contents and a
time of change, and directories. Reading names a file by its path and fails with the wording of the
operating system.
-/

namespace EmbeddedVm

/-- What stands at a path; the time of change is in nanoseconds. -/
inductive FileNode where
  | file (contents : Bytes) (changed : Nat)
  | directory
deriving DecidableEq, Repr, Inhabited

/-- Why a file cannot be read. -/
inductive FileError where
  | notFound
  | notADirectory
  | isADirectory
  | nameTooLong
  | invalidUtf8
  | nulInName
deriving DecidableEq, Repr, Inhabited

/-- The wording of the operating system. -/
def FileError.message : FileError → String
  | notFound => "No such file or directory (os error 2)"
  | notADirectory => "Not a directory (os error 20)"
  | isADirectory => "Is a directory (os error 21)"
  | nameTooLong => "File name too long (os error 36)"
  | invalidUtf8 => "stream did not contain valid UTF-8"
  | nulInName => "file name contained an unexpected NUL byte"

/-- The files under the working directory, by the parts of their paths. -/
structure Files where
  nodes : List (List String × FileNode) := []
deriving Repr, Inhabited

namespace Files

/-! ## 1. Paths -/

/-- The parts of a path between slashes, without empty parts and dots. -/
def parts (path : String) : List String :=
  (path.splitOn "/").filter fun part => part != "" && part != "."

/-- The node at a list of parts; the working directory itself is a directory. -/
def node? (t : Files) : List String → Option FileNode
  | [] => some .directory
  | parts => t.nodes.lookup parts

/-- Follows the parts of a path from a directory downwards. Every step needs the place so far to be
    a directory; `..` leads back. -/
def walk (t : Files) : (here : List String) → List String → Except FileError (List String)
  | here, [] => .ok here
  | here, part :: rest =>
    match t.node? here with
    | none => .error .notFound
    | some (.file _ _) => .error .notADirectory
    | some .directory =>
      if 255 < part.utf8ByteSize then .error .nameTooLong
      else if part == ".." then walk t here.dropLast rest
      else walk t (here ++ [part]) rest

/-- The node a path leads to, with its parts. A slash or a dot at the end asks for a directory. -/
def resolve (t : Files) (path : String) : Except FileError (List String × FileNode) := do
  if path.contains '\x00' then throw .nulInName
  if path.isEmpty then throw .notFound
  if 4095 < path.utf8ByteSize then throw .nameTooLong
  let here ← t.walk [] (parts path)
  match t.node? here with
  | none => throw .notFound
  | some node =>
    if node != .directory && (path.endsWith "/" || path.endsWith "/.") then throw .notADirectory
    pure (here, node)

/-! ## 2. Reading -/

/-- The contents of a file. -/
def read (t : Files) (path : String) : Except FileError Bytes := do
  match ← t.resolve path with
  | (_, .file contents _) => pure contents
  | (_, .directory) => throw .isADirectory

/-- The contents of a file as a text. -/
def readText (t : Files) (path : String) : Except FileError String := do
  match Bytes.toText? (← t.read path) with
  | some s => pure s
  | none => throw .invalidUtf8

/-- The time of change and the length of what a path leads to. A directory counts as one block that
    never changes. -/
def signature? (t : Files) (path : String) : Option (Nat × Nat) :=
  match t.resolve path with
  | .ok (_, .file contents changed) => some (changed, contents.length)
  | .ok (_, .directory) => some (0, 4096)
  | .error _ => none

/-! ## 3. Writing -/

def setNode (t : Files) (parts : List String) (node : FileNode) : Files :=
  if (t.nodes.lookup parts).isSome then
    ⟨t.nodes.map fun (p, n) => if p == parts then (p, node) else (p, n)⟩
  else ⟨t.nodes ++ [(parts, node)]⟩

/-- The place that parts lead to when every step is a directory: `..` leads back. -/
def place (parts : List String) : List String :=
  parts.foldl (fun here part => if part == ".." then here.dropLast else here ++ [part]) []

/-- Makes directories of all proper beginnings of a list of parts. -/
def makeParents (t : Files) (parts : List String) : Files :=
  (List.range parts.length).foldl (fun t n =>
    let parent := place (parts.take n)
    if (t.node? parent).isSome then t else t.setNode parent .directory) t

/-- Writes a file, making the directories on its way. -/
def write (t : Files) (path : String) (contents : Bytes) (changed : Nat) : Files :=
  let parts := parts path
  (t.makeParents parts).setNode (place parts) (.file contents changed)

/-- Writes a file whose directory must be there. -/
def create (t : Files) (path : String) (contents : Bytes) (changed : Nat) :
    Except FileError Files := do
  if path.contains '\x00' then throw .nulInName
  if path.isEmpty then throw .notFound
  if 4095 < path.utf8ByteSize then throw .nameTooLong
  let pieces := (path.splitOn "/").filter (· != "")
  let some last := pieces.getLast? | throw .isADirectory
  let here ← t.walk [] (pieces.dropLast.filter (· != "."))
  match t.node? here with
  | none => throw .notFound
  | some (.file _ _) => throw .notADirectory
  | some .directory =>
    if path.endsWith "/" || last == "." || last == ".." then throw .isADirectory
    if 255 < last.utf8ByteSize then throw .nameTooLong
    if t.node? (here ++ [last]) == some .directory then throw .isADirectory
    return t.setNode (here ++ [last]) (.file contents changed)

def makeDirectory (t : Files) (path : String) : Files :=
  let parts := parts path
  let t := t.makeParents parts
  if place parts = [] then t else t.setNode (place parts) .directory

def remove (t : Files) (path : String) : Files :=
  let here := place (parts path)
  ⟨t.nodes.filter fun (p, _) => p != here⟩

end Files

end EmbeddedVm
