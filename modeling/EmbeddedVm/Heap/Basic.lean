import EmbeddedVm.Value.Basic

/-!
# The heap of strings

Strings live in numbered slots. An empty slot is reused before a new one is opened, the one emptied
last first. `collect` marks the slots that roots name, then passes all slots, takes the marks back
and empties those that had none; when to call it is suggested by `shouldCollect`, which compares
what was allocated since the last collection with a threshold.
-/

namespace EmbeddedVm

/-- What the collector has done so far, and what is alive; `stalledPauses` collections were given up
    because other threads could not be stopped. -/
structure GcStats where
  collections : Nat := 0
  objectsFreed : Nat := 0
  bytesFreed : Nat := 0
  liveObjects : Nat := 0
  liveBytes : Nat := 0
  stalledPauses : Nat := 0
deriving DecidableEq, Repr, Inhabited

/-- A heap of strings. An empty slot holds `none`, and the one at the head of `free` is reused
    first. `marks` says of each slot whether the collection under way found it named by a root.
    `allocated` counts bytes since the last collection, an empty string as one; from `threshold` on
    a collection is due. -/
structure Heap where
  slots : Array (Option String) := #[]
  marks : Array Bool := #[]
  free : List Nat := []
  liveBytes : Nat := 0
  allocated : Nat := 0
  threshold : Nat
  collections : Nat := 0
  objectsFreed : Nat := 0
  bytesFreed : Nat := 0
deriving Repr, Inhabited

namespace Heap

/-- An empty heap; a threshold of zero counts as one. -/
def empty (threshold : Nat) : Heap := { threshold := max threshold 1 }

/-- The string a handle refers to; `none` for an empty slot and for one that was never opened. -/
def get? (h : Heap) (r : Handle) : Option String := (h.slots[r.index]?).join

/-- Stores a string and returns its handle. -/
def alloc (h : Heap) (s : String) : Heap × Handle :=
  let liveBytes := h.liveBytes + s.utf8ByteSize
  let allocated := h.allocated + max s.utf8ByteSize 1
  match h.free with
  | i :: free =>
    ({ h with slots := h.slots.setIfInBounds i (some s), free, liveBytes, allocated }, ⟨i⟩)
  | [] =>
    let i := h.slots.size
    ({ h with slots := h.slots.push (some s), marks := h.marks.push false, liveBytes, allocated },
      ⟨i⟩)

/-- Whether enough was allocated for a collection. -/
def shouldCollect (h : Heap) : Bool := h.threshold ≤ h.allocated

/-- The number of strings. -/
def liveObjects (h : Heap) : Nat := h.slots.size - h.free.length

/-! ## Collection -/

/-- Marks the slots that roots name. A root that names no slot is passed over. -/
def mark (h : Heap) (roots : List Handle) : Heap :=
  { h with marks := roots.foldl (fun marks r => marks.setIfInBounds r.index true) h.marks }

/-- A collection on its way through the slots, with the strings and bytes it has freed. -/
structure Sweeping where
  heap : Heap
  freed : Nat := 0
  bytes : Nat := 0

/-- Passes a slot: takes its mark back, and frees its string if it was not marked. -/
def sweepSlot (w : Sweeping) (i : Nat) : Sweeping :=
  let marked := w.heap.marks.getD i false
  let heap := { w.heap with marks := w.heap.marks.setIfInBounds i false }
  if marked then { w with heap }
  else match (heap.slots[i]?).join with
    | none => { w with heap }
    | some text =>
      { heap := { heap with slots := heap.slots.setIfInBounds i none, free := i :: heap.free }
        freed := w.freed + 1
        bytes := w.bytes + text.utf8ByteSize }

/-- Empties every slot that no root names, and counts the strings freed. -/
def collect (h : Heap) (roots : List Handle) : Heap × Nat :=
  let w := (List.range h.slots.size).foldl sweepSlot { heap := h.mark roots }
  ({ w.heap with
      liveBytes := w.heap.liveBytes - w.bytes
      allocated := 0
      collections := w.heap.collections + 1
      objectsFreed := w.heap.objectsFreed + w.freed
      bytesFreed := w.heap.bytesFreed + w.bytes },
   w.freed)

/-- The figures of the heap, with the number of collections given up. -/
def stats (h : Heap) (stalledPauses : Nat) : GcStats where
  collections := h.collections
  objectsFreed := h.objectsFreed
  bytesFreed := h.bytesFreed
  liveObjects := h.liveObjects
  liveBytes := h.liveBytes
  stalledPauses := stalledPauses

/-! ## Values and scalars -/

/-- The scalar a value stands for; a handle to an empty slot stands for null. -/
def toScalar (h : Heap) : Value → Scalar
  | .null => .null
  | .bool b => .bool b
  | .int n => .int n
  | .float x => .float x
  | .string r => match h.get? r with
    | some s => .string s
    | none => .null

/-- The value of a scalar; a string is allocated. -/
def ofScalar (h : Heap) : Scalar → Heap × Value
  | .null => (h, .null)
  | .bool b => (h, .bool b)
  | .int n => (h, .int n)
  | .float x => (h, .float x)
  | .string s =>
    let (h, r) := h.alloc s
    (h, .string r)

/-- The text of a string value; an empty slot reads as the empty text. -/
def textOf (h : Heap) (r : Handle) : String := (h.get? r).getD ""

end Heap

end EmbeddedVm
