/-!
# The arrangement of a binary heap

Entries are kept in an array in which the parent of position `i` stands at `(i - 1) / 2` and comes
no later than its children. Which entry is earliest is looked up in the whole array, so what is
taken out does not depend on the arrangement; the arrangement decides the order in which entries are
listed. Every operation moves entries by swaps only.
-/

namespace EmbeddedVm.HeapOrder

variable {α : Type}

/-- Moves the entry at `position` up while it comes before its parent; the fuel is the position. -/
def siftUp (before : α → α → Bool) : (fuel : Nat) → Array α → (position : Nat) → Array α
  | 0, entries, _ => entries
  | fuel + 1, entries, position =>
    let parent := (position - 1) / 2
    match entries[position]?, entries[parent]? with
    | some e, some p =>
      if 0 < position && before e p then
        siftUp before fuel (entries.swapIfInBounds position parent) parent
      else entries
    | _, _ => entries

/-- Moves the entry at `position` down to a leaf, each time behind the earlier child, and returns
    where it ends; the fuel is the number of entries. -/
def sinkToLeaf (before : α → α → Bool) : (fuel : Nat) → Array α → (position : Nat) → Array α × Nat
  | 0, entries, position => (entries, position)
  | fuel + 1, entries, position =>
    let left := 2 * position + 1
    match entries[left]?, entries[left + 1]? with
    | some l, some r =>
      let child := if before l r then left else left + 1
      sinkToLeaf before fuel (entries.swapIfInBounds position child) child
    | some _, none => (entries.swapIfInBounds position left, left)
    | none, _ => (entries, position)

/-- Adds an entry. -/
def insert (before : α → α → Bool) (entries : Array α) (e : α) : Array α :=
  siftUp before entries.size (entries.push e) entries.size

/-- The position of the earliest entry among those from `position` on, given the earliest so far. -/
def earliestFrom (before : α → α → Bool) : List α → (position : Nat) → Nat × α → Nat × α
  | [], _, best => best
  | e :: rest, position, best =>
    earliestFrom before rest (position + 1) (if before e best.2 then (position, e) else best)

/-- Position and value of the earliest entry. -/
def earliest? (before : α → α → Bool) (entries : Array α) : Option (Nat × α) :=
  match entries.toList with
  | [] => none
  | e :: rest => some (earliestFrom before rest 1 (0, e))

/-- Takes out the entry at `position`: the last entry takes its place, sinks to a leaf and rises
    again. -/
def removeAt (before : α → α → Bool) (entries : Array α) (position : Nat) : Array α :=
  let kept := (entries.swapIfInBounds position (entries.size - 1)).pop
  let (sunk, leaf) := sinkToLeaf before kept.size kept position
  siftUp before leaf sunk leaf

end EmbeddedVm.HeapOrder
