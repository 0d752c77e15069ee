import EmbeddedVm.Proofs.Heap.Contents
import Mathlib.Data.List.ReduceOption

/-!
# The figures of the heap

What was allocated is in the heap or was freed, and never both: the strings ever allocated are, in
some order, the strings freed and the strings stored (`Ledger`). The counters are the lengths and
sizes of these two lists, whatever the order of allocations and collections was and whatever handles
the collections were given for roots, so they always add up (`exact_performAll`).

A slot is filled or emptied at one place, and both are the same fact about a list
(`stored_set`), read forwards by an allocation and backwards by a collection.
-/

namespace EmbeddedVm.Heap

/-- The strings in the slots, ascending. -/
def strings (h : Heap) : List String := h.slots.toList.reduceOption

/-- The bytes of strings, all together. -/
def bytesOf : List String → Nat
  | [] => 0
  | text :: rest => text.utf8ByteSize + bytesOf rest

theorem bytesOf_append (texts more : List String) :
    bytesOf (texts ++ more) = bytesOf texts + bytesOf more := by
  induction texts with
  | nil => exact (Nat.zero_add _).symm
  | cons text rest ih => rw [List.cons_append, bytesOf, bytesOf, ih, Nat.add_assoc]

theorem bytesOf_perm {texts texts' : List String} (h : texts.Perm texts') :
    bytesOf texts = bytesOf texts' := by
  induction h with
  | nil => rfl
  | cons text _ ih => rw [bytesOf, bytesOf, ih]
  | swap text text' rest => rw [bytesOf, bytesOf, bytesOf, bytesOf, Nat.add_left_comm]
  | trans _ _ ih ih' => exact ih.trans ih'

/-! ## 1. One slot -/

/-- Filling an empty place adds its string to those stored. -/
theorem stored_set {slots : List (Option String)} {i : Nat} (hi : slots[i]? = some none)
    (text : String) :
    ((slots.set i (some text)).reduceOption).Perm (text :: slots.reduceOption) := by
  obtain ⟨hlt, hnone⟩ := List.getElem?_eq_some_iff.mp hi
  have hslots : slots.take i ++ none :: slots.drop (i + 1) = slots := by
    rw [← hnone, List.getElem_cons_drop, List.take_append_drop]
  have hstored : slots.reduceOption =
      (slots.take i).reduceOption ++ (slots.drop (i + 1)).reduceOption := by
    rw [← congrArg List.reduceOption hslots, List.reduceOption_append,
      List.reduceOption_cons_of_none]
  rw [List.set_eq_take_append_cons_drop, if_pos hlt, List.reduceOption_append,
    List.reduceOption_cons_of_some, hstored]
  exact List.perm_middle

theorem strings_fill {h : Heap} {i : Nat} (hi : h.slots[i]? = some none) (text : String) :
    ((h.slots.setIfInBounds i (some text)).toList.reduceOption).Perm (text :: h.strings) := by
  rw [Array.toList_setIfInBounds]
  exact stored_set (by rwa [Array.getElem?_toList]) text

theorem strings_empty {h : Heap} {i : Nat} {text : String} (hi : h.slots[i]? = some (some text)) :
    h.strings.Perm (text :: (h.slots.setIfInBounds i none).toList.reduceOption) := by
  obtain ⟨hlt, hsome⟩ := Array.getElem?_eq_some_iff.mp hi
  have hback : h.slots.toList = (h.slots.toList.set i none).set i (some text) := by
    rw [List.set_set, ← hsome, ← Array.getElem_toList (by exact hlt), List.set_getElem_self]
  unfold strings
  rw [Array.toList_setIfInBounds, hback]
  refine (stored_set ?_ text).trans (.of_eq ?_)
  · rw [List.getElem?_set_self (by exact hlt)]
  · rw [List.set_set, List.set_set]

/-- An allocation adds its string to those stored. -/
theorem strings_alloc {h : Heap} (ht : h.Tidy) (text : String) :
    (h.alloc text).1.strings.Perm (text :: h.strings) := by
  unfold strings
  rcases alloc_cases ht text with ⟨i, rest, -, -, -, hslots, hi⟩ | ⟨-, -, -, hslots⟩
  · rw [hslots]
    exact strings_fill hi text
  · rw [hslots, Array.toList_push, List.reduceOption_append]
    exact List.perm_append_comm

/-! ## 2. A collection on its way -/

/-- **What was stored is stored or was dropped on the way**, and the counters of the way tell how
    much that was. -/
structure Tally (h : Heap) (w : Sweeping) (dropped : List String) : Prop where
  strings : h.strings.Perm (dropped ++ w.heap.strings)
  freed : w.freed = dropped.length
  bytes : w.bytes = bytesOf dropped
  vacated : w.heap.free.length = h.free.length + dropped.length
  liveBytes : w.heap.liveBytes = h.liveBytes
  objectsFreed : w.heap.objectsFreed = h.objectsFreed
  bytesFreed : w.heap.bytesFreed = h.bytesFreed

theorem Tally.step {h : Heap} {w : Sweeping} {dropped : List String} (hw : Tally h w dropped)
    (i : Nat) : ∃ dropped', Tally h (sweepSlot w i) dropped' := by
  obtain ⟨hstrings, hfreed, hbytes, hvacated, hlive, hobjects, hfreedBytes⟩ := hw
  rcases sweepSlot_cases w i with ⟨text, htext, -, hpass⟩ | ⟨-, hpass⟩
  · rw [hpass]
    refine ⟨text :: dropped, hstrings.trans ?_, ?_, ?_, ?_, hlive, hobjects, hfreedBytes⟩
    · exact ((strings_empty htext).append_left dropped).trans List.perm_middle
    · rw [List.length_cons, hfreed]
    · rw [bytesOf, ← hbytes]
      exact Nat.add_comm _ _
    · rw [List.length_cons, List.length_cons, hvacated, Nat.add_assoc]
  · rw [hpass]
    exact ⟨dropped, hstrings, hfreed, hbytes, hvacated, hlive, hobjects, hfreedBytes⟩

theorem tally_swept (h : Heap) (roots : List Handle) :
    ∃ dropped, Tally h (h.swept roots) dropped :=
  swept_keeps (P := fun _ w => ∃ dropped, Tally h w dropped)
    ⟨[], .refl _, rfl, rfl, rfl, rfl, rfl, rfl⟩ fun i _ ⟨_, hw⟩ => hw.step i

/-! ## 3. Any operations -/

/-- What is done to a heap. -/
inductive Operation where
  | alloc (text : String)
  | collect (roots : List Handle)
deriving Repr, Inhabited

/-- The string an operation allocates. -/
def Operation.text? : Operation → Option String
  | .alloc text => some text
  | .collect _ => none

/-- The heap after an operation. -/
def perform (h : Heap) : Operation → Heap
  | .alloc text => (h.alloc text).1
  | .collect roots => (h.collect roots).1

/-- The heap after several operations. -/
def performAll (h : Heap) (ops : List Operation) : Heap := ops.foldl perform h

/-- The strings that operations allocate, the first one first. -/
def allocations (ops : List Operation) : List String := ops.filterMap Operation.text?

/-- **What was allocated was dropped or is stored**, and the counters say how much of each. -/
structure Ledger (allocated : List String) (h : Heap) (dropped : List String) : Prop where
  tidy : h.Tidy
  strings : allocated.Perm (dropped ++ h.strings)
  slots : h.slots.size = h.free.length + h.strings.length
  liveBytes : h.liveBytes = bytesOf h.strings
  objectsFreed : h.objectsFreed = dropped.length
  bytesFreed : h.bytesFreed = bytesOf dropped

theorem ledger_empty (threshold : Nat) : Ledger [] (empty threshold) [] :=
  ⟨tidy_empty threshold, .refl _, rfl, rfl, rfl, rfl⟩

theorem Ledger.alloc {allocated dropped : List String} {h : Heap} (hl : Ledger allocated h dropped)
    (text : String) : Ledger (allocated ++ [text]) (h.alloc text).1 dropped := by
  have hstrings := strings_alloc hl.tidy text
  refine ⟨hl.tidy.alloc text, ?_, ?_, ?_, ?_, ?_⟩
  · refine (List.perm_append_singleton text allocated).trans ?_
    exact (hl.strings.cons text).trans (List.perm_middle.symm.trans (hstrings.symm.append_left _))
  · rw [hstrings.length_eq, List.length_cons]
    have hslots := hl.slots
    rcases alloc_cases hl.tidy text with ⟨i, rest, hfree, -, hrest, hset, -⟩ |
      ⟨hfree, -, hrest, hpush⟩
    · rw [hrest, hset, Array.size_setIfInBounds, hslots, hfree, List.length_cons]
      omega
    · rw [hrest, hpush, Array.size_push, hslots, hfree, Nat.add_assoc]
  · rw [bytesOf_perm hstrings, bytesOf, ← hl.liveBytes]
    unfold Heap.alloc
    cases h.free <;> exact Nat.add_comm _ _
  · rw [← hl.objectsFreed]
    unfold Heap.alloc
    cases h.free <;> rfl
  · rw [← hl.bytesFreed]
    unfold Heap.alloc
    cases h.free <;> rfl

theorem Ledger.collect {allocated dropped : List String} {h : Heap}
    (hl : Ledger allocated h dropped) (roots : List Handle) :
    ∃ dropped', Ledger allocated (h.collect roots).1 dropped' := by
  obtain ⟨now, hw⟩ := tally_swept h roots
  refine ⟨dropped ++ now, hl.tidy.collect roots, ?_, ?_, ?_, ?_, ?_⟩
  · refine hl.strings.trans ?_
    rw [List.append_assoc]
    exact hw.strings.append_left dropped
  · have hsize : (h.collect roots).1.slots.size = h.slots.size := (passed_swept h roots).size
    have hvacated : (h.collect roots).1.free.length = h.free.length + now.length := hw.vacated
    have hlength : h.strings.length = (now ++ (h.collect roots).1.strings).length :=
      hw.strings.length_eq
    rw [hsize, hvacated, hl.slots, hlength, List.length_append, Nat.add_assoc]
  · have hbytes : bytesOf h.strings = bytesOf (now ++ (h.collect roots).1.strings) :=
      bytesOf_perm hw.strings
    have hlive : (h.collect roots).1.liveBytes = h.liveBytes - bytesOf now :=
      congr (congrArg _ hw.liveBytes) hw.bytes
    rw [hlive, hl.liveBytes, hbytes, bytesOf_append, Nat.add_sub_cancel_left]
  · have hobjects : (h.collect roots).1.objectsFreed = h.objectsFreed + now.length :=
      congr (congrArg _ hw.objectsFreed) hw.freed
    rw [hobjects, hl.objectsFreed, List.length_append]
  · have hfreed : (h.collect roots).1.bytesFreed = h.bytesFreed + bytesOf now :=
      congr (congrArg _ hw.bytesFreed) hw.bytes
    rw [hfreed, hl.bytesFreed, bytesOf_append]

theorem Ledger.performAll {allocated dropped : List String} {h : Heap}
    (hl : Ledger allocated h dropped) (ops : List Operation) :
    ∃ dropped', Ledger (allocated ++ allocations ops) (h.performAll ops) dropped' := by
  induction ops generalizing allocated dropped h with
  | nil =>
      refine ⟨dropped, ?_⟩
      rw [show allocations [] = [] from rfl, List.append_nil]
      exact hl
  | cons op rest ih =>
      cases op with
      | alloc text =>
          have hnext := ih (hl.alloc text)
          rw [List.append_assoc] at hnext
          exact hnext
      | collect roots =>
          obtain ⟨dropped', hl'⟩ := hl.collect roots
          exact ih hl'

/-! ## 4. The heap at any time -/

/-- **An allocation changes one slot**, which held no string. -/
structure Stores (h : Heap) (text : String) : Prop where
  vacant : h.get? (h.alloc text).2 = none
  stored : (h.alloc text).1.slots[(h.alloc text).2.index]? = some (some text)
  others : ∀ i, i ≠ (h.alloc text).2.index → (h.alloc text).1.slots[i]? = h.slots[i]?

theorem Tidy.stores {h : Heap} (ht : h.Tidy) (text : String) : h.Stores text := by
  refine ⟨get?_of_fresh ht text, ?_, fun i hi => ?_⟩
  · exact Option.join_eq_some_iff.mp (get?_new ht text)
  · rcases alloc_cases ht text with ⟨j, rest, -, hr, -, hset, -⟩ | ⟨-, hr, -, hpush⟩
    · rw [hr] at hi
      rw [hset, Array.getElem?_setIfInBounds, if_neg (Ne.symm hi)]
    · rw [hr] at hi
      rw [hpush, Array.getElem?_push, if_neg hi]

/-- **A collection empties the slots that hold a string and are named by no root**, and tells how
    many these are. -/
structure Collects (h : Heap) (roots : List Handle) (emptied : List Nat) : Prop where
  nodup : emptied.Nodup
  unrooted : ∀ i, i ∈ emptied ↔ (h.get? ⟨i⟩).isSome = true ∧ ⟨i⟩ ∉ roots
  empties : ∀ i ∈ emptied, (h.collect roots).1.slots[i]? = some none
  others : ∀ i, i ∉ emptied → (h.collect roots).1.slots[i]? = h.slots[i]?
  count : (h.collect roots).2 = emptied.length
  rooted : ∀ r ∈ roots, (h.collect roots).1.get? r = h.get? r

theorem Tidy.collects {h : Heap} (ht : h.Tidy) (roots : List Handle) :
    ∃ emptied, h.Collects roots emptied := by
  have hpassed := passed_swept h roots
  have hslots (i : Nat) : (h.collect roots).1.slots[i]? = _ := hpassed.slots i
  refine ⟨(h.mark roots).garbage h.slots.size, List.nodup_range.filter _,
    fun i => ht.mem_garbage, fun i hi => ?_, fun i hi => ?_, hpassed.freed, fun r hr => ?_⟩
  · rw [hslots, if_pos hi]
  · rw [hslots, if_neg hi]
    rfl
  · rw [ht.get?_collect, if_pos hr]

/-- **A heap whose figures are right**, when these strings were allocated in it. -/
structure Exact (allocated : List String) (h : Heap) : Prop where
  /-- The free list names the empty slots, each once, and every slot has a mark that is not set. -/
  tidy : h.Tidy
  /-- The bytes are those of the strings stored. -/
  liveBytes : h.liveBytes = bytesOf h.strings
  /-- A collection does not take off more bytes than there are. -/
  covered : ∀ roots, (h.swept roots).bytes ≤ (h.swept roots).heap.liveBytes
  /-- The strings alive are those stored. -/
  liveObjects : h.liveObjects = h.strings.length
  /-- No string is lost, and none is counted twice. -/
  objects : h.objectsFreed + h.liveObjects = allocated.length
  /-- Nor are its bytes. -/
  bytes : h.bytesFreed + h.liveBytes = bytesOf allocated
  alloc : ∀ text, h.Stores text
  collect : ∀ roots, ∃ emptied, h.Collects roots emptied

theorem Ledger.exact {allocated dropped : List String} {h : Heap}
    (hl : Ledger allocated h dropped) : Exact allocated h := by
  have hobjects : h.liveObjects = h.strings.length := by
    unfold Heap.liveObjects
    rw [hl.slots, Nat.add_sub_cancel_left]
  refine ⟨hl.tidy, hl.liveBytes, fun roots => ?_, hobjects, ?_, ?_, hl.tidy.stores,
    hl.tidy.collects⟩
  · obtain ⟨now, hw⟩ := tally_swept h roots
    rw [hw.liveBytes, hw.bytes, hl.liveBytes, bytesOf_perm hw.strings, bytesOf_append]
    exact Nat.le_add_right _ _
  · rw [hl.strings.length_eq, List.length_append, hobjects, hl.objectsFreed]
  · rw [bytesOf_perm hl.strings, bytesOf_append, hl.liveBytes, hl.bytesFreed]

/-- **Whatever is allocated and collected, and whatever the roots are, the figures are right.** -/
theorem exact_performAll (threshold : Nat) (ops : List Operation) :
    Exact (allocations ops) ((empty threshold).performAll ops) := by
  obtain ⟨dropped, hl⟩ := (ledger_empty threshold).performAll ops
  exact hl.exact

end EmbeddedVm.Heap
