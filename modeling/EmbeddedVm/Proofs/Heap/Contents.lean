import EmbeddedVm.Heap.Basic

/-!
# What a handle refers to, before and after

A heap is `Tidy` when its free list names the empty slots, each once, and no slot is marked. Then an
allocation takes a handle that referred to nothing and leaves all others alone, and a collection
keeps exactly the texts of the roots. These two facts, `get?_alloc` and `get?_collect`, are all that
the machine needs to know about slots; how they are reused stays inside the heap.

A collection is looked at slot by slot (`sweepSlot_cases`). `Passed` says what it has done to the
slots behind it and that it has not touched those before it.
-/

namespace EmbeddedVm.Heap

/-- **The free list names the empty slots, each once, and no slot is marked.** -/
structure Tidy (h : Heap) : Prop where
  /-- None is named twice. -/
  nodup : h.free.Nodup
  /-- Those named are there and empty, and all that are empty are named. -/
  vacant : ∀ i, i ∈ h.free ↔ h.slots[i]? = some none
  /-- Every slot has a mark, and none is set. -/
  unmarked : h.marks = Array.replicate h.slots.size false

theorem tidy_empty (threshold : Nat) : (empty threshold).Tidy where
  nodup := List.nodup_nil
  vacant _ := ⟨nofun, nofun⟩
  unmarked := rfl

/-! ## 1. Allocation -/

/-- What the slots and the free list are after an allocation, and which slot was taken. -/
theorem alloc_cases {h : Heap} (ht : h.Tidy) (s : String) :
    (∃ i rest, h.free = i :: rest ∧ (h.alloc s).2 = ⟨i⟩ ∧ (h.alloc s).1.free = rest ∧
      (h.alloc s).1.slots = h.slots.setIfInBounds i (some s) ∧ h.slots[i]? = some none) ∨
    (h.free = [] ∧ (h.alloc s).2 = ⟨h.slots.size⟩ ∧ (h.alloc s).1.free = [] ∧
      (h.alloc s).1.slots = h.slots.push (some s)) := by
  unfold alloc
  cases hf : h.free with
  | nil => exact .inr ⟨rfl, rfl, rfl, rfl⟩
  | cons i rest =>
      refine .inl ⟨i, rest, rfl, rfl, rfl, rfl, (ht.vacant i).mp ?_⟩
      rw [hf]
      exact List.mem_cons_self

/-- The handle of a new string referred to nothing. -/
theorem get?_of_fresh {h : Heap} (ht : h.Tidy) (s : String) : h.get? (h.alloc s).2 = none := by
  unfold get?
  rcases alloc_cases ht s with ⟨i, rest, -, hr, -, -, hi⟩ | ⟨-, hr, -, -⟩
  · rw [hr, hi]
    rfl
  · rw [hr, Array.getElem?_size]
    rfl

/-- **A new string can be read under its handle, and every other handle reads as before.** -/
theorem get?_alloc {h : Heap} (ht : h.Tidy) (s : String) (r : Handle) :
    (h.alloc s).1.get? r = if r = (h.alloc s).2 then some s else h.get? r := by
  obtain ⟨j⟩ := r
  unfold get?
  rcases alloc_cases ht s with ⟨i, rest, -, hr, -, hslots, hi⟩ | ⟨-, hr, -, hslots⟩
  · obtain ⟨hlt, -⟩ := Array.getElem?_eq_some_iff.mp hi
    simp only [hr, hslots, Array.getElem?_setIfInBounds, Handle.mk.injEq]
    by_cases h' : j = i
    · rw [if_pos h'.symm, if_pos h', if_pos hlt]
      rfl
    · rw [if_neg (Ne.symm h'), if_neg h']
  · simp only [hr, hslots, Array.getElem?_push, Handle.mk.injEq]
    by_cases h' : j = h.slots.size
    · rw [if_pos h', if_pos h']
      rfl
    · rw [if_neg h', if_neg h']

theorem get?_new {h : Heap} (ht : h.Tidy) (s : String) :
    (h.alloc s).1.get? (h.alloc s).2 = some s := by
  rw [get?_alloc ht, if_pos rfl]

/-- What could be read can be read after an allocation, and is the same. -/
theorem get?_alloc_of_some {h : Heap} (ht : h.Tidy) {s t : String} {r : Handle}
    (hr : h.get? r = some t) : (h.alloc s).1.get? r = some t := by
  rw [get?_alloc ht, if_neg, hr]
  rintro rfl
  rw [get?_of_fresh ht] at hr
  cases hr

theorem Tidy.alloc {h : Heap} (ht : h.Tidy) (s : String) : (h.alloc s).1.Tidy := by
  have hnodup := ht.nodup
  have hvacant := ht.vacant
  have hmarks := ht.unmarked
  unfold Heap.alloc
  cases hf : h.free with
  | nil =>
      rw [hf] at hvacant
      refine ⟨List.nodup_nil, fun j => ?_, ?_⟩
      · dsimp only
        rw [Array.getElem?_push]
        split
        · exact ⟨nofun, nofun⟩
        · exact hvacant j
      · dsimp only
        rw [hmarks, Array.size_push, Array.replicate_succ]
  | cons i rest =>
      rw [hf, List.nodup_cons] at hnodup
      rw [hf] at hvacant
      obtain ⟨hlt, -⟩ := Array.getElem?_eq_some_iff.mp ((hvacant i).mp List.mem_cons_self)
      refine ⟨hnodup.2, fun j => ?_, ?_⟩
      · dsimp only
        rw [Array.getElem?_setIfInBounds]
        split
        · rename_i hij
          rw [← hij]
          exact ⟨fun hmem => absurd hmem hnodup.1, nofun⟩
        · rename_i hij
          rw [← hvacant j, List.mem_cons]
          exact ⟨.inr, fun hmem => hmem.resolve_left (Ne.symm hij)⟩
      · dsimp only
        rw [hmarks, Array.size_setIfInBounds]

/-- Every text of the first heap is in the second, under the same handle. -/
def Keeps (h h' : Heap) : Prop := ∀ r text, h.get? r = some text → h'.get? r = some text

theorem keeps_alloc {h : Heap} (ht : h.Tidy) (s : String) : h.Keeps (h.alloc s).1 :=
  fun _ _ hr => get?_alloc_of_some ht hr

theorem Keeps.trans {a b c : Heap} (h : a.Keeps b) (h' : b.Keeps c) : a.Keeps c :=
  fun r text hr => h' r text (h r text hr)

theorem Tidy.ofScalar {h : Heap} (ht : h.Tidy) (s : Scalar) : (h.ofScalar s).1.Tidy := by
  cases s with
  | string text => exact ht.alloc text
  | null | bool | int | float => exact ht

theorem keeps_ofScalar {h : Heap} (ht : h.Tidy) (s : Scalar) : h.Keeps (h.ofScalar s).1 := by
  cases s with
  | string text => exact keeps_alloc ht text
  | null | bool | int | float => exact fun _ _ hr => hr

/-! ## 2. Collection -/

/-- A slot is marked if it was before or if some root names it. -/
theorem getD_foldl_marks {roots : List Handle} {marks : Array Bool} {i : Nat}
    (hi : i < marks.size) :
    (roots.foldl (fun marks r => marks.setIfInBounds r.index true) marks).getD i false = true ↔
      marks.getD i false = true ∨ ⟨i⟩ ∈ roots := by
  induction roots generalizing marks with
  | nil => simp
  | cons r rest ih =>
      rw [List.foldl_cons, ih (by rwa [Array.size_setIfInBounds]), List.mem_cons]
      have hroot : (⟨i⟩ : Handle) = r ↔ r.index = i := by
        cases r
        simp [eq_comm]
      simp only [Array.getD_eq_getD_getElem?, Array.getElem?_setIfInBounds, hroot]
      by_cases h : r.index = i
      · simp [h, hi]
      · simp [h]

theorem size_foldl_marks (roots : List Handle) (marks : Array Bool) :
    (roots.foldl (fun marks r => marks.setIfInBounds r.index true) marks).size = marks.size := by
  induction roots generalizing marks with
  | nil => rfl
  | cons r rest ih => rw [List.foldl_cons, ih, Array.size_setIfInBounds]

/-- **What passing a slot does**: its mark goes, and its string too if it had no mark. -/
theorem sweepSlot_cases (w : Sweeping) (i : Nat) :
    (∃ text, w.heap.slots[i]? = some (some text) ∧ w.heap.marks.getD i false = false ∧
      sweepSlot w i =
        { heap := { w.heap with
            slots := w.heap.slots.setIfInBounds i none
            marks := w.heap.marks.setIfInBounds i false
            free := i :: w.heap.free }
          freed := w.freed + 1
          bytes := w.bytes + text.utf8ByteSize }) ∨
    (w.heap.marks.getD i false = true ∨ w.heap.get? ⟨i⟩ = none) ∧
      sweepSlot w i =
        { w with heap := { w.heap with marks := w.heap.marks.setIfInBounds i false } } := by
  unfold sweepSlot
  dsimp only
  split
  · rename_i hmarked
    exact .inr ⟨.inl hmarked, rfl⟩
  · rename_i hmarked
    split
    · rename_i hnone
      exact .inr ⟨.inr hnone, rfl⟩
    · rename_i text htext
      exact .inl ⟨text, Option.join_eq_some_iff.mp htext, Bool.eq_false_iff.mpr hmarked, rfl⟩

/-- The collection when it has passed all slots. -/
def swept (h : Heap) (roots : List Handle) : Sweeping :=
  (List.range h.slots.size).foldl sweepSlot { heap := h.mark roots }

/-- **What passing one more slot keeps, passing all keeps.** -/
theorem swept_keeps {P : Nat → Sweeping → Prop} {h : Heap} {roots : List Handle}
    (hstart : P 0 { heap := h.mark roots }) (hstep : ∀ n w, P n w → P (n + 1) (sweepSlot w n)) :
    P h.slots.size (h.swept roots) := by
  have hrange (n : Nat) : P n ((List.range n).foldl sweepSlot { heap := h.mark roots }) := by
    induction n with
    | zero => exact hstart
    | succ n ih =>
        rw [List.range_succ, List.foldl_append]
        exact hstep n _ ih
  exact hrange _

/-- The slots below `n` that hold a string and are not marked, ascending. -/
def garbage (h : Heap) (n : Nat) : List Nat :=
  (List.range n).filter fun i => (h.get? ⟨i⟩).isSome && !h.marks.getD i false

/-- **A collection that has passed the slots below `n`**, of a heap that is marked. -/
structure Passed (h : Heap) (n : Nat) (w : Sweeping) : Prop where
  slots : ∀ i, w.heap.slots[i]? = if i ∈ h.garbage n then some none else h.slots[i]?
  size : w.heap.slots.size = h.slots.size
  marks : ∀ i, w.heap.marks[i]? =
    if i < n then h.marks[i]?.map fun _ => false else h.marks[i]?
  free : w.heap.free = (h.garbage n).reverse ++ h.free
  freed : w.freed = (h.garbage n).length

theorem passed_start (h : Heap) : Passed h 0 { heap := h } :=
  ⟨fun _ => rfl, rfl, fun _ => rfl, rfl, rfl⟩

theorem mem_garbage {h : Heap} {n i : Nat} :
    i ∈ h.garbage n ↔ i < n ∧ (h.get? ⟨i⟩).isSome = true ∧ h.marks.getD i false = false := by
  unfold garbage
  simp only [List.mem_filter, List.mem_range, Bool.and_eq_true, Bool.not_eq_true']

/-- The slots before it are as they were. -/
theorem Passed.ahead {h : Heap} {n : Nat} {w : Sweeping} (hw : Passed h n w) :
    w.heap.slots[n]? = h.slots[n]? ∧ w.heap.marks[n]? = h.marks[n]? := by
  have hslots := hw.slots n
  have hmarks := hw.marks n
  rw [if_neg fun hmem => Nat.lt_irrefl n (mem_garbage.mp hmem).1] at hslots
  rw [if_neg (Nat.lt_irrefl n)] at hmarks
  exact ⟨hslots, hmarks⟩

theorem Passed.step {h : Heap} {n : Nat} {w : Sweeping} (hw : Passed h n w) :
    Passed h (n + 1) (sweepSlot w n) := by
  obtain ⟨hslot, hmark⟩ := hw.ahead
  have hget : w.heap.get? ⟨n⟩ = h.get? ⟨n⟩ := congrArg Option.join hslot
  have hgetD : w.heap.marks.getD n false = h.marks.getD n false := by
    rw [Array.getD_eq_getD_getElem?, Array.getD_eq_getD_getElem?, hmark]
  have hgarbage : h.garbage (n + 1) = h.garbage n ++
      if (h.get? ⟨n⟩).isSome && !h.marks.getD n false then [n] else [] := by
    unfold garbage
    rw [List.range_succ, List.filter_append, List.filter_cons, List.filter_nil]
  -- the mark of the slot goes in either case
  have hmarks (i : Nat) : (w.heap.marks.setIfInBounds n false)[i]? =
      if i < n + 1 then h.marks[i]?.map fun _ => false else h.marks[i]? := by
    rw [Array.getElem?_setIfInBounds]
    by_cases hi : n = i
    · subst hi
      rw [if_pos rfl, if_pos (Nat.lt_succ_self n), ← hmark]
      by_cases hlt : n < w.heap.marks.size
      · simp [hlt]
      · simp [hlt]
    · rw [if_neg hi, hw.marks i]
      by_cases hlt : i < n
      · rw [if_pos hlt, if_pos (Nat.lt_succ_of_lt hlt)]
      · rw [if_neg hlt, if_neg (by omega)]
  rcases sweepSlot_cases w n with ⟨text, htext, hunmarked, hpass⟩ | ⟨hkept, hpass⟩
  · rw [hslot] at htext
    have hsome : h.get? ⟨n⟩ = some text := congrArg Option.join htext
    rw [hgetD] at hunmarked
    rw [hsome, hunmarked] at hgarbage
    replace hgarbage : h.garbage (n + 1) = h.garbage n ++ [n] := hgarbage
    have hlt : n < w.heap.slots.size := by
      rw [hw.size]
      exact (Array.getElem?_eq_some_iff.mp htext).1
    rw [hpass]
    refine ⟨fun i => ?_, ?_, hmarks, ?_, ?_⟩
    · dsimp only
      rw [hgarbage, Array.getElem?_setIfInBounds]
      by_cases hi : n = i
      · subst hi
        rw [if_pos rfl, if_pos hlt, if_pos (List.mem_append_right _ List.mem_cons_self)]
      · rw [if_neg hi, hw.slots i]
        simp only [List.mem_append, List.mem_singleton, Ne.symm hi, or_false]
    · dsimp only
      rw [Array.size_setIfInBounds, hw.size]
    · dsimp only
      rw [hgarbage, hw.free, List.reverse_append]
      rfl
    · dsimp only
      rw [hgarbage, hw.freed, List.length_append]
      rfl
  · rw [hgetD, hget] at hkept
    have hnot : ((h.get? ⟨n⟩).isSome && !h.marks.getD n false) = false := by
      rcases hkept with hmarked | hnone
      · rw [hmarked, Bool.not_true, Bool.and_false]
      · rw [hnone]
        rfl
    rw [hnot] at hgarbage
    replace hgarbage : h.garbage (n + 1) = h.garbage n := hgarbage.trans (List.append_nil _)
    rw [hpass]
    refine ⟨fun i => ?_, hw.size, hmarks, ?_, ?_⟩
    · rw [hgarbage]
      exact hw.slots i
    · rw [hgarbage]
      exact hw.free
    · rw [hgarbage]
      exact hw.freed

/-- A collection when it has passed all slots of a heap whose roots are marked. -/
theorem passed_swept (h : Heap) (roots : List Handle) :
    Passed (h.mark roots) h.slots.size (h.swept roots) :=
  swept_keeps (passed_start _) fun _ _ hw => hw.step

/-- A slot is garbage if it holds a string and no root names it. -/
theorem Tidy.mem_garbage {h : Heap} (ht : h.Tidy) {roots : List Handle} {i : Nat} :
    i ∈ (h.mark roots).garbage h.slots.size ↔ (h.get? ⟨i⟩).isSome = true ∧ ⟨i⟩ ∉ roots := by
  have hmarked (hi : i < h.slots.size) :
      (h.mark roots).marks.getD i false = true ↔ ⟨i⟩ ∈ roots := by
    unfold mark
    rw [getD_foldl_marks (by rw [ht.unmarked, Array.size_replicate]; exact hi), ht.unmarked]
    simp [hi]
  rw [Heap.mem_garbage]
  constructor
  · rintro ⟨hi, hsome, hunmarked⟩
    refine ⟨hsome, fun hroot => ?_⟩
    rw [(hmarked hi).mpr hroot] at hunmarked
    cases hunmarked
  · rintro ⟨hsome, hroot⟩
    have hi : i < h.slots.size := by
      refine Nat.lt_of_not_le fun hge => ?_
      unfold get? at hsome
      rw [Array.getElem?_eq_none hge] at hsome
      cases hsome
    exact ⟨hi, hsome, Bool.eq_false_iff.mpr fun hm => hroot ((hmarked hi).mp hm)⟩

/-- **A collection empties the slots that hold a string and are named by no root.** -/
theorem Tidy.slots_collect {h : Heap} (ht : h.Tidy) (roots : List Handle) (i : Nat) :
    (h.collect roots).1.slots[i]? =
      if (h.get? ⟨i⟩).isSome = true ∧ ⟨i⟩ ∉ roots then some none else h.slots[i]? := by
  have hslots : (h.collect roots).1.slots[i]? = _ := (passed_swept h roots).slots i
  rw [hslots]
  simp only [ht.mem_garbage]
  rfl

/-- **A collection keeps the texts of its roots and nothing else.** -/
theorem Tidy.get?_collect {h : Heap} (ht : h.Tidy) (roots : List Handle) (r : Handle) :
    (h.collect roots).1.get? r = if r ∈ roots then h.get? r else none := by
  unfold get?
  rw [ht.slots_collect]
  by_cases hr : r ∈ roots
  · rw [if_neg fun hg => hg.2 hr, if_pos hr]
  · rw [if_neg hr]
    split
    · rfl
    · rename_i hnone
      exact Option.not_isSome_iff_eq_none.mp fun hsome => hnone ⟨hsome, hr⟩

theorem Tidy.collect {h : Heap} (ht : h.Tidy) (roots : List Handle) :
    (h.collect roots).1.Tidy := by
  have hpassed := passed_swept h roots
  have hfree : (h.collect roots).1.free =
      ((h.mark roots).garbage h.slots.size).reverse ++ h.free := hpassed.free
  refine ⟨?_, fun i => ?_, ?_⟩
  · rw [hfree]
    refine List.nodup_append.mpr ⟨?_, ht.nodup, ?_⟩
    · exact (List.reverse_perm _).nodup_iff.mpr (List.nodup_range.filter _)
    · -- what is garbage holds a string, and what is free does not
      rintro i hi j hj rfl
      have hsome := (ht.mem_garbage.mp (List.mem_reverse.mp hi)).1
      unfold get? at hsome
      rw [(ht.vacant i).mp hj] at hsome
      cases hsome
  · rw [hfree, ht.slots_collect, List.mem_append, List.mem_reverse, ht.mem_garbage, ht.vacant]
    split
    · rename_i hgarbage
      exact ⟨fun _ => rfl, fun _ => .inl hgarbage⟩
    · rename_i hgarbage
      exact ⟨fun hmem => hmem.resolve_left hgarbage, .inr⟩
  · have hsize : (h.collect roots).1.slots.size = h.slots.size := hpassed.size
    have hmarks (i : Nat) : (h.collect roots).1.marks[i]? = _ := hpassed.marks i
    have hmarked : (h.mark roots).marks.size = h.slots.size := by
      unfold mark
      rw [size_foldl_marks, ht.unmarked, Array.size_replicate]
    rw [hsize]
    refine Array.ext_getElem? fun i => ?_
    rw [hmarks]
    by_cases hi : i < h.slots.size
    · simp [hi, hmarked]
    · simp [hi, hmarked]

end EmbeddedVm.Heap
