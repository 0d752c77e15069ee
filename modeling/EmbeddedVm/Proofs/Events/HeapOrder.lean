import EmbeddedVm.Events.HeapOrder
import Mathlib.Data.List.Basic

/-!
# A heap loses and invents no entry

Sifting moves entries by swaps, so it permutes them, whatever the order is. Hence an insertion adds
exactly the new entry (`insert_perm`) and a removal takes out exactly the entry that stood at the
position (`removeAt_perm`). The earliest entry is looked up among all of them, so that none is
before it (`not_before_earliest`) does not depend on the arrangement either.
-/

namespace EmbeddedVm.HeapOrder

variable {α : Type} {before : α → α → Bool}

theorem swap_perm (entries : Array α) (i j : Nat) : (entries.swapIfInBounds i j).Perm entries := by
  rw [Array.swapIfInBounds_def]
  split
  · split
    · exact Array.swap_perm _ _
    · exact .refl _
  · exact .refl _

theorem siftUp_perm (fuel : Nat) (entries : Array α) (position : Nat) :
    (siftUp before fuel entries position).Perm entries := by
  induction fuel generalizing entries position with
  | zero => exact .refl _
  | succ fuel ih =>
      unfold siftUp
      dsimp only
      split
      · split
        · exact (ih _ _).trans (swap_perm _ _ _)
        · exact .refl _
      · exact .refl _

theorem sinkToLeaf_perm (fuel : Nat) (entries : Array α) (position : Nat) :
    (sinkToLeaf before fuel entries position).1.Perm entries := by
  induction fuel generalizing entries position with
  | zero => exact .refl _
  | succ fuel ih =>
      unfold sinkToLeaf
      dsimp only
      split
      · exact (ih _ _).trans (swap_perm _ _ _)
      · exact swap_perm _ _ _
      · exact .refl _

/-- **An insertion adds the entry and nothing else.** -/
theorem insert_perm (entries : Array α) (e : α) :
    (insert before entries e).toList.Perm (e :: entries.toList) := by
  unfold insert
  refine (siftUp_perm _ _ _).toList.trans ?_
  rw [Array.toList_push]
  exact List.perm_append_singleton _ _

/-- The last entry and those before it are all entries. -/
theorem pop_perm {entries : Array α} {e : α} (h : entries[entries.size - 1]? = some e) :
    (e :: entries.pop.toList).Perm entries.toList := by
  have hlast : e ∈ entries.toList.getLast? := by
    rw [List.getLast?_eq_getElem?, Array.length_toList, Array.getElem?_toList]
    exact h
  refine .trans ?_ (.of_eq (List.dropLast_append_getLast? e hlast))
  rw [Array.toList_pop]
  exact (List.perm_append_singleton _ _).symm

/-- **A removal takes out the entry at its position and nothing else.** -/
theorem removeAt_perm {entries : Array α} {position : Nat} {e : α}
    (h : entries[position]? = some e) :
    (e :: (removeAt before entries position).toList).Perm entries.toList := by
  obtain ⟨hp, rfl⟩ := Array.getElem?_eq_some_iff.mp h
  have hlast : entries.size - 1 < entries.size := by omega
  -- the entry changes places with the last one, and the last one goes
  have hswap : (entries.swapIfInBounds position (entries.size - 1))[
      (entries.swapIfInBounds position (entries.size - 1)).size - 1]? = some entries[position] := by
    rw [Array.size_swapIfInBounds, Array.swapIfInBounds_def, dif_pos hp, dif_pos hlast,
      Array.getElem?_eq_getElem (by rw [Array.size_swap]; exact hlast), Array.getElem_swap_right]
  unfold removeAt
  dsimp only
  refine .trans (.cons _ ?_) ((pop_perm hswap).trans (swap_perm _ _ _).toList)
  exact ((siftUp_perm _ _ _).trans (sinkToLeaf_perm _ _ _)).toList

/-- The earliest entry stands at its position, among the entries looked through. -/
theorem earliestFrom_mem (entries : List α) (rest : List α) (position : Nat) (best : Nat × α)
    (hrest : ∀ i e, rest[i]? = some e → entries[position + i]? = some e)
    (hbest : entries[best.1]? = some best.2) :
    entries[(earliestFrom before rest position best).1]? =
      some (earliestFrom before rest position best).2 := by
  induction rest generalizing position best with
  | nil => exact hbest
  | cons e rest ih =>
      unfold earliestFrom
      refine ih _ _ (fun i e' he => ?_) ?_
      · have hnext := hrest (i + 1) e' he
        rwa [show position + (i + 1) = position + 1 + i by omega] at hnext
      · split
        · exact hrest 0 e rfl
        · exact hbest

theorem getElem?_of_earliest? {entries : Array α} {position : Nat} {e : α}
    (h : earliest? before entries = some (position, e)) : entries[position]? = some e := by
  unfold earliest? at h
  split at h
  · cases h
  · rename_i first rest hl
    have hmem : entries.toList[(earliestFrom before rest 1 (0, first)).1]? = _ :=
      earliestFrom_mem entries.toList rest 1 (0, first) (fun i e he => by
        rw [hl, Nat.add_comm, List.getElem?_cons_succ]
        exact he) (by rw [hl]; rfl)
    rw [Option.some.inj h, Array.getElem?_toList] at hmem
    exact hmem

/-- Where there is an entry, there is an earliest one. -/
theorem eq_nil_of_earliest? {entries : Array α} (h : earliest? before entries = none) :
    entries.toList = [] := by
  unfold earliest? at h
  split at h
  · assumption
  · cases h

/-- Where `before` is transitive, nothing looked through is before the earliest entry. -/
theorem not_before_earliestFrom {P : α → Prop}
    (htrans : ∀ a b c, P a → P b → P c → before a b = true → before b c = true →
      before a c = true)
    (hirrefl : ∀ a, P a → before a a = false) (rest : List α) (position : Nat) (best : Nat × α)
    (hrest : ∀ e ∈ rest, P e) (hbest : P best.2) {u : α}
    (hu : u ∈ rest ∨ P u ∧ before u best.2 = false) :
    before u (earliestFrom before rest position best).2 = false := by
  induction rest generalizing position best with
  | nil => exact hu.elim (fun h => absurd h List.not_mem_nil) And.right
  | cons e rest ih =>
      have he : P e := hrest e List.mem_cons_self
      unfold earliestFrom
      -- the better one of the two, and nothing is before it that was not before the other
      split
      · rename_i hbefore
        refine ih _ _ (fun e' he' => hrest e' (List.mem_cons_of_mem e he')) he ?_
        rcases hu with hu | ⟨hPu, hu⟩
        · rcases List.mem_cons.mp hu with rfl | hu
          · exact .inr ⟨he, hirrefl _ he⟩
          · exact .inl hu
        · refine .inr ⟨hPu, Bool.eq_false_iff.mpr fun h => ?_⟩
          rw [htrans u e best.2 hPu he hbest h hbefore] at hu
          cases hu
      · rename_i hnot
        refine ih _ _ (fun e' he' => hrest e' (List.mem_cons_of_mem e he')) hbest ?_
        rcases hu with hu | hu
        · rcases List.mem_cons.mp hu with rfl | hu
          · exact .inr ⟨he, Bool.eq_false_iff.mpr hnot⟩
          · exact .inl hu
        · exact .inr hu

/-- **No entry is before the earliest one.** -/
theorem not_before_earliest {P : α → Prop}
    (htrans : ∀ a b c, P a → P b → P c → before a b = true → before b c = true →
      before a c = true)
    (hirrefl : ∀ a, P a → before a a = false) {entries : Array α} {position : Nat} {e : α}
    (hentries : ∀ u ∈ entries.toList, P u)
    (h : earliest? before entries = some (position, e)) {u : α} (hu : u ∈ entries.toList) :
    before u e = false := by
  unfold earliest? at h
  split at h
  · cases h
  · rename_i first rest hl
    rw [hl] at hu hentries
    have hfirst : P first := hentries first List.mem_cons_self
    have hnone := not_before_earliestFrom htrans hirrefl rest 1 (0, first)
      (fun e he => hentries e (List.mem_cons_of_mem first he)) hfirst (u := u) ?_
    · rw [Option.some.inj h] at hnone
      exact hnone
    · rcases List.mem_cons.mp hu with rfl | hu
      · exact .inr ⟨hfirst, hirrefl _ hfirst⟩
      · exact .inl hu

end EmbeddedVm.HeapOrder
