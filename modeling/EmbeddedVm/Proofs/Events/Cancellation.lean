import EmbeddedVm.Proofs.Events.Scheduler
import Mathlib.Data.List.Count

/-!
# A cancelled timer never fires

A cancellation is a mark on an identifier; the kept timer stays and is dropped, with the mark, when
a sweep comes to it. One mark drops one timer. So what matters is how many kept timers bear an
identifier, and a scheduler in use (`Ticking`) has two ways to a second one: an identifier is issued
while an earlier timer still bears it, or a drain that fails puts back a callback whose timer was
kept again for its next turn. `Clears` excludes these two, one use at a time. Then an identifier is
borne at most once (`Once.after`), a cancellation leaves it silent, and every further use leaves it
so (`Silent.after`) until it is issued again.
-/

namespace EmbeddedVm

/-! ## 1. How often an identifier is borne -/

namespace Scheduler

variable {τ : Type} {s : Scheduler τ} {id : UInt32}

/-- How many timers of a list bear an identifier. -/
def bearers (id : UInt32) (timers : List (Timer τ)) : Nat := timers.countP (·.id == id)

/-- How many callbacks of a list belong to a timer. -/
def firings (id : UInt32) (callbacks : List DueCallback) : Nat :=
  callbacks.countP (·.timer == some id)

/-- How many kept timers bear an identifier. -/
def borne (id : UInt32) (s : Scheduler τ) : Nat := bearers id s.timers.toList

/-- **No kept timer will fire under the identifier**: there is none, or a single one that is
    cancelled. -/
def Muted (id : UInt32) (s : Scheduler τ) : Prop :=
  s.borne id = 0 ∨ s.borne id = 1 ∧ s.isCancelled id = true

theorem bearers_cons (id : UInt32) (t : Timer τ) (timers : List (Timer τ)) :
    bearers id (t :: timers) = bearers id timers + if t.id = id then 1 else 0 := by
  simp [bearers, List.countP_cons]

theorem firings_cons (id : UInt32) (c : DueCallback) (callbacks : List DueCallback) :
    firings id (c :: callbacks) = firings id callbacks + if c.timer = some id then 1 else 0 := by
  simp [firings, List.countP_cons]

theorem bearers_eq_zero {timers : List (Timer τ)} :
    bearers id timers = 0 ↔ ∀ t ∈ timers, t.id ≠ id := by
  simp [bearers, List.countP_eq_zero]

theorem firings_eq_zero {callbacks : List DueCallback} :
    firings id callbacks = 0 ↔ ∀ c ∈ callbacks, c.timer ≠ some id := by
  simp [firings, List.countP_eq_zero]

/-- What is moved about is borne as often. -/
theorem bearers_perm {timers timers' : List (Timer τ)} (h : timers.Perm timers') (id : UInt32) :
    bearers id timers = bearers id timers' := h.countP_eq _

/-- A muted identifier has no timer that waits to fire. -/
theorem Muted.ne_of_pending (h : s.Muted id) {t : Timer τ} (ht : t ∈ s.pending) : t.id ≠ id := by
  obtain ⟨hkept, hlive⟩ := List.mem_filter.mp ht
  rintro rfl
  rcases h with hnone | ⟨-, hcancelled⟩
  · exact bearers_eq_zero.mp hnone t hkept rfl
  · rw [hcancelled] at hlive
    cases hlive

/-- A muted identifier cannot be cancelled again. -/
theorem Muted.cancel_eq (h : s.Muted id) : s.cancel id = (s, false) := by
  unfold cancel
  refine if_neg fun hcond => ?_
  obtain ⟨hany, hlive⟩ := Bool.and_eq_true_iff.mp hcond
  obtain ⟨t, ht, hid⟩ := Array.any_eq_true'.mp hany
  refine Muted.ne_of_pending h (List.mem_filter.mpr ⟨Array.mem_def.mp ht, ?_⟩) (beq_iff_eq.mp hid)
  rw [beq_iff_eq.mp hid]
  exact hlive

/-- What a cancellation does that finds a timer. -/
theorem cancel_eq_of_true (h : (s.cancel id).2 = true) :
    (∃ t ∈ s.timers.toList, t.id = id) ∧ s.isCancelled id = false ∧
      (s.cancel id).1 = { s with cancelled := id :: s.cancelled } := by
  unfold cancel at h ⊢
  split at h
  · rename_i hcond
    rw [if_pos hcond]
    obtain ⟨hany, hlive⟩ := Bool.and_eq_true_iff.mp hcond
    obtain ⟨t, ht, hid⟩ := Array.any_eq_true'.mp hany
    exact ⟨⟨t, Array.mem_def.mp ht, beq_iff_eq.mp hid⟩, by simpa using hlive, rfl⟩
  · cases h

/-- The timer that a cancellation silences goes out of those that will fire, and no other. -/
theorem pending_cancel (h : (s.cancel id).2 = true) (hone : s.borne id = 1) :
    ∃ t, t.id = id ∧ s.pending.Perm (t :: (s.cancel id).1.pending) := by
  obtain ⟨⟨t, ht, hid⟩, hlive, hs⟩ := cancel_eq_of_true h
  obtain ⟨earlier, later, hsplit⟩ := List.append_of_mem ht
  refine ⟨t, hid, ?_⟩
  -- the timers on both sides bear other identifiers
  have hothers : bearers id (earlier ++ later) = 0 := by
    have hall := bearers_perm (@List.perm_middle _ t earlier later) id
    rw [← hsplit, bearers_cons, if_pos hid] at hall
    exact Nat.succ.inj (hall.symm.trans hone)
  have hsame : ∀ u ∈ earlier ++ later,
      (!s.isCancelled u.id) = !(s.cancel id).1.isCancelled u.id := fun u hu => by
    have hne : u.id ≠ id := bearers_eq_zero.mp hothers u hu
    rw [hs]
    simp [isCancelled, hne]
  have hgone : (s.cancel id).1.pending =
      (earlier ++ later).filter fun u => !s.isCancelled u.id := by
    unfold pending
    rw [List.filter_congr hsame, hs]
    dsimp only
    rw [hsplit, List.filter_append, List.filter_cons_of_neg, ← List.filter_append]
    simp [isCancelled, hid]
  rw [hgone]
  unfold pending
  rw [hsplit]
  refine (List.perm_middle.filter _).trans (.of_eq (List.filter_cons_of_pos ?_))
  rw [hid, hlive]
  rfl

variable [Instant τ]

theorem borne_push (i id : UInt32) (callback : String) (due : τ) (interval : Option τ) :
    (s.push i callback due interval).borne id = s.borne id + if i = id then 1 else 0 :=
  (bearers_perm (HeapOrder.insert_perm _ _) id).trans (bearers_cons id _ _)

/-- Timers that are kept again. -/
theorem borne_rearm (timers : List (Timer τ)) (s : Scheduler τ) :
    (rearm s timers).borne id = s.borne id + bearers id timers ∧
      (rearm s timers).cancelled = s.cancelled := by
  induction timers generalizing s with
  | nil => exact ⟨rfl, rfl⟩
  | cons t rest ih =>
      obtain ⟨hborne, hcancelled⟩ := ih (s.push t.id t.callback t.due t.interval)
      refine ⟨hborne.trans ?_, hcancelled⟩
      rw [borne_push, bearers_cons]
      omega

/-- Every callback of a timer that is put back is kept as one more timer. -/
theorem borne_defer (callbacks : List DueCallback) (s : Scheduler τ) :
    (s.defer callbacks).borne id = s.borne id + firings id callbacks ∧
      (s.defer callbacks).cancelled = s.cancelled := by
  unfold defer
  induction callbacks generalizing s with
  | nil => exact ⟨rfl, rfl⟩
  | cons c rest ih =>
      rw [List.foldl_cons, firings_cons]
      obtain ⟨hborne, hcancelled⟩ := ih _
      rw [hborne, hcancelled]
      split
      · rename_i i hi
        rw [borne_push, hi]
        exact ⟨by simp only [Option.some.injEq]; omega, rfl⟩
      · rename_i hnone
        rw [hnone]
        exact ⟨by simp, rfl⟩

/-! ## 2. Sweeps -/

/-- Each timer that bears the identifier is kept, taken or kept again, and taken at most once. -/
structure Sweep.Once (id : UInt32) (w : Sweep τ) : Prop where
  total : w.rest.borne id + firings id w.taken ≤ 1
  again : bearers id w.rearmed ≤ firings id w.taken

/-- Nothing was taken for the identifier, and nothing will be. -/
structure Sweep.Muted (id : UInt32) (w : Sweep τ) : Prop where
  rest : w.rest.Muted id
  taken : firings id w.taken = 0
  again : bearers id w.rearmed = 0

theorem Sweep.bearers_again (w : Sweep τ) (t : Timer τ) (id : UInt32) :
    bearers id (w.again t) ≤ bearers id w.rearmed + if t.id = id then 1 else 0 := by
  unfold Sweep.again
  split
  · exact Nat.le_add_right _ _
  · exact Nat.le_of_eq (bearers_cons id _ _)

omit [Instant τ] in
theorem Sweep.firings_take (w : Sweep τ) (t : Timer τ) (id : UInt32) :
    firings id (⟨t.callback, some t.id⟩ :: w.taken) =
      firings id w.taken + if t.id = id then 1 else 0 := by
  simp [firings_cons]

theorem Sweep.Once.step {w w' : Sweep τ} (h : w.Once id) (hs : w.Step w') : w'.Once id := by
  obtain ⟨htotal, hagain⟩ := h
  cases hs with
  | @drop t timers perm _ =>
      have hborne : bearers id timers.toList + _ = w.rest.borne id :=
        (bearers_cons id t _).symm.trans (bearers_perm perm id)
      exact ⟨by simp only [borne] at *; omega, hagain⟩
  | @take t timers perm _ =>
      have hborne : bearers id timers.toList + _ = w.rest.borne id :=
        (bearers_cons id t _).symm.trans (bearers_perm perm id)
      have hrearm := w.bearers_again t id
      have htaken := w.firings_take t id
      exact ⟨by simp only [borne] at *; omega, by dsimp only; omega⟩

theorem Sweep.Muted.step {w w' : Sweep τ} (h : w.Muted id) (hs : w.Step w') : w'.Muted id := by
  obtain ⟨hrest, htaken, hagain⟩ := h
  cases hs with
  | @drop t timers perm cancelled =>
      have hborne : bearers id timers.toList + _ = w.rest.borne id :=
        (bearers_cons id t _).symm.trans (bearers_perm perm id)
      refine ⟨?_, htaken, hagain⟩
      by_cases hid : t.id = id
      · -- this was the one timer, and it goes with its mark
        rw [if_pos hid] at hborne
        refine .inl (show bearers id timers.toList = 0 from ?_)
        rcases hrest with hrest | ⟨hrest, -⟩ <;> omega
      · rw [if_neg hid] at hborne
        refine hrest.imp hborne.trans fun hone => ⟨hborne.trans hone.1, ?_⟩
        have hmem : id ∈ w.rest.cancelled := List.contains_iff_mem.mp hone.2
        exact List.contains_iff_mem.mpr ((List.mem_erase_of_ne (Ne.symm hid)).mpr hmem)
  | @take t timers perm live =>
      have hborne : bearers id timers.toList + _ = w.rest.borne id :=
        (bearers_cons id t _).symm.trans (bearers_perm perm id)
      have hid : t.id ≠ id :=
        hrest.ne_of_pending
          (List.mem_filter.mpr ⟨perm.mem_iff.mp List.mem_cons_self, by simp [live]⟩)
      have hrearm := w.bearers_again t id
      have hfirings := w.firings_take t id
      rw [if_neg hid] at hborne hrearm hfirings
      refine ⟨hrest.imp hborne.trans fun hone => ⟨hborne.trans hone.1, hone.2⟩, ?_, ?_⟩
      · exact hfirings.trans htaken
      · exact Nat.le_zero.mp (Nat.le_trans hrearm (Nat.le_of_eq hagain))

/-- What a sweep hands out for a timer is what it took; the callbacks of every sweep have none. -/
theorem firings_takeDue (s : Scheduler τ) :
    firings id s.takeDue.2 = firings id (sweep s.timers.size { rest := s }).taken := by
  have hmain (names : List String) :
      firings id (names.map fun callback => ⟨callback, none⟩) = 0 := by simp [firings]
  unfold takeDue
  dsimp only
  rw [firings, List.countP_append, List.countP_reverse]
  exact congrArg (_ + ·) (hmain _)

/-- After a sweep there are kept those it left and those it keeps again. -/
theorem borne_takeDue (s : Scheduler τ) :
    let w := sweep s.timers.size { rest := s }
    s.takeDue.1.borne id = w.rest.borne id + bearers id w.rearmed ∧
      s.takeDue.1.cancelled = w.rest.cancelled := by
  have hrearm := @borne_rearm τ id _ (sweep s.timers.size { rest := s }).rearmed.reverse
    (sweep s.timers.size { rest := s }).rest
  rw [bearers_perm (List.reverse_perm _)] at hrearm
  exact hrearm

/-- **A sweep takes an identifier at most once**, if it is borne at most once. -/
theorem once_takeDue (h : s.borne id ≤ 1) :
    s.takeDue.1.borne id ≤ 1 ∧ firings id s.takeDue.2 ≤ 1 := by
  have hw : (sweep s.timers.size { rest := s }).Once id :=
    sweep_keeps (fun _ _ => .step) _ ⟨h, Nat.le_refl _⟩
  have htotal := hw.total
  have hagain := hw.again
  rw [(borne_takeDue s).1, firings_takeDue]
  omega

/-- **A sweep takes nothing for a muted identifier** and leaves it muted. -/
theorem Muted.takeDue (h : s.Muted id) :
    s.takeDue.1.Muted id ∧ firings id s.takeDue.2 = 0 := by
  have hw : (sweep s.timers.size { rest := s }).Muted id :=
    sweep_keeps (fun _ _ => .step) _ ⟨h, rfl, rfl⟩
  obtain ⟨hborne, hcancelled⟩ := @borne_takeDue τ id _ s
  rw [hw.again, Nat.add_zero] at hborne
  refine ⟨hw.rest.imp hborne.trans fun hone => ⟨hborne.trans hone.1, ?_⟩, ?_⟩
  · unfold isCancelled
    rw [hcancelled]
    exact hone.2
  · rw [firings_takeDue]
    exact hw.taken

end Scheduler

/-! ## 3. A scheduler in use -/

/-- A scheduler, and what its last sweep handed out and nobody put back. -/
structure Ticking (τ : Type) where
  scheduler : Scheduler τ
  inHand : List DueCallback := []

namespace Ticking

open Scheduler

variable {τ : Type} [Instant τ]

/-- What is done with a scheduler. -/
inductive Use (τ : Type) where
  | addTimer (callback : String) (delay : τ) (repeats : Bool)
  | addMainLoop (callback : String)
  | advance (hint : Option τ) (wall : Nat)
  | cancel (id : UInt32)
  | takeDue
  /-- A drain fails: of what the last sweep handed out, all but the first `ran` goes back. -/
  | putBack (ran : Nat)

/-- Nothing scheduled, nothing in hand. -/
def start (wall : Nat) : Ticking τ := { scheduler := .empty wall }

/-- One use. -/
def after (d : Ticking τ) : Use τ → Ticking τ
  | .addTimer callback delay repeats =>
    { d with scheduler := (d.scheduler.addTimer callback delay repeats).1 }
  | .addMainLoop callback => { d with scheduler := d.scheduler.addMainLoop callback }
  | .advance hint wall => { d with scheduler := d.scheduler.advance hint wall }
  | .cancel id => { d with scheduler := (d.scheduler.cancel id).1 }
  | .takeDue => { scheduler := d.scheduler.takeDue.1, inHand := d.scheduler.takeDue.2 }
  | .putBack ran => { scheduler := d.scheduler.defer (d.inHand.drop ran) }

/-- Uses one after the other. -/
def run (d : Ticking τ) : List (Use τ) → Ticking τ
  | [] => d
  | u :: rest => (d.after u).run rest

/-- Every one of a list of uses, where it is made, is as `P` says. -/
def Throughout (P : Ticking τ → Use τ → Prop) : Ticking τ → List (Use τ) → Prop
  | _, [] => True
  | d, u :: rest => P d u ∧ Throughout P (d.after u) rest

/-- A use that hands out the identifier for a new timer. -/
def Issues (id : UInt32) (d : Ticking τ) : Use τ → Prop
  | .addTimer .. => d.scheduler.nextId = id
  | _ => False

/-- A use that puts back a callback of the timer. -/
def PutsBack (id : UInt32) (d : Ticking τ) : Use τ → Prop
  | .putBack ran => ∃ c ∈ d.inHand.drop ran, c.timer = some id
  | _ => False

/-- **No second timer comes to bear the identifier**: a use that adds one finds none kept. -/
def Clears (id : UInt32) (d : Ticking τ) (u : Use τ) : Prop :=
  d.Issues id u ∨ d.PutsBack id u → ∀ t ∈ d.scheduler.timers.toList, t.id ≠ id

instance decidableIssues (id : UInt32) (d : Ticking τ) : (u : Use τ) → Decidable (d.Issues id u)
  | .addTimer .. => inferInstanceAs (Decidable (_ = _))
  | .addMainLoop _ | .advance .. | .cancel _ | .takeDue | .putBack _ => .isFalse False.elim

instance decidablePutsBack (id : UInt32) (d : Ticking τ) :
    (u : Use τ) → Decidable (d.PutsBack id u)
  | .putBack _ => inferInstanceAs (Decidable (∃ _ ∈ _, _))
  | .addTimer .. | .addMainLoop _ | .advance .. | .cancel _ | .takeDue => .isFalse False.elim

instance (id : UInt32) (d : Ticking τ) (u : Use τ) : Decidable (d.Clears id u) :=
  inferInstanceAs (Decidable (_ → ∀ _ ∈ _, _))

instance decidableThroughout (P : Ticking τ → Use τ → Prop) [∀ d u, Decidable (P d u)] :
    (d : Ticking τ) → (uses : List (Use τ)) → Decidable (Throughout P d uses)
  | _, [] => .isTrue trivial
  | d, u :: rest =>
    have := decidableThroughout P (d.after u) rest
    inferInstanceAs (Decidable (P d u ∧ _))

variable {d : Ticking τ} {id : UInt32}

/-- **The identifier is borne once**, by a kept timer and by a callback in hand. -/
structure Once (id : UInt32) (d : Ticking τ) : Prop where
  kept : d.scheduler.borne id ≤ 1
  hand : firings id d.inHand ≤ 1

/-- **The identifier is silent**: it is muted, and where its timer has left nothing is in hand that
    could come back. -/
structure Silent (id : UInt32) (d : Ticking τ) : Prop where
  muted : d.scheduler.Muted id
  hand : d.scheduler.borne id = 0 → firings id d.inHand = 0

/-- The callbacks of a timer among those that go back are among those in hand. -/
theorem firings_drop_le (ran : Nat) (callbacks : List DueCallback) :
    firings id (callbacks.drop ran) ≤ firings id callbacks :=
  (List.drop_sublist ran callbacks).countP_le

omit [Instant τ] in
/-- Where a callback of the timer goes back, no kept timer bears the identifier. -/
theorem Clears.borne_of_putBack {ran : Nat} (h : d.Clears id (.putBack ran))
    (hback : firings id (d.inHand.drop ran) ≠ 0) : d.scheduler.borne id = 0 := by
  refine bearers_eq_zero.mpr (h (.inr ?_))
  by_contra hnone
  exact hback (firings_eq_zero.mpr fun c hc hid => hnone ⟨c, hc, hid⟩)

theorem once_start (wall : Nat) : Once id (start wall : Ticking τ) := ⟨Nat.zero_le _, Nat.zero_le _⟩

/-- Every use that clears the identifier leaves it borne once. -/
theorem Once.after (h : d.Once id) {u : Use τ} (hu : d.Clears id u) : (d.after u).Once id := by
  obtain ⟨hkept, hhand⟩ := h
  cases u with
  | addTimer callback delay repeats =>
      refine ⟨?_, hhand⟩
      refine Nat.le_trans (Nat.le_of_eq (borne_push d.scheduler.nextId id _ _ _)) ?_
      split
      · rename_i hissues
        have hnone : d.scheduler.borne id = 0 := bearers_eq_zero.mpr (hu (.inl hissues))
        exact Nat.add_le_of_le_sub (Nat.le_refl _) (Nat.le_of_eq hnone)
      · exact hkept
  | addMainLoop callback => exact ⟨hkept, hhand⟩
  | advance hint wall =>
      refine ⟨?_, hhand⟩
      show (d.scheduler.advance hint wall).borne id ≤ 1
      cases hint <;> exact hkept
  | cancel i =>
      refine ⟨?_, hhand⟩
      show (d.scheduler.cancel i).1.borne id ≤ 1
      unfold cancel
      split <;> exact hkept
  | takeDue => exact ⟨(once_takeDue hkept).1, (once_takeDue hkept).2⟩
  | putBack ran =>
      refine ⟨?_, Nat.zero_le _⟩
      show (d.scheduler.defer (d.inHand.drop ran)).borne id ≤ 1
      rw [(borne_defer _ _).1]
      by_cases hback : firings id (d.inHand.drop ran) = 0
      · rw [hback]
        exact hkept
      · rw [hu.borne_of_putBack hback, Nat.zero_add]
        exact Nat.le_trans (firings_drop_le ran d.inHand) hhand

/-- Every use that clears the identifier and does not issue it leaves it silent. -/
theorem Silent.after (h : d.Silent id) {u : Use τ} (hu : d.Clears id u)
    (hissues : ¬ d.Issues id u) :
    (d.after u).Silent id := by
  obtain ⟨hmuted, hhand⟩ := h
  cases u with
  | addTimer callback delay repeats =>
      have hborne : ((d.after (.addTimer callback delay repeats)).scheduler).borne id =
          d.scheduler.borne id :=
        (borne_push d.scheduler.nextId id _ _ _).trans (if_neg hissues ▸ rfl)
      exact ⟨hmuted.imp hborne.trans fun hone => ⟨hborne.trans hone.1, hone.2⟩,
        fun hnone => hhand (hborne.symm.trans hnone)⟩
  | addMainLoop callback => exact ⟨hmuted, hhand⟩
  | advance hint wall => cases hint <;> exact ⟨hmuted, hhand⟩
  | cancel i =>
      show Silent id { d with scheduler := (d.scheduler.cancel i).1 }
      unfold Scheduler.cancel
      split
      · refine ⟨hmuted.imp_right fun hone => ⟨hone.1, ?_⟩, hhand⟩
        exact List.contains_iff_mem.mpr
          (List.mem_cons_of_mem _ (List.contains_iff_mem.mp hone.2))
      · exact ⟨hmuted, hhand⟩
  | takeDue => exact ⟨hmuted.takeDue.1, fun _ => hmuted.takeDue.2⟩
  | putBack ran =>
      obtain ⟨hborne, hcancelled⟩ := @borne_defer τ id _ (d.inHand.drop ran) d.scheduler
      have hback : firings id (d.inHand.drop ran) = 0 := by
        by_contra hback
        have hnone := hhand (hu.borne_of_putBack hback)
        exact hback (Nat.le_zero.mp (hnone ▸ firings_drop_le ran d.inHand))
      rw [hback, Nat.add_zero] at hborne
      refine ⟨hmuted.imp hborne.trans fun hone => ⟨hborne.trans hone.1, ?_⟩, fun _ => rfl⟩
      show (d.scheduler.defer (d.inHand.drop ran)).isCancelled id = true
      unfold isCancelled
      rw [hcancelled]
      exact hone.2

theorem Once.run {uses : List (Use τ)} (h : d.Once id) (huses : Throughout (Clears id) d uses) :
    (d.run uses).Once id := by
  induction uses generalizing d with
  | nil => exact h
  | cons u rest ih => exact ih (h.after huses.1) huses.2

theorem Silent.run {uses : List (Use τ)} (h : d.Silent id) (huses : Throughout (Clears id) d uses)
    (hissues : Throughout (fun d u => ¬ d.Issues id u) d uses) : (d.run uses).Silent id := by
  induction uses generalizing d with
  | nil => exact h
  | cons u rest ih => exact ih (h.after huses.1 hissues.1) huses.2 hissues.2

theorem throughout_append {P : Ticking τ → Use τ → Prop} {uses more : List (Use τ)} :
    Throughout P d (uses ++ more) ↔ Throughout P d uses ∧ Throughout P (d.run uses) more := by
  induction uses generalizing d with
  | nil => simp [Throughout, run]
  | cons u rest ih => simp [Throughout, run, ih, and_assoc]

/-- A cancellation that finds the timer silences the identifier. -/
theorem Once.silent_cancel (h : d.Once id) (hcancel : (d.scheduler.cancel id).2 = true) :
    d.scheduler.borne id = 1 ∧ (d.after (.cancel id)).Silent id := by
  obtain ⟨⟨t, ht, hid⟩, -, hs⟩ := cancel_eq_of_true hcancel
  have hone : d.scheduler.borne id = 1 := by
    refine Nat.le_antisymm h.kept (Nat.pos_of_ne_zero fun hnone => ?_)
    exact bearers_eq_zero.mp hnone t ht hid
  have hsame : (d.after (.cancel id)).scheduler.borne id = 1 := by
    show (d.scheduler.cancel id).1.borne id = 1
    rw [hs]
    exact hone
  refine ⟨hone, ⟨.inr ⟨hsame, ?_⟩, fun hnone => absurd (hsame.symm.trans hnone) Nat.one_ne_zero⟩⟩
  show (d.scheduler.cancel id).1.isCancelled id = true
  rw [hs]
  exact List.contains_iff_mem.mpr List.mem_cons_self

/-! ## 4. Main statements -/

/-- One second. -/
def oneSecond : Binary64 := ⟨0x3ff0000000000000⟩

/-- A repeating timer whose callback was put back, because the one before it threw. -/
def putBackTick : Ticking Binary64 := (start 0).run [
  .addTimer "first" .zero false, .addTimer "tick" oneSecond true,
  .advance (some oneSecond) 0, .takeDue, .putBack 1]

/-- A sweep, and a second later. -/
def nextSecond : List (Use Binary64) := [.takeDue, .advance (some oneSecond) 0]

/-- **A cancelled timer can fire.** After a failed drain a repeating timer is kept twice, for the
    turn that was put back and for its next one; its cancellation drops one of the two. -/
theorem cancelled_timer_fires :
    (putBackTick.scheduler.cancel 2).2 = true ∧
      Throughout (fun d u => ¬ d.Issues 2 u) (putBackTick.after (.cancel 2)) nextSecond ∧
      ((putBackTick.after (.cancel 2)).run nextSecond).scheduler.takeDue.2 = [⟨"tick", some 2⟩] := by
  decide +kernel

/-- **A cancelled timer never fires**, in every history in which an identifier is issued, and a
    callback of its timer put back after a failed drain, only where no kept timer bears it. When a
    cancellation finds its timer, this timer and no other goes out of those that will fire. From
    then on, whatever is done, until the identifier is issued again: no sweep hands out a callback
    of the timer, none is pending, and a further cancellation finds nothing. -/
theorem cancelled_never_fires {wall : Nat} {id : UInt32} {earlier later : List (Use τ)}
    (hclear : Throughout (Clears id) (start wall) (earlier ++ .cancel id :: later))
    (hcancel : (((start wall).run earlier).scheduler.cancel id).2 = true)
    (hissues : Throughout (fun d u => ¬ d.Issues id u)
      (((start wall).run earlier).after (.cancel id)) later) :
    let d := (start wall).run earlier
    let d' := (d.after (.cancel id)).run later
    (∃ t, t.id = id ∧ d.scheduler.pending.Perm (t :: (d.scheduler.cancel id).1.pending) ∧
      d.scheduler.callbackNames.Perm (t.callback :: (d.scheduler.cancel id).1.callbackNames)) ∧
    (∀ c ∈ d'.scheduler.takeDue.2, c.timer ≠ some id) ∧
    (∀ t ∈ d'.scheduler.pending, t.id ≠ id) ∧
    (d'.scheduler.cancel id).2 = false := by
  obtain ⟨hearlier, -, hlater⟩ := throughout_append.mp hclear
  obtain ⟨hone, hsilent⟩ := ((once_start wall).run hearlier).silent_cancel hcancel
  have hmuted := (hsilent.run hlater hissues).muted
  refine ⟨?_, firings_eq_zero.mp hmuted.takeDue.2, fun t ht => hmuted.ne_of_pending ht, ?_⟩
  · obtain ⟨t, hid, hperm⟩ := pending_cancel hcancel hone
    refine ⟨t, hid, hperm, ?_⟩
    obtain ⟨-, -, hs⟩ := cancel_eq_of_true hcancel
    have hmain : (((start wall).run earlier).scheduler.cancel id).1.mainLoop =
        ((start wall).run earlier).scheduler.mainLoop := by rw [hs]
    unfold callbackNames
    rw [hmain]
    exact (hperm.map _).append_right _
  · rw [hmuted.cancel_eq]

/-- A callback that was put back is cancelled, and the one that threw runs on. -/
theorem cancelled_tick_never_fires :
    let earlier : List (Use Binary64) := [.addTimer "first" .zero true,
      .addTimer "tick" .zero false, .takeDue, .putBack 1]
    let later : List (Use Binary64) := [.takeDue, .addTimer "tick" .zero true, .putBack 0]
    (((start 0).run earlier).scheduler.cancel 2).2 = true ∧
      ∀ c ∈ ((((start 0).run earlier).after (.cancel 2)).run later).scheduler.takeDue.2,
        c.timer ≠ some 2 := by
  intro earlier later
  have hcancel : (((start 0).run earlier).scheduler.cancel 2).2 = true := by decide +kernel
  have hclear : Throughout (Clears 2) (start 0) (earlier ++ .cancel 2 :: later) := by
    decide +kernel
  have hissues : Throughout (fun d u => ¬ d.Issues 2 u)
      (((start 0).run earlier).after (.cancel 2)) later := by decide +kernel
  exact ⟨hcancel, (cancelled_never_fires hclear hcancel hissues).2.1⟩

end Ticking

end EmbeddedVm
