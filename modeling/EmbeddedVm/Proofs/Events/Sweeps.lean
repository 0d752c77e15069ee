import EmbeddedVm.Proofs.Events.Conservation

/-!
# What a sweep takes, and in which order

A sweep looks for the earliest timer, takes it out if it is due, and looks again. Where points in
time are ordered (`Instant.Linear`) that comes down to a division of the timers that were kept:
those that are due come up in their order, and the others stay where they are (`Popped`). What
becomes of a timer that has come up depends only on the cancellations left by those before it
(`fired`). So the whole sweep is an equation in the timers that come up (`sweep_eq`).
-/

namespace EmbeddedVm

/-! ## 1. Points in time -/

namespace Instant

variable {τ : Type} [Instant τ]

/-- No earlier than the start of time. -/
def FromStart (a : τ) : Prop := Instant.le Instant.zero a = true

/-- **Time from the start on is ordered**, and neither adding spans nor taking the later of two
    points leaves it. What is undefined or negative comes into it by a maximum with zero. -/
structure Linear (τ : Type) [Instant τ] : Prop where
  zero : FromStart (Instant.zero : τ)
  add : ∀ {a b : τ}, FromStart a → FromStart b → FromStart (Instant.add a b)
  max : ∀ {a b : τ}, FromStart a → FromStart b → FromStart (Instant.max a b)
  max_zero : ∀ a : τ, FromStart (Instant.max a Instant.zero)
  total : ∀ {a b : τ}, FromStart a → FromStart b →
    Instant.le a b = true ∨ Instant.le b a = true
  trans : ∀ {a b c : τ}, FromStart a → FromStart b → FromStart c →
    Instant.le a b = true → Instant.le b c = true → Instant.le a c = true

theorem lt_eq_true {a b : τ} : Instant.lt a b = true ↔ Instant.le b a = false := by
  unfold Instant.lt
  rw [Bool.not_eq_true']

/-- A span as asked for is a span of time. -/
theorem Linear.clean (hτ : Linear τ) (span : τ) : FromStart (Instant.clean span) := by
  unfold Instant.clean
  split
  · exact hτ.max_zero span
  · exact hτ.zero

end Instant

open Instant

variable {τ : Type} [Instant τ]

/-! ## 2. Earlier timers -/

/-- Due earlier, or equally due and inserted earlier. -/
def Timer.Earlier (t u : Timer τ) : Prop :=
  Instant.lt t.due u.due = true ∨ Instant.le t.due u.due = true ∧ t.rank < u.rank

/-- Among points in time, a timer is earlier exactly when it is due no later and, where the other is
    due no later either, was inserted first. -/
theorem Timer.earlier_iff (hτ : Linear τ) {t u : Timer τ} (ht : FromStart t.due)
    (hu : FromStart u.due) : t.Earlier u ↔
      Instant.le t.due u.due = true ∧ (Instant.le u.due t.due = true → t.rank < u.rank) := by
  unfold Timer.Earlier
  rw [lt_eq_true]
  constructor
  · rintro (h | ⟨hle, hrank⟩)
    · refine ⟨(hτ.total ht hu).resolve_right (Bool.eq_false_iff.mp h), fun h' => ?_⟩
      rw [h] at h'
      cases h'
    · exact ⟨hle, fun _ => hrank⟩
  · rintro ⟨hle, hrank⟩
    rcases Bool.eq_false_or_eq_true (Instant.le u.due t.due) with h | h
    · exact .inr ⟨hle, hrank h⟩
    · exact .inl h

namespace Scheduler

theorem before_eq_true {t u : Timer τ} : before t u = true ↔ t.Earlier u := by
  unfold before Timer.Earlier
  rw [Bool.or_eq_true, Bool.and_eq_true, decide_eq_true_iff]

theorem before_self (hτ : Linear τ) (t : Timer τ) (ht : FromStart t.due) :
    before t t = false := by
  rw [Bool.eq_false_iff, ne_eq, before_eq_true, Timer.earlier_iff hτ ht ht]
  rintro ⟨hle, hrank⟩
  exact Nat.lt_irrefl _ (hrank hle)

theorem before_trans (hτ : Linear τ) (t u v : Timer τ) (ht : FromStart t.due)
    (hu : FromStart u.due) (hv : FromStart v.due) (htu : before t u = true)
    (huv : before u v = true) : before t v = true := by
  rw [before_eq_true, Timer.earlier_iff hτ ht hu] at htu
  rw [before_eq_true, Timer.earlier_iff hτ hu hv] at huv
  rw [before_eq_true, Timer.earlier_iff hτ ht hv]
  refine ⟨hτ.trans ht hu hv htu.1 huv.1, fun hvt => ?_⟩
  -- where the last is due no later than the first, all three are equally due
  exact Nat.lt_trans (htu.2 (hτ.trans hu hv ht huv.1 hvt)) (huv.2 (hτ.trans hv ht hu hvt htu.1))

/-- Of two timers with ranks of their own, the one that the other is not before is earlier. -/
theorem earlier_of_not_before {t u : Timer τ} (hrank : t.rank ≠ u.rank)
    (h : before u t = false) : t.Earlier u ∧ Instant.le t.due u.due = true := by
  rw [Bool.eq_false_iff, ne_eq, before_eq_true] at h
  unfold Timer.Earlier at h ⊢
  rw [lt_eq_true, not_or, Bool.not_eq_false] at h
  rw [lt_eq_true]
  refine ⟨?_, h.1⟩
  rcases Bool.eq_false_or_eq_true (Instant.le u.due t.due) with hle | hle
  · have hnot : ¬ u.rank < t.rank := fun hlt => h.2 ⟨hle, hlt⟩
    exact .inr ⟨h.1, by omega⟩
  · exact .inl hle

/-! ## 3. Timers that come up -/

/-- **The timers of a sweep**: those that are due come up in their order, and the others are
    left. -/
structure Popped (clock : τ) (timers popped left : List (Timer τ)) : Prop where
  all : timers.Perm (popped ++ left)
  order : popped.Pairwise Timer.Earlier
  due : ∀ t ∈ popped, Instant.le t.due clock = true
  later : ∀ t ∈ left, Instant.lt clock t.due = true

theorem popped_of_empty {clock : τ} {timers : List (Timer τ)} (h : timers = []) :
    Popped clock timers [] timers := by
  subst h
  exact ⟨.refl _, .nil, fun _ ht => absurd ht List.not_mem_nil,
    fun _ ht => absurd ht List.not_mem_nil⟩

theorem Popped.cons {clock : τ} {t : Timer τ} {timers rest popped left : List (Timer τ)}
    (h : Popped clock rest popped left) (hall : timers.Perm (t :: rest))
    (hearlier : ∀ u ∈ rest, t.Earlier u) (hdue : Instant.le t.due clock = true) :
    Popped clock timers (t :: popped) left where
  all := hall.trans (h.all.cons t)
  order := h.order.cons fun u hu => hearlier u (h.all.mem_iff.mpr (List.mem_append_left left hu))
  due := List.forall_mem_cons.mpr ⟨hdue, h.due⟩
  later := h.later

/-- A timer that comes up uses up a cancellation of its identifier. -/
def forget (cancelled : List UInt32) (popped : List (Timer τ)) : List UInt32 :=
  popped.foldl (fun cancelled t => cancelled.erase t.id) cancelled

/-- **Of timers that come up one after the other, those that fire**: one whose identifier is
    cancelled is dropped, and its cancellation with it. -/
def fired : (cancelled : List UInt32) → List (Timer τ) → List (Timer τ)
  | _, [] => []
  | cancelled, t :: rest =>
    if t.id ∈ cancelled then fired (cancelled.erase t.id) rest else t :: fired cancelled rest

/-- The next turn of a timer that fires and repeats: an interval later, and not in the past. -/
def nextTurn (clock : τ) (t : Timer τ) : Option (Timer τ) :=
  t.interval.map fun interval =>
    { t with due := Instant.max (Instant.add t.due interval) clock }

/-- A sweep after the timers that have come up. -/
def Sweep.gather (w : Sweep τ) (popped : List (Timer τ)) (left : Array (Timer τ)) : Sweep τ where
  rest := { w.rest with timers := left, cancelled := forget w.rest.cancelled popped }
  taken := ((fired w.rest.cancelled popped).map Timer.turn).reverse ++ w.taken
  rearmed := ((fired w.rest.cancelled popped).filterMap (nextTurn w.rest.clock)).reverse ++
    w.rearmed

/-- What a sweep looks through: timers due at points in time, with ranks of their own. -/
structure Timely (timers : List (Timer τ)) : Prop where
  due : ∀ t ∈ timers, FromStart t.due
  ranks : (timers.map (·.rank)).Nodup

/-- The timer that is looked up is earlier than all others. -/
theorem Timely.earliest (hτ : Linear τ) {timers : Array (Timer τ)} (h : Timely timers.toList)
    {position : Nat} {t : Timer τ} (ht : HeapOrder.earliest? before timers = some (position, t)) :
    timers.toList.Perm (t :: (HeapOrder.removeAt before timers position).toList) ∧
      ∀ u ∈ (HeapOrder.removeAt before timers position).toList,
        t.Earlier u ∧ Instant.le t.due u.due = true := by
  have hperm : timers.toList.Perm (t :: (HeapOrder.removeAt before timers position).toList) :=
    (HeapOrder.removeAt_perm (HeapOrder.getElem?_of_earliest? ht)).symm
  refine ⟨hperm, fun u hu => ?_⟩
  have hranks := (hperm.map (·.rank)).nodup_iff.mp h.ranks
  have hrank : t.rank ≠ u.rank := fun hsame =>
    (List.nodup_cons.mp hranks).1 (List.mem_map.mpr ⟨u, hu, hsame.symm⟩)
  exact earlier_of_not_before hrank (HeapOrder.not_before_earliest (P := fun t => FromStart t.due)
    (before_trans hτ) (before_self hτ) h.due ht
    (hperm.mem_iff.mpr (List.mem_cons_of_mem t hu)))

theorem Timely.of_cons {timers rest : List (Timer τ)} {t : Timer τ} (h : Timely timers)
    (hperm : timers.Perm (t :: rest)) : Timely rest where
  due u hu := h.due u (hperm.mem_iff.mpr (List.mem_cons_of_mem t hu))
  ranks := (List.nodup_cons.mp ((hperm.map (·.rank)).nodup_iff.mp h.ranks)).2

/-- Where the earliest timer is not due, none is. -/
theorem Timely.none_due (hτ : Linear τ) {clock : τ} {timers rest : List (Timer τ)} {t : Timer τ}
    (h : Timely timers) (hclock : FromStart clock) (hperm : timers.Perm (t :: rest))
    (hfirst : ∀ u ∈ rest, Instant.le t.due u.due = true)
    (ht : Instant.le t.due clock = false) : Popped clock timers [] timers := by
  refine ⟨.refl _, .nil, fun _ hu => absurd hu List.not_mem_nil, fun u hu => ?_⟩
  rw [lt_eq_true, Bool.eq_false_iff]
  intro hdue
  have htu : Instant.le t.due u.due = true := by
    rcases List.mem_cons.mp (hperm.mem_iff.mp hu) with rfl | hu
    · exact (hτ.total (h.due _ hu) (h.due _ hu)).elim id id
    · exact hfirst u hu
  have htimer : FromStart t.due := h.due t (hperm.mem_iff.mpr List.mem_cons_self)
  rw [hτ.trans htimer (h.due u hu) hclock htu hdue] at ht
  cases ht

/-- What a sweep gathers after dropping a timer. -/
theorem gather_drop (w : Sweep τ) {t : Timer τ} (timers : Array (Timer τ))
    (ht : t.id ∈ w.rest.cancelled) (popped : List (Timer τ)) (left : Array (Timer τ)) :
    Sweep.gather { w with
        rest := { w.rest with timers, cancelled := w.rest.cancelled.erase t.id } } popped left =
      w.gather (t :: popped) left := by
  unfold Sweep.gather
  rw [show fired w.rest.cancelled (t :: popped) = fired (w.rest.cancelled.erase t.id) popped from
    if_pos ht]
  rfl

/-- What a sweep gathers after taking a timer. -/
theorem gather_take (w : Sweep τ) {t : Timer τ} (timers : Array (Timer τ))
    (ht : t.id ∉ w.rest.cancelled) (popped : List (Timer τ)) (left : Array (Timer τ)) :
    Sweep.gather
        { rest := { w.rest with timers }, taken := t.turn :: w.taken, rearmed := w.again t }
        popped left =
      w.gather (t :: popped) left := by
  have hfired : fired w.rest.cancelled (t :: popped) = t :: fired w.rest.cancelled popped :=
    if_neg ht
  have hforget : forget w.rest.cancelled (t :: popped) = forget w.rest.cancelled popped := by
    unfold forget
    rw [List.foldl_cons, List.erase_of_not_mem ht]
  unfold Sweep.gather
  rw [hfired, hforget, List.map_cons, List.reverse_cons, List.append_assoc, List.filterMap_cons]
  unfold Sweep.again nextTurn
  cases t.interval with
  | none => rfl
  | some interval => simp

/-- **A sweep takes the timers that are due, in their order.** -/
theorem sweep_eq (hτ : Linear τ) (fuel : Nat) (w : Sweep τ)
    (hfuel : w.rest.timers.size ≤ fuel) (hclock : FromStart w.rest.clock)
    (h : Timely w.rest.timers.toList) :
    ∃ popped left, Popped w.rest.clock w.rest.timers.toList popped left.toList ∧
      sweep fuel w = w.gather popped left := by
  induction fuel generalizing w with
  | zero =>
      have hnone : w.rest.timers.toList = [] :=
        List.eq_nil_of_length_eq_zero (Nat.le_zero.mp (Array.length_toList ▸ hfuel))
      exact ⟨[], w.rest.timers, popped_of_empty hnone, rfl⟩
  | succ fuel ih =>
      unfold sweep
      split
      · rename_i hnone
        exact ⟨[], w.rest.timers, popped_of_empty (HeapOrder.eq_nil_of_earliest? hnone), rfl⟩
      · rename_i position t hfound
        obtain ⟨hperm, hfirst⟩ := h.earliest hτ hfound
        have hsize := hperm.length_eq
        rw [List.length_cons, Array.length_toList, Array.length_toList] at hsize
        have hrest := h.of_cons hperm
        have hearlier := fun u hu => (hfirst u hu).1
        dsimp only
        split
        · rename_i hdue
          split
          · rename_i hcancelled
            obtain ⟨popped, left, hpopped, hsweep⟩ := ih { w with
              rest := { w.rest with
                timers := HeapOrder.removeAt before w.rest.timers position
                cancelled := w.rest.cancelled.erase t.id } } (by dsimp only; omega) hclock hrest
            refine ⟨t :: popped, left, hpopped.cons hperm hearlier hdue, hsweep.trans ?_⟩
            exact gather_drop w _ (List.contains_iff_mem.mp hcancelled) popped left
          · rename_i hlive
            obtain ⟨popped, left, hpopped, hsweep⟩ := ih {
              rest := { w.rest with
                timers := HeapOrder.removeAt before w.rest.timers position }
              taken := t.turn :: w.taken
              rearmed := w.again t } (by dsimp only; omega) hclock hrest
            refine ⟨t :: popped, left, hpopped.cons hperm hearlier hdue, hsweep.trans ?_⟩
            exact gather_take w _ (fun h => hlive (List.contains_iff_mem.mpr h)) popped left
        · rename_i hdue
          exact ⟨[], w.rest.timers, h.none_due hτ hclock hperm (fun u hu => (hfirst u hu).2)
            (Bool.eq_false_iff.mpr hdue), rfl⟩

/-- What a sweep has taken is handed out before the callbacks of every sweep, and what it has
    gathered is kept again. -/
theorem takeDue_eq_rearm (s : Scheduler τ) :
    let w := sweep s.timers.size { rest := s }
    s.takeDue = (rearm w.rest w.rearmed.reverse,
      w.taken.reverse ++ w.rest.mainLoop.map fun name => ⟨name, none⟩) := by
  intro w
  have hmain : (rearm w.rest w.rearmed.reverse).mainLoop = w.rest.mainLoop :=
    (rearm_perm _ _).2.mainLoop
  rw [← hmain]
  rfl

/-- **A whole sweep**: what has come up and fires is handed out before the callbacks of every sweep,
    and what repeats is kept again for its next turn. -/
theorem takeDue_eq (hτ : Linear τ) {s : Scheduler τ} (hclock : FromStart s.clock)
    (h : Timely s.timers.toList) :
    ∃ popped left, Popped s.clock s.timers.toList popped left.toList ∧
      s.takeDue =
        (rearm { s with timers := left, cancelled := forget s.cancelled popped }
          ((fired s.cancelled popped).filterMap (nextTurn s.clock)),
        (fired s.cancelled popped).map Timer.turn ++ s.mainLoop.map fun name => ⟨name, none⟩) := by
  obtain ⟨popped, left, hpopped, hsweep⟩ :=
    sweep_eq hτ s.timers.size { rest := s } (Nat.le_refl _) hclock h
  refine ⟨popped, left, hpopped, ?_⟩
  rw [takeDue_eq_rearm, hsweep]
  unfold Sweep.gather
  simp only [List.append_nil, List.reverse_reverse]

omit [Instant τ] in
/-- What fires has come up, in the same order. -/
theorem fired_sublist (cancelled : List UInt32) (popped : List (Timer τ)) :
    (fired cancelled popped).Sublist popped := by
  induction popped generalizing cancelled with
  | nil => exact .slnil
  | cons t rest ih =>
      unfold fired
      split
      · exact (ih _).cons t
      · exact (ih _).cons_cons t

omit [Instant τ] in
/-- An identifier stays cancelled exactly when no timer of it comes up. -/
theorem mem_forget {cancelled : List UInt32} (h : cancelled.Nodup) {popped : List (Timer τ)}
    {id : UInt32} : id ∈ forget cancelled popped ↔ id ∈ cancelled ∧ ∀ t ∈ popped, t.id ≠ id := by
  induction popped generalizing cancelled with
  | nil => exact ⟨fun hid => ⟨hid, fun _ ht => absurd ht List.not_mem_nil⟩, And.left⟩
  | cons t rest ih =>
      show id ∈ forget (cancelled.erase t.id) rest ↔ _
      rw [ih (h.erase _), h.mem_erase_iff, List.forall_mem_cons, ne_comm]
      tauto

omit [Instant τ] in
theorem nodup_forget {cancelled : List UInt32} (h : cancelled.Nodup) (popped : List (Timer τ)) :
    (forget cancelled popped).Nodup := by
  induction popped generalizing cancelled with
  | nil => exact h
  | cons t rest ih => exact ih (h.erase _)

end Scheduler

end EmbeddedVm
