import EmbeddedVm.Events.Scheduler
import EmbeddedVm.Proofs.Events.HeapOrder

/-!
# The scheduler hands out the names it was given

Callbacks are stored by name. `Within p` says that all names in a scheduler have a property, those
of cancelled timers too. Every operation keeps it, a sweep hands out such names only, and what is
put back afterwards had it before (`within_takeDue`, `Within.defer`). So whatever holds of a name
when it is registered still holds when it is called.
-/

namespace EmbeddedVm.Scheduler

variable {τ : Type} [Instant τ] {p : String → Prop} {s : Scheduler τ}

/-- **Every name in the scheduler has the property.** -/
structure Within (p : String → Prop) (s : Scheduler τ) : Prop where
  timers : ∀ t ∈ s.timers.toList, p t.callback
  mainLoop : ∀ name ∈ s.mainLoop, p name

/-- Every callback in a list has the property. -/
def AllDue (p : String → Prop) (due : List DueCallback) : Prop := ∀ c ∈ due, p c.callback

theorem within_empty (wall : Nat) : Within p (empty wall : Scheduler τ) :=
  ⟨fun _ ht => absurd ht List.not_mem_nil, fun _ hn => absurd hn List.not_mem_nil⟩

omit [Instant τ] in
theorem Within.mono {q : String → Prop} (h : s.Within p) (hpq : ∀ name, p name → q name) :
    s.Within q :=
  ⟨fun t ht => hpq _ (h.timers t ht), fun name hn => hpq _ (h.mainLoop name hn)⟩

/-! ## 1. Registering and cancelling -/

theorem Within.push (h : s.Within p) {id : UInt32} {callback : String} (hc : p callback) (due : τ)
    (interval : Option τ) : (s.push id callback due interval).Within p := by
  refine ⟨fun t ht => ?_, h.mainLoop⟩
  rcases List.mem_cons.mp ((HeapOrder.insert_perm _ _).mem_iff.mp ht) with rfl | ht
  · exact hc
  · exact h.timers t ht

theorem Within.addTimer (h : s.Within p) {callback : String} (hc : p callback) (delay : τ)
    (repeats : Bool) : (s.addTimer callback delay repeats).1.Within p := by
  have hnext : Within p { s with nextId := succId s.nextId } := ⟨h.timers, h.mainLoop⟩
  exact hnext.push hc _ _

omit [Instant τ] in
theorem Within.cancel (h : s.Within p) (id : UInt32) : (s.cancel id).1.Within p := by
  unfold Scheduler.cancel
  split
  · exact ⟨h.timers, h.mainLoop⟩
  · exact h

omit [Instant τ] in
theorem Within.addMainLoop (h : s.Within p) {callback : String} (hc : p callback) :
    (s.addMainLoop callback).Within p := by
  refine ⟨h.timers, fun name hn => ?_⟩
  rcases List.mem_append.mp hn with hn | hn
  · exact h.mainLoop name hn
  · rw [List.mem_singleton.mp hn]
    exact hc

theorem Within.advance (h : s.Within p) (hint : Option τ) (wall : Nat) :
    (s.advance hint wall).Within p := by
  unfold Scheduler.advance
  split
  · exact ⟨h.timers, h.mainLoop⟩
  · exact ⟨h.timers, h.mainLoop⟩

/-! ## 2. Sweeps -/

/-- The repeating timer that is kept again, after a sweep, in the place of one it took. -/
def Sweep.again (w : Sweep τ) (t : Timer τ) : List (Timer τ) :=
  match t.interval with
  | none => w.rearmed
  | some interval =>
    { t with due := Instant.max (Instant.add t.due interval) w.rest.clock } :: w.rearmed

/-- **One timer of a sweep**: it goes out of those that are kept, and is dropped with its
    cancellation or taken. -/
inductive Sweep.Step (w : Sweep τ) : Sweep τ → Prop where
  | drop {t : Timer τ} {timers : Array (Timer τ)}
      (perm : (t :: timers.toList).Perm w.rest.timers.toList)
      (cancelled : w.rest.isCancelled t.id = true) :
    Step w { w with
      rest := { w.rest with timers, cancelled := w.rest.cancelled.erase t.id } }
  | take {t : Timer τ} {timers : Array (Timer τ)}
      (perm : (t :: timers.toList).Perm w.rest.timers.toList)
      (live : w.rest.isCancelled t.id = false) :
    Step w {
      rest := { w.rest with timers }
      taken := ⟨t.callback, some t.id⟩ :: w.taken
      rearmed := w.again t }

/-- **What every timer of a sweep keeps, the sweep keeps.** -/
theorem sweep_keeps {P : Sweep τ → Prop} (hstep : ∀ w w', P w → w.Step w' → P w') (fuel : Nat)
    {w : Sweep τ} (h : P w) : P (sweep fuel w) := by
  induction fuel generalizing w with
  | zero => exact h
  | succ fuel ih =>
      unfold sweep
      split
      · exact h
      · rename_i position t hearliest
        have hperm : (t :: (HeapOrder.removeAt before w.rest.timers position).toList).Perm _ :=
          HeapOrder.removeAt_perm (HeapOrder.getElem?_of_earliest? hearliest)
        split
        · dsimp only
          split
          · rename_i hcancelled
            exact ih (hstep _ _ h (.drop hperm hcancelled))
          · rename_i hlive
            exact ih (hstep _ _ h (.take hperm (Bool.eq_false_iff.mpr hlive)))
        · exact h

/-- What a sweep has gathered has the property. -/
structure Sweep.Within (p : String → Prop) (w : Sweep τ) : Prop where
  rest : w.rest.Within p
  taken : AllDue p w.taken
  rearmed : ∀ t ∈ w.rearmed, p t.callback

theorem Sweep.Within.step {w w' : Sweep τ} (h : w.Within p) (hs : w.Step w') : w'.Within p := by
  cases hs with
  | drop perm _ =>
      exact ⟨⟨fun u hu => h.rest.timers u (perm.mem_iff.mp (List.mem_cons_of_mem _ hu)),
        h.rest.mainLoop⟩, h.taken, h.rearmed⟩
  | @take t timers perm _ =>
      have ht : p t.callback := h.rest.timers t (perm.mem_iff.mp List.mem_cons_self)
      refine ⟨⟨fun u hu => h.rest.timers u (perm.mem_iff.mp (List.mem_cons_of_mem _ hu)),
        h.rest.mainLoop⟩, fun c hc => ?_, fun u hu => ?_⟩
      · rcases List.mem_cons.mp hc with rfl | hc
        · exact ht
        · exact h.taken c hc
      · unfold Sweep.again at hu
        split at hu
        · exact h.rearmed u hu
        · rcases List.mem_cons.mp hu with rfl | hu
          · exact ht
          · exact h.rearmed u hu

/-- Timers kept again, one after the other. -/
def rearm (s : Scheduler τ) (timers : List (Timer τ)) : Scheduler τ :=
  timers.foldl (fun s t => s.push t.id t.callback t.due t.interval) s

theorem Within.rearm {timers : List (Timer τ)} (h : s.Within p)
    (ht : ∀ t ∈ timers, p t.callback) :
    (rearm s timers).Within p := by
  induction timers generalizing s with
  | nil => exact h
  | cons t rest ih =>
      exact ih (h.push (ht t List.mem_cons_self) _ _) fun u hu => ht u (List.mem_cons_of_mem t hu)

/-- **A sweep leaves and hands out names that were there.** -/
theorem within_takeDue (h : s.Within p) : s.takeDue.1.Within p ∧ AllDue p s.takeDue.2 := by
  have hw : (sweep s.timers.size { rest := s }).Within p := sweep_keeps (fun _ _ => .step) _
    ⟨h, fun _ hc => absurd hc List.not_mem_nil, fun _ ht => absurd ht List.not_mem_nil⟩
  have hs := hw.rest.rearm fun t ht => hw.rearmed t (List.mem_reverse.mp ht)
  refine ⟨hs, fun c hc => ?_⟩
  rcases List.mem_append.mp hc with hc | hc
  · exact hw.taken c (List.mem_reverse.mp hc)
  · obtain ⟨name, hn, rfl⟩ := List.mem_map.mp hc
    exact hs.mainLoop name hn

theorem AllDue.tail {c : DueCallback} {rest : List DueCallback} (h : AllDue p (c :: rest)) :
    AllDue p rest := fun d hd => h d (List.mem_cons_of_mem c hd)

/-- **What is put back is what was handed out.** -/
theorem Within.defer (h : s.Within p) {callbacks : List DueCallback} (hc : AllDue p callbacks) :
    (s.defer callbacks).Within p := by
  unfold Scheduler.defer
  induction callbacks generalizing s with
  | nil => exact h
  | cons c rest ih =>
      rw [List.foldl_cons]
      refine ih ?_ hc.tail
      split
      · exact h.push (hc c List.mem_cons_self) _ _
      · exact h

end EmbeddedVm.Scheduler
