import EmbeddedVm.Proofs.Events.Cancellation
import EmbeddedVm.Proofs.Events.Sweeps
import EmbeddedVm.Proofs.Number.Order

/-!
# Schedulers in use

A scheduler starts empty and is used: timers are added and cancelled, the clock moves by spans of
any kind, sweeps take what is due, and callbacks are put back, whichever they are. `Sound` is what
every operation keeps (`Sound.performAll`): times stay on the line from zero on, ranks stay
distinct, and every cancelled identifier is borne by a timer that is kept. With the clock of the
machine, then, a sweep of any scheduler in use is described completely (`takeDue_swept`).
-/

namespace EmbeddedVm

open Instant

/-! ## 1. Seconds -/

/-- **Doubles from zero on are ordered.** -/
theorem Binary64.linear : Instant.Linear Binary64 where
  zero := Binary64.zero_le.mpr (.zero _)
  add := Binary64.zero_le_add
  max {a b} ha hb := by
    show Binary64.zero.le (Binary64.max a b) = true
    rcases Binary64.max_eq_or a b with h | h <;> rw [h] <;> assumption
  max_zero := Binary64.zero_le_max
  total := Binary64.le_total_of_zero_le
  trans := Binary64.le_trans_of_zero_le

variable {τ : Type} [Instant τ]

namespace Scheduler

/-! ## 2. What every operation keeps -/

/-- A timer due at a point in time, again after spans of time if it repeats. -/
structure OnTime (t : Timer τ) : Prop where
  due : FromStart t.due
  interval : ∀ span, t.interval = some span → FromStart span

/-- **What every operation keeps.** -/
structure Sound (s : Scheduler τ) : Prop where
  clock : FromStart s.clock
  timers : ∀ t ∈ s.timers.toList, OnTime t
  ranks : (s.timers.toList.map (·.rank)).Nodup
  inserted : ∀ t ∈ s.timers.toList, t.rank ≤ s.inserted
  cancelled : s.cancelled.Nodup
  /-- A cancelled identifier is borne by a timer that is kept. -/
  borne : ∀ id ∈ s.cancelled, ∃ t ∈ s.timers.toList, t.id = id

variable {s : Scheduler τ}

theorem Sound.timely (h : s.Sound) : Timely s.timers.toList :=
  ⟨fun t ht => (h.timers t ht).due, h.ranks⟩

theorem sound_empty (hτ : Linear τ) (wall : Nat) : (empty wall : Scheduler τ).Sound where
  clock := hτ.zero
  timers _ ht := absurd ht List.not_mem_nil
  ranks := List.nodup_nil
  inserted _ ht := absurd ht List.not_mem_nil
  cancelled := List.nodup_nil
  borne _ hid := absurd hid List.not_mem_nil

theorem Sound.push (h : s.Sound) (id : UInt32) (callback : String) {due : τ}
    {interval : Option τ} (hdue : FromStart due)
    (hinterval : ∀ span, interval = some span → FromStart span) :
    (s.push id callback due interval).Sound where
  clock := h.clock
  timers t ht := by
    rcases mem_push.mp ht with rfl | ht
    · exact ⟨hdue, hinterval⟩
    · exact h.timers t ht
  ranks := by
    refine ((HeapOrder.insert_perm _ _).map Timer.rank).nodup_iff.mpr ?_
    refine List.nodup_cons.mpr ⟨fun hmem => ?_, h.ranks⟩
    obtain ⟨t, ht, hrank⟩ := List.mem_map.mp hmem
    have hle := h.inserted t ht
    dsimp only at hrank
    omega
  inserted t ht := by
    rcases mem_push.mp ht with rfl | ht
    · exact Nat.le_refl _
    · exact Nat.le_succ_of_le (h.inserted t ht)
  cancelled := h.cancelled
  borne id hid := by
    obtain ⟨t, ht, hid⟩ := h.borne id hid
    exact ⟨t, mem_push.mpr (.inr ht), hid⟩

theorem Sound.rearm (h : s.Sound) {timers : List (Timer τ)} (ht : ∀ t ∈ timers, OnTime t) :
    (rearm s timers).Sound := by
  induction timers generalizing s with
  | nil => exact h
  | cons t rest ih =>
      have htimer := ht t List.mem_cons_self
      exact ih (h.push t.id t.callback htimer.due htimer.interval)
        fun u hu => ht u (List.mem_cons_of_mem t hu)

theorem Sound.addTimer (hτ : Linear τ) (h : s.Sound) (callback : String) (delay : τ)
    (repeats : Bool) : (s.addTimer callback delay repeats).1.Sound := by
  have hdelay := hτ.clean delay
  have hnext : Sound { s with nextId := succId s.nextId } :=
    ⟨h.clock, h.timers, h.ranks, h.inserted, h.cancelled, h.borne⟩
  refine hnext.push s.nextId callback (hτ.add h.clock hdelay) fun span hspan => ?_
  split at hspan
  · cases hspan
    exact hdelay
  · cases hspan

theorem Sound.cancel (h : s.Sound) (id : UInt32) : (s.cancel id).1.Sound := by
  rcases cancel_cases s id with hcancel | hcancel
  · obtain ⟨hborne, hlive, -⟩ := cancel_eq_of_true (congrArg Prod.snd hcancel)
    rw [hcancel]
    refine ⟨h.clock, h.timers, h.ranks, h.inserted,
      List.nodup_cons.mpr ⟨fun hmem => ?_, h.cancelled⟩, List.forall_mem_cons.mpr ⟨hborne, h.borne⟩⟩
    rw [isCancelled, List.contains_iff_mem.mpr hmem] at hlive
    cases hlive
  · rw [hcancel]
    exact h

theorem Sound.advance (hτ : Linear τ) (h : s.Sound) (hint : Option τ) (wall : Nat) :
    (s.advance hint wall).Sound := by
  cases hint with
  | none =>
      exact ⟨hτ.add h.clock (hτ.max_zero _), h.timers, h.ranks, h.inserted, h.cancelled, h.borne⟩
  | some span =>
      exact ⟨hτ.add h.clock (hτ.clean span), h.timers, h.ranks, h.inserted, h.cancelled, h.borne⟩

theorem Sound.defer (h : s.Sound) (callbacks : List DueCallback) : (s.defer callbacks).Sound := by
  rw [defer_eq]
  refine h.rearm fun t ht => ?_
  obtain ⟨c, -, hc⟩ := List.mem_filterMap.mp ht
  obtain ⟨id, -, rfl⟩ := Option.map_eq_some_iff.mp hc
  exact ⟨h.clock, fun _ hspan => nomatch hspan⟩

/-- Timers that are left behind, with the cancellations that those before them have left. -/
theorem Sound.left (h : s.Sound) {popped : List (Timer τ)} {left : Array (Timer τ)}
    (hpopped : Popped s.clock s.timers.toList popped left.toList) :
    Sound { s with timers := left, cancelled := forget s.cancelled popped } := by
  have hleft : ∀ t ∈ left.toList, t ∈ s.timers.toList := fun t ht =>
    hpopped.all.mem_iff.mpr (List.mem_append_right popped ht)
  refine ⟨h.clock, fun t ht => h.timers t (hleft t ht), ?_, fun t ht => h.inserted t (hleft t ht),
    nodup_forget h.cancelled popped, fun id hid => ?_⟩
  · have hranks := (hpopped.all.map Timer.rank).nodup_iff.mp h.ranks
    rw [List.map_append] at hranks
    exact (List.nodup_append.mp hranks).2.1
  · obtain ⟨hmem, hnone⟩ := (mem_forget h.cancelled).mp hid
    obtain ⟨t, ht, rfl⟩ := h.borne id hmem
    -- no timer of the identifier came up, so the one that bears it was left
    rcases List.mem_append.mp (hpopped.all.mem_iff.mp ht) with ht | ht
    · exact absurd rfl (hnone t ht)
    · exact ⟨t, ht, rfl⟩

/-- The next turn of a timer comes at a point in time. -/
theorem OnTime.nextTurn (hτ : Linear τ) {clock : τ} (hclock : FromStart clock) {t u : Timer τ}
    (ht : OnTime t) (hu : u ∈ Scheduler.nextTurn clock t) : OnTime u := by
  obtain ⟨interval, hinterval, rfl⟩ := Option.map_eq_some_iff.mp hu
  have hspan := ht.interval interval hinterval
  exact ⟨hτ.max (hτ.add ht.due hspan) hclock, ht.interval⟩

/-! ## 3. Sweeps of a scheduler in use -/

/-- What is done with a scheduler. -/
inductive Operation (τ : Type) where
  | addTimer (callback : String) (delay : τ) (repeats : Bool)
  | cancel (id : UInt32)
  | addMainLoop (callback : String)
  | advance (hint : Option τ) (wall : Nat)
  | takeDue
  /-- Callbacks are put back, whether they were ever handed out or not. -/
  | defer (callbacks : List DueCallback)

/-- One operation. -/
def perform (s : Scheduler τ) : Operation τ → Scheduler τ
  | .addTimer callback delay repeats => (s.addTimer callback delay repeats).1
  | .cancel id => (s.cancel id).1
  | .addMainLoop callback => s.addMainLoop callback
  | .advance hint wall => s.advance hint wall
  | .takeDue => s.takeDue.1
  | .defer callbacks => s.defer callbacks

/-- Operations one after the other. -/
def performAll (s : Scheduler τ) (operations : List (Operation τ)) : Scheduler τ :=
  operations.foldl perform s

/-- **What a sweep does to a scheduler**, where `popped` are the timers that come up and `left`
    those that do not. -/
structure Swept (s : Scheduler τ) (popped left : List (Timer τ)) (s' : Scheduler τ)
    (handed : List DueCallback) : Prop where
  /-- The clock and the times of all timers are comparable. -/
  times : FromStart s.clock ∧ ∀ t ∈ s.timers.toList, FromStart t.due
  /-- What is due comes up in its order, and nothing else does. -/
  comeUp : Popped s.clock s.timers.toList popped left
  /-- What fires is handed out in its order, and then come the callbacks of every sweep. -/
  handed : handed = (fired s.cancelled popped).map Timer.turn ++
    s.mainLoop.map fun name => ⟨name, none⟩
  order : (fired s.cancelled popped).Pairwise Timer.Earlier
  /-- Kept afterwards are those left and, for each that fires and repeats, its next turn. -/
  kept : s'.timers.toList.Perm
    (left ++ ranked s.inserted ((fired s.cancelled popped).filterMap (nextTurn s.clock)))
  /-- A timer that comes up takes the cancellation of its identifier with it. -/
  cancelled : ∀ id, id ∈ s'.cancelled ↔ id ∈ s.cancelled ∧ ∀ t ∈ popped, t.id ≠ id
  /-- Every identifier still cancelled is borne by a timer that is kept. -/
  borne : ∀ id ∈ s'.cancelled, ∃ t ∈ s'.timers.toList, t.id = id
  clock : s'.clock = s.clock
  mainLoop : s'.mainLoop = s.mainLoop

/-- A sweep of a sound scheduler, which stays sound. -/
theorem Sound.takeDue (hτ : Linear τ) (h : s.Sound) :
    s.takeDue.1.Sound ∧ ∃ popped left, Swept s popped left s.takeDue.1 s.takeDue.2 := by
  obtain ⟨popped, left, hpopped, hsweep⟩ := takeDue_eq hτ h.clock h.timely
  have hturns : ∀ t ∈ (fired s.cancelled popped).filterMap (nextTurn s.clock), OnTime t :=
    fun t ht => by
      obtain ⟨u, hu, ht⟩ := List.mem_filterMap.mp ht
      have hkept := hpopped.all.mem_iff.mpr
        (List.mem_append_left left.toList ((fired_sublist _ _).mem hu))
      exact (h.timers u hkept).nextTurn hτ h.clock ht
  have hsound := (h.left hpopped).rearm hturns
  obtain ⟨hperm, hsame⟩ := rearm_perm ((fired s.cancelled popped).filterMap (nextTurn s.clock))
    { s with timers := left, cancelled := forget s.cancelled popped }
  rw [hsweep]
  refine ⟨hsound, popped, left.toList, ?_⟩
  exact {
    times := ⟨h.clock, h.timely.due⟩
    comeUp := hpopped
    handed := rfl
    order := hpopped.order.sublist (fired_sublist _ _)
    kept := hperm.trans List.perm_append_comm
    cancelled := fun id => by
      rw [← mem_forget h.cancelled]
      exact iff_of_eq (congrArg (id ∈ ·) hsame.cancelled)
    borne := hsound.borne
    clock := hsame.clock
    mainLoop := hsame.mainLoop }

theorem Sound.perform (hτ : Linear τ) (h : s.Sound) (o : Operation τ) : (s.perform o).Sound := by
  cases o with
  | addTimer callback delay repeats => exact h.addTimer hτ callback delay repeats
  | cancel id => exact h.cancel id
  | addMainLoop callback => exact ⟨h.clock, h.timers, h.ranks, h.inserted, h.cancelled, h.borne⟩
  | advance hint wall => exact h.advance hτ hint wall
  | takeDue => exact (h.takeDue hτ).1
  | defer callbacks => exact h.defer callbacks

/-- **Every operation keeps a scheduler sound.** -/
theorem Sound.performAll (hτ : Linear τ) (h : s.Sound) (operations : List (Operation τ)) :
    (s.performAll operations).Sound := by
  induction operations generalizing s with
  | nil => exact h
  | cons o rest ih => exact ih (h.perform hτ o)

/-- **A sweep, completely**: of every scheduler in use, what is due comes up in the order of due
    times and insertions; each of these fires or, if its identifier is cancelled, is dropped with
    the cancellation; what fires and repeats is kept once more, for a later sweep; and nothing else
    changes. -/
theorem takeDue_swept (wall : Nat) (operations : List (Operation Binary64)) :
    let s := (empty wall : Scheduler Binary64).performAll operations
    ∃ popped left, Swept s popped left s.takeDue.1 s.takeDue.2 :=
  have hstart := sound_empty Binary64.linear wall
  ((hstart.performAll Binary64.linear operations).takeDue Binary64.linear).2

end Scheduler

end EmbeddedVm
