import EmbeddedVm.Proofs.Events.Scheduler
import Mathlib.Data.List.Count
import Mathlib.Logic.Relation

/-!
# No timer is lost

A drain takes a list off the scheduler and goes through it: each callback is called, or passed over
where its function is missing, and what stands behind one that throws goes back. The callbacks
meanwhile schedule and cancel as they like. `Logbook` keeps beside the scheduler what the drain has
in its hands and what became of everything so far, and `Step` is one thing that can happen, with
nothing said of the order.

A timer that does not repeat and is not cancelled is then always in one place: kept, in hand,
called, or passed over. Every step moves it from one of these to another or leaves it where it is,
so the places together hold as many of it as were issued (`Balanced.steps`).
-/

namespace EmbeddedVm

/-- What a sweep hands out for a timer. -/
def Timer.turn {τ : Type} (t : Timer τ) : DueCallback := ⟨t.callback, some t.id⟩

/-- A timer bears the identifier of its callback. -/
theorem Timer.id_of_turn {τ : Type} {t : Timer τ} {c : DueCallback} {id : UInt32}
    (h : t.turn = c) (hc : c.timer = some id) : t.id = id := by
  subst h
  exact Option.some.inj hc

namespace Scheduler

variable {τ : Type} {s : Scheduler τ} {c : DueCallback} {id : UInt32}

/-! ## 1. Timers that are kept -/

/-- What sweeps will hand out for the timers that are kept. -/
def turns (s : Scheduler τ) : List DueCallback := s.timers.toList.map Timer.turn

/-- What sweeps will hand out for the timers that are not cancelled. -/
def pendingTurns (s : Scheduler τ) : List DueCallback := s.pending.map Timer.turn

/-- Timers under the ranks that follow one. -/
def ranked : Nat → List (Timer τ) → List (Timer τ)
  | _, [] => []
  | rank, t :: rest => { t with rank := rank + 1 } :: ranked (rank + 1) rest

/-- Every timer under a new rank is one under another. -/
theorem exists_of_mem_ranked {rank : Nat} {timers : List (Timer τ)} {t : Timer τ}
    (h : t ∈ ranked rank timers) : rank < t.rank ∧ ∃ u ∈ timers, t = { u with rank := t.rank } := by
  induction timers generalizing rank with
  | nil => cases h
  | cons u rest ih =>
      rcases List.mem_cons.mp h with rfl | h
      · exact ⟨Nat.lt_succ_self _, u, List.mem_cons_self, rfl⟩
      · obtain ⟨hrank, v, hv, ht⟩ := ih h
        exact ⟨Nat.lt_of_succ_lt hrank, v, List.mem_cons_of_mem _ hv, ht⟩

theorem map_turn_ranked (rank : Nat) (timers : List (Timer τ)) :
    (ranked rank timers).map Timer.turn = timers.map Timer.turn := by
  induction timers generalizing rank with
  | nil => rfl
  | cons t rest ih => exact congrArg (t.turn :: ·) (ih _)

/-- The ranks follow the order of the list. -/
theorem pairwise_ranked (rank : Nat) (timers : List (Timer τ)) :
    (ranked rank timers).Pairwise (·.rank < ·.rank) := by
  induction timers generalizing rank with
  | nil => exact .nil
  | cons t rest ih => exact .cons (fun u hu => (exists_of_mem_ranked hu).1) (ih _)

/-- Of an identifier that is not cancelled, what is kept is pending. -/
theorem count_pendingTurns (hc : c.timer = some id) (hlive : s.isCancelled id = false) :
    s.pendingTurns.count c = s.turns.count c := by
  unfold pendingTurns turns pending
  rw [List.count_eq_countP, List.count_eq_countP, List.countP_map, List.countP_map,
    List.countP_filter]
  refine List.countP_congr fun t _ => ?_
  simp only [Function.comp_apply, beq_iff_eq, Bool.and_eq_true, Bool.not_eq_true']
  constructor
  · intro h
    exact h.1
  · intro h
    rw [Timer.id_of_turn h hc]
    exact ⟨h, hlive⟩

/-- A cancellation marks the identifier or does nothing. -/
theorem cancel_cases (s : Scheduler τ) (i : UInt32) :
    s.cancel i = ({ s with cancelled := i :: s.cancelled }, true) ∨ s.cancel i = (s, false) := by
  unfold cancel
  split
  · exact .inl rfl
  · exact .inr rfl

/-- What a scheduler keeps besides its timers and the number of insertions. -/
structure SameBut (s s' : Scheduler τ) : Prop where
  clock : s'.clock = s.clock
  cancelled : s'.cancelled = s.cancelled
  mainLoop : s'.mainLoop = s.mainLoop

variable [Instant τ]

theorem mem_push {i : UInt32} {callback : String} {due : τ} {interval : Option τ} {t : Timer τ} :
    t ∈ (s.push i callback due interval).timers.toList ↔
      t = ⟨due, s.inserted + 1, i, callback, interval⟩ ∨ t ∈ s.timers.toList :=
  (HeapOrder.insert_perm _ _).mem_iff.trans List.mem_cons

theorem turns_push (i : UInt32) (callback : String) (due : τ) (interval : Option τ) :
    (s.push i callback due interval).turns.Perm (⟨callback, some i⟩ :: s.turns) :=
  (HeapOrder.insert_perm _ _).map _

theorem turns_addTimer (callback : String) (delay : τ) (repeats : Bool) :
    (s.addTimer callback delay repeats).1.turns.Perm (⟨callback, some s.nextId⟩ :: s.turns) :=
  turns_push (s := { s with nextId := succId s.nextId }) _ _ _ _

/-- **Timers that are kept again** come under the next ranks, in their order. -/
theorem rearm_perm (timers : List (Timer τ)) (s : Scheduler τ) :
    (rearm s timers).timers.toList.Perm (ranked s.inserted timers ++ s.timers.toList) ∧
      SameBut s (rearm s timers) := by
  induction timers generalizing s with
  | nil => exact ⟨.refl _, rfl, rfl, rfl⟩
  | cons t rest ih =>
      obtain ⟨hperm, hclock, hcancelled, hmain⟩ := ih (s.push t.id t.callback t.due t.interval)
      refine ⟨hperm.trans ?_, hclock, hcancelled, hmain⟩
      exact ((HeapOrder.insert_perm _ _).append_left _).trans List.perm_middle

/-- The timer under which a callback is put back; a callback of every sweep has none. -/
def returning (clock : τ) (c : DueCallback) : Option (Timer τ) :=
  c.timer.map fun id => { due := clock, rank := 0, id, callback := c.callback, interval := none }

/-- What is put back is kept again, due at once. -/
theorem defer_eq (callbacks : List DueCallback) (s : Scheduler τ) :
    s.defer callbacks = rearm s (callbacks.filterMap (returning s.clock)) := by
  unfold defer
  induction callbacks generalizing s with
  | nil => rfl
  | cons c rest ih =>
      rw [List.foldl_cons, ih]
      cases hc : c.timer with
      | none =>
          rw [List.filterMap_cons_none]
          unfold returning
          rw [hc]
          rfl
      | some i =>
          rw [List.filterMap_cons_some (b := ⟨s.clock, 0, i, c.callback, none⟩)]
          · rfl
          · unfold returning
            rw [hc]
            rfl

omit [Instant τ] in
theorem map_turn_returning (clock : τ) (callbacks : List DueCallback) :
    (callbacks.filterMap (returning clock)).map Timer.turn =
      callbacks.filter (·.timer.isSome) := by
  induction callbacks with
  | nil => rfl
  | cons c rest ih =>
      obtain ⟨callback, _ | i⟩ := c
      · exact ih
      · exact congrArg (_ :: ·) ih

/-- **What is put back is kept behind everything inserted before**, due at once, in its order, and
    does not repeat. -/
theorem defer_perm (callbacks : List DueCallback) (s : Scheduler τ) :
    ∃ kept : List (Timer τ),
      (s.defer callbacks).timers.toList.Perm (kept ++ s.timers.toList) ∧
      kept.map Timer.turn = callbacks.filter (·.timer.isSome) ∧
      (∀ t ∈ kept, t.due = s.clock ∧ t.interval = none) ∧ kept.Pairwise (·.rank < ·.rank) ∧
      SameBut s (s.defer callbacks) := by
  obtain ⟨hperm, hsame⟩ := rearm_perm (callbacks.filterMap (returning s.clock)) s
  rw [← defer_eq] at hperm hsame
  refine ⟨_, hperm, ?_, fun t ht => ?_, pairwise_ranked _ _, hsame⟩
  · rw [map_turn_ranked, map_turn_returning]
  · obtain ⟨-, u, hu, ht⟩ := exists_of_mem_ranked ht
    obtain ⟨c, -, hreturning⟩ := List.mem_filterMap.mp hu
    obtain ⟨i, -, rfl⟩ := Option.map_eq_some_iff.mp hreturning
    rw [ht]
    exact ⟨rfl, rfl⟩

/-! ## 2. Sweeps -/

/-- A timer without a next turn, under an identifier that is not cancelled, is kept or taken. -/
structure Sweep.Balanced (c : DueCallback) (id : UInt32) (n : Nat) (w : Sweep τ) : Prop where
  total : w.rest.turns.count c + w.taken.count c = n
  once : ∀ t ∈ w.rest.timers.toList, t.turn = c → t.interval = none
  again : ∀ t ∈ w.rearmed, t.turn ≠ c
  live : w.rest.isCancelled id = false

/-- Erasing cancellations cancels nothing. -/
theorem contains_erase {cancelled : List UInt32} (h : cancelled.contains id = false) (i : UInt32) :
    (cancelled.erase i).contains id = false := by
  rw [Bool.eq_false_iff] at h ⊢
  intro hid
  exact h (List.contains_iff_mem.mpr (List.mem_of_mem_erase (List.contains_iff_mem.mp hid)))

theorem Sweep.Balanced.step {n : Nat} {w w' : Sweep τ} (hc : c.timer = some id)
    (h : w.Balanced c id n) (hs : w.Step w') : w'.Balanced c id n := by
  obtain ⟨htotal, honce, hagain, hlive⟩ := h
  cases hs with
  | @drop t timers perm cancelled =>
      have hne : t.turn ≠ c := by
        intro hturn
        rw [Timer.id_of_turn hturn hc, hlive] at cancelled
        cases cancelled
      have hcount := (perm.map Timer.turn).count_eq c
      rw [List.map_cons, List.count_cons_of_ne hne] at hcount
      refine ⟨?_, fun u hu => honce u (perm.mem_iff.mp (List.mem_cons_of_mem _ hu)), hagain,
        contains_erase hlive _⟩
      rw [← htotal]
      exact congrArg (· + w.taken.count c) hcount
  | @take t timers perm live =>
      have hcount := (perm.map Timer.turn).count_eq c
      rw [List.map_cons] at hcount
      refine ⟨?_, fun u hu => honce u (perm.mem_iff.mp (List.mem_cons_of_mem _ hu)),
        fun u hu => ?_, hlive⟩
      · rw [← htotal]
        show (timers.toList.map Timer.turn).count c + (t.turn :: w.taken).count c =
          (w.rest.timers.toList.map Timer.turn).count c + w.taken.count c
        rw [← hcount, List.count_cons, List.count_cons]
        omega
      · unfold Sweep.again at hu
        split at hu
        · exact hagain u hu
        · rename_i interval hinterval
          rcases List.mem_cons.mp hu with rfl | hu
          · intro hturn
            have hnone := honce t (perm.mem_iff.mp List.mem_cons_self) hturn
            rw [hnone] at hinterval
            cases hinterval
          · exact hagain u hu

/-- What a sweep has taken is of no cancelled timer. -/
theorem Sweep.taken_live (s : Scheduler τ) :
    ∀ c ∈ (sweep s.timers.size { rest := s }).taken, ∀ id, c.timer = some id →
      (sweep s.timers.size { rest := s }).rest.isCancelled id = false := by
  refine sweep_keeps (P := fun w => ∀ c ∈ w.taken, ∀ id, c.timer = some id →
    w.rest.isCancelled id = false) (fun w w' h hs => ?_) _ fun _ hc => absurd hc List.not_mem_nil
  cases hs with
  | drop perm cancelled => exact fun c hc id hid => contains_erase (h c hc id hid) _
  | take perm live =>
      intro c hc id hid
      rcases List.mem_cons.mp hc with rfl | hc
      · cases hid
        exact live
      · exact h c hc id hid

/-- What a sweep leaves as it is. -/
theorem sweep_same (s : Scheduler τ) :
    (sweep s.timers.size { rest := s }).rest.clock = s.clock ∧
      (sweep s.timers.size { rest := s }).rest.mainLoop = s.mainLoop :=
  sweep_keeps (P := fun w => w.rest.clock = s.clock ∧ w.rest.mainLoop = s.mainLoop)
    (fun w w' h hs => by cases hs <;> exact h) _ ⟨rfl, rfl⟩

/-- What is kept after a sweep: what it left, and what is kept again. -/
theorem takeDue_perm (s : Scheduler τ) :
    let w := sweep s.timers.size { rest := s }
    s.takeDue.1.timers.toList.Perm
        (ranked w.rest.inserted w.rearmed.reverse ++ w.rest.timers.toList) ∧
      SameBut w.rest s.takeDue.1 :=
  rearm_perm _ _

/-- A sweep leaves the clock and the callbacks of every sweep. -/
theorem takeDue_same (s : Scheduler τ) :
    s.takeDue.1.clock = s.clock ∧ s.takeDue.1.mainLoop = s.mainLoop := by
  have hrearm := (takeDue_perm s).2
  have hsweep := sweep_same s
  exact ⟨hrearm.clock.trans hsweep.1, hrearm.mainLoop.trans hsweep.2⟩

/-- No timer is cancelled whose callback a sweep has handed out. -/
theorem due_live (s : Scheduler τ) :
    ∀ c ∈ s.takeDue.2, ∀ id, c.timer = some id → s.takeDue.1.isCancelled id = false := by
  intro c hc id hid
  unfold isCancelled
  rw [(takeDue_perm s).2.cancelled]
  rcases List.mem_append.mp hc with hc | hc
  · exact Sweep.taken_live s c (List.mem_reverse.mp hc) id hid
  · obtain ⟨name, -, rfl⟩ := List.mem_map.mp hc
    cases hid

/-- **A sweep keeps a timer or hands it out**, if it has no next turn and is not cancelled. -/
theorem balanced_takeDue (hc : c.timer = some id) (hlive : s.isCancelled id = false)
    (honce : ∀ t ∈ s.timers.toList, t.turn = c → t.interval = none) :
    s.takeDue.1.turns.count c + s.takeDue.2.count c = s.turns.count c ∧
      (∀ t ∈ s.takeDue.1.timers.toList, t.turn = c → t.interval = none) ∧
      s.takeDue.1.isCancelled id = false := by
  have hw : (sweep s.timers.size { rest := s }).Balanced c id (s.turns.count c) :=
    sweep_keeps (fun _ _ => Sweep.Balanced.step hc) _
      ⟨rfl, honce, fun _ ht => absurd ht List.not_mem_nil, hlive⟩
  obtain ⟨hperm, hsame⟩ := takeDue_perm s
  -- nothing that is kept again has the callback
  have hagain : ∀ t ∈ ranked (sweep s.timers.size { rest := s }).rest.inserted
      (sweep s.timers.size { rest := s }).rearmed.reverse, t.turn ≠ c := by
    intro t ht
    obtain ⟨-, u, hu, ht⟩ := exists_of_mem_ranked ht
    rw [ht]
    exact hw.again u (List.mem_reverse.mp hu)
  have hkept : s.takeDue.1.turns.count c =
      (sweep s.timers.size { rest := s }).rest.turns.count c := by
    unfold turns
    rw [(hperm.map _).count_eq, List.map_append, List.count_append, Nat.add_eq_right]
    refine List.count_eq_zero.mpr fun hmem => ?_
    obtain ⟨t, ht, hturn⟩ := List.mem_map.mp hmem
    exact hagain t ht hturn
  have htaken : s.takeDue.2.count c =
      (sweep s.timers.size { rest := s }).taken.count c := by
    show List.count c (_ ++ _) = _
    rw [List.count_append, List.count_reverse, Nat.add_eq_left]
    refine List.count_eq_zero.mpr fun hmem => ?_
    obtain ⟨name, -, rfl⟩ := List.mem_map.mp hmem
    cases hc
  refine ⟨?_, fun t ht hturn => ?_, ?_⟩
  · rw [hkept, htaken]
    exact hw.total
  · rcases List.mem_append.mp (hperm.mem_iff.mp ht) with ht | ht
    · exact absurd hturn (hagain t ht)
    · exact hw.once t ht hturn
  · unfold isCancelled
    rw [hsame.cancelled]
    exact hw.live

/-- Where nothing is scheduled, nothing is handed out. -/
theorem takeDue_of_idle (htimers : s.timers = #[]) (hmain : s.mainLoop = []) :
    s.takeDue.2 = [] := by
  have hnone : sweep s.timers.size { rest := s } = { rest := s } := by
    rw [htimers]
    rfl
  unfold takeDue
  rw [hnone]
  dsimp only [List.reverse_nil, List.foldl_nil, List.nil_append]
  rw [hmain]
  rfl

/-- Moving the clock leaves everything else. -/
theorem advance_same (s : Scheduler τ) (hint : Option τ) (wall : Nat) :
    (s.advance hint wall).timers = s.timers ∧ (s.advance hint wall).cancelled = s.cancelled ∧
      (s.advance hint wall).mainLoop = s.mainLoop := by
  cases hint <;> exact ⟨rfl, rfl, rfl⟩

end Scheduler

/-! ## 3. The logbook -/

/-- A scheduler in use, with what became of its callbacks. -/
structure Logbook (τ : Type) where
  scheduler : Scheduler τ
  /-- What the drain under way has taken and not come to. -/
  inHand : List DueCallback := []
  /-- Every callback that was called, the first one first. -/
  called : List DueCallback := []
  /-- Every callback that was passed over. -/
  missing : List DueCallback := []
  /-- The callback of every timer that was scheduled, and whether it repeats. -/
  issued : List (DueCallback × Bool) := []
  /-- The identifier of every timer that was cancelled: of those for which the cancellation found
      something to cancel. -/
  withdrawn : List UInt32 := []

namespace Logbook

open Scheduler

variable {τ : Type} [Instant τ] {d d' : Logbook τ} {c : DueCallback} {id : UInt32} {n : Nat}

/-- A timer is scheduled. -/
def addTimer (d : Logbook τ) (callback : String) (delay : τ) (repeats : Bool) : Logbook τ :=
  let issue := d.scheduler.addTimer callback delay repeats
  { d with
    scheduler := issue.1, issued := d.issued ++ [(⟨callback, some issue.2⟩, repeats)] }

/-- A callback is to run on every sweep. -/
def addMainLoop (d : Logbook τ) (callback : String) : Logbook τ :=
  { d with scheduler := d.scheduler.addMainLoop callback }

/-- A timer is cancelled, if there is one to cancel. -/
def cancel (d : Logbook τ) (id : UInt32) : Logbook τ :=
  { d with
    scheduler := (d.scheduler.cancel id).1
    withdrawn := if (d.scheduler.cancel id).2 then d.withdrawn ++ [id] else d.withdrawn }

/-- A drain moves the clock and takes what is due. -/
def take (d : Logbook τ) (hint : Option τ) (wall : Nat) : Logbook τ :=
  let sweep := (d.scheduler.advance hint wall).takeDue
  { d with scheduler := sweep.1, inHand := sweep.2 }

/-- The drain comes to a callback and calls it. -/
def call (d : Logbook τ) (c : DueCallback) (rest : List DueCallback) : Logbook τ :=
  { d with inHand := rest, called := d.called ++ [c] }

/-- The drain comes to a callback whose function is missing. -/
def pass (d : Logbook τ) (c : DueCallback) (rest : List DueCallback) : Logbook τ :=
  { d with inHand := rest, missing := d.missing ++ [c] }

/-- The drain puts back what it has not come to, and is over. -/
def putBack (d : Logbook τ) : Logbook τ :=
  { d with scheduler := d.scheduler.defer d.inHand, inHand := [] }

/-- **What code does with the scheduler.** -/
inductive Use (d : Logbook τ) : Logbook τ → Prop where
  | addTimer (callback : String) (delay : τ) (repeats : Bool) :
    Use d (d.addTimer callback delay repeats)
  | addMainLoop (callback : String) : Use d (d.addMainLoop callback)
  | cancel (id : UInt32) : Use d (d.cancel id)

/-- Code does one thing after the other. -/
def Uses : Logbook τ → Logbook τ → Prop := Relation.ReflTransGen Use

/-- **One thing that happens**: code uses the scheduler, a drain begins, comes to the next callback,
    or gives up. -/
inductive Step (d : Logbook τ) : Logbook τ → Prop where
  | use {d' : Logbook τ} (h : Use d d') : Step d d'
  | take (h : d.inHand = []) (hint : Option τ) (wall : Nat) : Step d (d.take hint wall)
  | call {c : DueCallback} {rest : List DueCallback} (h : d.inHand = c :: rest) :
    Step d (d.call c rest)
  | pass {c : DueCallback} {rest : List DueCallback} (h : d.inHand = c :: rest) :
    Step d (d.pass c rest)
  | putBack : Step d d.putBack

/-- One thing after the other. -/
def Steps : Logbook τ → Logbook τ → Prop := Relation.ReflTransGen Step

theorem Step.single (h : Step d d') : Steps d d' := Relation.ReflTransGen.single h

theorem Steps.trans {d₁ d₂ d₃ : Logbook τ} (h : Steps d₁ d₂) (h' : Steps d₂ d₃) : Steps d₁ d₃ :=
  Relation.ReflTransGen.trans h h'

theorem Uses.steps (h : Uses d d') : Steps d d' := by
  induction h with
  | refl => exact .refl
  | tail _ h ih => exact ih.tail (.use h)

/-- A drain moves the clock, and takes no callback off the main loop. -/
theorem take_same (d : Logbook τ) (hint : Option τ) (wall : Nat) :
    (d.take hint wall).scheduler.clock = (d.scheduler.advance hint wall).clock ∧
      (d.take hint wall).scheduler.mainLoop = d.scheduler.mainLoop := by
  obtain ⟨hclock, hmain⟩ := takeDue_same (d.scheduler.advance hint wall)
  exact ⟨hclock, hmain.trans (advance_same d.scheduler hint wall).2.2⟩

/-! ## 4. What code leaves alone -/

/-- What code cannot do to a drain under way. -/
structure Left (d d' : Logbook τ) : Prop where
  inHand : d'.inHand = d.inHand
  called : d'.called = d.called
  missing : d'.missing = d.missing
  clock : d'.scheduler.clock = d.scheduler.clock
  mainLoop : d.scheduler.mainLoop <+: d'.scheduler.mainLoop
  /-- Whoever is cancelled was, or has been since. -/
  cancelled : ∀ id, d'.scheduler.isCancelled id = true →
    d.scheduler.isCancelled id = true ∨ id ∈ d'.withdrawn
  withdrawn : d.withdrawn ⊆ d'.withdrawn

omit [Instant τ] in
theorem Left.refl (d : Logbook τ) : Left d d :=
  ⟨rfl, rfl, rfl, rfl, List.prefix_refl _, fun _ h => .inl h, fun _ h => h⟩

omit [Instant τ] in
theorem Left.trans {d₁ d₂ d₃ : Logbook τ} (h : Left d₁ d₂) (h' : Left d₂ d₃) : Left d₁ d₃ where
  inHand := h'.inHand.trans h.inHand
  called := h'.called.trans h.called
  missing := h'.missing.trans h.missing
  clock := h'.clock.trans h.clock
  mainLoop := h.mainLoop.trans h'.mainLoop
  cancelled id hid := by
    rcases h'.cancelled id hid with hid | hid
    · exact (h.cancelled id hid).imp_right (@h'.withdrawn id)
    · exact .inr hid
  withdrawn := fun _ hid => h'.withdrawn (h.withdrawn hid)

theorem Use.left (h : Use d d') : Left d d' := by
  cases h with
  | addTimer callback delay repeats =>
      exact ⟨rfl, rfl, rfl, rfl, List.prefix_refl _, fun _ h => .inl h, fun _ h => h⟩
  | addMainLoop callback =>
      exact ⟨rfl, rfl, rfl, rfl, List.prefix_append _ _, fun _ h => .inl h, fun _ h => h⟩
  | cancel i =>
      unfold Logbook.cancel
      rcases cancel_cases d.scheduler i with hcancel | hcancel
      · rw [hcancel]
        refine ⟨rfl, rfl, rfl, rfl, List.prefix_refl _, fun id hid => ?_, fun id hid => ?_⟩
        · rcases List.mem_cons.mp (List.contains_iff_mem.mp hid) with rfl | hid
          · exact .inr (List.mem_append_right _ (List.mem_singleton_self _))
          · exact .inl (List.contains_iff_mem.mpr hid)
        · exact List.mem_append_left _ hid
      · rw [hcancel]
        exact .refl d

/-- **Code touches neither what a drain has in hand nor the clock**, takes no callback off the main
    loop, and cancels only what it is seen to cancel. -/
theorem Uses.left (h : Uses d d') : Left d d' := by
  induction h with
  | refl => exact .refl d
  | tail _ h ih => exact ih.trans h.left

/-! ## 5. Every timer is in one place -/

/-- How many of a callback are kept, in hand, called and passed over. -/
def places (d : Logbook τ) (c : DueCallback) : Nat :=
  d.scheduler.turns.count c + d.inHand.count c + d.called.count c + d.missing.count c

/-- **The account of a timer** that has one turn and is not cancelled: what is not issued was there
    at the start, `n` times. -/
structure Balanced (c : DueCallback) (id : UInt32) (n : Nat) (d : Logbook τ) : Prop where
  total : d.places c = n + d.issued.count (c, false)
  once : ∀ t ∈ d.scheduler.timers.toList, t.turn = c → t.interval = none
  live : d.scheduler.isCancelled id = false

/-- So far the timer was never scheduled to repeat, and never cancelled. -/
structure Undisturbed (c : DueCallback) (id : UInt32) (d : Logbook τ) : Prop where
  single : (c, true) ∉ d.issued
  kept : id ∉ d.withdrawn

theorem Use.undisturbed (h : Use d d') (hu : d'.Undisturbed c id) : d.Undisturbed c id := by
  refine ⟨fun hc => hu.single ?_, fun hid => hu.kept (h.left.withdrawn hid)⟩
  cases h with
  | addTimer callback delay repeats => exact List.mem_append_left _ hc
  | addMainLoop callback | cancel i => exact hc

/-- What was never done up to now was never done before. -/
theorem Step.undisturbed (h : Step d d') (hu : d'.Undisturbed c id) : d.Undisturbed c id := by
  cases h with
  | use h => exact h.undisturbed hu
  | take | call | pass | putBack => exact ⟨hu.single, hu.kept⟩

theorem Steps.undisturbed (h : Steps d d') (hu : d'.Undisturbed c id) : d.Undisturbed c id := by
  induction h with
  | refl => exact hu
  | tail _ h ih => exact ih (h.undisturbed hu)

theorem Balanced.addTimer (h : d.Balanced c id n) {callback : String} {delay : τ} {repeats : Bool}
    (hu : (d.addTimer callback delay repeats).Undisturbed c id) :
    (d.addTimer callback delay repeats).Balanced c id n := by
  have hturns := (turns_addTimer (s := d.scheduler) callback delay repeats).count_eq c
  have htotal := h.total
  -- a timer issued under the name and the identifier does not repeat
  have honly : (⟨callback, some d.scheduler.nextId⟩ : DueCallback) = c → repeats = false := by
    rintro rfl
    cases repeats with
    | false => rfl
    | true => exact absurd (List.mem_append_right _ (List.mem_singleton_self _)) hu.single
  have hissued : (d.issued ++ [((⟨callback, some d.scheduler.nextId⟩ : DueCallback),
      repeats)]).count (c, false) = d.issued.count (c, false) +
        if (⟨callback, some d.scheduler.nextId⟩ : DueCallback) == c then 1 else 0 := by
    rw [List.count_append, List.count_singleton]
    by_cases hsame : (⟨callback, some d.scheduler.nextId⟩ : DueCallback) = c
    · rw [honly hsame, hsame]
      simp
    · simp [hsame]
  refine ⟨?_, fun t ht hturn => ?_, h.live⟩
  · unfold places at htotal ⊢
    show (d.scheduler.addTimer callback delay repeats).1.turns.count c + d.inHand.count c +
      d.called.count c + d.missing.count c =
        n + (d.issued ++ [((⟨callback, some d.scheduler.nextId⟩ : DueCallback), repeats)]).count
          (c, false)
    rw [hissued, hturns, List.count_cons]
    omega
  · rcases mem_push.mp ht with rfl | ht
    · rw [honly hturn]
      rfl
    · exact h.once t ht hturn

omit [Instant τ] in
theorem Balanced.cancel (h : d.Balanced c id n) {i : UInt32}
    (hu : (d.cancel i).Undisturbed c id) : (d.cancel i).Balanced c id n := by
  have hkept := hu.kept
  unfold Logbook.cancel at hkept ⊢
  rcases cancel_cases d.scheduler i with hcancel | hcancel
  · rw [hcancel] at hkept ⊢
    refine ⟨h.total, h.once, ?_⟩
    have hlive := h.live
    have hne : id ≠ i := by
      rintro rfl
      exact hkept (List.mem_append_right _ (List.mem_singleton_self _))
    unfold isCancelled at hlive ⊢
    rw [List.contains_cons, hlive, beq_eq_false_iff_ne.mpr hne]
    rfl
  · rw [hcancel]
    exact h

theorem Balanced.use (h : d.Balanced c id n) (hs : Use d d')
    (hu : d'.Undisturbed c id) : d'.Balanced c id n := by
  cases hs with
  | addTimer callback delay repeats => exact h.addTimer hu
  | addMainLoop callback => exact ⟨h.total, h.once, h.live⟩
  | cancel i => exact h.cancel hu

/-- A drain takes the timer or leaves it kept. -/
theorem Balanced.take (hc : c.timer = some id) (h : d.Balanced c id n) (hint : Option τ)
    (wall : Nat) :
    (d.take hint wall).scheduler.turns.count c + (d.take hint wall).inHand.count c =
        d.scheduler.turns.count c ∧
      (∀ t ∈ (d.take hint wall).scheduler.timers.toList, t.turn = c → t.interval = none) ∧
      (d.take hint wall).scheduler.isCancelled id = false := by
  obtain ⟨htimers, hcancelled, -⟩ := advance_same d.scheduler hint wall
  have hlive : (d.scheduler.advance hint wall).isCancelled id = false := by
    unfold isCancelled
    rw [hcancelled]
    exact h.live
  have honce : ∀ t ∈ (d.scheduler.advance hint wall).timers.toList, t.turn = c →
      t.interval = none := by
    rw [htimers]
    exact h.once
  have htaken := balanced_takeDue hc hlive honce
  unfold turns at htaken
  rw [htimers] at htaken
  exact htaken

/-- **A drain takes only what is pending.** -/
theorem Balanced.pending_of_take (hc : c.timer = some id) (h : d.Balanced c id n)
    {hint : Option τ} {wall : Nat} (hmem : c ∈ (d.take hint wall).inHand) :
    c ∈ d.scheduler.pendingTurns := by
  have htaken : 0 < (d.take hint wall).inHand.count c := List.count_pos_iff.mpr hmem
  have hcount := (h.take hc hint wall).1
  refine List.count_pos_iff.mp ?_
  rw [count_pendingTurns hc h.live]
  omega

omit [Instant τ] in
theorem places_call {c' : DueCallback} {rest : List DueCallback} (h : d.inHand = c' :: rest) :
    (d.call c' rest).places c = d.places c := by
  simp only [places, call, h, List.count_append, List.count_cons, List.count_nil]
  omega

omit [Instant τ] in
theorem places_pass {c' : DueCallback} {rest : List DueCallback} (h : d.inHand = c' :: rest) :
    (d.pass c' rest).places c = d.places c := by
  simp only [places, pass, h, List.count_append, List.count_cons, List.count_nil]
  omega

/-- What is put back is kept, and no more in hand. -/
theorem places_putBack (hc : c.timer = some id) : d.putBack.places c = d.places c := by
  obtain ⟨kept, hperm, hturns, -, -, -⟩ := defer_perm d.inHand d.scheduler
  have hcount : (d.inHand.filter (·.timer.isSome)).count c = d.inHand.count c :=
    List.count_filter (by simp [hc])
  have hback := (hperm.map Timer.turn).count_eq c
  rw [List.map_append, hturns, List.count_append, hcount] at hback
  simp only [places, putBack, turns, hback, List.count_nil]
  omega

/-- What is put back does not repeat. -/
theorem Balanced.putBack (hc : c.timer = some id) (h : d.Balanced c id n) :
    d.putBack.Balanced c id n := by
  obtain ⟨kept, hperm, -, hkept, -, hsame⟩ := defer_perm d.inHand d.scheduler
  refine ⟨(places_putBack hc).trans h.total, fun t ht hturn => ?_, ?_⟩
  · rcases List.mem_append.mp (hperm.mem_iff.mp ht) with ht | ht
    · exact (hkept t ht).2
    · exact h.once t ht hturn
  · show (d.scheduler.defer d.inHand).isCancelled id = false
    unfold isCancelled
    rw [hsame.cancelled]
    exact h.live

/-- **Every step keeps the account.** -/
theorem Balanced.step (hc : c.timer = some id) (h : d.Balanced c id n) (hs : Step d d')
    (hu : d'.Undisturbed c id) : d'.Balanced c id n := by
  cases hs with
  | use hs => exact h.use hs hu
  | take hhand hint wall =>
      obtain ⟨hcount, honce, hlive⟩ := h.take hc hint wall
      have htotal := h.total
      refine ⟨?_, honce, hlive⟩
      unfold places at htotal ⊢
      rw [hhand, ← hcount, List.count_nil] at htotal
      exact htotal
  | call hhand => exact ⟨(places_call hhand).trans h.total, h.once, h.live⟩
  | pass hhand => exact ⟨(places_pass hhand).trans h.total, h.once, h.live⟩
  | putBack => exact h.putBack hc

/-- **Whatever happens, in any order, keeps the account.** -/
theorem Balanced.steps (hc : c.timer = some id) (h : d.Balanced c id n) (hs : Steps d d')
    (hu : d'.Undisturbed c id) : d'.Balanced c id n := by
  induction hs with
  | refl => exact h
  | tail _ hs ih => exact (ih (hs.undisturbed hu)).step hc hs hu

/-- Nothing has happened yet. -/
def opened (s : Scheduler τ) : Logbook τ := { scheduler := s }

omit [Instant τ] in
/-- **What is pending at the start is accounted for.** -/
theorem balanced_opened {s : Scheduler τ} (hc : c.timer = some id)
    (hlive : s.isCancelled id = false)
    (honce : ∀ t ∈ s.pending, t.turn = c → t.interval = none) :
    (opened s).Balanced c id (s.pendingTurns.count c) := by
  refine ⟨?_, fun t ht hturn => ?_, hlive⟩
  · rw [count_pendingTurns hc hlive]
    rfl
  · refine honce t (List.mem_filter.mpr ⟨ht, ?_⟩) hturn
    rw [Timer.id_of_turn hturn hc, hlive]
    rfl

end Logbook

end EmbeddedVm
