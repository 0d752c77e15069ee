import EmbeddedVm.Proofs.Events.Cancellation
import EmbeddedVm.Proofs.Events.Conservation

/-!
# Identifiers of timers

Identifiers are handed out in turn, from one up, and begin anew only when all but zero have been
handed out (`Numbered`). Until then an identifier is that of one timer: nothing kept or in hand has
it before it is handed out, and afterwards only turns of this timer have it. `Steps.carry` brings
what a step keeps that does not hand out an identifier to all that happens after it was handed out.

A timer that does not repeat has at most one turn, kept or in hand (`Lone`). A cancellation with no
turn in hand and at most one kept silences a timer for good (`Hushed`).
-/

namespace EmbeddedVm

/-! ## 1. What sweeps do to identifiers -/

namespace Scheduler

variable {τ : Type} [Instant τ] {s : Scheduler τ} {id : UInt32}

/-- Identifiers run through all but zero, and then begin anew. -/
theorem toNat_succId (id : UInt32) : (succId id).toNat = id.toNat % (UInt32.size - 1) + 1 := by
  have hid : id.toNat < UInt32.size := id.toNat_lt_size
  have hadd : (id + 1).toNat = (id.toNat + 1) % UInt32.size := UInt32.toNat_add id 1
  have hzero : id + 1 = 0 ↔ (id.toNat + 1) % UInt32.size = 0 := by
    rw [← hadd]
    exact UInt32.toNat_inj.symm
  unfold succId
  unfold UInt32.size at *
  split
  · rename_i h
    have hlast : id.toNat = 4294967295 := by
      have hwraps := hzero.mp h
      omega
    rw [hlast]
    rfl
  · rename_i h
    have hfits := mt hzero.mpr h
    rw [hadd]
    omega

theorem nextId_rearm (timers : List (Timer τ)) (s : Scheduler τ) :
    (rearm s timers).nextId = s.nextId := by
  induction timers generalizing s with
  | nil => rfl
  | cons t rest ih => exact ih _

theorem nextId_takeDue (s : Scheduler τ) : s.takeDue.1.nextId = s.nextId := by
  have hsweep : (sweep s.timers.size { rest := s }).rest.nextId = s.nextId :=
    sweep_keeps (P := fun w => w.rest.nextId = s.nextId)
      (fun w w' h hs => by cases hs <;> exact h) _ rfl
  exact (nextId_rearm _ _).trans hsweep

/-- What a sweep has come to are turns of a list. -/
structure Sweep.From (turns : List DueCallback) (w : Sweep τ) : Prop where
  rest : ∀ c ∈ w.rest.turns, c ∈ turns
  taken : ∀ c ∈ w.taken, c ∈ turns
  rearmed : ∀ t ∈ w.rearmed, t.turn ∈ turns

theorem Sweep.From.step {turns : List DueCallback} {w w' : Sweep τ} (h : w.From turns)
    (hs : w.Step w') : w'.From turns := by
  obtain ⟨hrest, htaken, hrearmed⟩ := h
  cases hs with
  | @drop t timers perm _ =>
      refine ⟨fun c hc => hrest c ?_, htaken, hrearmed⟩
      exact (perm.map Timer.turn).mem_iff.mp (List.mem_cons_of_mem _ hc)
  | @take t timers perm _ =>
      have ht : t.turn ∈ turns := hrest _ ((perm.map Timer.turn).mem_iff.mp List.mem_cons_self)
      refine ⟨fun c hc => hrest c ?_, fun c hc => ?_, fun u hu => ?_⟩
      · exact (perm.map Timer.turn).mem_iff.mp (List.mem_cons_of_mem _ hc)
      · rcases List.mem_cons.mp hc with rfl | hc
        · exact ht
        · exact htaken c hc
      · unfold Sweep.again at hu
        split at hu
        · exact hrearmed u hu
        · rcases List.mem_cons.mp hu with rfl | hu
          · exact ht
          · exact hrearmed u hu

/-- **Every turn that a sweep leaves or hands out was kept before.** -/
theorem turns_takeDue (s : Scheduler τ) :
    (∀ c ∈ s.takeDue.1.turns, c ∈ s.turns) ∧
      ∀ c ∈ s.takeDue.2, ∀ id, c.timer = some id → c ∈ s.turns := by
  have hw : (sweep s.timers.size { rest := s }).From s.turns :=
    sweep_keeps (fun _ _ => .step) _ ⟨fun _ hc => hc, fun _ hc => absurd hc List.not_mem_nil,
      fun _ ht => absurd ht List.not_mem_nil⟩
  refine ⟨fun c hc => ?_, fun c hc id hid => ?_⟩
  · obtain ⟨t, ht, rfl⟩ := List.mem_map.mp hc
    rcases List.mem_append.mp ((takeDue_perm s).1.mem_iff.mp ht) with ht | ht
    · obtain ⟨-, u, hu, heq⟩ := exists_of_mem_ranked ht
      rw [heq]
      exact hw.rearmed u (List.mem_reverse.mp hu)
    · exact hw.rest _ (List.mem_map_of_mem ht)
  · rcases List.mem_append.mp hc with hc | hc
    · exact hw.taken c (List.mem_reverse.mp hc)
    · obtain ⟨name, -, rfl⟩ := List.mem_map.mp hc
      cases hid

/-- The turns of an identifier that do not repeat, so far in a sweep: `n` of them, and none is kept
    again. -/
structure Sweep.Lone (id : UInt32) (n : Nat) (w : Sweep τ) : Prop where
  total : w.rest.borne id + firings id w.taken ≤ n
  once : ∀ t ∈ w.rest.timers.toList, t.id = id → t.interval = none
  again : ∀ t ∈ w.rearmed, t.id ≠ id

theorem Sweep.Lone.step {n : Nat} {w w' : Sweep τ} (h : w.Lone id n) (hs : w.Step w') :
    w'.Lone id n := by
  obtain ⟨htotal, honce, hagain⟩ := h
  cases hs with
  | @drop t timers perm _ =>
      have hborne : bearers id timers.toList + _ = w.rest.borne id :=
        (bearers_cons id t _).symm.trans (bearers_perm perm id)
      exact ⟨by simp only [borne] at *; omega,
        fun u hu => honce u (perm.mem_iff.mp (List.mem_cons_of_mem _ hu)), hagain⟩
  | @take t timers perm _ =>
      have hborne : bearers id timers.toList + _ = w.rest.borne id :=
        (bearers_cons id t _).symm.trans (bearers_perm perm id)
      have htaken := w.firings_take t id
      refine ⟨by simp only [borne] at *; omega,
        fun u hu => honce u (perm.mem_iff.mp (List.mem_cons_of_mem _ hu)), fun u hu => ?_⟩
      unfold Sweep.again at hu
      split at hu
      · exact hagain u hu
      · rename_i interval hinterval
        rcases List.mem_cons.mp hu with rfl | hu
        · intro hid
          have hnone := honce t (perm.mem_iff.mp List.mem_cons_self) hid
          rw [hnone] at hinterval
          cases hinterval
        · exact hagain u hu

/-- **A sweep keeps or hands out a turn that does not repeat**, and makes no second one of it. -/
theorem lone_takeDue (honce : ∀ t ∈ s.timers.toList, t.id = id → t.interval = none) :
    s.takeDue.1.borne id + firings id s.takeDue.2 ≤ s.borne id ∧
      ∀ t ∈ s.takeDue.1.timers.toList, t.id = id → t.interval = none := by
  have hw : (sweep s.timers.size { rest := s }).Lone id (s.borne id) :=
    sweep_keeps (fun _ _ => .step) _
      ⟨Nat.le_refl _, honce, fun _ ht => absurd ht List.not_mem_nil⟩
  refine ⟨?_, fun t ht hid => ?_⟩
  · have htotal := hw.total
    rw [(borne_takeDue s).1, firings_takeDue, bearers_eq_zero.mpr hw.again]
    exact htotal
  · rcases List.mem_append.mp ((takeDue_perm s).1.mem_iff.mp ht) with ht | ht
    · obtain ⟨-, u, hu, heq⟩ := exists_of_mem_ranked ht
      refine absurd ?_ (hw.again u (List.mem_reverse.mp hu))
      rw [heq] at hid
      exact hid
    · exact hw.once t ht hid

end Scheduler

namespace Logbook

open Scheduler

variable {τ : Type} [Instant τ] {d d' : Logbook τ} {c : DueCallback} {id : UInt32}

/-! ## 2. Handing out identifiers -/

/-- A step hands out the identifier. -/
def Issues (id : UInt32) (d d' : Logbook τ) : Prop :=
  d.scheduler.nextId = id ∧ d.issued.length < d'.issued.length

/-- **A step schedules a timer**, or it has no part in identifiers. -/
theorem Step.issue (h : Step d d') :
    (∃ callback delay repeats, d' = d.addTimer callback delay repeats) ∨
      d'.issued = d.issued ∧ d'.scheduler.nextId = d.scheduler.nextId := by
  cases h with
  | use h =>
      cases h with
      | addTimer callback delay repeats => exact .inl ⟨callback, delay, repeats, rfl⟩
      | addMainLoop callback => exact .inr ⟨rfl, rfl⟩
      | cancel i =>
          refine .inr ⟨rfl, ?_⟩
          show (d.scheduler.cancel i).1.nextId = d.scheduler.nextId
          rcases cancel_cases d.scheduler i with hcancel | hcancel <;> rw [hcancel]
  | take hhand hint wall =>
      refine .inr ⟨rfl, (nextId_takeDue _).trans ?_⟩
      cases hint <;> rfl
  | call | pass => exact .inr ⟨rfl, rfl⟩
  | putBack =>
      refine .inr ⟨rfl, ?_⟩
      show (d.scheduler.defer d.inHand).nextId = d.scheduler.nextId
      rw [defer_eq]
      exact nextId_rearm _ _

theorem length_addTimer (callback : String) (delay : τ) (repeats : Bool) :
    (d.addTimer callback delay repeats).issued.length = d.issued.length + 1 :=
  List.length_append

theorem Step.issued_le (h : Step d d') : d.issued.length ≤ d'.issued.length := by
  rcases h.issue with ⟨callback, delay, repeats, rfl⟩ | ⟨hissued, -⟩
  · rw [length_addTimer]
    exact Nat.le_succ _
  · exact Nat.le_of_eq (congrArg List.length hissued.symm)

theorem Steps.issued_le (h : Steps d d') : d.issued.length ≤ d'.issued.length := by
  induction h with
  | refl => exact Nat.le_refl _
  | tail _ h ih => exact Nat.le_trans ih h.issued_le

/-- **Identifiers are handed out in turn.** -/
def Numbered (d : Logbook τ) : Prop :=
  d.scheduler.nextId.toNat = d.issued.length % (UInt32.size - 1) + 1

theorem Numbered.step (h : d.Numbered) (hs : Step d d') : d'.Numbered := by
  unfold Numbered at h ⊢
  rcases hs.issue with ⟨callback, delay, repeats, rfl⟩ | ⟨hissued, hnext⟩
  · rw [length_addTimer]
    refine (toNat_succId d.scheduler.nextId).trans ?_
    rw [h, Nat.mod_add_mod]
  · rw [hissued, hnext]
    exact h

theorem Numbered.steps (h : d.Numbered) (hs : Steps d d') : d'.Numbered := by
  induction hs with
  | refl => exact h
  | tail _ hs ih => exact ih.step hs

omit [Instant τ] in
/-- Before identifiers begin anew, the next one has not been handed out. -/
theorem Numbered.lt_nextId (h : d.Numbered) (hfew : d.issued.length + 1 < UInt32.size) :
    d.scheduler.nextId.toNat = d.issued.length + 1 := by
  unfold Numbered at h
  unfold UInt32.size at *
  omega

/-- **What steps keep that do not hand out an identifier**, all steps keep after it has been handed
    out, until identifiers begin anew. -/
theorem Steps.carry {I : Logbook τ → Prop}
    (hI : ∀ {d d' : Logbook τ}, Step d d' → ¬ Issues id d d' → I d → I d') (hn : d.Numbered)
    (hid : id.toNat ≤ d.issued.length) (hs : Steps d d') (hfew : d'.issued.length < UInt32.size)
    (h : I d) : I d' := by
  induction hs with
  | refl => exact h
  | @tail d₁ d₂ hs hstep ih =>
      have hmore := hstep.issued_le
      refine hI hstep (fun ⟨hnext, hissued⟩ => ?_) (ih (Nat.lt_of_le_of_lt hmore hfew))
      -- the identifier handed out here is greater than all before
      have hlt := (hn.steps hs).lt_nextId (Nat.lt_of_le_of_lt hissued hfew)
      rw [hnext] at hlt
      have hle := Steps.issued_le hs
      omega

/-! ## 3. Turns of a timer -/

/-- The logbook has a turn, kept or in hand. -/
def Has (d : Logbook τ) (c : DueCallback) : Prop := c ∈ d.scheduler.turns ∨ c ∈ d.inHand

/-- **Every turn of a timer was there before a step**, or is that of the timer it schedules. -/
theorem Step.has (h : Step d d') (hc : c.timer = some id) (hhas : d'.Has c) :
    d.Has c ∨ Issues id d d' := by
  cases h with
  | use h =>
      cases h with
      | addTimer callback delay repeats =>
          rcases hhas with hkept | hhand
          · rcases List.mem_cons.mp ((turns_addTimer callback delay repeats).mem_iff.mp hkept) with
              rfl | hkept
            · refine .inr ⟨Option.some.inj hc, ?_⟩
              rw [length_addTimer]
              exact Nat.lt_succ_self _
            · exact .inl (.inl hkept)
          · exact .inl (.inr hhand)
      | addMainLoop callback => exact .inl hhas
      | cancel i =>
          refine .inl (hhas.imp_left fun hkept => ?_)
          have hturns : (d.scheduler.cancel i).1.turns = d.scheduler.turns := by
            rcases cancel_cases d.scheduler i with hcancel | hcancel
            · rw [hcancel]
              rfl
            · rw [hcancel]
          exact hturns ▸ hkept
  | take hhand hint wall =>
      have hturns : (d.scheduler.advance hint wall).turns = d.scheduler.turns := by
        unfold turns
        rw [(advance_same d.scheduler hint wall).1]
      obtain ⟨hleft, htaken⟩ := turns_takeDue (d.scheduler.advance hint wall)
      rw [hturns] at hleft htaken
      exact .inl (.inl (hhas.elim (hleft c) fun hc' => htaken c hc' id hc))
  | call hhand | pass hhand =>
      exact .inl (hhas.imp_right fun hc => hhand ▸ List.mem_cons_of_mem _ hc)
  | putBack =>
      rcases hhas with hkept | hnone
      · obtain ⟨kept, hperm, hturns, -⟩ := defer_perm d.inHand d.scheduler
        have hmem := (hperm.map Timer.turn).mem_iff.mp hkept
        rw [List.map_append, hturns] at hmem
        rcases List.mem_append.mp hmem with hback | hkept
        · exact .inl (.inr (List.mem_filter.mp hback).1)
        · exact .inl (.inl hkept)
      · exact absurd hnone List.not_mem_nil

/-- Every identifier that is kept or in hand has been handed out. -/
def Bounded (d : Logbook τ) : Prop :=
  ∀ c id, c.timer = some id → d.Has c → id.toNat ≤ d.issued.length

theorem Bounded.step (h : d.Bounded) (hn : d.Numbered) (hs : Step d d') : d'.Bounded := by
  intro c id hc hhas
  rcases hs.has hc hhas with hbefore | ⟨rfl, hissued⟩
  · exact Nat.le_trans (h c id hc hbefore) hs.issued_le
  · have hle := Nat.mod_le d.issued.length (UInt32.size - 1)
    unfold Numbered at hn
    omega

/-- The identifiers are in order. -/
structure Ordered (d : Logbook τ) : Prop where
  numbered : d.Numbered
  bounded : d.Bounded

theorem Ordered.steps (h : d.Ordered) (hs : Steps d d') : d'.Ordered := by
  induction hs with
  | refl => exact h
  | tail _ hs ih => exact ⟨ih.numbered.step hs, ih.bounded.step ih.numbered hs⟩

theorem ordered_opened (wall : Nat) : (opened (.empty wall : Scheduler τ)).Ordered :=
  ⟨rfl, fun _ _ _ hhas => by rcases hhas with h | h <;> exact absurd h List.not_mem_nil⟩

omit [Instant τ] in
/-- **An identifier is new when it is handed out**: nothing kept or in hand has it. -/
theorem Ordered.fresh (h : d.Ordered) (hfew : d.issued.length + 1 < UInt32.size) :
    d.scheduler.borne d.scheduler.nextId = 0 ∧ firings d.scheduler.nextId d.inHand = 0 := by
  have hnext := h.numbered.lt_nextId hfew
  have hnew {c : DueCallback} {id : UInt32} (hc : c.timer = some id) (hhas : d.Has c) :
      id ≠ d.scheduler.nextId := by
    rintro rfl
    have hle := h.bounded c _ hc hhas
    omega
  refine ⟨bearers_eq_zero.mpr fun t ht => ?_, firings_eq_zero.mpr fun c hc hid => ?_⟩
  · exact hnew (c := t.turn) rfl (.inl (List.mem_map_of_mem ht))
  · exact hnew hid (.inr hc) rfl

/-- The timer under an identifier has one name. -/
def Named (name : String) (id : UInt32) (d : Logbook τ) : Prop :=
  ∀ c, c.timer = some id → d.Has c → c.callback = name

theorem Named.step {name : String} (h : d.Named name id) (hs : Step d d')
    (hnew : ¬ Issues id d d') : d'.Named name id :=
  fun c hc hhas => h c hc ((hs.has hc hhas).resolve_right hnew)

/-! ## 4. Timers that do not repeat -/

/-- **A timer that does not repeat has at most one turn**, kept or in hand. -/
structure Lone (id : UInt32) (d : Logbook τ) : Prop where
  total : d.scheduler.borne id + firings id d.inHand ≤ 1
  once : ∀ t ∈ d.scheduler.timers.toList, t.id = id → t.interval = none

theorem borne_addTimer (callback : String) (delay : τ) (repeats : Bool) :
    (d.addTimer callback delay repeats).scheduler.borne id =
      d.scheduler.borne id + if d.scheduler.nextId = id then 1 else 0 :=
  borne_push (s := { d.scheduler with nextId := _ }) d.scheduler.nextId id _ _ _

/-- A timer that a step schedules bears the identifier only if the step hands it out. -/
theorem ne_of_addTimer {callback : String} {delay : τ} {repeats : Bool}
    (h : ¬ Issues id d (d.addTimer callback delay repeats)) : d.scheduler.nextId ≠ id := by
  refine fun hnext => h ⟨hnext, ?_⟩
  rw [length_addTimer]
  exact Nat.lt_succ_self _

omit [Instant τ] in
theorem firings_tail {c : DueCallback} {rest callbacks : List DueCallback}
    (h : callbacks = c :: rest) : firings id rest ≤ firings id callbacks := by
  rw [h, firings_cons]
  exact Nat.le_add_right _ _

theorem Lone.step (h : d.Lone id) (hs : Step d d') (hnew : ¬ Issues id d d') : d'.Lone id := by
  obtain ⟨htotal, honce⟩ := h
  cases hs with
  | use hs =>
      cases hs with
      | addTimer callback delay repeats =>
          have hne := ne_of_addTimer hnew
          refine ⟨?_, fun t ht hid => ?_⟩
          · rw [borne_addTimer, if_neg hne]
            exact htotal
          · rcases mem_push.mp ht with rfl | ht
            · exact absurd hid hne
            · exact honce t ht hid
      | addMainLoop callback => exact ⟨htotal, honce⟩
      | cancel i =>
          have htimers : (d.scheduler.cancel i).1.timers = d.scheduler.timers := by
            rcases cancel_cases d.scheduler i with hcancel | hcancel <;> rw [hcancel]
          refine ⟨?_, ?_⟩
          · show bearers id (d.scheduler.cancel i).1.timers.toList + _ ≤ 1
            rw [htimers]
            exact htotal
          · show ∀ t ∈ (d.scheduler.cancel i).1.timers.toList, _
            rw [htimers]
            exact honce
  | take hhand hint wall =>
      obtain ⟨htimers, -, -⟩ := advance_same d.scheduler hint wall
      have hmoved : ∀ t ∈ (d.scheduler.advance hint wall).timers.toList,
          t.id = id → t.interval = none := by
        rw [htimers]
        exact honce
      obtain ⟨hsweep, honce'⟩ := lone_takeDue hmoved
      refine ⟨Nat.le_trans hsweep ?_, honce'⟩
      unfold borne at htotal ⊢
      rw [htimers]
      exact Nat.le_trans (Nat.le_add_right _ _) htotal
  | call hhand | pass hhand =>
      exact ⟨Nat.le_trans (Nat.add_le_add_left (firings_tail hhand) _) htotal, honce⟩
  | putBack =>
      refine ⟨?_, fun t ht hid => ?_⟩
      · show (d.scheduler.defer d.inHand).borne id + 0 ≤ 1
        rw [(borne_defer _ _).1]
        exact htotal
      · obtain ⟨kept, hperm, -, hkept, -⟩ := defer_perm d.inHand d.scheduler
        rcases List.mem_append.mp (hperm.mem_iff.mp ht) with ht | ht
        · exact (hkept t ht).2
        · exact honce t ht hid

/-! ## 5. Cancelled timers -/

/-- **No turn of a timer will run**: none is in hand, and none that is kept will fire. -/
structure Hushed (id : UInt32) (d : Logbook τ) : Prop where
  muted : d.scheduler.Muted id
  hand : firings id d.inHand = 0

theorem Hushed.step (h : d.Hushed id) (hs : Step d d') (hnew : ¬ Issues id d d') :
    d'.Hushed id := by
  obtain ⟨hmuted, hhand⟩ := h
  cases hs with
  | use hs =>
      cases hs with
      | addTimer callback delay repeats =>
          have hborne : (d.addTimer callback delay repeats).scheduler.borne id =
              d.scheduler.borne id := by
            rw [borne_addTimer, if_neg (ne_of_addTimer hnew)]
            rfl
          exact ⟨hmuted.imp hborne.trans fun hone => ⟨hborne.trans hone.1, hone.2⟩, hhand⟩
      | addMainLoop callback => exact ⟨hmuted, hhand⟩
      | cancel i =>
          refine ⟨?_, hhand⟩
          show (d.scheduler.cancel i).1.Muted id
          rcases cancel_cases d.scheduler i with hcancel | hcancel
          · rw [hcancel]
            refine hmuted.imp_right fun hone => ⟨hone.1, ?_⟩
            exact List.contains_iff_mem.mpr
              (List.mem_cons_of_mem _ (List.contains_iff_mem.mp hone.2))
          · rw [hcancel]
            exact hmuted
  | take hnone hint wall =>
      have hmoved : (d.scheduler.advance hint wall).Muted id := by cases hint <;> exact hmuted
      exact ⟨hmoved.takeDue.1, hmoved.takeDue.2⟩
  | call hcons | pass hcons =>
      exact ⟨hmuted, Nat.le_zero.mp (hhand ▸ firings_tail hcons)⟩
  | putBack =>
      obtain ⟨hborne, hcancelled⟩ := @borne_defer τ id _ d.inHand d.scheduler
      rw [hhand, Nat.add_zero] at hborne
      refine ⟨hmuted.imp hborne.trans fun hone => ⟨hborne.trans hone.1, ?_⟩, rfl⟩
      show (d.scheduler.defer d.inHand).isCancelled id = true
      unfold isCancelled
      rw [hcancelled]
      exact hone.2

omit [Instant τ] in
/-- **A hushed timer is not heard of**: no sweep hands out a turn of it, none is pending, and a
    cancellation finds nothing. -/
theorem Hushed.silent (h : d.Hushed id) :
    (∀ c ∈ d.inHand, c.timer ≠ some id) ∧ (∀ t ∈ d.scheduler.pending, t.id ≠ id) ∧
      (d.scheduler.cancel id).2 = false :=
  ⟨firings_eq_zero.mp h.hand, fun _ ht => h.muted.ne_of_pending ht, by rw [h.muted.cancel_eq]⟩

end Logbook

end EmbeddedVm
