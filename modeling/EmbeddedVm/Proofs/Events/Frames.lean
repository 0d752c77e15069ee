import EmbeddedVm.Proofs.Events.Reached

/-!
# A repeating timer, frame by frame

A frame moves the clock by a span and takes what is due; before the clock moves and before the sweep
anything may be scheduled or cancelled. A repeating timer is followed from frame to frame: what is
kept of it after a turn is another entry, under a new rank, and a sweep can tell entries apart also
where their identifiers are the same. `Fate` is what one sweep makes of an entry, and `Course` what
becomes of a timer in all frames. Whatever the clock is, a repeating timer that is not cancelled has
a course (`exists_course`): in each frame it fires once if it is due and not at all if it is not.
-/

namespace EmbeddedVm.Scheduler

open Instant

variable {τ : Type}

/-! ## 1. Frames -/

/-- What may be done between sweeps; nothing is put back. -/
inductive Meanwhile (τ : Type) where
  | addTimer (callback : String) (delay : τ) (repeats : Bool)
  | addMainLoop (callback : String)
  | cancel (id : UInt32)
deriving Repr

/-- It is one of the operations. -/
def Meanwhile.operation : Meanwhile τ → Operation τ
  | addTimer callback delay repeats => .addTimer callback delay repeats
  | addMainLoop callback => .addMainLoop callback
  | cancel id => .cancel id

/-- A frame. -/
structure Frame (τ : Type) where
  /-- What is done before the clock moves. -/
  before : List (Meanwhile τ) := []
  /-- By how much the clock moves. -/
  span : τ
  /-- What is done before the sweep. -/
  between : List (Meanwhile τ) := []
deriving Repr

variable [Instant τ]

/-- The scheduler after some of it was done. -/
def meanwhile (s : Scheduler τ) (done : List (Meanwhile τ)) : Scheduler τ :=
  s.performAll (done.map Meanwhile.operation)

/-- The scheduler as the sweep of a frame finds it. -/
def upTo (s : Scheduler τ) (f : Frame τ) : Scheduler τ :=
  ((s.meanwhile f.before).advance (some f.span) 0).meanwhile f.between

/-- The scheduler after a frame. -/
def frame (s : Scheduler τ) (f : Frame τ) : Scheduler τ := (s.upTo f).takeDue.1

/-- The scheduler after several frames. -/
def play (s : Scheduler τ) (frames : List (Frame τ)) : Scheduler τ := frames.foldl frame s

/-- What is returned in several frames, the first returned first. -/
def returned : Scheduler τ → List (Frame τ) → List DueCallback
  | _, [] => []
  | s, f :: rest => (s.upTo f).takeDue.2 ++ returned (s.frame f) rest

/-- What holds of the scheduler whenever a sweep finds it. -/
def AtSweeps (P : Scheduler τ → Prop) : Scheduler τ → List (Frame τ) → Prop
  | _, [] => True
  | s, f :: rest => P (s.upTo f) ∧ AtSweeps P (s.frame f) rest

instance decidableAtSweeps (P : Scheduler τ → Prop) [∀ s, Decidable (P s)] :
    (s : Scheduler τ) → (frames : List (Frame τ)) → Decidable (AtSweeps P s frames)
  | _, [] => .isTrue trivial
  | s, f :: rest =>
    have := decidableAtSweeps P (s.frame f) rest
    inferInstanceAs (Decidable (P (s.upTo f) ∧ _))

variable {s : Scheduler τ} {t next : Timer τ} {f : Frame τ} {frames : List (Frame τ)} {k n : Nat}

/-- Between sweeps the clock stands and every timer is kept. -/
theorem meanwhile_keeps (s : Scheduler τ) (done : List (Meanwhile τ)) :
    (s.meanwhile done).clock = s.clock ∧
      ∀ t ∈ s.timers.toList, t ∈ (s.meanwhile done).timers.toList := by
  induction done generalizing s with
  | nil => exact ⟨rfl, fun _ ht => ht⟩
  | cons m rest ih =>
      have hone : (s.perform m.operation).clock = s.clock ∧
          ∀ t ∈ s.timers.toList, t ∈ (s.perform m.operation).timers.toList := by
        cases m with
        | addTimer callback delay repeats => exact ⟨rfl, fun _ ht => mem_push.mpr (.inr ht)⟩
        | addMainLoop callback => exact ⟨rfl, fun _ ht => ht⟩
        | cancel id =>
            have hsame : (s.cancel id).1.clock = s.clock ∧ (s.cancel id).1.timers = s.timers := by
              rcases cancel_cases s id with hcancel | hcancel <;>
                exact ⟨congrArg (·.1.clock) hcancel, congrArg (·.1.timers) hcancel⟩
            refine ⟨hsame.1, fun t ht => ?_⟩
            show t ∈ (s.cancel id).1.timers.toList
            rwa [hsame.2]
      obtain ⟨hclock, htimers⟩ := ih (s.perform m.operation)
      exact ⟨hclock.trans hone.1, fun t ht => htimers t (hone.2 t ht)⟩

theorem upTo_clock (s : Scheduler τ) (f : Frame τ) :
    (s.upTo f).clock = Instant.add s.clock (Instant.clean f.span) := by
  unfold upTo
  rw [(meanwhile_keeps _ _).1]
  show Instant.add (s.meanwhile f.before).clock (Instant.clean f.span) = _
  rw [(meanwhile_keeps _ _).1]

theorem frame_clock (s : Scheduler τ) (f : Frame τ) :
    (s.frame f).clock = Instant.add s.clock (Instant.clean f.span) :=
  (takeDue_same _).1.trans (upTo_clock s f)

theorem mem_upTo (ht : t ∈ s.timers.toList) : t ∈ (s.upTo f).timers.toList := by
  refine (meanwhile_keeps _ _).2 t ?_
  rw [(advance_same _ _ _).1]
  exact (meanwhile_keeps _ _).2 t ht

theorem Sound.upTo (hτ : Linear τ) (h : s.Sound) (f : Frame τ) : (s.upTo f).Sound :=
  ((h.performAll hτ _).advance hτ _ _).performAll hτ _

/-! ## 2. What a sweep makes of a timer -/

omit [Instant τ] in
/-- A timer that comes up fires if its identifier is not cancelled. -/
theorem mem_fired {cancelled : List UInt32} {popped : List (Timer τ)} (ht : t ∈ popped)
    (hlive : t.id ∉ cancelled) : t ∈ fired cancelled popped := by
  induction popped generalizing cancelled with
  | nil => cases ht
  | cons u rest ih =>
      unfold fired
      rcases List.mem_cons.mp ht with rfl | ht
      · rw [if_neg hlive]
        exact List.mem_cons_self
      · split
        · exact ih ht fun hmem => hlive (List.mem_of_mem_erase hmem)
        · exact List.mem_cons_of_mem u (ih ht hlive)

omit [Instant τ] in
/-- Every timer is among those under new ranks. -/
theorem exists_mem_ranked (rank : Nat) {timers : List (Timer τ)} (ht : t ∈ timers) :
    ∃ r, { t with rank := r } ∈ ranked rank timers := by
  induction timers generalizing rank with
  | nil => cases ht
  | cons u rest ih =>
      rcases List.mem_cons.mp ht with rfl | ht
      · exact ⟨rank + 1, List.mem_cons_self⟩
      · obtain ⟨r, hr⟩ := ih (rank + 1) ht
        exact ⟨r, List.mem_cons_of_mem _ hr⟩

/-- The timer is not due, and stays as it is. -/
def Waits (s : Scheduler τ) (t next : Timer τ) : Prop :=
  Instant.lt s.clock t.due = true ∧ next = t

/-- The timer is due, and is due again an interval later, but not in the past. -/
def Turns (s : Scheduler τ) (t next : Timer τ) : Prop :=
  Instant.le t.due s.clock = true ∧ ∃ interval rank, t.interval = some interval ∧
    next = { t with due := Instant.max (Instant.add t.due interval) s.clock, rank }

variable [DecidableEq τ]

/-- **What a sweep makes of a timer that is kept**: so many times it fires, and so it is kept
    afterwards. -/
structure Fate (s : Scheduler τ) (t : Timer τ) (k : Nat) (next : Timer τ) : Prop where
  kept : t ∈ s.timers.toList
  fires : ∃ popped left, Swept s popped left s.takeDue.1 s.takeDue.2 ∧
    (fired s.cancelled popped).count t = k
  either : k = 0 ∧ s.Waits t next ∨ k = 1 ∧ s.Turns t next
  keeps : next ∈ s.takeDue.1.timers.toList

/-- **A repeating timer that is not cancelled** waits, or fires once and is kept again. -/
theorem Sound.exists_fate (hτ : Linear τ) (h : s.Sound) (ht : t ∈ s.timers.toList) {interval : τ}
    (hinterval : t.interval = some interval) (hlive : s.isCancelled t.id = false) :
    ∃ k next, s.Fate t k next ∧ next.id = t.id ∧ next.interval = some interval := by
  obtain ⟨popped, left, hswept⟩ := (h.takeDue hτ).2
  have hpopped := hswept.comeUp
  have hnodup : (fired s.cancelled popped).Nodup := by
    have hranks := ((hpopped.all.map Timer.rank).nodup_iff.mp h.ranks)
    rw [List.map_append] at hranks
    exact ((List.nodup_append.mp hranks).1.of_map _).sublist (fired_sublist _ _)
  rcases List.mem_append.mp (hpopped.all.mem_iff.mp ht) with hup | hleft
  · have hfired : t ∈ fired s.cancelled popped :=
      mem_fired hup fun hmem => by
        rw [isCancelled, List.contains_iff_mem.mpr hmem] at hlive
        cases hlive
    have hnext : nextTurn s.clock t =
        some { t with due := Instant.max (Instant.add t.due interval) s.clock } := by
      unfold nextTurn
      rw [hinterval]
      rfl
    obtain ⟨rank, hrank⟩ := exists_mem_ranked s.inserted
      (List.mem_filterMap.mpr ⟨t, hfired, hnext⟩)
    refine ⟨1, _, ⟨ht, ⟨popped, left, hswept, List.count_eq_one_of_mem hnodup hfired⟩, .inr ⟨rfl,
      hpopped.due t hup, interval, rank, hinterval, rfl⟩, ?_⟩, rfl, hinterval⟩
    exact hswept.kept.mem_iff.mpr (List.mem_append_right left hrank)
  · have hlater := hpopped.later t hleft
    have hnot : t ∉ fired s.cancelled popped := fun hmem => by
      have hdue := hpopped.due t ((fired_sublist _ _).mem hmem)
      rw [lt_eq_true, hdue] at hlater
      cases hlater
    refine ⟨0, t, ⟨ht, ⟨popped, left, hswept, List.count_eq_zero.mpr hnot⟩, .inl ⟨rfl, hlater, rfl⟩,
      ?_⟩, rfl, hinterval⟩
    exact hswept.kept.mem_iff.mpr (List.mem_append_left _ hleft)

omit [Instant τ] [DecidableEq τ] in
/-- Where an identifier is borne once, it tells the timer. -/
theorem eq_of_borne (hsole : s.borne t.id ≤ 1) (ht : t ∈ s.timers.toList) {u : Timer τ}
    (hu : u ∈ s.timers.toList) (hid : u.id = t.id) : u = t := by
  obtain ⟨earlier, later, hsplit⟩ := List.append_of_mem ht
  have hperm : s.timers.toList.Perm (t :: (earlier ++ later)) := hsplit ▸ List.perm_middle
  have hothers : bearers t.id (earlier ++ later) = 0 := by
    have hall := bearers_perm hperm t.id
    rw [bearers_cons, if_pos rfl] at hall
    have hone : bearers t.id s.timers.toList ≤ 1 := hsole
    omega
  rcases List.mem_cons.mp (hperm.mem_iff.mp hu) with heq | hmem
  · exact heq
  · exact absurd hid (bearers_eq_zero.mp hothers u hmem)

/-- A sweep returns a timer as often as it fires, where no other timer bears its identifier. -/
theorem Fate.count_returned (h : s.Fate t k next) (hsole : s.borne t.id ≤ 1) :
    s.takeDue.2.count t.turn = k := by
  obtain ⟨popped, left, hswept, rfl⟩ := h.fires
  have hmain : (s.mainLoop.map fun name => (⟨name, none⟩ : DueCallback)).count t.turn = 0 := by
    refine List.count_eq_zero.mpr fun hmem => ?_
    obtain ⟨name, -, hname⟩ := List.mem_map.mp hmem
    cases congrArg DueCallback.timer hname
  rw [hswept.handed, List.count_append, hmain, Nat.add_zero, List.count_eq_countP,
    List.count_eq_countP, List.countP_map]
  refine List.countP_congr fun u hu => ?_
  have hkept : u ∈ s.timers.toList := hswept.comeUp.all.mem_iff.mpr
    (List.mem_append_left left ((fired_sublist _ _).mem hu))
  simp only [Function.comp_apply, beq_iff_eq]
  constructor
  · intro hturn
    exact eq_of_borne hsole h.kept hkept (Option.some.inj (congrArg DueCallback.timer hturn))
  · rintro rfl
    rfl

/-! ## 3. What becomes of a timer -/

/-- **The course of a timer**: from frame to frame what a sweep makes of it, and how often it fires
    in all. -/
inductive Course : Scheduler τ → Timer τ → List (Frame τ) → Nat → Prop where
  | done {s : Scheduler τ} {t : Timer τ} : Course s t [] 0
  | frame {s : Scheduler τ} {t next : Timer τ} {f : Frame τ} {rest : List (Frame τ)} {k n : Nat}
      (h : (s.upTo f).Fate t k next) (hrest : Course (s.frame f) next rest n) :
    Course s t (f :: rest) (k + n)

/-- **A repeating timer that is never cancelled has a course**, whatever else is scheduled, fires
    and is cancelled. -/
theorem exists_course (hτ : Linear τ) (h : s.Sound) (ht : t ∈ s.timers.toList) {interval : τ}
    (hinterval : t.interval = some interval)
    (hlive : AtSweeps (fun s => s.isCancelled t.id = false) s frames) :
    ∃ n, Course s t frames n := by
  induction frames generalizing s t with
  | nil => exact ⟨0, .done⟩
  | cons f rest ih =>
      have hsound := h.upTo hτ f
      obtain ⟨k, next, hfate, hid, hnext⟩ :=
        hsound.exists_fate hτ (mem_upTo ht) hinterval hlive.1
      rw [← hid] at hlive
      obtain ⟨n, hcourse⟩ := ih (hsound.takeDue hτ).1 hfate.keeps hnext hlive.2
      exact ⟨k + n, .frame hfate hcourse⟩

/-- What is kept of a timer is of the same timer. -/
theorem Fate.same (h : s.Fate t k next) : next.turn = t.turn ∧ next.interval = t.interval := by
  rcases h.either with ⟨-, -, rfl⟩ | ⟨-, -, interval, rank, -, rfl⟩ <;> exact ⟨rfl, rfl⟩

/-- **A timer is returned as often as it fires** in its course, where its identifier is its own. -/
theorem Course.count_returned (h : Course s t frames n)
    (hsole : AtSweeps (·.borne t.id ≤ 1) s frames) : (returned s frames).count t.turn = n := by
  induction h with
  | done => rfl
  | @frame s t next f rest k n hfate _ ih =>
      have hsame := hfate.same.1
      have hid : next.id = t.id := Option.some.inj (congrArg DueCallback.timer hsame)
      unfold returned
      rw [hsame, hid] at ih
      rw [List.count_append, ih hsole.2, hfate.count_returned hsole.1]

end EmbeddedVm.Scheduler
