import EmbeddedVm.Proofs.Events.Frames
import Mathlib.Data.NNRat.Floor

/-!
# Repeating timers do not drift

With exact time, frames that are no longer than the interval of a repeating timer leave it on its
grid: whatever the frames are, it is due next at a whole number of intervals after it was added. So
it fires once for every interval that has passed (`repeats_without_drift`).

The invariant is that the timer is ahead of the clock, by an interval at most. A frame that passes
its due time passes no second one, so the later of the two points that a sweep compares is the one
on the grid. Longer frames may pass several; then the timer fires once and is due at the clock.
-/

namespace EmbeddedVm

open Instant (lt_eq_true)

/-! ## 1. Exact time -/

/-- Exact seconds. -/
instance : Instant ℚ≥0 where
  zero := 0
  add a b := a + b
  sub a b := a - b
  le a b := decide (a ≤ b)
  max a b := max a b
  isFinite _ := true
  ofNanoseconds n := n / 1000000000

theorem exact_linear : Instant.Linear ℚ≥0 where
  zero := decide_eq_true zero_le
  add _ _ := decide_eq_true zero_le
  max _ _ := decide_eq_true zero_le
  max_zero _ := decide_eq_true zero_le
  total {a b} _ _ := (le_total a b).imp decide_eq_true decide_eq_true
  trans _ _ _ hab hbc := decide_eq_true (le_trans (of_decide_eq_true hab) (of_decide_eq_true hbc))

theorem exact_clean (span : ℚ≥0) : Instant.clean span = span := max_eq_left zero_le

namespace Scheduler

variable {s : Scheduler ℚ≥0} {t next : Timer ℚ≥0} {i : ℚ≥0} {frames : List (Frame ℚ≥0)} {k n : Nat}

/-- The seconds of several frames. -/
def total (frames : List (Frame ℚ≥0)) : ℚ≥0 := (frames.map (·.span)).sum

theorem total_cons (f : Frame ℚ≥0) (rest : List (Frame ℚ≥0)) :
    total (f :: rest) = f.span + total rest := by
  unfold total
  rw [List.map_cons, List.sum_cons]

theorem exact_upTo (s : Scheduler ℚ≥0) (f : Frame ℚ≥0) : (s.upTo f).clock = s.clock + f.span := by
  rw [upTo_clock, exact_clean]
  rfl

theorem exact_frame (s : Scheduler ℚ≥0) (f : Frame ℚ≥0) : (s.frame f).clock = s.clock + f.span := by
  rw [frame_clock, exact_clean]
  rfl

theorem clock_play (s : Scheduler ℚ≥0) (frames : List (Frame ℚ≥0)) :
    (s.play frames).clock = s.clock + total frames := by
  induction frames generalizing s with
  | nil => exact (add_zero _).symm
  | cons f rest ih =>
      show ((s.frame f).play rest).clock = _
      rw [ih, exact_frame, total_cons, add_assoc]

/-! ## 2. On the grid -/

/-- **A timer ahead of the clock**, by an interval at most. -/
structure Ahead (s : Scheduler ℚ≥0) (t : Timer ℚ≥0) (i : ℚ≥0) : Prop where
  interval : t.interval = some i
  ahead : s.clock < t.due
  near : t.due ≤ s.clock + i

/-- What a sweep makes of a timer, in exact time: a timer that is not due waits, and one that is
    due fires once and is due next no earlier than now. -/
theorem Fate.exact (h : s.Fate t k next) (hi : t.interval = some i) :
    next.interval = some i ∧ (s.clock < t.due ∧ k = 0 ∧ next.due = t.due ∨
      t.due ≤ s.clock ∧ k = 1 ∧ next.due = max (t.due + i) s.clock) := by
  rcases h.either with ⟨hk, hwaits, rfl⟩ | ⟨hk, hdue, interval, rank, hinterval, rfl⟩
  · exact ⟨hi, .inl ⟨lt_of_not_ge (of_decide_eq_false (lt_eq_true.mp hwaits)), hk, rfl⟩⟩
  · obtain rfl : i = interval := Option.some.inj (hi.symm.trans hinterval)
    exact ⟨hi, .inr ⟨of_decide_eq_true hdue, hk, rfl⟩⟩

/-- A sweep that comes less than an interval late leaves the timer on its grid, and ahead. -/
theorem Fate.on_grid (h : s.Fate t k next) (hi : t.interval = some i)
    (hlate : s.clock < t.due + i) (hnear : t.due ≤ s.clock + i) :
    next.due = t.due + k * i ∧ s.Ahead next i := by
  obtain ⟨hinterval, ⟨hahead, rfl, hdue⟩ | ⟨hdue, rfl, hnext⟩⟩ := h.exact hi
  · refine ⟨?_, hinterval, hdue ▸ hahead, hdue ▸ hnear⟩
    rw [hdue, Nat.cast_zero, zero_mul, add_zero]
  · rw [max_eq_left hlate.le] at hnext
    refine ⟨?_, hinterval, hnext ▸ hlate, hnext ▸ add_le_add_left hdue i⟩
    rw [hnext, Nat.cast_one, one_mul]

/-- **Frames that are no longer than the interval leave a timer on its grid**: after them it is due
    as many intervals later as it has fired, and that is ahead of the clock, by an interval at
    most. -/
theorem Course.on_grid (h : Course s t frames n) (ht : s.Ahead t i)
    (hspans : ∀ f ∈ frames, f.span ≤ i) :
    s.clock + total frames < t.due + n * i ∧ t.due + n * i ≤ s.clock + total frames + i := by
  induction h with
  | @done s t =>
      rw [show total [] = 0 from rfl, Nat.cast_zero, zero_mul, add_zero, add_zero]
      exact ⟨ht.ahead, ht.near⟩
  | @frame s t next f rest k n hfate _ ih =>
      have hspan := hspans f List.mem_cons_self
      have hclock := exact_upTo s f
      have hlate : (s.upTo f).clock < t.due + i := by
        rw [hclock]
        exact add_lt_add_of_lt_of_le ht.ahead hspan
      have hnear : t.due ≤ (s.upTo f).clock + i := by
        rw [hclock, add_right_comm]
        exact ht.near.trans le_self_add
      obtain ⟨hdue, hinterval, hahead, hbound⟩ := hfate.on_grid ht.interval hlate hnear
      rw [hclock, ← exact_frame] at hahead hbound
      have hrest := ih ⟨hinterval, hahead, hbound⟩ fun g hg => hspans g (List.mem_cons_of_mem f hg)
      rw [hdue, exact_frame] at hrest
      rw [total_cons, ← add_assoc, Nat.cast_add, add_mul, ← add_assoc]
      exact hrest

/-- **A timer fires once for every interval that passes**, in frames that are no longer than one. -/
theorem Course.count_eq (h : Course s t frames n) (hpos : 0 < i) (hi : t.interval = some i)
    (hdue : t.due = s.clock + i) (hspans : ∀ f ∈ frames, f.span ≤ i) :
    n = ⌊total frames / i⌋₊ := by
  have hahead : s.Ahead t i := ⟨hi, hdue ▸ lt_add_of_pos_right _ hpos, hdue.le⟩
  obtain ⟨hlow, hhigh⟩ := h.on_grid hahead hspans
  rw [hdue, add_assoc] at hlow hhigh
  have hlt : total frames < i + n * i := lt_of_add_lt_add_left hlow
  have hle : n * i ≤ total frames := by
    rw [add_assoc, add_comm i] at hhigh
    exact le_of_add_le_add_right (le_of_add_le_add_left hhigh)
  refine ((Nat.floor_eq_iff zero_le).mpr ⟨?_, ?_⟩).symm
  · exact (le_div_iff₀ hpos).mpr hle
  · rw [div_lt_iff₀ hpos, add_mul, one_mul, add_comm]
    exact hlt

/-- **A repeating timer does not drift.** In whatever state it is added, and whatever else is
    scheduled, fires and is cancelled: while it is not cancelled it fires at most once in a frame,
    which is when the frame reaches its due time (`Course`), and in frames that are no longer than
    its interval it fires exactly once for every interval that has passed. Where no other timer
    bears its identifier, that is how often it is returned. -/
theorem repeats_without_drift (wall : Nat) (history : List (Operation ℚ≥0)) (callback : String)
    {i : ℚ≥0} (hpos : 0 < i) (frames : List (Frame ℚ≥0)) :
    let s := (empty wall : Scheduler ℚ≥0).performAll history
    let added := s.addTimer callback i true
    let t : Timer ℚ≥0 := ⟨s.clock + i, s.inserted + 1, added.2, callback, some i⟩
    AtSweeps (fun s => s.isCancelled added.2 = false) added.1 frames →
    t ∈ added.1.timers.toList ∧ (added.1.play frames).clock = s.clock + total frames ∧
      ∃ n, Course added.1 t frames n ∧
        ((∀ f ∈ frames, f.span ≤ i) → n = ⌊total frames / i⌋₊) ∧
        (AtSweeps (fun s => s.borne added.2 ≤ 1) added.1 frames →
          (added.1.returned frames).count ⟨callback, some added.2⟩ = n) := by
  intro s added t hlive
  have hsound : s.Sound := (sound_empty exact_linear wall).performAll exact_linear history
  have hadded : added.1 = ({ s with nextId := succId s.nextId } : Scheduler ℚ≥0).push s.nextId
      callback (s.clock + i) (some i) := by
    show (s.addTimer callback i true).1 = _
    unfold addTimer
    rw [exact_clean]
    rfl
  have ht : t ∈ added.1.timers.toList := by
    rw [hadded]
    exact mem_push.mpr (.inl rfl)
  obtain ⟨n, hcourse⟩ := exists_course exact_linear
    (hsound.addTimer exact_linear callback i true) ht rfl hlive
  exact ⟨ht, clock_play added.1 frames, n, hcourse, hcourse.count_eq hpos rfl rfl,
    hcourse.count_returned⟩

/-- A timer of a quarter of a second, beside one that fires once and one that is cancelled, in
    frames of uneven length: it is returned twice in five eighths of a second. -/
theorem quarter_second_without_drift :
    let s := (empty 0 : Scheduler ℚ≥0).performAll [.addTimer "once" (1 / 8) false]
    let frames : List (Frame ℚ≥0) := [
      { span := 1 / 8 },
      { before := [.addTimer "other" (1 / 16) true], span := 1 / 8, between := [.cancel 3] },
      { span := 1 / 4 },
      { span := 1 / 8 }]
    ((s.addTimer "tick" (1 / 4) true).1.returned frames).count ⟨"tick", some 2⟩ = 2 := by
  intro s frames
  obtain ⟨-, -, n, -, hcount, hreturned⟩ := repeats_without_drift 0 [.addTimer "once" (1 / 8) false]
    "tick" (i := 1 / 4) (by decide +kernel) frames (by decide +kernel)
  have hn : n = 2 := by
    rw [hcount (by decide +kernel)]
    decide +kernel
  exact (hreturned (by decide +kernel)).trans hn

end Scheduler

end EmbeddedVm
