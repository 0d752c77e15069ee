import EmbeddedVm.Number.Nearest
import EmbeddedVm.Proofs.Events.Reached

/-!
# Forecasts of a sweep

A host asks whether a sweep would take anything before it moves the clock. The forecast looks at
every timer that is due up to a point in time ahead (`horizon`); the sweep moves the clock and takes
timers out, one after the other. The two come to the same, but for two differences. Spans are
cleaned by the sweep alone: a forecast takes an infinite span as it is, a sweep as none
(`clean_eq_max`, `hasPending_endless`). And a cancellation drops a single timer, so of two due
timers under one cancelled identifier, which the forecast passes over, the sweep takes one
(`fired_eq_nil`). Otherwise the forecast is right about every scheduler in use
(`forecast_comes_true`).
-/

namespace EmbeddedVm

open Instant Ticking

/-! ## 1. Spans -/

namespace Binary64

variable {x : Binary64}

/-- What is not finite is a NaN or an infinity. -/
theorem eq_infinity_of_not_finite (hfinite : x.isFinite = false) (hnan : x.isNaN = false) :
    ∃ negative, x = infinity negative := by
  have hexponent : x.exponentBits = 2047 := by simpa [isFinite] using hfinite
  have hfraction : x.fractionBits = 0 := by simpa [isNaN, hexponent] using hnan
  have hbound := x.bits.toNat_lt
  unfold exponentBits at hexponent
  rw [UInt64.toNat_shiftRight, Nat.shiftRight_eq_div_pow] at hexponent
  replace hexponent : x.bits.toNat / 4503599627370496 % 2048 = 2047 := hexponent
  replace hfraction : x.bits.toNat % 4503599627370496 = 0 := hfraction
  have hbits : x.bits.toNat = 0x7FF0000000000000 ∨ x.bits.toNat = 0xFFF0000000000000 := by omega
  rcases hbits with h | h
  · exact ⟨false, congrArg mk (UInt64.toNat_inj.mp h)⟩
  · exact ⟨true, congrArg mk (UInt64.toNat_inj.mp h)⟩

/-- **Of all spans, only one without an end is longer than it is after cleaning.** -/
theorem clean_eq_max {span : Binary64} (h : span ≠ infinity false) :
    Instant.clean span = Instant.max span Instant.zero := by
  unfold Instant.clean
  split
  · rfl
  · rename_i hfinite
    show zero = max span zero
    by_cases hnan : span.isNaN = true
    · unfold max
      rw [if_pos hnan]
    · obtain ⟨negative, rfl⟩ := eq_infinity_of_not_finite (Bool.eq_false_iff.mpr hfinite)
        (Bool.eq_false_iff.mpr hnan)
      cases negative with
      | false => exact absurd rfl h
      | true => decide +kernel

open Float.Model UnpackedFloat

/-- What is added up with infinity is infinity. -/
theorem NonNegative.add_infinity {u : UnpackedFloat} (hu : NonNegative u) :
    UnpackedFloat.add .binary64 u (.infinity .positive) = .infinity .positive := by
  cases hu <;> rfl

/-- What is not below zero comes no later than infinity. -/
theorem NonNegative.le_infinity {u : UnpackedFloat} (hu : NonNegative u) :
    u.le (.infinity .positive) = true := by
  rw [hu.le_iff .infinity]
  cases hu <;> simp [place, Prod.Lex.toLex_le_toLex]

/-- **After a span without an end, everything is due.** -/
theorem le_add_infinity {y : Binary64} (hx : zero.le x = true) (hy : zero.le y = true) :
    x.le (y + infinity false) = true := by
  have hinfinity : (infinity false).value = .infinity .positive := rfl
  have hpacked : UnpackedFloat.unpack .binary64
      (UnpackedFloat.pack .binary64 (.infinity .positive)) = .infinity .positive := rfl
  rw [le_iff, value_add, hinfinity, (zero_le.mp hy).add_infinity, hpacked]
  exact (zero_le.mp hx).le_infinity

end Binary64

namespace Scheduler

variable {τ : Type} [Instant τ] {s : Scheduler τ}

/-! ## 2. What is due -/

/-- The point in time up to which a forecast looks. -/
def horizon (s : Scheduler τ) (hint : Option τ) (wall : Nat) : τ :=
  Instant.add s.clock <| match hint with
    | some span => Instant.max span Instant.zero
    | none => s.uncovered wall

/-- The timers that are due at a point in time, cancelled or not. -/
def dueBy (s : Scheduler τ) (now : τ) : List (Timer τ) :=
  s.timers.toList.filter fun t => Instant.le t.due now

/-- A forecast finds something exactly if a callback runs on every sweep or a timer that is due is
    not cancelled. -/
theorem hasPending_eq_true {hint : Option τ} {wall : Nat} :
    s.hasPending hint wall = true ↔
      s.mainLoop ≠ [] ∨ ∃ t ∈ s.dueBy (s.horizon hint wall), t.id ∉ s.cancelled := by
  have hmain : (!s.mainLoop.isEmpty) = true ↔ s.mainLoop ≠ [] := by simp
  unfold hasPending
  split
  · rename_i h
    exact ⟨fun _ => .inl (hmain.mp h), fun _ => rfl⟩
  · rename_i h
    rw [hmain] at h
    show Array.any s.timers (fun t => Instant.le t.due (s.horizon hint wall) && _) = true ↔ _
    rw [Array.any_eq_true']
    simp [h, dueBy, isCancelled, and_assoc]

/-- What comes up in a sweep is what is due. -/
theorem Popped.perm_due {clock : τ} {timers popped left : List (Timer τ)}
    (h : Popped clock timers popped left) :
    (timers.filter fun t => Instant.le t.due clock).Perm popped := by
  refine (h.all.filter _).trans (.of_eq ?_)
  rw [List.filter_append, List.filter_eq_self.mpr h.due, List.filter_eq_nil_iff.mpr,
    List.append_nil]
  intro t ht
  rw [lt_eq_true.mp (h.later t ht)]
  exact Bool.false_ne_true

omit [Instant τ] in
/-- **Nothing fires** exactly if every timer that comes up is cancelled and no two of them bear one
    identifier: a cancellation drops one timer only. -/
theorem fired_eq_nil {cancelled : List UInt32} (h : cancelled.Nodup) {popped : List (Timer τ)} :
    fired cancelled popped = [] ↔
      (popped.map (·.id)).Nodup ∧ ∀ t ∈ popped, t.id ∈ cancelled := by
  induction popped generalizing cancelled with
  | nil => simp [fired]
  | cons t rest ih =>
      unfold fired
      rw [List.map_cons, List.nodup_cons, List.forall_mem_cons]
      split
      · rename_i hcancelled
        rw [ih (h.erase _)]
        simp only [h.mem_erase_iff, List.mem_map, not_exists, not_and]
        -- what is cancelled after this one comes up is so before, under another identifier
        exact ⟨fun ⟨hnodup, hrest⟩ => ⟨⟨fun u hu => (hrest u hu).1, hnodup⟩, hcancelled,
            fun u hu => (hrest u hu).2⟩,
          fun ⟨⟨hne, hnodup⟩, _, hrest⟩ => ⟨hnodup, fun u hu => ⟨hne u hu, hrest u hu⟩⟩⟩
      · rename_i hlive
        exact ⟨fun hcons => (List.cons_ne_nil _ _ hcons).elim, fun hall => absurd hall.2.1 hlive⟩

/-- **A sweep takes nothing** exactly if no callback runs on every sweep, every timer that is due is
    cancelled, and no two of them bear one identifier. -/
theorem Sound.takeDue_eq_nil (hτ : Linear τ) (h : s.Sound) :
    s.takeDue.2 = [] ↔ s.mainLoop = [] ∧ ((s.dueBy s.clock).map (·.id)).Nodup ∧
      ∀ t ∈ s.dueBy s.clock, t.id ∈ s.cancelled := by
  obtain ⟨-, popped, left, hswept⟩ := h.takeDue hτ
  have hdue : (s.dueBy s.clock).Perm popped := hswept.comeUp.perm_due
  rw [hswept.handed, List.append_eq_nil_iff, List.map_eq_nil_iff, List.map_eq_nil_iff,
    fired_eq_nil h.cancelled, and_comm, (hdue.map _).nodup_iff]
  exact and_congr_right fun _ => and_congr_right fun _ =>
    forall_congr' fun t => imp_congr_left hdue.mem_iff.symm

/-! ## 3. Forecast and sweep -/

/-- **What a sweep takes that moves the clock as far as a forecast looks**: anything that the
    forecast finds, and one of two due timers under an identifier. -/
theorem Sound.forecast (hτ : Linear τ) (h : s.Sound) {hint : Option τ} {wall : Nat}
    (hclock : (s.advance hint wall).clock = s.horizon hint wall) :
    (s.advance hint wall).takeDue.2 ≠ [] ↔ s.hasPending hint wall = true ∨
      ¬ ((s.dueBy (s.horizon hint wall)).map (·.id)).Nodup := by
  have hdue : (s.advance hint wall).dueBy (s.advance hint wall).clock =
      s.dueBy (s.horizon hint wall) := by
    rw [hclock]
    unfold dueBy
    rw [(advance_same s hint wall).1]
  obtain ⟨-, hcancelled, hmain⟩ := advance_same s hint wall
  rw [ne_eq, (h.advance hτ hint wall).takeDue_eq_nil hτ, hdue, hmain, hcancelled,
    hasPending_eq_true]
  by_cases hnodup : ((s.dueBy (s.horizon hint wall)).map (·.id)).Nodup
  · simp only [hnodup, true_and, not_true_eq_false, or_false]
    rw [not_and_or, not_forall]
    simp only [Classical.not_imp]
  · simp only [hnodup, false_and, and_false, not_false_eq_true, or_true]

/-- The sweep behind a hint moves the clock as far as a forecast looks, unless the hint is a span
    without an end. -/
theorem clock_advance_eq_horizon {s : Scheduler Binary64} {hint : Option Binary64}
    (h : hint ≠ some (.infinity false)) (wall : Nat) :
    (s.advance hint wall).clock = s.horizon hint wall := by
  cases hint with
  | none => rfl
  | some span =>
      show Instant.add s.clock (Instant.clean span) = Instant.add s.clock (Instant.max span _)
      rw [Binary64.clean_eq_max fun hspan => h (congrArg some hspan)]

/-- **A forecast without an end** finds every timer that is not cancelled, while the sweep does not
    move the clock. -/
theorem Sound.hasPending_endless {s : Scheduler Binary64} (h : s.Sound) (wall : Nat) :
    (s.hasPending (some (.infinity false)) wall = true ↔ s.mainLoop ≠ [] ∨ s.pending ≠ []) ∧
      s.advance (some (.infinity false)) wall = s.advance (some .zero) wall := by
  refine ⟨?_, ?_⟩
  · have hall : s.dueBy (s.horizon (some (.infinity false)) wall) = s.timers.toList :=
      List.filter_eq_self.mpr fun t ht =>
        Binary64.le_add_infinity (h.timers t ht).due h.clock
    rw [hasPending_eq_true, hall]
    refine or_congr_right ?_
    simp [pending, isCancelled, List.filter_eq_nil_iff]
  · have hclean : Instant.clean (Binary64.infinity false) = Instant.clean Binary64.zero := by
      decide +kernel
    show { s with clock := _, hinted := _ } = { s with clock := _, hinted := _ }
    rw [hclean]

/-! ## 4. Main statements -/

/-- A timer of a second. -/
def brief : Scheduler Binary64 := performAll (empty 0) [.addTimer "once" oneSecond false]

/-- A repeating timer, put back because the callback before it threw, and then cancelled. -/
def recalled : Scheduler Binary64 :=
  performAll (empty 0) [.addTimer "first" .zero false, .addTimer "tick" oneSecond true,
    .advance (some oneSecond) 0, .takeDue, .defer [⟨"tick", some 2⟩], .cancel 2]

/-- **Forecasts can be wrong.** One that looks ahead without an end finds a timer that the sweep
    does not come to. And of a repeating timer that was put back and is cancelled, the sweep takes
    one of the two turns that the forecast passes over. -/
theorem forecast_goes_wrong :
    brief.hasPending (some (.infinity false)) 0 = true ∧
      (brief.advance (some (.infinity false)) 0).takeDue.2 = [] ∧
      recalled.hasPending (some oneSecond) 0 = false ∧
      (recalled.advance (some oneSecond) 0).takeDue.2 = [⟨"tick", some 2⟩] := by
  decide +kernel

/-- **What a sweep takes was forecast.** Of every scheduler in use, whether the clock moves by a
    span of any kind but one without an end or follows the wall clock: a sweep takes anything
    exactly if the forecast for it says so or two of the timers that are due by then bear one
    identifier. So where identifiers are distinct, forecast and sweep say the same. -/
theorem forecast_comes_true (wall now : Nat) (operations : List (Operation Binary64))
    (hint : Option Binary64) (h : hint ≠ some (.infinity false)) :
    let s := (empty wall : Scheduler Binary64).performAll operations
    (s.advance hint now).takeDue.2 ≠ [] ↔ s.hasPending hint now = true ∨
      ¬ ((s.dueBy (s.horizon hint now)).map (·.id)).Nodup :=
  have hsound := (sound_empty Binary64.linear wall).performAll Binary64.linear operations
  hsound.forecast Binary64.linear (clock_advance_eq_horizon h now)

/-- A timer that is due within the frame is taken. -/
theorem brief_timer_forecast :
    some oneSecond ≠ some (.infinity false) ∧
      (brief.advance (some oneSecond) 0).takeDue.2 ≠ [] := by
  have hspan : some oneSecond ≠ some (.infinity false) := by decide
  exact ⟨hspan, (forecast_comes_true 0 0 _ _ hspan).mpr (.inl (by decide +kernel))⟩

end Scheduler

end EmbeddedVm
