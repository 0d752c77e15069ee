import EmbeddedVm.Proofs.Events.Conservation
import EmbeddedVm.Proofs.Machine.Writes
import EmbeddedVm.Proofs.Vm.Soundness

/-!
# The clock in a frame

A frame hands over the finished reads first and drains the scheduler then. The clock of the scheduler
moves at one place only, ahead of the callbacks of a drain; no code moves it, and nothing that is
put back does. So a drain moves it by the length of the frame whatever its callbacks do
(`clock_drainCooperative`), and finished reads leave it (`clock_drainReads`).

Reads that are handed over do not take the scheduler out of a frame either: whatever code they run,
a machine that has a use for it still has one afterwards (`present_drainReads`).
-/

namespace EmbeddedVm

open Binary64 in
/-- The length of a frame is taken as it is. -/
theorem Binary64.clean_of_length {delta : Binary64} (hfinite : delta.isFinite = true)
    (hlength : delta.lt .zero = false) : Instant.clean delta = delta := by
  have hnan : delta.isNaN = false := by
    unfold isFinite at hfinite
    unfold isNaN
    rw [beq_eq_false_iff_ne.mpr (bne_iff_ne.mp hfinite), Bool.false_and]
  unfold Instant.clean
  rw [if_pos (by exact hfinite)]
  show max delta zero = delta
  unfold max
  rw [if_neg (Bool.eq_false_iff.mp hnan), if_neg (by decide), if_neg (Bool.eq_false_iff.mp hlength)]

/-- What is put back does not move the clock. -/
theorem Scheduler.clock_defer {τ : Type} [Instant τ] (s : Scheduler τ)
    (back : List DueCallback) : (s.defer back).clock = s.clock := by
  obtain ⟨_, -, -, -, -, hsame⟩ := defer_perm back s
  exact hsame.clock

variable {ν : Type}

/-- The facilities noted are those of the code. -/
theorem Image.capabilities_of_link {natives : NativeTable ν} {m : Module} {image : Image ν}
    (h : link natives m = .ok image) : image.capabilities = usesOf image.functions.toList := by
  unfold link at h
  simp only [Checks.bind_eq_ok, Checks.mapError_eq_ok, Checks.pure_eq_ok] at h
  obtain ⟨imports, -, functions, -, rfl⟩ := h
  rfl

/-- Code of an image that has no use for the scheduler has no instruction that uses it. -/
theorem Image.CodeOf.uses_eq_false {image : Image ν} {function : Nat} {i : Instruction}
    (h : image.CodeOf function i) (hlinked : image.capabilities = usesOf image.functions.toList)
    (hnone : image.capabilities.cooperative = false) : (uses i).cooperative = false := by
  obtain ⟨inner, g, s, -, hg, hs, rfl⟩ := h
  rw [hlinked] at hnone
  refine Bool.eq_false_iff.mpr fun huses => Bool.eq_false_iff.mp hnone ?_
  refine List.any_eq_true.mpr ⟨g, Array.mem_toList_iff.mpr (Array.mem_of_getElem? hg), ?_⟩
  exact Array.any_eq_true'.mpr ⟨s, hs, huses⟩

namespace Vm

variable {vm vm' : Vm ν}

/-- The clock of the scheduler. -/
def clock (vm : Vm ν) : Binary64 := vm.store.scheduler.clock

theorem Sound.withReactor (h : vm.Sound) (reactor : Reactor) : (vm.withReactor reactor).Sound :=
  h.change (.events vm.store.scheduler reactor)

/-! ## 1. The clock -/

/-- **No code moves the clock.** -/
theorem storeInvariant_clock (ctx : Context ν) (now : Binary64) :
    Machine.StoreInvariant ctx fun s => s.scheduler.clock = now where
  heap _ _ h := h
  change m _ hc h := by
    cases hc with
    | cancel id =>
        rcases Scheduler.cancel_cases m.store.scheduler id with hcancel | hcancel
        · exact (congrArg (·.1.clock) hcancel).trans h
        · exact (congrArg (·.1.clock) hcancel).trans h
    | pop | push | setLocal | setStatic | submit | addTimer | addMainLoop => exact h

theorem keptByCalls_clock (now : Binary64) :
    KeptByCalls fun vm : Vm ν => vm.Sound ∧ vm.clock = now := by
  rintro vm vm' image function args result ⟨hsound, hclock⟩ hi hcall
  obtain ⟨o, ho, -, rfl⟩ := callIndex_ends hcall
  exact ⟨hsound.change (.call hi ho),
    (storeInvariant_clock _ now).call (hsound.image hi) (hsound.shapes hi) hclock ho⟩

/-- **Finished reads leave the clock**, whatever their callbacks do. -/
theorem Sound.clock_drainReads (h : vm.Sound) {result : Except VmError Nat}
    (hends : vm.drainReads.Ends (result, vm')) : vm'.Sound ∧ vm'.clock = vm.clock :=
  (keptByCalls_clock vm.clock).drainReads
    (fun {_} reactor ⟨hsound, hclock⟩ => ⟨hsound.withReactor reactor, hclock⟩) ⟨h, rfl⟩ hends

/-- **A drain moves the clock by the length of the frame**, however it ends. -/
theorem Sound.clock_drainCooperative (h : vm.Sound) (hl : vm.isLoaded = true) {delta : Binary64}
    (hfinite : delta.isFinite = true) (hlength : delta.lt .zero = false) {wall : Nat}
    {result : Except VmError Nat} (hends : (vm.drainCooperative (some delta) wall).Ends (result, vm')) :
    vm'.Sound ∧ vm'.clock = vm.clock + delta := by
  unfold drainCooperative at hends
  rw [if_pos hl] at hends
  have hmoved : (vm.store.scheduler.advance (some delta) wall).clock = vm.clock + delta := by
    show vm.clock + Instant.clean delta = _
    rw [Binary64.clean_of_length hfinite hlength]
  refine (keptByCalls_clock (vm.clock + delta)).runDue ?_
    ⟨h.change (.events _ vm.store.reactor), (Scheduler.takeDue_same _).1.trans hmoved⟩ hends
  rintro vm₁ back ⟨hsound, hclock⟩
  exact ⟨hsound.change (.events _ vm₁.store.reactor), (Scheduler.clock_defer _ back).trans hclock⟩

/-- Where no finished read waits, none is handed over. -/
theorem drainReads_of_not_ready (hready : vm.store.reactor.hasReady = false) :
    ∃ vm', vm.drainReads = .done (.ok 0, vm') := by
  have hnone : vm.store.reactor.takeReady.2 = [] := by
    unfold Reactor.hasReady at hready
    simp only [Bool.or_eq_false_iff, Bool.not_eq_false', List.isEmpty_iff] at hready
    unfold Reactor.takeReady
    rw [hready.1, hready.2, List.append_nil]
  unfold drainReads
  dsimp only
  rw [hnone]
  split
  · exact ⟨_, rfl⟩
  · exact ⟨vm, rfl⟩

/-! ## 2. The scheduler keeps its part -/

/-- **Code that has no use for the scheduler leaves it alone.** -/
theorem codeInvariant_scheduler (s : Scheduler Binary64) :
    Machine.CodeInvariant (fun i => (Image.uses i).cooperative = false) fun store =>
      store.scheduler = s where
  writes hi hw h := by
    rcases hw.scheduler with hsame | huses
    · exact hsame.trans h
    · cases hi.symm.trans huses
  alloc _ h := h
  collect h := h

/-- The machine has a module that has no use for the scheduler, and this scheduler. -/
structure LeavesScheduler (image : Image ν) (s : Scheduler Binary64) (vm : Vm ν) : Prop where
  sound : vm.Sound
  image : vm.image = some image
  scheduler : vm.store.scheduler = s

theorem keptByCalls_scheduler {image : Image ν} (hnone : image.capabilities.cooperative = false)
    (s : Scheduler Binary64) : KeptByCalls (LeavesScheduler image s) := by
  intro vm vm' image' function args result h hi hcall
  cases h.image.symm.trans hi
  obtain ⟨o, ho, -, rfl⟩ := callIndex_ends hcall
  have hlinked := Image.capabilities_of_link (prepare_eq_ok.mp (h.sound.prepared hi)).2
  refine ⟨h.sound.change (.call hi ho), hi, ?_⟩
  exact (codeInvariant_scheduler s).call (h.sound.image hi) (h.sound.shapes hi)
    (fun i hcode => hcode.uses_eq_false hlinked hnone) h.scheduler ho

theorem image_drainReads {result : Except VmError Nat} (hends : vm.drainReads.Ends (result, vm')) :
    vm'.image = vm.image :=
  (keptByCalls_image vm.image).drainReads (fun _ h => h) rfl hends

/-- **A machine that has a use for the scheduler has one after finished reads are handed over**: its
    module has, or its code leaves alone what is scheduled. -/
theorem Sound.present_drainReads (h : vm.Sound) (hpresent : vm.capabilities.cooperative = true)
    {result : Except VmError Nat} (hends : vm.drainReads.Ends (result, vm')) :
    vm'.capabilities.cooperative = true := by
  have himage := image_drainReads hends
  cases hi : vm.image with
  | none =>
      unfold drainReads isLoaded at hends
      rw [hi, if_neg nofun] at hends
      cases Run.ends_done.mp hends
      exact hpresent
  | some image =>
      unfold capabilities at hpresent ⊢
      rw [himage]
      rw [hi] at hpresent ⊢
      cases huses : image.capabilities.cooperative with
      | true => exact Bool.or_eq_true_iff.mpr (.inl huses)
      | false =>
          have hkept := (keptByCalls_scheduler huses vm.store.scheduler).drainReads
            (fun reactor h => ⟨h.sound.withReactor reactor, h.image, h.scheduler⟩)
            ⟨h, hi, rfl⟩ hends
          rw [hkept.scheduler]
          exact hpresent

end Vm

end EmbeddedVm
