import EmbeddedVm.Proofs.Host.Lockstep
import EmbeddedVm.Vm.Events

/-!
# Virtual machines that serve their events alike

A drain takes what is ready and calls one callback after the other. So for two machines to drain
alike it is enough that they hold the same events, find the same callbacks by name, and that each
call goes in lockstep. A relation between machines that gives this is one of `Companions`, and under
it both drains go in lockstep (`Companions.drainCooperative`, `Companions.drainReads`).
-/

namespace EmbeddedVm.Vm

variable {ν : Type}

/-- The same result, and machines that are related. -/
def Same {α : Type} (R : Vm ν → Vm ν → Prop) (x y : α × Vm ν) : Prop := x.1 = y.1 ∧ R x.2 y.2

/-- **Machines related so serve their events alike.** -/
structure Companions (R : Vm ν → Vm ν → Prop) : Prop where
  isLoaded : ∀ {a b : Vm ν}, R a b → a.isLoaded = b.isLoaded
  scheduler : ∀ {a b : Vm ν}, R a b → a.store.scheduler = b.store.scheduler
  reactor : ∀ {a b : Vm ν}, R a b → a.store.reactor = b.store.reactor
  withScheduler : ∀ {a b : Vm ν}, R a b → ∀ scheduler : Scheduler Binary64,
    R { a with store := { a.store with scheduler } } { b with store := { b.store with scheduler } }
  withReactor : ∀ {a b : Vm ν}, R a b → ∀ reactor : Reactor,
    R { a with store := { a.store with reactor } } { b with store := { b.store with reactor } }
  /-- A callback is found on both sides or on none, and called alike. -/
  callback : ∀ {a b : Vm ν}, R a b → ∀ name : String,
    ((a.image.bind fun image => (image.functionIndex? name).map (image, ·)) = none ∧
      (b.image.bind fun image => (image.functionIndex? name).map (image, ·)) = none) ∨
    ∃ x y, (a.image.bind fun image => (image.functionIndex? name).map (image, ·)) = some x ∧
      (b.image.bind fun image => (image.functionIndex? name).map (image, ·)) = some y ∧
      ∀ args, Run.Lockstep (Same R) (a.callIndex x.1 x.2 args) (b.callIndex y.1 y.2 args)

namespace Companions

variable {R : Vm ν → Vm ν → Prop} (hR : Companions R) {a b : Vm ν}

include hR

theorem runDue (h : R a b) (due : List DueCallback) (ran : Nat) :
    Run.Lockstep (Same R) (a.runDue due ran) (b.runDue due ran) := by
  induction due generalizing a b ran with
  | nil => exact .done ⟨rfl, h⟩
  | cons c rest ih =>
      unfold Vm.runDue
      rcases hR.callback h c.callback with ⟨ha, hb⟩ | ⟨x, y, ha, hb, hcall⟩
      · rw [ha, hb]
        exact ih h ran
      · rw [ha, hb]
        refine (hcall []).bind fun x y hxy => ?_
        obtain ⟨result, a'⟩ := x
        obtain ⟨_, b'⟩ := y
        obtain ⟨rfl, h'⟩ := hxy
        cases result with
        | ok v => exact ih h' (ran + 1)
        | error e =>
            dsimp only
            rw [hR.scheduler h']
            exact .done ⟨rfl, hR.withScheduler h' _⟩

/-- **The scheduler is drained in lockstep.** -/
theorem drainCooperative (h : R a b) (hint : Option Binary64) (wall : Nat) :
    Run.Lockstep (Same R) (a.drainCooperative hint wall) (b.drainCooperative hint wall) := by
  unfold Vm.drainCooperative
  rw [hR.isLoaded h, hR.scheduler h]
  split
  · exact hR.runDue (hR.withScheduler h _) _ 0
  · exact .done ⟨rfl, h⟩

theorem runReads (h : R a b) (ready : List ReadCompletion) (ran : Nat) :
    Run.Lockstep (Same R) (a.runReads ready ran) (b.runReads ready ran) := by
  induction ready generalizing a b ran with
  | nil => exact .done ⟨rfl, h⟩
  | cons c rest ih =>
      unfold Vm.runReads
      have hc := hR.withReactor h (b.store.reactor.dispatched c.id)
      dsimp only
      rw [hR.reactor h]
      rcases hR.callback hc c.callback with ⟨ha, hb⟩ | ⟨x, y, ha, hb, hcall⟩
      · rw [ha, hb]
        exact ih hc ran
      · rw [ha, hb]
        refine (hcall _).bind fun x y hxy => ?_
        obtain ⟨result, a'⟩ := x
        obtain ⟨_, b'⟩ := y
        obtain ⟨rfl, h'⟩ := hxy
        cases result with
        | ok v => exact ih h' (ran + 1)
        | error e =>
            dsimp only
            rw [hR.reactor h']
            exact .done ⟨rfl, hR.withReactor h' _⟩

/-- **Finished reads are handed over in lockstep.** -/
theorem drainReads (h : R a b) : Run.Lockstep (Same R) a.drainReads b.drainReads := by
  unfold Vm.drainReads
  rw [hR.isLoaded h, hR.reactor h]
  split
  · exact hR.runReads (hR.withReactor h _) _ 0
  · exact .done ⟨rfl, h⟩

end Companions

end EmbeddedVm.Vm
