import EmbeddedVm.Vm.Basic

/-!
# Draining events

The machine has two sources of callbacks: the cooperative scheduler and background reads. Draining a
source takes what is ready at that moment and calls it in order. The first callback that throws ends
the drain, and everything behind it is put back.
-/

namespace EmbeddedVm.Vm

variable {ν : Type}

/-- The event facilities in use: those of the loaded code, and those with something registered. -/
def capabilities (vm : Vm ν) : Capabilities :=
  let linked := (vm.image.map (·.capabilities)).getD {}
  { cooperative := linked.cooperative || vm.store.scheduler.isActive
    asyncIo := linked.asyncIo || decide (0 < vm.store.reactor.inFlight) ||
      vm.store.reactor.hasReady }

/-! ## 1. The scheduler -/

/-- Whether a sweep after moving the clock would run anything. -/
def hasPendingCooperative (vm : Vm ν) (hint : Option Binary64) (wall : Nat) : Bool :=
  vm.store.scheduler.hasPending hint wall

/-- Calls callbacks in order and counts those that ran. A name that is not in the module is passed
    over. -/
def runDue : (due : List DueCallback) → (ran : Nat) → Vm ν → Run ν (Except VmError Nat × Vm ν)
  | [], ran, vm => .done (.ok ran, vm)
  | c :: rest, ran, vm =>
    match vm.image.bind fun image => (image.functionIndex? c.callback).map (image, ·) with
    | none => runDue rest ran vm
    | some (image, function) =>
      (vm.callIndex image function []).bind fun
        | (.ok _, vm) => runDue rest (ran + 1) vm
        | (.error e, vm) =>
          let scheduler := vm.store.scheduler.defer rest
          .done (.error e, { vm with store := { vm.store with scheduler } })

/-- Moves the clock and runs everything due. -/
def drainCooperative (vm : Vm ν) (hint : Option Binary64) (wall : Nat) :
    Run ν (Except VmError Nat × Vm ν) :=
  if vm.isLoaded then
    let (scheduler, due) := (vm.store.scheduler.advance hint wall).takeDue
    runDue due 0 { vm with store := { vm.store with scheduler } }
  else .done (.ok 0, vm)

/-! ## 2. Background reads -/

/-- Whether finished reads wait. -/
def hasPendingReads (vm : Vm ν) : Bool := vm.store.reactor.hasReady

/-- The reads still in flight. -/
def readsInFlight (vm : Vm ν) : Nat := vm.store.reactor.inFlight

/-- Hands finished reads to their callbacks in order and counts those that ran. A read that failed
    hands over null. -/
def runReads : (ready : List ReadCompletion) → (ran : Nat) → Vm ν →
    Run ν (Except VmError Nat × Vm ν)
  | [], ran, vm => .done (.ok ran, vm)
  | c :: rest, ran, vm =>
    -- dispatched before the call: one that throws is not handed over again
    let reactor := vm.store.reactor.dispatched c.id
    let vm := { vm with store := { vm.store with reactor } }
    match vm.image.bind fun image => (image.functionIndex? c.callback).map (image, ·) with
    | none => runReads rest ran vm
    | some (image, function) =>
      let arg := match c.result with
        | .ok contents => Scalar.string contents
        | .error _ => .null
      (vm.callIndex image function [arg]).bind fun
        | (.ok _, vm) => runReads rest (ran + 1) vm
        | (.error e, vm) =>
          let reactor := vm.store.reactor.defer rest
          .done (.error e, { vm with store := { vm.store with reactor } })

/-- Hands over the reads that are finished now. -/
def drainReads (vm : Vm ν) : Run ν (Except VmError Nat × Vm ν) :=
  if vm.isLoaded then
    let (reactor, ready) := vm.store.reactor.takeReady
    runReads ready 0 { vm with store := { vm.store with reactor } }
  else .done (.ok 0, vm)

/-- Finishes every background read. -/
def finishReads (vm : Vm ν) (read : String → Except String String) : Vm ν :=
  { vm with store := { vm.store with reactor := vm.store.reactor.finishAll read } }

end EmbeddedVm.Vm
