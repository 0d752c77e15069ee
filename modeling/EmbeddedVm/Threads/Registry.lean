import EmbeddedVm.Machine.Error
import EmbeddedVm.Threads.Program

/-!
# The registry of threads, and pauses of all of them

Every thread that touches the strings of a machine is registered. Before strings are freed, every
registered thread but the collecting one has to be *quiet*: parked at a safepoint, held by an owner
who keeps it away from the machine, or inside a blocking bracket, where it promises not to touch the
machine. Leaving a bracket, being released and registering anew wait while another thread's pause
lasts.

Establishing a pause is bounded in time. A pause that is not established in time is given up and
counted as stalled.

The registry is one critical region: `ThreadRegistry` holds what each region does to the state, and
the tasks below, over any state that has a registry in it, are made of those regions and nothing
else.
-/

namespace EmbeddedVm

/-! ## 1. State -/

/-- A registered thread: the registrations and the blocking brackets that are still open, and
    whether it waits at a safepoint or is held by an owner. -/
structure ThreadSlot where
  registrations : Nat := 0
  blockingDepth : Nat := 0
  parked : Bool := false
  held : Bool := false
deriving DecidableEq, Repr, Inhabited

/-- A thread that will not touch the machine. -/
def ThreadSlot.isQuiet (slot : ThreadSlot) : Bool :=
  slot.parked || slot.held || decide (0 < slot.blockingDepth)

/-- The registry. Threads stand in the order of their first registration. The `collector` has, or
    waits for, the others paused; safepoints look at `pausePending` only. `outstanding` counts the
    open blocking brackets of all threads, `stalled` the pauses that were given up. Times are in
    nanoseconds. -/
structure ThreadRegistry where
  pauseTimeout : Nat
  threads : List (ThreadId × ThreadSlot) := []
  collector : Option ThreadId := none
  pausePending : Bool := false
  outstanding : Nat := 0
  stalled : Nat := 0
deriving Repr, Inhabited

/-- The outcome of an operation on the registry. -/
abbrev RegistryResult (α : Type) := Except ThreadError α

namespace ThreadRegistry

def slot? (r : ThreadRegistry) (id : ThreadId) : Option ThreadSlot := r.threads.lookup id

def isRegistered (r : ThreadRegistry) (id : ThreadId) : Bool := (r.slot? id).isSome

def isHeld (r : ThreadRegistry) (id : ThreadId) : Bool := ((r.slot? id).map (·.held)).getD false

/-- Replaces the slot of a registered thread. -/
def setSlot (r : ThreadRegistry) (id : ThreadId) (slot : ThreadSlot) : ThreadRegistry :=
  { r with threads := r.threads.map fun (i, s) => if i == id then (i, slot) else (i, s) }

/-- Whether a pause by another thread is under way. -/
def blocks (r : ThreadRegistry) (me : ThreadId) : Bool :=
  match r.collector with
  | some c => c != me
  | none => false

/-- The registered threads other than `me` that are not quiet. -/
def unresponsive (r : ThreadRegistry) (me : ThreadId) : Nat :=
  r.threads.countP fun (id, slot) => id != me && !slot.isQuiet

/-! ## 2. Registration -/

/-- Registers a thread once more and returns its number of registrations. A thread that is not
    registered yet is kept out while another's pause lasts. -/
def register? (r : ThreadRegistry) (me : ThreadId) : Option (Nat × ThreadRegistry) :=
  match r.slot? me with
  | some slot =>
    let registrations := slot.registrations + 1
    some (registrations, r.setSlot me { slot with registrations })
  | none =>
    if r.blocks me then none
    else some (1, { r with threads := r.threads ++ [(me, { registrations := 1 })] })

/-- Takes back a registration and returns how many are left. With the last one the thread's
    brackets are gone too. -/
def unregister (r : ThreadRegistry) (me : ThreadId) : RegistryResult Nat × ThreadRegistry :=
  match r.slot? me with
  | none => (.error .notRegistered, r)
  | some slot =>
    let registrations := slot.registrations - 1
    if registrations = 0 then
      (.ok 0, { r with
        threads := r.threads.filter (·.1 != me), outstanding := r.outstanding - slot.blockingDepth })
    else (.ok registrations, r.setSlot me { slot with registrations })

/-! ## 3. Blocking brackets and holds -/

/-- Opens a blocking bracket of a thread and returns how many it has. -/
def blockingBegin (r : ThreadRegistry) (id : ThreadId) : RegistryResult Nat × ThreadRegistry :=
  match r.slot? id with
  | none => (.error .notRegistered, r)
  | some slot =>
    let blockingDepth := slot.blockingDepth + 1
    (.ok blockingDepth,
      { r.setSlot id { slot with blockingDepth } with outstanding := r.outstanding + 1 })

/-- Closes a blocking bracket of a thread and returns how many are left; the last one stays open
    while another's pause lasts. -/
def blockingEnd? (r : ThreadRegistry) (id : ThreadId) :
    Option (RegistryResult Nat × ThreadRegistry) :=
  match r.slot? id with
  | none => some (.error .notRegistered, r)
  | some slot =>
    if slot.blockingDepth = 0 then some (.error .unbalanced, r)
    else if slot.blockingDepth = 1 && r.blocks id then none
    else
      let blockingDepth := slot.blockingDepth - 1
      some (.ok blockingDepth,
        { r.setSlot id { slot with blockingDepth } with outstanding := r.outstanding - 1 })

def hold (r : ThreadRegistry) (id : ThreadId) : RegistryResult Unit × ThreadRegistry :=
  match r.slot? id with
  | none => (.error .notRegistered, r)
  | some slot =>
    if slot.held then (.error .unbalanced, r) else (.ok (), r.setSlot id { slot with held := true })

/-- Releases a held thread; one that is quiet for no other reason stays held while another's pause
    lasts. -/
def release? (r : ThreadRegistry) (id : ThreadId) :
    Option (RegistryResult Unit × ThreadRegistry) :=
  match r.slot? id with
  | none => some (.error .notRegistered, r)
  | some slot =>
    if !slot.held then some (.error .unbalanced, r)
    else if slot.blockingDepth = 0 && r.blocks id then none
    else some (.ok (), r.setSlot id { slot with held := false })

/-! ## 4. Safepoints and pauses -/

/-- Parks a thread if another's pause is under way; whether it did. -/
def park (r : ThreadRegistry) (me : ThreadId) : Bool × ThreadRegistry :=
  match r.slot? me with
  | some slot =>
    if r.blocks me then (true, r.setSlot me { slot with parked := true }) else (false, r)
  | none => (false, r)

/-- Ends the parking of a thread, once no other's pause is under way. -/
def unpark? (r : ThreadRegistry) (me : ThreadId) : Option ThreadRegistry :=
  if r.blocks me then none
  else match r.slot? me with
    | some slot => some (r.setSlot me { slot with parked := false })
    | none => some r

/-- The beginning of a pause: all other threads are quiet, some are not quiet yet, or another thread
    has its pause. -/
inductive PauseStart where
  | established
  | announced
  | refused
deriving DecidableEq, Repr, Inhabited

/-- Announces a pause unless another thread has one. -/
def beginPause (r : ThreadRegistry) (me : ThreadId) : PauseStart × ThreadRegistry :=
  if r.blocks me then (.refused, r)
  else
    let r := { r with collector := some me, pausePending := true }
    (if r.unresponsive me = 0 then .established else .announced, r)

/-- Ends a pause, established or not. -/
def endPause (r : ThreadRegistry) : ThreadRegistry :=
  { r with collector := none, pausePending := false }

/-- Gives up a pause that was never announced. -/
def refusePause (r : ThreadRegistry) : RegistryResult Unit × ThreadRegistry :=
  (.error (.pauseTimeout 0), { r with stalled := r.stalled + 1 })

/-- Gives up an announced pause, unless all other threads are quiet at last. -/
def abandonPause (r : ThreadRegistry) (me : ThreadId) : RegistryResult Unit × ThreadRegistry :=
  match r.unresponsive me with
  | 0 => (.ok (), r)
  | n + 1 => (.error (.pauseTimeout (n + 1)), { r.endPause with stalled := r.stalled + 1 })

end ThreadRegistry

/-! ## 5. Operations of threads -/

/-- A state that has a registry in it, which can be exchanged for another. -/
class HasThreads (S : Type) where
  threads : S → ThreadRegistry
  setThreads : S → ThreadRegistry → S

namespace Threads

variable {κ S α : Type} [HasThreads S]

/-- A critical region of the registry. -/
def region (f : ThreadRegistry → α × ThreadRegistry) : Task κ S α :=
  Task.atomically fun s =>
    let (a, r) := f (HasThreads.threads s)
    (a, HasThreads.setThreads s r)

/-- A critical region of the registry that waits until it is admitted. -/
def admitted (s : S) (f : ThreadRegistry → Option (α × ThreadRegistry)) : Option (α × S) :=
  (f (HasThreads.threads s)).map fun (a, r) => (a, HasThreads.setThreads s r)

def look (f : ThreadRegistry → α) : Task κ S α := Task.read fun s => f (HasThreads.threads s)

def register (me : ThreadId) : Task κ S Nat := Task.await fun s => admitted s (·.register? me)

/-- Takes back a registration of the thread `me`. -/
def unregister (me : ThreadId) : Task κ S (RegistryResult Nat) := region (·.unregister me)

/-- Opens a blocking bracket of a thread. -/
def blockingBegin (id : ThreadId) : Task κ S (RegistryResult Nat) := region (·.blockingBegin id)

/-- Closes a blocking bracket of a thread. -/
def blockingEnd (id : ThreadId) : Task κ S (RegistryResult Nat) :=
  Task.await fun s => admitted s (·.blockingEnd? id)

def hold (id : ThreadId) : Task κ S (RegistryResult Unit) := region (·.hold id)

/-- Releases a held thread. -/
def release (id : ThreadId) : Task κ S (RegistryResult Unit) :=
  Task.await fun s => admitted s (·.release? id)

/-- A safepoint of the thread `me`: it waits here while another's pause lasts. A thread that is not
    registered passes. -/
def poll (me : ThreadId) : Task κ S Unit := do
  if ← look (·.pausePending) then
    if ← region (·.park me) then
      Task.await fun s => admitted s fun r => (r.unpark? me).map ((), ·)

/-- Waits for a state that says stop, and passes a safepoint whenever a pause of another thread asks
    for it, at most so many times. -/
def pollUntil (me : ThreadId) (stop : S → Bool) : (fuel : Nat) → Task κ S Unit
  | 0 => pure ()
  | fuel + 1 => do
    let stopped ← Task.await fun s =>
      let r := HasThreads.threads s
      if stop s then some (true, s)
      else if r.isRegistered me && r.blocks me then some (false, s)
      else none
    if !stopped then
      poll me
      pollUntil me stop fuel

/-- Pauses all other threads, for the thread `me`. The wait for another's pause and the wait for
    the other threads share one deadline. -/
def pause (me : ThreadId) : Task κ S (RegistryResult Unit) := do
  let start ← Task.now
  let deadline := start + (← look (·.pauseTimeout))
  let begun ← region (·.beginPause me)
  let begun ← match begun with
    | .refused =>
      Task.awaitUntil (some deadline)
        (fun s => admitted s fun r => match r.beginPause me with
          | (.refused, _) => none
          | (begun, r) => some (begun, r))
        (fun s =>
          let r := (HasThreads.threads s).refusePause.2
          (.refused, HasThreads.setThreads s r))
    | begun => pure begun
  match begun with
  | .established => pure (.ok ())
  | .refused => pure (.error (.pauseTimeout 0))
  | .announced =>
    Task.awaitUntil (some deadline)
      (fun s => admitted s fun r => if r.unresponsive me = 0 then some (.ok (), r) else none)
      (fun s =>
        let (result, r) := (HasThreads.threads s).abandonPause me
        (result, HasThreads.setThreads s r))

def resume : Task κ S Unit := region fun r => ((), r.endPause)

/-- **Does something while all other threads are paused.** -/
def paused (me : ThreadId) (body : Task κ S α) : Task κ S (RegistryResult α) := do
  match ← pause me with
  | .error e => pure (.error e)
  | .ok () =>
    -- this ends a pause around it too: there is one collector, and it is not counted
    let a ← body
    resume
    pure (.ok a)

end Threads

end EmbeddedVm
