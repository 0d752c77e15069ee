import EmbeddedVm.Events.HeapOrder
import EmbeddedVm.Events.Instant

/-!
# The cooperative scheduler

Callbacks are due at points of a virtual clock. The host moves the clock by the length of a frame or
lets it follow the wall clock, and then takes everything that is due: timers in the order of their
due times, equal ones in the order of their insertion, and after them the callbacks that run on
every sweep. Callbacks are stored by name, so a replaced module serves them with its own functions.

Identifiers of timers are 32 bits wide and wrap. The count of insertions, 64 bits wide, is taken not
to, so it is a natural number.
-/

namespace EmbeddedVm

/-! ## 1. State -/

/-- A timer that has not fired. Its `rank` among all insertions keeps timers that are due at the
    same time in order; one with an `interval` repeats. -/
structure Timer (τ : Type) where
  due : τ
  rank : Nat
  id : UInt32
  callback : String
  interval : Option τ
deriving DecidableEq, Repr, Inhabited

/-- A callback taken off the scheduler; one of every sweep belongs to no timer. -/
structure DueCallback where
  callback : String
  timer : Option UInt32
deriving DecidableEq, Repr, Inhabited

/-- The scheduler. `lastWall` is the wall clock, in nanoseconds, when the virtual clock last
    followed it, and `hinted` the sum of the frames since. The timers lie as a binary heap keeps
    them; `cancelled` has the identifiers of those among them that are not to fire. Zero identifies
    no timer, so `nextId` passes over it. -/
structure Scheduler (τ : Type) where
  clock : τ
  lastWall : Nat := 0
  hinted : τ
  timers : Array (Timer τ) := #[]
  cancelled : List UInt32 := []
  mainLoop : List String := []
  nextId : UInt32 := 1
  inserted : Nat := 0
deriving Repr, Inhabited

namespace Scheduler

variable {τ : Type} [Instant τ]

/-- Nothing scheduled, at the start of time. -/
def empty (wall : Nat) : Scheduler τ :=
  { clock := Instant.zero, lastWall := wall, hinted := Instant.zero }

/-- Earlier due, or equally due and inserted earlier. -/
def before (a b : Timer τ) : Bool :=
  Instant.lt a.due b.due || (Instant.le a.due b.due && decide (a.rank < b.rank))

/-- Whether a kept timer is cancelled. -/
def isCancelled (s : Scheduler τ) (id : UInt32) : Bool := s.cancelled.contains id

/-! ## 2. Registering and cancelling -/

/-- Keeps a timer under the next rank. -/
def push (s : Scheduler τ) (id : UInt32) (callback : String) (due : τ) (interval : Option τ) :
    Scheduler τ :=
  let rank := s.inserted + 1
  { s with
    timers := HeapOrder.insert before s.timers { due, rank, id, callback, interval }
    inserted := rank }

/-- The identifier after another: they run through all but zero. -/
def succId (id : UInt32) : UInt32 := if id + 1 = 0 then 1 else id + 1

/-- Schedules a callback after a delay, and again after every further delay if it repeats. -/
def addTimer (s : Scheduler τ) (callback : String) (delay : τ) (repeats : Bool) :
    Scheduler τ × UInt32 :=
  let delay := Instant.clean delay
  let id := s.nextId
  let s := { s with nextId := succId id }
  (s.push id callback (Instant.add s.clock delay) (if repeats then some delay else none), id)

/-- Cancels a timer; whether there was one to cancel. -/
def cancel (s : Scheduler τ) (id : UInt32) : Scheduler τ × Bool :=
  if s.timers.any (·.id == id) && !s.isCancelled id then
    ({ s with cancelled := id :: s.cancelled }, true)
  else
    (s, false)

/-- Runs a callback on every sweep from now on. -/
def addMainLoop (s : Scheduler τ) (callback : String) : Scheduler τ :=
  { s with mainLoop := s.mainLoop ++ [callback] }

/-! ## 3. The clock -/

/-- The wall time since the virtual clock last followed it, less the frames added since. -/
def uncovered (s : Scheduler τ) (wall : Nat) : τ :=
  Instant.max (Instant.sub (Instant.ofNanoseconds (wall - s.lastWall)) s.hinted) Instant.zero

/-- Moves the clock by the length of a frame, or lets it follow the wall clock. -/
def advance (s : Scheduler τ) (hint : Option τ) (wall : Nat) : Scheduler τ :=
  match hint with
  | some span =>
    let span := Instant.clean span
    { s with clock := Instant.add s.clock span, hinted := Instant.add s.hinted span }
  | none =>
    { s with
      clock := Instant.add s.clock (s.uncovered wall), lastWall := wall, hinted := Instant.zero }

/-- Whether a sweep would take anything if the clock moved by `hint` first, or followed the wall
    clock. -/
def hasPending (s : Scheduler τ) (hint : Option τ) (wall : Nat) : Bool :=
  if !s.mainLoop.isEmpty then true
  else
    let projected := Instant.add s.clock <| match hint with
      -- an infinite frame is taken as it is here, and as none by `advance`
      | some span => Instant.max span Instant.zero
      | none => s.uncovered wall
    s.timers.any fun t => Instant.le t.due projected && !s.isCancelled t.id

/-- Whether any callback is registered. -/
def isActive (s : Scheduler τ) : Bool :=
  !s.mainLoop.isEmpty || decide (s.cancelled.length < s.timers.size)

/-! ## 4. Sweeps -/

/-- What a sweep has gathered: the callbacks to run and the repeating timers to keep again, each
    with the last taken first. -/
structure Sweep (τ : Type) where
  rest : Scheduler τ
  taken : List DueCallback := []
  rearmed : List (Timer τ) := []

/-- Takes due timers, the earliest first; the fuel is the number of timers. A cancelled one is
    dropped, and its cancellation with it. -/
def sweep : (fuel : Nat) → Sweep τ → Sweep τ
  | 0, w => w
  | fuel + 1, w =>
    match HeapOrder.earliest? before w.rest.timers with
    | none => w
    | some (position, t) =>
      if Instant.le t.due w.rest.clock then
        let rest := { w.rest with timers := HeapOrder.removeAt before w.rest.timers position }
        if rest.isCancelled t.id then
          -- one mark stops one timer: another that is kept under this identifier fires
          sweep fuel { w with rest := { rest with cancelled := rest.cancelled.erase t.id } }
        else
          let rearmed := match t.interval with
            | none => w.rearmed
            | some interval =>
              -- intervals that the clock has jumped over are not made up for
              { t with due := Instant.max (Instant.add t.due interval) rest.clock } :: w.rearmed
          sweep fuel { rest, taken := ⟨t.callback, some t.id⟩ :: w.taken, rearmed }
      else w

/-- **Takes everything due now.** Repeating timers are kept again only after the sweep, so that one
    without a delay runs once per sweep; the callbacks of every sweep come last. -/
def takeDue (s : Scheduler τ) : Scheduler τ × List DueCallback :=
  let w := sweep s.timers.size { rest := s }
  let s := w.rearmed.reverse.foldl (fun s t => s.push t.id t.callback t.due t.interval) w.rest
  (s, w.taken.reverse ++ s.mainLoop.map fun callback => ⟨callback, none⟩)

/-- Puts back timer callbacks that were taken and not run: they are due at once, in their order, and
    do not repeat. -/
def defer (s : Scheduler τ) (callbacks : List DueCallback) : Scheduler τ :=
  callbacks.foldl (fun s c => match c.timer with
    | some id => s.push id c.callback s.clock none
    | none => s) s

/-! ## 5. Views -/

/-- The timers that will fire, in the order in which they are kept. -/
def pending (s : Scheduler τ) : List (Timer τ) :=
  s.timers.toList.filter fun t => !s.isCancelled t.id

/-- The names of all callbacks that may still run. -/
def callbackNames (s : Scheduler τ) : List String :=
  s.pending.map (·.callback) ++ s.mainLoop

end Scheduler

end EmbeddedVm
