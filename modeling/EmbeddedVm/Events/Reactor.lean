/-!
# Background reads

A read of a file is submitted with the name of a callback and carried out in the background; its
completion arrives on a channel, and the host takes completions off it when it drains events. A
request is followed by its identifier from submission to dispatch. A background read finishes in two
steps, `send` and `settle`, so that whoever reads `inFlight = 0` finds every completion already on
the channel.

Two things are taken for granted. The thread that carries out a read starts: were it refused, the
request would be taken back, and the instruction that submitted it would raise an exception. And the
identifiers do not run out, though a counter of 64 bits would after so many requests.
-/

namespace EmbeddedVm

/-- A read that has not sent its completion. -/
structure ReadRequest where
  id : Nat
  path : String
  callback : String
deriving DecidableEq, Repr, Inhabited

/-- A finished read: whom to call, and the contents or the wording of what went wrong. -/
structure ReadCompletion where
  id : Nat
  callback : String
  result : Except String String
deriving Repr, Inhabited

/-- All reads that are not dispatched. Requests in `running` and completions on the `channel` stand
    in the order in which they came; what was taken off the channel and put back is `deferred`,
    ahead of it. `outstanding` lists identifier and callback of every request that is not
    dispatched. -/
structure Reactor where
  running : List ReadRequest := []
  channel : List ReadCompletion := []
  deferred : List ReadCompletion := []
  inFlight : Nat := 0
  nextId : Nat := 1
  outstanding : List (Nat × String) := []
deriving Repr, Inhabited

namespace Reactor

/-- Starts a read. -/
def submit (r : Reactor) (path callback : String) : Reactor :=
  let id := r.nextId
  { r with
    running := r.running ++ [⟨id, path, callback⟩]
    inFlight := r.inFlight + 1
    nextId := id + 1
    outstanding := r.outstanding ++ [(id, callback)] }

/-- First step of finishing: the completion of a running read goes onto the channel. -/
def send (r : Reactor) (id : Nat) (result : Except String String) : Reactor :=
  match r.running.find? (·.id == id) with
  | none => r
  | some q =>
    { r with
      running := r.running.filter (·.id != id)
      channel := r.channel ++ [⟨id, q.callback, result⟩] }

/-- Second step of finishing: the read is no longer in flight. -/
def settle (r : Reactor) : Reactor := { r with inFlight := r.inFlight - 1 }

/-- Finishes every running read, in the order of submission. -/
def finishAll (r : Reactor) (read : String → Except String String) : Reactor :=
  r.running.foldl (fun r q => (r.send q.id (read q.path)).settle) r

/-- Whether completions wait. -/
def hasReady (r : Reactor) : Bool := !r.deferred.isEmpty || !r.channel.isEmpty

/-- Takes the completions that wait now, those put back before those on the channel. -/
def takeReady (r : Reactor) : Reactor × List ReadCompletion :=
  ({ r with deferred := [], channel := [] }, r.deferred ++ r.channel)

/-- Puts back completions that were taken and not dispatched. -/
def defer (r : Reactor) (completions : List ReadCompletion) : Reactor :=
  { r with deferred := completions ++ r.deferred }

/-- A completion was handed to its callback. -/
def dispatched (r : Reactor) (id : Nat) : Reactor :=
  { r with outstanding := r.outstanding.filter (·.1 != id) }

/-- The names of the callbacks still to be called, sorted, each once. -/
def pendingCallbacks (r : Reactor) : List String :=
  ((r.outstanding.map (·.2)).mergeSort fun a b => decide (a ≤ b)).eraseReps

end Reactor

end EmbeddedVm
