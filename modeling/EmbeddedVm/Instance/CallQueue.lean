import EmbeddedVm.Instance.Error

/-!
# Calls that wait for the machine's thread

While an instance has a thread of its own, calls are carried out there. They wait in a queue, first
come first served; a queue that is asked to stop still hands out what was accepted before. Every
start of the thread has a queue of its own.
-/

namespace EmbeddedVm

/-- Who hears of the end of a call: a caller that waits under a number, or code of the host. -/
inductive Completion (η : Type) where
  | waiting (ticket : Nat)
  | notify (label : Option η)
deriving Repr, Inhabited

/-- An accepted call: the code of the host to run, and who hears of its end. -/
structure Job (η : Type) where
  call : η
  completion : Completion η
deriving Repr, Inhabited

/-- Why host code broke off: the text it gave, if it gave one. -/
structure Panic where
  text : Option String
deriving DecidableEq, Repr, Inhabited

/-- The failure of a call that broke off. -/
def Panic.toError (p : Panic) : InstanceError :=
  .callFailed <| match p.text with
    | some text => "call panicked: " ++ text
    | none => "call panicked"

/-- The queue of one start, the first accepted call first. The thread ends when it is `stopping` and
    no call is left; then it has `exited`. -/
structure CallQueue (η : Type) where
  jobs : List (Job η) := []
  stopping : Bool := false
  exited : Bool := false
deriving Repr, Inhabited

namespace CallQueue

variable {η : Type}

/-- What the thread does next. -/
inductive Next (η : Type) where
  | job (job : Job η)
  | idle
  | stop
deriving Repr, Inhabited

/-- Accepts a call. -/
def push (q : CallQueue η) (job : Job η) : CallQueue η := { q with jobs := q.jobs ++ [job] }

/-- Asks the thread to end. -/
def stop (q : CallQueue η) : CallQueue η := { q with stopping := true }

/-- A call or, if none is left, the request to end. -/
def next? (q : CallQueue η) : Option (Next η × CallQueue η) :=
  match q.jobs with
  | job :: jobs => some (.job job, { q with jobs })
  | [] => if q.stopping then some (.stop, q) else none

/-- What the thread does when it has waited long enough. -/
def nextLate (q : CallQueue η) : Next η × CallQueue η := q.next?.getD (.idle, q)

end CallQueue

end EmbeddedVm
