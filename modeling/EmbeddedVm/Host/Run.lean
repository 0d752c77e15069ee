import EmbeddedVm.Value.Scalar

/-!
# Runs, as their host sees them

A run of the machine goes on by itself until it ends or needs its host: to carry out a host
function, or to stop all other threads for a collection. What the host answers is open, so a
statement about a run holds for every host. `Run.against` plays a run against one particular host
that keeps a state of its own.
-/

namespace EmbeddedVm

/-- A run that ends with an `α`; host functions are named by handlers of type `ν`. `pause` asks for
    all other threads to be stopped, and is answered with how many did not stop in time, or with
    nothing if all did. `exhausted` is a run that took more steps than it was given. -/
inductive Run (ν : Type) (α : Type) where
  | done (result : α)
  | invoke (handler : ν) (args : List Scalar) (resume : Except String Scalar → Run ν α)
  | pause (resume : Option Nat → Run ν α)
  | exhausted

namespace Run

variable {ν α β : Type}

/-- Goes on with what a run ended with. -/
def bind : Run ν α → (α → Run ν β) → Run ν β
  | done a, k => k a
  | invoke h args resume, k => invoke h args fun answer => (resume answer).bind k
  | pause resume, k => pause fun answer => (resume answer).bind k
  | exhausted, _ => exhausted

instance : Monad (Run ν) where
  pure := done
  bind := bind

/-- A host with a state of type `σ`: it carries out host functions, and tries to stop all other
    threads. -/
structure Host (ν σ : Type) where
  invoke : ν → List Scalar → σ → Except String Scalar × σ
  pause : σ → Option Nat × σ

/-- Plays a run against a host; `none` if the run took too many steps. -/
def against {σ : Type} (host : Host ν σ) : Run ν α → σ → Option (α × σ)
  | done a, s => some (a, s)
  | invoke h args resume, s =>
    let (answer, s) := host.invoke h args s
    (resume answer).against host s
  | pause resume, s =>
    let (answer, s) := host.pause s
    (resume answer).against host s
  | exhausted, _ => none

end Run

end EmbeddedVm
