import EmbeddedVm.Instance.State

/-!
# Threads of the host

Threads of the host register as workers before they use the machine, and bracket their waits, so
that a collection need not wait for them.
-/

namespace EmbeddedVm.Instance

variable {η ρ σ α : Type}

/-- The instance is not destroyed. -/
def requireNotDestroyed : Operation η ρ σ Unit :=
  .mk <| look fun i =>
    if i.core.state = .destroyed then .error (.notInitialized "instance destroyed") else .ok ()

/-- An operation of the registry of threads, with its failure retold. -/
def registryOperation (act : Act η ρ σ (RegistryResult α)) (retell : ThreadError → InstanceError) :
    Operation η ρ σ α :=
  .mk do return (← act).mapError retell

/-- Registers the thread `me` as a worker and returns its number of registrations. -/
def workerRegister (me : ThreadId) : Operation η ρ σ Nat :=
  tracked do
    requireNotDestroyed
    lift (Threads.register me)

/-- Takes back a registration of the thread `me` and returns how many are left. -/
def workerUnregister (me : ThreadId) : Operation η ρ σ Nat :=
  tracked <| registryOperation (Threads.unregister me) fun _ =>
    .unbalancedGuard "worker_unregister without a matching worker_register"

/-- Opens a blocking bracket of the thread `me` and returns how many it has. -/
def blockingBegin (me : ThreadId) : Operation η ρ σ Nat :=
  tracked do
    requireNotDestroyed
    registryOperation (Threads.blockingBegin me) .ofThread

/-- Closes a blocking bracket of the thread `me` and returns how many are left. -/
def blockingEnd (me : ThreadId) : Operation η ρ σ Nat :=
  tracked <| registryOperation (Threads.blockingEnd me) .ofThread

/-- The number of open blocking brackets of all threads. -/
def outstandingBlocking : Act η ρ σ Nat := Threads.look (·.outstanding)

/-- A safepoint of the thread `me`. -/
def safepoint (me : ThreadId) : Act η ρ σ Unit := Threads.poll me

end EmbeddedVm.Instance
