import EmbeddedVm.Config.Settings
import EmbeddedVm.Host.Files
import EmbeddedVm.Instance.CallQueue
import EmbeddedVm.Instance.Lifecycle
import EmbeddedVm.Threads.Registry
import EmbeddedVm.Vm.Events

/-!
# The state of an instance

An instance is a machine with what a host needs around it: stages, settings, a registry of threads,
the last error, sources of events, and a thread of its own if the host wants one. Many threads may
use it, so its state is cut into pieces with a lock each; one critical region touches what its locks
protect.

Code of the host appears in the state as labels of a type `η` only. What a label does is part of a
`Host`, and it is a task over the `World`: the instance, the files, and whatever state of type `σ`
the host keeps.
-/

namespace EmbeddedVm

/-! ## 1. Pieces of the state -/

/-- The piece that says how far the instance has come, and who drives it. The `signature` is time of
    change and length of the loaded file when it was last looked at. -/
structure Core where
  state : LifecycleState := .uninitialized
  mode : IntegrationMode := .nonThreaded
  initThread : Option ThreadId := none
  vmThread : Option ThreadId := none
  args : List String := []
  hotReload : Bool := false
  loadedFile : Option String := none
  signature : Option (Nat × Nat) := none
deriving Repr, Inhabited

/-- The piece about the instance's own thread. The latest start has the number `generation`, and so
    have its thread and its queue; while that thread runs, the thread `hostHold` of the host is
    held. -/
structure Engine where
  status : EngineStatus := .stopped
  generation : Nat := 0
  hostHold : Option ThreadId := none
deriving Repr, Inhabited

/-- Something only one thread may have at a time. -/
inductive Exclusive (α : Type) where
  | free (value : α)
  | taken
deriving Repr, Inhabited

/-- A source of events: background reads, the scheduler, or code of the host. -/
inductive Source (η : Type) where
  | asyncIo
  | cooperative
  | host (label : η)
deriving Repr, Inhabited

/-- An instance. The machine is there from initialization to destruction, and the `owner` has it.
    The queues are those of all starts, the first one first. Calls that are waited for have
    `tickets`, and `outcomes` are those whose callers have not looked yet; the results of calls are
    of type `ρ`. While some thread goes through the sources, they are taken. -/
structure Instance (η ρ : Type) where
  settings : Settings := {}
  threads : ThreadRegistry
  core : Core := {}
  runtime : Exclusive (Option (Vm η)) := .free none
  owner : Option ThreadId := none
  error : Option (ErrorCode × String) := none
  engine : Engine := {}
  queues : List (CallQueue η) := []
  tickets : Nat := 0
  outcomes : List (Nat × Except Panic ρ) := []
  sources : List (Source η) := [.asyncIo, .cooperative]
  sourcesTaken : Bool := false
  reloadListener : Option η := none
deriving Inhabited

def Instance.create {η ρ : Type} (settings : Settings) : Instance η ρ :=
  { settings
    threads := { pauseTimeout := settings.pauseTimeout * 1000000 }
    core := { hotReload := settings.hotReload } }

/-- All that threads share. An instance was created in this process if it is `claimed`, and there is
    never a second one; the `session` is the state of the host. -/
structure World (η ρ σ : Type) where
  inst : Instance η ρ
  claimed : Bool := true
  files : Files := {}
  session : σ
deriving Inhabited

instance {η ρ σ : Type} : HasThreads (World η ρ σ) where
  threads w := w.inst.threads
  setThreads w threads := { w with inst := { w.inst with threads } }

/-! ## 2. Work of threads -/

/-- Work that is given to threads: to begin to serve a start of the instance's own thread, to
    serve on, given when events were last looked at, to carry out background reads, or code of
    the host. -/
inductive Work (η : Type) where
  | begin (generation : Nat)
  | serve (generation : Nat) (lastPump : Nat)
  | reads
  | host (label : η)
deriving Repr, Inhabited

/-- What a thread does, with a result of type `α`. -/
abbrev Act (η ρ σ α : Type) := Task (Work η) (World η ρ σ) α

/-- An operation of an instance. -/
abbrev Operation (η ρ σ α : Type) := ExceptT InstanceError (Task (Work η) (World η ρ σ)) α

/-- A source of events that the host provides; without more, one that has nothing. `hasPending` says
    whether draining with this hint at this time would handle anything, `drain` handles what is
    ready and says how much it was. -/
structure HostSource (η ρ σ : Type) where
  name : String := ""
  kind : EventKind := .all
  isPresent : Vm η → σ → Bool := fun _ _ => false
  hasPending : Vm η → Option Binary64 → (wall : Nat) → σ → Bool := fun _ _ _ _ => false
  drain : ThreadId → Vm η → Option Binary64 → Act η ρ σ (Except VmError Nat × Vm η) :=
    fun _ vm _ => pure (.ok 0, vm)

/-- What the labels of the host do while the machine runs: host functions, the listener that is told
    whether a replacement of the module succeeded, and sources of events. -/
structure Host (η ρ σ : Type) where
  native : ThreadId → η → List Scalar → Act η ρ σ (Except String Scalar)
  reloaded : ThreadId → η → Bool → Act η ρ σ Unit := fun _ _ _ => pure ()
  source : η → HostSource η ρ σ := fun _ => {}

/-! ## 3. Critical regions -/

namespace Instance

variable {η ρ σ α : Type}

def look (f : Instance η ρ → α) : Act η ρ σ α := Task.read fun w => f w.inst

def change (f : Instance η ρ → Instance η ρ) : Act η ρ σ Unit :=
  Task.change fun w => { w with inst := f w.inst }

/-- A critical region of the instance. -/
def region (f : Instance η ρ → α × Instance η ρ) : Act η ρ σ α :=
  Task.atomically fun w =>
    let (a, inst) := f w.inst
    (a, { w with inst })

/-- A critical region of the instance that waits until it is admitted. -/
def await (f : Instance η ρ → Option (α × Instance η ρ)) : Act η ρ σ α :=
  Task.await fun w => (f w.inst).map fun (a, inst) => (a, { w with inst })

/-- The same, up to a deadline. -/
def awaitUntil (deadline : Option Nat) (f : Instance η ρ → Option (α × Instance η ρ))
    (late : Instance η ρ → α × Instance η ρ) : Act η ρ σ α :=
  Task.awaitUntil deadline (fun w => (f w.inst).map fun (a, inst) => (a, { w with inst })) fun w =>
    let (a, inst) := late w.inst
    (a, { w with inst })

/-- An act as an operation that does not fail. -/
def lift (act : Act η ρ σ α) : Operation η ρ σ α := ExceptT.lift act

/-- A region of the core, with the locks of the core held throughout: a failure changes nothing. -/
def coreRegion (f : Core → Except InstanceError (α × Core)) : Operation η ρ σ α :=
  .mk <| region fun i => match f i.core with
    | .ok (a, core) => (.ok a, { i with core })
    | .error e => (.error e, i)

/-- The queue of a start. -/
def queue (i : Instance η ρ) (generation : Nat) : CallQueue η := i.queues.getD generation {}

/-- The instance with another queue of a start. -/
def setQueue (i : Instance η ρ) (generation : Nat) (q : CallQueue η) : Instance η ρ :=
  { i with queues := i.queues.set generation q }

/-! ## 4. The last error -/

/-- Records a failure. -/
def record (e : InstanceError) : Act η ρ σ Unit :=
  change fun i => { i with error := some (e.code, e.message) }

/-- An operation whose failure is recorded. -/
def tracked (op : Operation η ρ σ α) : Operation η ρ σ α :=
  tryCatch op fun e => do
    lift (record e)
    throw e

/-- Records a failure and returns its code. -/
def recordError (e : InstanceError) : Act η ρ σ ErrorCode := do
  record e
  pure e.code

/-- Code and wording of the last failure. -/
def lastError : Act η ρ σ (Option (ErrorCode × String)) := look (·.error)

/-- The code of the last failure. -/
def errorCode : Act η ρ σ ErrorCode := look fun i => (i.error.map Prod.fst).getD .ok

/-- The wording of the last failure; empty if there was none. -/
def errorMessage : Act η ρ σ String := look fun i => (i.error.map (·.2)).getD ""

/-- Forgets the last failure. -/
def clearError : Act η ρ σ Unit := change fun i => { i with error := none }

/-! ## 5. Views -/

/-- The stage. -/
def state : Act η ρ σ LifecycleState := look (·.core.state)

/-- The arguments of the initialization. -/
def args : Act η ρ σ (List String) := look (·.core.args)

/-- Who drives the instance. -/
def mode : Act η ρ σ IntegrationMode := look (·.core.mode)

/-- The version of the library. -/
def version : String := "0.2.0"

/-- Whether modules may be replaced in the mode of execution. -/
def isJitMode : Act η ρ σ Bool := look fun i => i.settings.vmOptions.mode == .jit

/-- The name of the loaded module, unless some thread has the machine. -/
def moduleName : Act η ρ σ (Option String) :=
  look fun i => match i.runtime with
    | .free (some vm) => vm.module?.map (·.name)
    | _ => none

def describe : Act η ρ σ String :=
  look fun i => "Vessel \x7b state: " ++ i.core.state.label ++ ", mode: " ++ i.core.mode.label ++
    ", hot_reload: " ++ toString i.core.hotReload ++ " \x7d"

end Instance

end EmbeddedVm
