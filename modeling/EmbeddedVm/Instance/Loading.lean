import EmbeddedVm.Instance.Access

/-!
# From initialization to the entry function

The stages up to the run of the entry function, and the choice of who drives the instance, which is
open until then.
-/

namespace EmbeddedVm.Instance

variable {η ρ σ : Type}

/-- Initializes the instance on the thread `me`, when the wall clock shows `wall`. -/
def initRegion (me : ThreadId) (arguments : List String) (wall : Nat) (i : Instance η ρ) :
    Except InstanceError Unit × Instance η ρ :=
  match i.core.state with
  | .uninitialized =>
    match i.threads.register? me with
    | none => (.error (.notInitialized "runtime not built"), i)
    | some (_, threads) =>
      (.ok (), { i with
        runtime := .free (some (Vm.create i.settings.vmOptions wall))
        threads
        core := { i.core with initThread := some me, args := arguments, state := .created } })
  | .destroyed => (.error (.notInitialized "instance destroyed"), i)
  | _ => (.error (.alreadyInitialized "init was already called"), i)

/-- **Initializes the instance**: builds the machine and registers the thread `me`. -/
def init (me : ThreadId) (arguments : List String) : Operation η ρ σ Unit :=
  tracked do
    let wall ← lift Task.now
    .mk (region (initRegion me arguments wall))

/-- Nothing is loaded yet, and the thread `me` may load. -/
def admitLoad (me : ThreadId) : Operation η ρ σ Unit :=
  .mk <| look fun i => do
    requireLive i.core
    if LifecycleState.moduleLoaded ≤ i.core.state then
      throw (.alreadyInitialized "a module is already loaded; use hot reload to replace it")
    i.checkAffinity me

/-- Loads a module from the contents of a file. -/
def loadBytes (me : ThreadId) (bytes : Bytes) (path : Option String) : Operation η ρ σ Unit := do
  admitLoad me
  let m ← match Module.load bytes with
    | .ok m => pure m
    | .error e => throw (.invalidBytecode e.message)
  lift (change fun i => { i with core := { i.core with state := .initialized } })
  -- where linking fails the stage stays, and loading may be tried again
  withVm me <| updateVm (fun e => .moduleLoadFailed e.message) (Vm.load m)
  -- of the file as it is now, which may not be the one that was read
  let signature ← lift (Task.read fun w => path.bind w.files.signature?)
  lift (change fun i => { i with
    core := { i.core with state := .moduleLoaded, loadedFile := path, signature } })

/-- The contents of a file. -/
def readFile (path : String) : Operation η ρ σ Bytes :=
  .mk <| Task.read fun w =>
    (w.files.read path).mapError fun e => .fileNotFound path e.message

def loadFile (me : ThreadId) (path : String) : Operation η ρ σ Unit :=
  tracked do loadBytes me (← readFile path) (some path)

def loadMemory (me : ThreadId) (bytes : Bytes) : Operation η ρ σ Unit :=
  tracked (loadBytes me bytes none)

/-- The entry function has not run, and the thread `me` may run it. -/
def admitEntry (me : ThreadId) : Operation η ρ σ Unit :=
  .mk <| look fun i => do
    requireLive i.core
    match i.core.state with
    | .moduleLoaded => pure ()
    | .entryRan => throw (.alreadyInitialized "the entry point already ran")
    | _ => throw (.notInitialized "no module loaded")
    if i.core.mode = .threaded ∧ i.core.vmThread ≠ some me then
      throw (.wrongThread "in threaded mode the VM thread runs the entry point")

/-- Runs the entry function. -/
def callEntry (host : Host η ρ σ) (me : ThreadId) : Operation η ρ σ Unit :=
  tracked do
    admitEntry me
    discard <| withVm me <| runVm host me (·.callEntry)
    -- written without a look at the stage, which the run may have changed
    lift (change fun i => { i with core := { i.core with state := .entryRan } })

/-- Chooses who drives the instance. -/
def setMode (mode : IntegrationMode) : Operation η ρ σ Unit :=
  tracked <| coreRegion fun core => do
    if core.state = .destroyed then throw (.notInitialized "instance destroyed")
    if LifecycleState.entryRan ≤ core.state ∨ core.vmThread.isSome then
      throw (.invalidArgument "integration mode is locked once the entry point has run")
    pure ((), { core with mode })

end EmbeddedVm.Instance
