import EmbeddedVm.Instance.State

/-!
# Using the machine of an instance

One thread at a time has the machine. `withVm` admits the caller, waits for the machine, hands it
over and takes it back; a thread that already has it is refused, because its host function would
wait for itself. On top of it stand static fields, calls, reflection, host functions and the
collector.
-/

namespace EmbeddedVm

namespace Instance

variable {η ρ σ α : Type}

/-! ## 1. Admission -/

/-- The instance is initialized and not destroyed. -/
def requireLive (core : Core) : Except InstanceError Unit :=
  match core.state with
  | .destroyed => .error (.notInitialized "instance destroyed")
  | .uninitialized => .error (.notInitialized "init has not been called")
  | _ => .ok ()

/-- The thread `me` may touch the machine: in threaded mode only the instance's own thread while it
    runs, otherwise the thread that initialized the instance and registered threads. -/
def checkAffinity (i : Instance η ρ) (me : ThreadId) : Except InstanceError Unit :=
  let refused : InstanceError :=
    .wrongThread "only the init thread and registered workers may touch the VM"
  match i.core.mode, i.core.vmThread with
  | .threaded, some vmThread =>
    if vmThread = me then .ok ()
    else .error (.wrongThread "the VM thread owns the instance; use call_sync or call_async")
  | _, _ => match i.core.initThread with
    | none => .error refused
    | some initThread =>
      if initThread = me || i.threads.isRegistered me then .ok () else .error refused

/-- Both conditions, in one region. -/
def requireAccess (me : ThreadId) : Operation η ρ σ Unit :=
  .mk <| look fun i => do
    requireLive i.core
    i.checkAffinity me

/-! ## 2. Taking the machine -/

/-- Takes the machine if no thread has it. -/
def tryTake : Act η ρ σ (Exclusive (Option (Vm η))) :=
  region fun i => match i.runtime with
    | .free vm => (.free vm, { i with runtime := .taken })
    | .taken => (.taken, i)

/-- Waits until no thread has the machine, and takes it. -/
def take : Act η ρ σ (Option (Vm η)) :=
  await fun i => match i.runtime with
    | .free vm => some (vm, { i with runtime := .taken })
    | .taken => none

def putBack (vm : Option (Vm η)) : Act η ρ σ Unit := change fun i => { i with runtime := .free vm }

/-- Puts the machine back and has the reads that it started carried out. -/
def release (vm : Vm η) : Act η ρ σ Unit := do
  putBack (some vm)
  if !vm.store.reactor.running.isEmpty then Task.post .background .reads

/-- Takes the machine for the thread `me`. A thread that waits is in a blocking bracket meanwhile,
    so that a collection does not wait for it. -/
def acquire (me : ThreadId) : Operation η ρ σ (Option (Vm η)) := do
  match ← lift tryTake with
  | .free vm => pure vm
  | .taken =>
    if (← lift (look (·.owner))) = some me then
      throw (.callFailed "re-entrant call into the instance from a native")
    -- fails for a thread that is not registered; that one waits without a bracket
    let bracket ← lift (Threads.blockingBegin me)
    let vm ← lift take
    if bracket.isOk then
      if let .error e ← lift (Threads.blockingEnd me) then
        lift (putBack vm)
        throw (.ofThread e)
    pure vm

/-- **Does something with the machine**, on the thread `me`. -/
def withVm (me : ThreadId) (f : Vm η → Act η ρ σ (Except InstanceError α × Vm η)) :
    Operation η ρ σ α := do
  requireAccess me
  match ← acquire me with
  | none =>
    lift (putBack none)
    throw (.notInitialized "runtime not built")
  | some vm =>
    lift (change fun i => { i with owner := some me })
    let (result, vm) ← lift (f vm)
    lift (change fun i => { i with owner := none })
    lift (release vm)
    ExceptT.mk (pure result)

/-- The same, if a module is loaded. -/
def withLoadedVm (me : ThreadId) (f : Vm η → Act η ρ σ (Except InstanceError α × Vm η)) :
    Operation η ρ σ α := do
  if !(← lift (look fun i => i.core.state.hasModule)) then throw (.notInitialized "no module loaded")
  withVm me f

def viewVm (f : Vm η → Except InstanceError α) (vm : Vm η) :
    Act η ρ σ (Except InstanceError α × Vm η) :=
  pure (f vm, vm)

/-- Updates the machine, and retells a failure. -/
def updateVm (retell : VmError → InstanceError) (u : Vm.Update η α) (vm : Vm η) :
    Act η ρ σ (Except InstanceError α × Vm η) :=
  let (result, vm) := vm.attempt u
  pure (result.mapError retell, vm)

/-- Carries out the background reads that run, once no thread has the machine. -/
def finishReads : Act η ρ σ Unit :=
  Task.await fun w => match w.inst.runtime with
    | .free (some vm) =>
      let vm := vm.finishReads fun path => (w.files.readText path).mapError (·.message)
      some ((), { w with inst := { w.inst with runtime := .free (some vm) } })
    | .free none => some ((), w)
    | .taken => none

/-! ## 3. Running byte code -/

/-- Plays a run of the machine on the thread `me`: host functions are tasks, and a pause is a pause
    of the registry. A run that never ends never returns. -/
def play (host : Host η ρ σ) (me : ThreadId) : Run η α → Act η ρ σ α
  | .done a => pure a
  | .invoke handler args resume => do
    let answer ← host.native me handler args
    play host me (resume answer)
  | .pause resume => do
    match ← Threads.paused me (pure ()) with
    | .ok () => play host me (resume none)
    | .error (.pauseTimeout n) => play host me (resume (some n))
    | .error _ => play host me (resume (some 0))
  | .exhausted => Task.forever

/-- Runs byte code on a machine, and retells its failure. -/
def runVm (host : Host η ρ σ) (me : ThreadId)
    (run : Vm η → Run η (Except VmError α × Vm η)) (vm : Vm η) :
    Act η ρ σ (Except InstanceError α × Vm η) := do
  let (result, vm) ← play host me (run vm)
  pure (result.mapError .ofVm, vm)

def callFunction (host : Host η ρ σ) (me : ThreadId) (name : String) (args : List Scalar) :
    Operation η ρ σ Scalar :=
  tracked <| withLoadedVm me <| runVm host me (·.callFunction name args)

def callStatic (host : Host η ρ σ) (me : ThreadId) (cls method : String) (args : List Scalar) :
    Operation η ρ σ Scalar :=
  tracked <| withLoadedVm me <| runVm host me (·.callStatic cls method args)

/-! ## 4. Static fields -/

def getStatic (me : ThreadId) (cls field : String) : Operation η ρ σ Scalar :=
  tracked <| withLoadedVm me <| viewVm fun vm => (vm.getStatic cls field).mapError .ofVm

def setStatic (me : ThreadId) (cls field : String) (value : Scalar) : Operation η ρ σ Unit :=
  tracked <| withLoadedVm me <| updateVm .ofVm (Vm.setStatic cls field value)

/-- A value of the expected kind. -/
def expectKind (field : String) (expected : Kind) (value : Scalar) : Except InstanceError Unit :=
  if value.kind = .null then .error (.nullValue field)
  else if value.kind = expected then .ok ()
  else .error (.typeMismatch expected value.kind)

/-- Reads a static field that has to hold a value of a kind. -/
def getTyped (me : ThreadId) (cls field : String) (expected : Kind) : Operation η ρ σ Scalar := do
  let value ← getStatic me cls field
  tracked <| .mk <| pure <| (expectKind (cls ++ "." ++ field) expected value).map fun _ => value

/-! ## 5. Reflection, host functions, the collector -/

/-- What can be told about one class. -/
def findType (me : ThreadId) (name : String) : Operation η ρ σ Vm.ClassInfo :=
  tracked <| withLoadedVm me <| viewVm fun vm =>
    match vm.classInfo? name with
    | some info => .ok info
    | none => .error (.typeNotFound name)

/-- What can be told about all classes. -/
def listTypes (me : ThreadId) : Operation η ρ σ (List Vm.ClassInfo) :=
  tracked <| withLoadedVm me <| viewVm fun vm => .ok vm.classes

/-- Registers a host function. -/
def registerNative (me : ThreadId) (name : String) (handler : η) : Operation η ρ σ Unit :=
  tracked <| withVm me fun vm => pure (.ok (), vm.registerNative name handler)

/-- The figures of the collector. -/
def statsOf (vm : Vm η) : Act η ρ σ GcStats := do
  return vm.gcStats (← Threads.look (·.stalled))

/-- Collects. -/
def collectGarbage (host : Host η ρ σ) (me : ThreadId) : Operation η ρ σ GcStats :=
  tracked <| withVm me fun vm => do
    match ← runVm host me (·.collectGarbage) vm with
    | (.ok (), vm) => return (.ok (← statsOf vm), vm)
    | (.error e, vm) => pure (.error e, vm)

/-- The figures of the collector. -/
def gcStats (me : ThreadId) : Operation η ρ σ GcStats :=
  tracked <| withVm me fun vm => return (.ok (← statsOf vm), vm)

end Instance

end EmbeddedVm
