import EmbeddedVm.Instance.Events
import EmbeddedVm.Instance.Loading
import EmbeddedVm.Text.Duration

/-!
# The instance's own thread

In threaded mode an instance is driven by a thread of its own. It runs the entry function, then
serves a queue of calls, and looks for events from time to time. The thread that initialized the
instance is held meanwhile, since it is kept away from the machine. Stopping lets the calls that were
accepted run to their end.

The thread is taken to start whenever it is asked for. Were it refused, the start would fail and
give back the hold in its one region, with nothing else changed.

`destroy` stands here too, because it stops the thread first.
-/

namespace EmbeddedVm

/-- What the labels of the host do besides running inside the machine: a call on the instance's own
    thread, what hears of its end, and work on a thread of the host. -/
structure Calls (η ρ σ : Type) where
  call : ThreadId → η → Act η ρ σ (Except Panic ρ)
  complete : ThreadId → η → Except InstanceError ρ → Act η ρ σ Unit
  work : ThreadId → η → Act η ρ σ Unit

namespace Instance

variable {η ρ σ : Type}

/-- A number of milliseconds in nanoseconds. -/
def milliseconds (ms : Nat) : Nat := ms * 1000000

/-- A bound on a wait in print. -/
def displayBound : Option Nat → String
  | some ms => "Some(" ++ displayMilliseconds ms ++ ")"
  | none => "None"

/-- The deadline of a wait that starts now. -/
def deadline (ms : Option Nat) : Act η ρ σ (Option Nat) := do
  let now ← Task.now
  pure (ms.map fun ms => now + milliseconds ms)

/-! ## 1. Starting and stopping -/

/-- Starts the thread, in one region; the number of the start. -/
def startRegion (i : Instance η ρ) : Except InstanceError Nat × Instance η ρ :=
  if i.core.state = .destroyed ∨ i.core.state = .uninitialized then
    (.error (.notInitialized "instance not initialized"), i)
  else if !i.core.state.hasModule then (.error (.notInitialized "no module loaded"), i)
  else if i.core.mode ≠ .threaded then
    (.error (.invalidArgument "the VM thread requires threaded mode"), i)
  else if i.engine.status ≠ .stopped then (.error .threadAlreadyRunning, i)
  else
    let generation := i.queues.length
    -- a thread that is held already, or no longer registered, is not this start's to release
    let (hostHold, threads) := match i.core.initThread with
      | none => (none, i.threads)
      | some host => match i.threads.hold host with
        | (.ok (), threads) => (some host, threads)
        | (.error _, threads) => (none, threads)
    (.ok generation, { i with
      threads
      queues := i.queues ++ [({} : CallQueue η)]
      core := { i.core with vmThread := some (.own generation) }
      engine := { status := .running, generation, hostHold } })

/-- **Starts the instance's own thread.** -/
def start : Operation η ρ σ Unit :=
  tracked do
    let generation ← .mk (region startRegion)
    lift (Task.post (.own generation) (.begin generation))

/-- Asks the thread to end; the number of its start, unless it does not run. -/
def beginShutdown : Act η ρ σ (Option Nat) :=
  region fun i =>
    if i.engine.status = .stopped then (none, i)
    else (some i.engine.generation, { i with engine := { i.engine with status := .stopping } })

/-- Ends the thread and waits for it, up to the bound in the settings. -/
def shutdown (me : ThreadId) : Operation η ρ σ Unit := do
  let vmThread ← lift (look (·.core.vmThread))
  let some generation ← lift beginShutdown | pure ()
  lift (change fun i => i.setQueue generation (i.queue generation).stop)
  -- too late to refuse: the queue has been stopped, and this thread ends after its call
  if vmThread = some me then
    throw (.wrongThread "the VM thread cannot wait for itself to stop")
  let bound ← lift (look (·.settings.stopBound))
  let limit ← lift (deadline bound)
  let exited ← lift (awaitUntil limit
    (fun i => if (i.queue generation).exited then some (true, i) else none)
    (fun i => ((i.queue generation).exited, i)))
  if !exited then
    throw (.threadStopFailed ("VM thread did not exit within " ++ displayBound bound))
  -- three regions from here; the first lets a new start begin before the last
  let hostHold ← lift (region fun i =>
    (i.engine.hostHold, { i with engine := { i.engine with status := .stopped, hostHold := none } }))
  lift (change fun i => { i with core := { i.core with vmThread := none } })
  if let some host := hostHold then
    .mk do return (← Threads.release host).mapError .ofThread

/-- **Stops the instance's own thread.** -/
def stop (me : ThreadId) : Operation η ρ σ Unit := tracked (shutdown me)

/-- Whether the thread runs and accepts calls. -/
def isRunning : Act η ρ σ Bool := look (·.engine.status == .running)

/-- Whether the thread runs. -/
def engineStatus : Act η ρ σ EngineStatus := look (·.engine.status)

def isVmThread (me : ThreadId) : Act η ρ σ Bool := look (·.core.vmThread == some me)

/-! ## 2. Calls -/

/-- A call is possible now; the number of the start whose queue takes it. A call that is waited for
    must not come from the thread itself. -/
def admitCall (me : ThreadId) (waits : Bool) : Operation η ρ σ Nat := do
  let core ← lift (look (·.core))
  if core.state = .destroyed then throw (.notInitialized "instance destroyed")
  if waits && core.vmThread == some me then
    throw (.wrongThread "call_sync from the VM thread would wait on itself")
  let engine ← lift (look (·.engine))
  if engine.status ≠ .running then throw .threadNotStarted
  pure engine.generation

/-- Puts a call into a queue. -/
def enqueue (generation : Nat) (job : Job η) : Act η ρ σ Unit :=
  change fun i => i.setQueue generation ((i.queue generation).push job)

/-- The number of the next call that is waited for. -/
def ticket : Act η ρ σ Nat := region fun i => (i.tickets, { i with tickets := i.tickets + 1 })

/-- Takes the end of a call, if it has ended. -/
def takeOutcome? (number : Nat) (i : Instance η ρ) :
    Option (Option (Except Panic ρ) × Instance η ρ) :=
  (i.outcomes.lookup number).map fun outcome =>
    (some outcome, { i with outcomes := i.outcomes.filter (·.1 != number) })

/-- **Runs host code on the instance's own thread and waits for its result**, in a blocking bracket
    and up to the bound in the settings. -/
def callSync (me : ThreadId) (call : η) : Operation η ρ σ ρ :=
  tracked do
    let generation ← admitCall me true
    let number ← lift ticket
    lift (enqueue generation { call, completion := .waiting number })
    let bracket ← lift (Threads.blockingBegin me)
    let bound ← lift (look (·.settings.callBound))
    let limit ← lift (deadline bound)
    -- nobody takes the end of a call that is given up; it stays in `outcomes`
    let outcome ← lift (awaitUntil limit (takeOutcome? number)
      fun i => (takeOutcome? number i).getD (none, i))
    if bracket.isOk then discard (lift (Threads.blockingEnd me))
    match outcome with
    | some (.ok value) => pure value
    | some (.error panic) => throw panic.toError
    | none => throw (.timeout ("call_sync did not complete within " ++ displayBound bound))

/-- Runs host code on the instance's own thread and tells its end to other host code. -/
def callAsync (me : ThreadId) (call : η) (notify : Option η) : Operation η ρ σ Unit :=
  tracked do
    let generation ← admitCall me false
    lift (enqueue generation { call, completion := .notify notify })

/-! ## 3. The thread -/

/-- Carries out a call. -/
def runJob (calls : Calls η ρ σ) (me : ThreadId) (job : Job η) : Act η ρ σ Unit := do
  let outcome ← calls.call me job.call
  match job.completion with
  | .waiting number => change fun i => { i with outcomes := i.outcomes ++ [(number, outcome)] }
  | .notify none => pure ()
  | .notify (some label) => calls.complete me label (outcome.mapError Panic.toError)

/-- The beginning of the thread: it registers and runs the entry function, if that has not run. -/
def beginThread (host : Host η ρ σ) (me : ThreadId) (generation : Nat) : Act η ρ σ Unit := do
  discard (Threads.register me)
  if (← state) = .moduleLoaded then discard (callEntry host me).run
  Task.post me (.serve generation (← Task.now))

/-- The end of the thread. -/
def endThread (me : ThreadId) (generation : Nat) : Act η ρ σ Unit := do
  discard (Threads.unregister me)
  change fun i => i.setQueue generation { i.queue generation with exited := true }

/-- Looks for events, if the last time is long enough ago; when that was. -/
def pumpIfDue (host : Host η ρ σ) (me : ThreadId) (lastPump : Nat) : Act η ρ σ Nat := do
  let tick ← look fun i => milliseconds i.settings.tick
  if (← Task.now) < lastPump + tick then pure lastPump
  else
    if (← state).hasModule then discard (process host me .all).run
    Task.now

/-- One round of the thread: a call or a wait for one, then events, then a safepoint. -/
def serve (host : Host η ρ σ) (calls : Calls η ρ σ) (me : ThreadId) (generation lastPump : Nat) :
    Act η ρ σ Unit := do
  let limit ← deadline (some (← look (·.settings.tick)))
  -- a wait that is over looks at the queue once more, so no accepted call is passed over
  let next ← awaitUntil limit
    (fun i => (i.queue generation).next?.map fun (next, q) => (next, i.setQueue generation q))
    (fun i =>
      let (next, q) := (i.queue generation).nextLate
      (next, i.setQueue generation q))
  match next with
  | .stop => endThread me generation
  | next =>
    if let .job job := next then runJob calls me job
    let lastPump ← pumpIfDue host me lastPump
    Threads.poll me
    Task.post me (.serve generation lastPump)

/-- **What each piece of work is.** -/
def perform (host : Host η ρ σ) (calls : Calls η ρ σ) (me : ThreadId) :
    Work η → Program (Work η) (World η ρ σ)
  | .begin generation => (beginThread host me generation).toProgram
  | .serve generation lastPump => (serve host calls me generation lastPump).toProgram
  | .reads => (finishReads : Act η ρ σ Unit).toProgram
  | .host label => (calls.work me label).toProgram

/-! ## 4. Destruction -/

/-- Drops the machine, unless some thread has it; whether it is gone. -/
def dropVm : Act η ρ σ Bool :=
  region fun i => match i.runtime with
    | .free _ => (true, { i with runtime := .free none })
    | .taken => (false, i)

/-- The last region: the thread `me` is no longer registered if it initialized the instance. -/
def destroyRegion (me : ThreadId) (i : Instance η ρ) : Instance η ρ :=
  let threads :=
    if i.core.initThread = some me then (i.threads.unregister me).2 else i.threads
  { i with threads, core := { i.core with state := .destroyed } }

/-- **Destroys the instance.** It is destroyed even if its thread does not stop or another thread
    has the machine; those problems are then told. -/
def destroy (me : ThreadId) : Operation η ρ σ Unit :=
  tracked do
    if (← lift state) = .destroyed then throw (.notInitialized "instance already destroyed")
    let stopped ← lift (shutdown me).run
    let dropped ← lift dropVm
    lift (change (destroyRegion me))
    let problems := (match stopped with
        | .ok () => []
        | .error e => [e.message]) ++
      (if dropped then [] else ["runtime is busy and was not released"])
    if !problems.isEmpty then throw (.destroyFailed ("; ".intercalate problems))

/-! ## 5. Creation -/

/-- Creates the instance of the process; there is never a second one. -/
def createIn (settings : Settings) : Act η ρ σ (Except InstanceError Unit) :=
  Task.atomically fun w =>
    if w.claimed then
      (.error (.alreadyInitialized "a VM instance already exists in this process"), w)
    else (.ok (), { w with claimed := true, inst := .create settings })

end Instance

end EmbeddedVm
