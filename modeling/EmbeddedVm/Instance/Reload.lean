import EmbeddedVm.Instance.Loading
import EmbeddedVm.Vm.Patch

/-!
# Replacing the module of a running instance

Where settings allow it and once the entry function has run, the module may be replaced, from memory
or from a file, and a listener is told how it went. The file a module came from is watched by its
time of change and its length.
-/

namespace EmbeddedVm.Instance

variable {η ρ σ : Type}

/-- Allows or forbids replacements; this is open until the entry function has run. -/
def enableHotReload (enable : Bool) : Operation η ρ σ Unit :=
  tracked <| coreRegion fun core =>
    match core.state with
    | .destroyed => .error (.notInitialized "instance destroyed")
    | .entryRan =>
      .error (.requiresPriorEntry "hot reload must be configured before the entry point runs")
    | _ => .ok ((), { core with hotReload := enable })

/-- Whether replacements are allowed. -/
def isHotReloadEnabled : Act η ρ σ Bool := look (·.core.hotReload)

/-- Sets or removes the listener. -/
def setReloadListener (listener : Option η) : Act η ρ σ Unit :=
  change fun i => { i with reloadListener := listener }

/-- A replacement is possible now. -/
def admitReload : Operation η ρ σ Unit :=
  .mk <| look fun i =>
    if !i.core.hotReload then .error .reloadNotEnabled
    else if i.core.state ≠ .entryRan then
      .error (.requiresPriorEntry "reload requires the entry point to have run")
    else .ok ()

/-- The failure of a replacement. -/
def patchFailure : VmError → InstanceError
  | .patchUnsupported => .reloadNotSupported
  | .patchRejected cause => .reloadFailed cause.message
  | e => .reloadFailed e.message

/-- Replaces the module by what `source` yields; nothing is read unless a replacement is possible. -/
def tryReload (me : ThreadId) (source : Operation η ρ σ (Bytes × Option String)) :
    Operation η ρ σ PatchReport := do
  admitReload
  if (← lift (look (·.settings.vmOptions.mode))) = .static then throw .reloadNotSupported
  let (bytes, path) ← source
  let m ← match Module.load bytes with
    | .ok m => pure m
    | .error e => throw (.reloadFailed ("invalid bytecode: " ++ e.message))
  let report ← withLoadedVm me <| updateVm patchFailure (Vm.patch m)
  if let some path := path then
    -- of the file as it is now, which may not be the one that was read
    let signature ← lift (Task.read fun w => w.files.signature? path)
    lift (change fun i => { i with
      core := { i.core with loadedFile := some path, signature } })
  pure report

/-- The same, on a live instance, with the listener told. -/
def reloadWith (host : Host η ρ σ) (me : ThreadId)
    (source : Operation η ρ σ (Bytes × Option String)) : Operation η ρ σ PatchReport :=
  tracked do
    if !(← lift (look (·.core.state.isLive))) then
      throw (.notInitialized "instance not initialized")
    let outcome ← lift (tryReload me source).run
    if let some listener ← lift (look (·.reloadListener)) then
      lift (host.reloaded me listener outcome.isOk)
    .mk (pure outcome)

/-- Replaces the module by that of a file. -/
def reloadFile (host : Host η ρ σ) (me : ThreadId) (path : String) : Operation η ρ σ PatchReport :=
  reloadWith host me do return (← readFile path, some path)

/-- Replaces the module by one in memory. -/
def reloadMemory (host : Host η ρ σ) (me : ThreadId) (bytes : Bytes) :
    Operation η ρ σ PatchReport :=
  reloadWith host me (pure (bytes, none))

/-- Replaces the module by what its file holds now. -/
def reloadCurrent (host : Host η ρ σ) (me : ThreadId) : Operation η ρ σ PatchReport := do
  match ← lift (look (·.core.loadedFile)) with
  | some path => reloadFile host me path
  | none => tracked (throw (.invalidArgument "the module was not loaded from a file"))

/-- The file to watch with its signature when it was last looked at, if it is to be watched. -/
def watched? (core : Core) : Option (String × Option (Nat × Nat)) :=
  if core.hotReload && core.state == .entryRan then
    core.loadedFile.map fun path => (path, core.signature)
  else none

/-- **Replaces the module if its file changed**, and says whether it did. The new signature counts
    even if the replacement fails, so that a broken file is reported once. -/
def checkReload (host : Host η ρ σ) (me : ThreadId) : Operation η ρ σ Bool := do
  match ← lift (look fun i => watched? i.core) with
  | none => pure false
  | some (path, previous) =>
    let current ← lift (Task.read fun w => w.files.signature? path)
    if current.isNone || current == previous then pure false
    else
      lift (change fun i => { i with core := { i.core with signature := current } })
      discard (reloadFile host me path)
      pure true

end EmbeddedVm.Instance
