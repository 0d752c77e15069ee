import EmbeddedVm.Instance.Access

/-!
# Pumping events

An instance asks its sources of events one after the other: finished background reads, the
scheduler, and then those the host has registered. A source whose facility nothing uses is passed
over. The first failure ends the round, and what the sources before it did stays done.
-/

namespace EmbeddedVm

/-- A source of events as the rounds see it: one of the machine's, or one of the host's. -/
def Source.resolve {η ρ σ : Type} (host : Host η ρ σ) : Source η → HostSource η ρ σ
  | .asyncIo =>
    { name := "async-io", kind := .asyncIo
      isPresent := fun vm _ => vm.capabilities.asyncIo
      hasPending := fun vm _ _ _ => vm.hasPendingReads
      drain := fun me vm _ => Instance.play host me vm.drainReads }
  | .cooperative =>
    { name := "cooperative", kind := .cooperative
      isPresent := fun vm _ => vm.capabilities.cooperative
      hasPending := fun vm hint wall _ => vm.hasPendingCooperative hint wall
      drain := fun me vm hint => do
        Instance.play host me (vm.drainCooperative hint (← Task.now)) }
  | .host label => host.source label

namespace Instance

variable {η ρ σ α : Type}

/-- Goes through the sources with no other thread doing so. -/
def withSources (f : List (Source η) → Act η ρ σ α) : Act η ρ σ α := do
  let sources ← await fun i =>
    if i.sourcesTaken then none else some (i.sources, { i with sourcesTaken := true })
  let result ← f sources
  change fun i => { i with sourcesTaken := false }
  pure result

/-- Registers a source of the host. -/
def registerEventSource (label : η) : Act η ρ σ Unit :=
  await fun i =>
    if i.sourcesTaken then none else some ((), { i with sources := i.sources ++ [.host label] })

/-- The failure of a source: an exception stays one. -/
def sourceFailure (name : String) : VmError → InstanceError
  | .exception fault trace => .ofVm (.exception fault trace)
  | e => .eventLoopFailed (name ++ ": " ++ e.message)

/-- Drains the sources of a kind in order, and adds up what they handled. -/
def drainSources (host : Host η ρ σ) (me : ThreadId) (asked : EventKind) (hint : Option Binary64) :
    List (Source η) → (total : Nat) → Vm η → Act η ρ σ (Except InstanceError Nat × Vm η)
  | [], total, vm => pure (.ok total, vm)
  | s :: rest, total, vm => do
    let source := s.resolve host
    let isPresent ← Task.read fun w => source.isPresent vm w.session
    if asked.selects source.kind && isPresent then
      match ← source.drain me vm hint with
      | (.ok ran, vm) => drainSources host me asked hint rest (total + ran) vm
      -- the sources behind this one are not drained, and miss the hint
      | (.error e, vm) => pure (.error (sourceFailure source.name e), vm)
    else drainSources host me asked hint rest total vm

/-- One round: every source of a kind handles what is ready. The hint moves the clock of the
    scheduler; without one it follows the wall clock. -/
def pump (host : Host η ρ σ) (me : ThreadId) (asked : EventKind) (hint : Option Binary64) :
    Operation η ρ σ Nat :=
  withVm me fun vm =>
    if vm.isLoaded then withSources fun sources => drainSources host me asked hint sources 0 vm
    else pure (.ok 0, vm)

/-- A round in real time. -/
def process (host : Host η ρ σ) (me : ThreadId) (asked : EventKind) : Operation η ρ σ Nat :=
  tracked (pump host me asked none)

/-- A frame of a given length in seconds. -/
def update (host : Host η ρ σ) (me : ThreadId) (delta : Binary64) : Operation η ρ σ Unit :=
  tracked do
    if !delta.isFinite || delta.lt .zero then
      throw (.invalidArgument ("delta time must be a non-negative number, got " ++ delta.display))
    discard (pump host me .all (some delta))

/-- Whether some source of a kind has something ready. -/
def anyPending (host : Host η ρ σ) (asked : EventKind) (wall : Nat) (vm : Vm η) (session : σ)
    (sources : List (Source η)) : Bool :=
  sources.any fun s =>
    let source := s.resolve host
    asked.selects source.kind && source.isPresent vm session &&
      source.hasPending vm none wall session

/-- Whether a round would find something; false where the caller may not ask. -/
def hasPending (host : Host η ρ σ) (me : ThreadId) (asked : EventKind) : Act η ρ σ Bool := do
  let answer ← (withVm me fun vm => do
    if vm.isLoaded then
      let wall ← Task.now
      let pending ← withSources fun sources =>
        Task.read fun w => anyPending host asked wall vm w.session sources
      pure (.ok pending, vm)
    else pure (.ok false, vm) : Operation η ρ σ Bool).run
  pure <| match answer with
    | .ok pending => pending
    | .error _ => false

/-- Whether anything at all is ready. -/
def hasPendingWork (host : Host η ρ σ) (me : ThreadId) : Act η ρ σ Bool := hasPending host me .all

end Instance

end EmbeddedVm
