/-!
# Stages, modes and kinds of events

An instance goes through stages in one direction. It is driven by its host or by a thread of its
own. Its events come in two kinds, and a host may ask for one of them or for both.
-/

namespace EmbeddedVm

/-- The stages of an instance, in order. In `created` nothing is loaded; in `initialized` a file was
    accepted as a module and is about to be linked. -/
inductive LifecycleState where
  | uninitialized
  | created
  | initialized
  | moduleLoaded
  | entryRan
  | destroyed
deriving DecidableEq, Repr, Inhabited

namespace LifecycleState

/-- Every stage, in order. -/
def all : List LifecycleState :=
  [uninitialized, created, initialized, moduleLoaded, entryRan, destroyed]

/-- The position of a stage. -/
def number : LifecycleState → Nat
  | uninitialized => 0
  | created => 1
  | initialized => 2
  | moduleLoaded => 3
  | entryRan => 4
  | destroyed => 5

instance : LE LifecycleState := ⟨fun a b => a.number ≤ b.number⟩
instance : LT LifecycleState := ⟨fun a b => a.number < b.number⟩
instance (a b : LifecycleState) : Decidable (a ≤ b) := Nat.decLe a.number b.number
instance (a b : LifecycleState) : Decidable (a < b) := Nat.decLt a.number b.number

def name : LifecycleState → String
  | uninitialized => "uninitialized"
  | created => "created"
  | initialized => "initialized"
  | moduleLoaded => "module-loaded"
  | entryRan => "entry-ran"
  | destroyed => "destroyed"

/-- The name in descriptions of an instance. -/
def label : LifecycleState → String
  | uninitialized => "Uninitialized"
  | created => "Created"
  | initialized => "Initialized"
  | moduleLoaded => "ModuleLoaded"
  | entryRan => "EntryRan"
  | destroyed => "Destroyed"

/-- Between initialization and destruction. -/
def isLive (s : LifecycleState) : Bool := s != uninitialized && s != destroyed

/-- A module is loaded. -/
def hasModule (s : LifecycleState) : Bool := s == moduleLoaded || s == entryRan

end LifecycleState

/-- Who drives an instance: the host, or a thread of the instance. -/
inductive IntegrationMode where
  | nonThreaded
  | threaded
deriving DecidableEq, Repr, Inhabited

/-- The name in descriptions of an instance. -/
def IntegrationMode.label : IntegrationMode → String
  | nonThreaded => "NonThreaded"
  | threaded => "Threaded"

/-- Kinds of events: finished background reads, and timers with the callbacks of every sweep. -/
inductive EventKind where
  | asyncIo
  | cooperative
  | all
deriving DecidableEq, Repr, Inhabited

namespace EventKind

/-- Asking for `asked` includes a source of kind `source`. -/
def selects (asked source : EventKind) : Bool := asked == all || asked == source

/-- Every kind, in the order in which they are numbered. -/
def each : List EventKind := [asyncIo, cooperative, all]

def name : EventKind → String
  | asyncIo => "AsyncIo"
  | cooperative => "Cooperative"
  | all => "All"

end EventKind

/-- Whether an instance's own thread runs. -/
inductive EngineStatus where
  | stopped
  | running
  | stopping
deriving DecidableEq, Repr, Inhabited

def EngineStatus.name : EngineStatus → String
  | stopped => "Stopped"
  | running => "Running"
  | stopping => "Stopping"

end EmbeddedVm
