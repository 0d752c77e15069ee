import EmbeddedVm.Bytes.Crc32
import EmbeddedVm.Bytes.Cursor
import EmbeddedVm.Bytes.LittleEndian
import EmbeddedVm.CApi.Functions
import EmbeddedVm.CApi.Text
import EmbeddedVm.CApi.Value
import EmbeddedVm.Cli.Arguments
import EmbeddedVm.Cli.Demo
import EmbeddedVm.Cli.Dispatch
import EmbeddedVm.Cli.Info
import EmbeddedVm.Cli.Inspect
import EmbeddedVm.Cli.Report
import EmbeddedVm.Cli.Run
import EmbeddedVm.Cli.Usage
import EmbeddedVm.Code.Instruction
import EmbeddedVm.Code.Opcode
import EmbeddedVm.Config.Environment
import EmbeddedVm.Config.Settings
import EmbeddedVm.Events.HeapOrder
import EmbeddedVm.Events.Instant
import EmbeddedVm.Events.Reactor
import EmbeddedVm.Events.Scheduler
import EmbeddedVm.Heap.Basic
import EmbeddedVm.Host.Files
import EmbeddedVm.Host.Natives
import EmbeddedVm.Host.Run
import EmbeddedVm.Instance.Access
import EmbeddedVm.Instance.CallQueue
import EmbeddedVm.Instance.Engine
import EmbeddedVm.Instance.Error
import EmbeddedVm.Instance.ErrorCode
import EmbeddedVm.Instance.Events
import EmbeddedVm.Instance.Guards
import EmbeddedVm.Instance.Lifecycle
import EmbeddedVm.Instance.Loading
import EmbeddedVm.Instance.Reload
import EmbeddedVm.Instance.State
import EmbeddedVm.Machine.Call
import EmbeddedVm.Machine.Error
import EmbeddedVm.Machine.Execution
import EmbeddedVm.Machine.Image
import EmbeddedVm.Main
import EmbeddedVm.Module.Basic
import EmbeddedVm.Module.Builder
import EmbeddedVm.Module.Codec
import EmbeddedVm.Module.Load
import EmbeddedVm.Module.Pool
import EmbeddedVm.Module.Verify
import EmbeddedVm.Number.Binary64
import EmbeddedVm.Number.Nearest
import EmbeddedVm.Number.Positional
import EmbeddedVm.Number.Shortest
import EmbeddedVm.Proofs.Bytes.Reading
import EmbeddedVm.Proofs.Checks
import EmbeddedVm.Proofs.Heap.Contents
import EmbeddedVm.Proofs.Host.Endings
import EmbeddedVm.Proofs.Host.Lockstep
import EmbeddedVm.Proofs.Machine.Agreement
import EmbeddedVm.Proofs.Machine.Alike
import EmbeddedVm.Proofs.Machine.Change
import EmbeddedVm.Proofs.Machine.Collection
import EmbeddedVm.Proofs.Machine.Invariants
import EmbeddedVm.Proofs.Machine.Inversion
import EmbeddedVm.Proofs.Machine.LinkedCode
import EmbeddedVm.Proofs.Machine.Resolution
import EmbeddedVm.Proofs.Machine.Safety
import EmbeddedVm.Proofs.Machine.Turns
import EmbeddedVm.Proofs.Module.Names
import EmbeddedVm.Proofs.Module.RoundTrip
import EmbeddedVm.Proofs.Threads.Interleaving
import EmbeddedVm.Proofs.Threads.Quiet
import EmbeddedVm.Proofs.Threads.StopTheWorld
import EmbeddedVm.Proofs.Vm.Alike
import EmbeddedVm.Proofs.Vm.Change
import EmbeddedVm.Proofs.Vm.Operations
import EmbeddedVm.Proofs.Vm.Soundness
import EmbeddedVm.Proofs.Vm.Unobservable
import EmbeddedVm.Text.Blank
import EmbeddedVm.Text.Duration
import EmbeddedVm.Text.Quoted
import EmbeddedVm.Text.Unprintable
import EmbeddedVm.Threads.Executor
import EmbeddedVm.Threads.Program
import EmbeddedVm.Threads.Registry
import EmbeddedVm.Toml.Assembly
import EmbeddedVm.Toml.Document
import EmbeddedVm.Toml.Scalar
import EmbeddedVm.Toml.Value
import EmbeddedVm.Value.Basic
import EmbeddedVm.Value.Display
import EmbeddedVm.Value.Scalar
import EmbeddedVm.Vm.Basic
import EmbeddedVm.Vm.Events
import EmbeddedVm.Vm.Patch
import EmbeddedVm.Proofs.Vm.StaticFields
import EmbeddedVm.Proofs.Vm.Replacement
import EmbeddedVm.Proofs.Events.HeapOrder
import EmbeddedVm.Proofs.Events.Scheduler
import EmbeddedVm.Proofs.Events.Cancellation
import EmbeddedVm.Proofs.Events.Reactor
import EmbeddedVm.Proofs.Vm.Callbacks
import EmbeddedVm.Proofs.Threads.Keeping
import EmbeddedVm.Proofs.Threads.Slots
import EmbeddedVm.Proofs.Instance.Ownership
import EmbeddedVm.Proofs.Instance.StartStop
import EmbeddedVm.Proofs.Vm.DeclaredKinds
import EmbeddedVm.Proofs.Events.Delivery
import EmbeddedVm.Proofs.Vm.Delivery
import EmbeddedVm.Proofs.Module.Offsets
import EmbeddedVm.Proofs.Machine.Relocation
import EmbeddedVm.Proofs.Machine.Linking
import EmbeddedVm.Proofs.Machine.Bytewise
import EmbeddedVm.Proofs.Threads.History
import EmbeddedVm.Proofs.Instance.StageKeeping
import EmbeddedVm.Proofs.Instance.Stages
import EmbeddedVm.Proofs.Instance.EntryOnce
import EmbeddedVm.Proofs.Instance.StageAgreement
import EmbeddedVm.Proofs.Machine.Pairing
import EmbeddedVm.Proofs.Machine.Naming
import EmbeddedVm.Proofs.Module.Referents
import EmbeddedVm.Proofs.Vm.Companions
import EmbeddedVm.Proofs.Vm.Twins
import EmbeddedVm.Proofs.Vm.Unchanged
import EmbeddedVm.Proofs.Bytes.Consuming
import EmbeddedVm.Proofs.Module.Spelling
import EmbeddedVm.Proofs.Module.Framing
import EmbeddedVm.Proofs.Module.Normalisation
import EmbeddedVm.Proofs.Machine.Footprint
import EmbeddedVm.Proofs.Machine.Operands
import EmbeddedVm.Proofs.Machine.Isolation
import EmbeddedVm.Proofs.Events.Conservation
import EmbeddedVm.Proofs.Vm.Drains
import EmbeddedVm.Proofs.Code.Listing
import EmbeddedVm.Proofs.Bytes.Checksum
import EmbeddedVm.Proofs.Module.Corruption
import EmbeddedVm.Proofs.Module.WellFormed
import EmbeddedVm.Proofs.Number.Order
import EmbeddedVm.Proofs.Events.Sweeps
import EmbeddedVm.Proofs.Events.Reached
import EmbeddedVm.Proofs.Heap.Bookkeeping
import EmbeddedVm.Proofs.Threads.Counters
import EmbeddedVm.Proofs.Threads.Accounts
import EmbeddedVm.Proofs.Events.Frames
import EmbeddedVm.Proofs.Events.Cadence
import EmbeddedVm.Proofs.Machine.CallChain
import EmbeddedVm.Proofs.Module.Drafts
import EmbeddedVm.Proofs.Module.Labels
import EmbeddedVm.Proofs.Module.Pools
import EmbeddedVm.Proofs.Module.Assembly
import EmbeddedVm.Proofs.Threads.NestedPauses
import EmbeddedVm.Proofs.Events.Identifiers
import EmbeddedVm.Proofs.Vm.Moments
import EmbeddedVm.Proofs.Vm.TimerIds
import EmbeddedVm.Proofs.Events.Forecast
import EmbeddedVm.Proofs.Instance.CallOrder
import EmbeddedVm.Proofs.Instance.Probes
import EmbeddedVm.Proofs.Threads.Alone
import EmbeddedVm.Proofs.Instance.FileNotes
import EmbeddedVm.Proofs.Instance.FileDiary
import EmbeddedVm.Proofs.Instance.FileWatch
import EmbeddedVm.Proofs.Host.Requests
import EmbeddedVm.Proofs.Machine.HostCalls
import EmbeddedVm.Proofs.Vm.CurrentImports
import EmbeddedVm.Proofs.Vm.StaticMap
import EmbeddedVm.Proofs.Instance.FrameTime
import EmbeddedVm.Proofs.Module.Redefinition
