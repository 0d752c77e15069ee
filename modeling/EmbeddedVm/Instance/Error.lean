import EmbeddedVm.Instance.ErrorCode
import EmbeddedVm.Machine.Error

/-!
# What goes wrong in an instance

The operations of an instance fail with a cause, its wording and its code. Failures of the machine
and of the registry of threads are retold in these terms.
-/

namespace EmbeddedVm

/-- Why an operation of an instance fails. A failure of byte code comes with the names of the active
    functions, the innermost first. -/
inductive InstanceError where
  | alreadyInitialized (reason : String)
  | notInitialized (reason : String)
  | initFailed (reason : String)
  | destroyFailed (reason : String)
  | fileNotFound (path reason : String)
  | invalidBytecode (reason : String)
  | moduleLoadFailed (reason : String)
  | entryPointNotFound (name : String)
  | typeNotFound (name : String)
  | methodNotFound (name : String)
  | fieldNotFound (name : String)
  | callFailed (reason : String)
  | exceptionThrown (text : String) (trace : List String)
  | typeMismatch (expected found : Kind)
  | nullValue (field : String)
  | reloadNotSupported
  | reloadNotEnabled
  | reloadFailed (reason : String)
  | requiresPriorEntry (reason : String)
  | threadNotStarted
  | threadAlreadyRunning
  | threadStartFailed (reason : String)
  | threadStopFailed (reason : String)
  | wrongThread (reason : String)
  | timeout (reason : String)
  | unbalancedGuard (reason : String)
  | eventLoopFailed (reason : String)
  | outOfMemory
  | invalidArgument (reason : String)
  | notImplemented (feature : String)
  | unknown (reason : String)
deriving DecidableEq, Repr, Inhabited

namespace InstanceError

/-- The wording of a failure. -/
def message : InstanceError → String
  | alreadyInitialized reason => "Already initialized: " ++ reason
  | notInitialized reason => "Not initialized: " ++ reason
  | initFailed reason => "Initialization failed: " ++ reason
  | destroyFailed reason => "Destroy failed: " ++ reason
  | fileNotFound path reason => s!"Bytecode file not found: {path}: {reason}"
  | invalidBytecode reason => "Invalid bytecode: " ++ reason
  | moduleLoadFailed reason => "Module load failed: " ++ reason
  | entryPointNotFound name => "Entry point not found: " ++ name
  | typeNotFound name => s!"Type '{name}' not found"
  | methodNotFound name => s!"Method '{name}' not found"
  | fieldNotFound name => s!"Field '{name}' not found"
  | callFailed reason => "Call failed: " ++ reason
  | exceptionThrown text _ => "Uncaught exception: " ++ text
  | typeMismatch expected found => s!"Type mismatch: expected {expected.name}, found {found.name}"
  | nullValue field => "Null value: " ++ field
  | reloadNotSupported => "Hot reload is not supported in static execution mode"
  | reloadNotEnabled => "Hot reload is not enabled"
  | reloadFailed reason => "Reload failed: " ++ reason
  | requiresPriorEntry reason => reason
  | threadNotStarted => "VM thread is not running"
  | threadAlreadyRunning => "VM thread is already running"
  | threadStartFailed reason => "Failed to start VM thread: " ++ reason
  | threadStopFailed reason => "Failed to stop VM thread: " ++ reason
  | wrongThread reason => "Wrong thread: " ++ reason
  | timeout reason => "Timed out: " ++ reason
  | unbalancedGuard reason => "Unbalanced guard: " ++ reason
  | eventLoopFailed reason => "Event loop failed: " ++ reason
  | outOfMemory => "Out of memory"
  | invalidArgument reason => "Invalid argument: " ++ reason
  | notImplemented feature => "Not implemented: " ++ feature
  | unknown reason => reason

/-- The code of a failure. -/
def code : InstanceError → ErrorCode
  | alreadyInitialized _ => .alreadyInitialized
  | notInitialized _ => .notInitialized
  | initFailed _ => .initFailed
  | destroyFailed _ => .destroyFailed
  | fileNotFound _ _ => .fileNotFound
  | invalidBytecode _ => .invalidBytecode
  | moduleLoadFailed _ => .moduleLoadFailed
  | entryPointNotFound _ => .entryPointNotFound
  | typeNotFound _ => .typeNotFound
  | methodNotFound _ => .methodNotFound
  | fieldNotFound _ => .fieldNotFound
  | callFailed _ => .callFailed
  | exceptionThrown _ _ => .exceptionThrown
  | typeMismatch _ _ => .typeMismatch
  | nullValue _ => .nullValue
  | reloadNotSupported => .reloadNotSupported
  | reloadNotEnabled => .reloadNotEnabled
  | reloadFailed _ => .reloadFailed
  | requiresPriorEntry _ => .requiresPriorEntry
  | threadNotStarted => .threadNotStarted
  | threadAlreadyRunning => .threadAlreadyRunning
  | threadStartFailed _ => .threadStartFailed
  | threadStopFailed _ => .threadStopFailed
  | wrongThread _ => .wrongThread
  | timeout _ => .timeout
  | unbalancedGuard _ => .unbalancedGuard
  | eventLoopFailed _ => .eventLoopFailed
  | outOfMemory => .outOfMemory
  | invalidArgument _ => .invalidArgument
  | notImplemented _ => .notImplemented
  | unknown _ => .unknown

/-- A failure is never coded as a success. -/
theorem code_ne_ok (e : InstanceError) : e.code ≠ .ok := by cases e <;> simp [code]

/-- A failure of the machine. -/
def ofVm : VmError → InstanceError
  | .notLoaded => notInitialized "no module loaded"
  | .alreadyLoaded => alreadyInitialized "a module is already loaded"
  | .load cause => invalidBytecode cause.message
  | .link cause => moduleLoadFailed cause.message
  | .classNotFound name => typeNotFound name
  | .functionNotFound name => methodNotFound name
  | .methodNotFound cls method => methodNotFound (cls ++ "." ++ method)
  | .fieldNotFound cls field => fieldNotFound (cls ++ "." ++ field)
  | .arityMismatch name expected found =>
    invalidArgument (VmError.arityMismatch name expected found).message
  | .typeMismatch expected found => typeMismatch expected found
  | .exception fault trace => exceptionThrown fault.message trace
  | .patchRejected cause => reloadFailed cause.message
  | .patchUnsupported => reloadNotSupported
  | .gcStalled cause => timeout cause.message

/-- A failure of the registry of threads. -/
def ofThread : ThreadError → InstanceError
  | .notRegistered => wrongThread "thread is not registered with the collector"
  | .unbalanced => unbalancedGuard ThreadError.unbalanced.message
  | .pauseTimeout n => timeout (ThreadError.pauseTimeout n).message

end InstanceError

end EmbeddedVm
