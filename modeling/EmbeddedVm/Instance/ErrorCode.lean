/-!
# Error codes

Every failure of an instance has a code: a number for callers that pass numbers only, and a name.
-/

namespace EmbeddedVm

/-- The code of a failure. -/
inductive ErrorCode where
  | ok
  | alreadyInitialized
  | notInitialized
  | initFailed
  | destroyFailed
  | fileNotFound
  | invalidBytecode
  | moduleLoadFailed
  | entryPointNotFound
  | typeNotFound
  | methodNotFound
  | fieldNotFound
  | callFailed
  | exceptionThrown
  | typeMismatch
  | nullValue
  | reloadNotSupported
  | reloadNotEnabled
  | reloadFailed
  | requiresPriorEntry
  | threadNotStarted
  | threadAlreadyRunning
  | threadStartFailed
  | threadStopFailed
  | wrongThread
  | timeout
  | unbalancedGuard
  | eventLoopFailed
  | outOfMemory
  | invalidArgument
  | notImplemented
  | unknown
deriving DecidableEq, Repr, Inhabited

namespace ErrorCode

/-- Number and name of a code. -/
def entry : ErrorCode → Nat × String
  | ok => (0, "Ok")
  | alreadyInitialized => (1, "AlreadyInitialized")
  | notInitialized => (2, "NotInitialized")
  | initFailed => (3, "InitFailed")
  | destroyFailed => (4, "DestroyFailed")
  | fileNotFound => (10, "FileNotFound")
  | invalidBytecode => (11, "InvalidBytecode")
  | moduleLoadFailed => (12, "ModuleLoadFailed")
  | entryPointNotFound => (20, "EntryPointNotFound")
  | typeNotFound => (21, "TypeNotFound")
  | methodNotFound => (22, "MethodNotFound")
  | fieldNotFound => (23, "FieldNotFound")
  | callFailed => (24, "CallFailed")
  | exceptionThrown => (30, "ExceptionThrown")
  | typeMismatch => (40, "TypeMismatch")
  | nullValue => (41, "NullValue")
  | reloadNotSupported => (50, "ReloadNotSupported")
  | reloadNotEnabled => (51, "ReloadNotEnabled")
  | reloadFailed => (52, "ReloadFailed")
  | requiresPriorEntry => (53, "RequiresPriorEntry")
  | threadNotStarted => (60, "ThreadNotStarted")
  | threadAlreadyRunning => (61, "ThreadAlreadyRunning")
  | threadStartFailed => (62, "ThreadStartFailed")
  | threadStopFailed => (63, "ThreadStopFailed")
  | wrongThread => (64, "WrongThread")
  | timeout => (65, "Timeout")
  | unbalancedGuard => (66, "UnbalancedGuard")
  | eventLoopFailed => (70, "EventLoopFailed")
  | outOfMemory => (90, "OutOfMemory")
  | invalidArgument => (91, "InvalidArgument")
  | notImplemented => (92, "NotImplemented")
  | unknown => (99, "Unknown")

def number (c : ErrorCode) : Nat := c.entry.1

def name (c : ErrorCode) : String := c.entry.2

/-- Every code, by ascending number. -/
def all : List ErrorCode :=
  [ok, alreadyInitialized, notInitialized, initFailed, destroyFailed, fileNotFound,
   invalidBytecode, moduleLoadFailed, entryPointNotFound, typeNotFound, methodNotFound,
   fieldNotFound, callFailed, exceptionThrown, typeMismatch, nullValue, reloadNotSupported,
   reloadNotEnabled, reloadFailed, requiresPriorEntry, threadNotStarted, threadAlreadyRunning,
   threadStartFailed, threadStopFailed, wrongThread, timeout, unbalancedGuard, eventLoopFailed,
   outOfMemory, invalidArgument, notImplemented, unknown]

/-- The list leaves no code out. -/
theorem mem_all (c : ErrorCode) : c ∈ all := by cases c <;> decide

end ErrorCode

end EmbeddedVm
