import EmbeddedVm.Module.Load
import EmbeddedVm.Value.Display

/-!
# What goes wrong in the machine

Byte code fails with an exception: a cause and the chain of calls that led to it. The operations of
the machine as a whole fail for reasons of their own, before any byte code runs or after.
-/

namespace EmbeddedVm

/-! ## 1. Causes of exceptions -/

/-- What an instruction found wrong. The last three do not occur in verified code. -/
inductive Fault where
  | stackUnderflow
  | underflowInCall
  | stackOverflow (limit : Nat)
  | typeError (op : Opcode) (expected : String) (found : Kind)
  | divisionByZero
  | kindMismatch (found : Kind) (cls field : String) (declared : Kind)
  | thrown (text : String)
  | nativeFailed (name message : String)
  | fellOffEnd
  | unboundNative (index : Nat)
  | danglingReference (what : Reference) (index : Nat)
deriving DecidableEq, Repr, Inhabited

def Fault.message : Fault → String
  | stackUnderflow => "stack underflow"
  | underflowInCall => "stack underflow in call"
  | stackOverflow limit => s!"stack overflow: call depth exceeds {limit}"
  | typeError op expected found => s!"{op.name}: expected {expected}, found {found.name}"
  | divisionByZero => "division by zero"
  | kindMismatch found cls field declared =>
    s!"cannot store {found.name} in static '{cls}.{field}' of kind {declared.name}"
  | thrown text => text
  | nativeFailed name message => s!"native '{name}' failed: {message}"
  | fellOffEnd => "execution fell off end of function"
  | unboundNative index => s!"unbound native #{index}"
  | danglingReference what index => s!"dangling {what.name} reference {index}"

/-! ## 2. Linking -/

/-- Why a module does not link. A jump is invalid where no instruction starts. -/
inductive LinkError where
  | unresolvedNative (name : String)
  | decode (function : String) (cause : DecodeError)
  | invalidJump (function : String) (target : Int)
deriving DecidableEq, Repr, Inhabited

def LinkError.message : LinkError → String
  | unresolvedNative name => s!"Unresolved native '{name}'"
  | decode function cause => s!"Function '{function}' failed to decode: " ++ cause.message
  | invalidJump function target => s!"Function '{function}' jumps to offset {target}"

/-! ## 3. Threads -/

/-- Why an operation on the threads of the machine fails. What ends without having begun is
    unbalanced, and a pause times out with the number of threads that did not stop. -/
inductive ThreadError where
  | notRegistered
  | unbalanced
  | pauseTimeout (unresponsive : Nat)
deriving DecidableEq, Repr, Inhabited

/-- The wording of a thread error. How long a pause was waited for is not told. -/
def ThreadError.message : ThreadError → String
  | notRegistered => "Thread is not registered with the VM"
  | unbalanced => "blocking_end without a matching blocking_begin"
  | pauseTimeout n =>
    s!"Pause not established after <waited>: {n} thread(s) never reached a safepoint"

/-! ## 4. Operations of the machine -/

/-- Why replacing a module is refused: a static field is declared with another kind than before, or
    holds a value that its new declaration does not admit, or a callback that is still to run is
    missing. -/
inductive PatchRefusal where
  | kindChanged (cls field : String) (before after : Kind)
  | valueMisfit (cls field : String) (held declared : Kind)
  | callbackMissing (name : String)
deriving DecidableEq, Repr, Inhabited

def PatchRefusal.message : PatchRefusal → String
  | kindChanged cls field before after =>
    s!"static '{cls}.{field}' changed kind from {before.name} to {after.name}"
  | valueMisfit cls field held declared =>
    s!"static '{cls}.{field}' holds a {held.name} but is now declared {declared.name}"
  | callbackMissing name => s!"scheduled callback '{name}' is missing from the new module"

/-- Why an operation of the machine fails. An exception comes with the names of the active
    functions, the innermost first. -/
inductive VmError where
  | notLoaded
  | alreadyLoaded
  | load (cause : LoadError)
  | link (cause : LinkError)
  | classNotFound (name : String)
  | functionNotFound (name : String)
  | methodNotFound (cls method : String)
  | fieldNotFound (cls field : String)
  | arityMismatch (name : String) (expected found : Nat)
  | typeMismatch (expected found : Kind)
  | exception (fault : Fault) (trace : List String)
  | patchRejected (cause : PatchRefusal)
  | patchUnsupported
  | gcStalled (cause : ThreadError)
deriving DecidableEq, Repr, Inhabited

/-- The wording of a failure. -/
def VmError.message : VmError → String
  | notLoaded => "No module loaded"
  | alreadyLoaded => "A module is already loaded"
  | load cause => "Invalid module: " ++ cause.message
  | link cause => "Link error: " ++ cause.message
  | classNotFound name => s!"Class '{name}' not found"
  | functionNotFound name => s!"Function '{name}' not found"
  | methodNotFound cls method => s!"Method '{cls}.{method}' not found"
  | fieldNotFound cls field => s!"Static field '{cls}.{field}' not found"
  | arityMismatch name expected found => s!"'{name}' expects {expected} argument(s), got {found}"
  | typeMismatch expected found => s!"Type mismatch: expected {expected.name}, found {found.name}"
  | exception fault _ => "Uncaught exception: " ++ fault.message
  | patchRejected cause => "Patch rejected: " ++ cause.message
  | patchUnsupported => "Patching is not supported in static execution mode"
  | gcStalled cause => "Garbage collection stalled: " ++ cause.message

end EmbeddedVm
