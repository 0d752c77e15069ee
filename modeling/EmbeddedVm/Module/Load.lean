import EmbeddedVm.Module.Codec
import EmbeddedVm.Module.Verify

/-!
# Accepting a module file

A file is accepted when it decodes and the module it holds is well formed.
-/

namespace EmbeddedVm

/-- Why a file is not accepted: it is no module, or the module is not well formed. -/
inductive LoadError where
  | module (cause : ModuleError)
  | verify (cause : VerifyError)
deriving DecidableEq, Repr, Inhabited

/-- The wording is that of the cause. -/
def LoadError.message : LoadError → String
  | module cause => cause.message
  | verify cause => cause.message

/-- The well-formed module a file holds. -/
def Module.load (data : Bytes) : Except LoadError Module := do
  let m ← (Module.decode data).mapError .module
  (m.verify).mapError .verify
  pure m

end EmbeddedVm
