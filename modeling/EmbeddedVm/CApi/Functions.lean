import EmbeddedVm.CApi.Value
import EmbeddedVm.Config.Environment
import EmbeddedVm.Instance.Engine
import EmbeddedVm.Instance.Guards
import EmbeddedVm.Instance.Reload

/-!
# The C interface of the instance

C has the one instance of its process by a pointer, and learns of a failure by a code; the wording
can be asked for afterwards. Numbers stand for choices, bytes for text, and any pointer may be NULL.
What C passes is checked before the instance is asked, and a failed check is recorded like any other
failure, unless there is no instance to record it with.
-/

namespace EmbeddedVm

/-- What a pointer to an instance points to: the instance of the process. -/
structure VmHandle where
deriving DecidableEq, Repr, Inhabited

/-- A pointer to the instance; `none` is NULL. -/
abbrev CVm := Option VmHandle

namespace CApi

variable {η ρ σ α : Type}

/-! ## 1. Outcomes -/

/-- The code of an outcome. -/
def codeOf : Except InstanceError α → ErrorCode
  | .ok _ => .ok
  | .error e => e.code

/-- An operation on the instance: the outcome, and the result if there is one. -/
def on (vm : CVm) (op : Operation η ρ σ α) : Act η ρ σ (ErrorCode × Option α) :=
  match vm with
  | none => pure (.invalidArgument, none)
  | some _ => do
    let outcome ← op.run
    pure (codeOf outcome, outcome.toOption)

/-- The outcome of an operation on the instance. -/
def status (vm : CVm) (op : Operation η ρ σ α) : Act η ρ σ ErrorCode := Prod.fst <$> on vm op

/-- What an act on the instance yields, or a value that stands for it where there is none. -/
def ask (vm : CVm) (missing : α) (act : Act η ρ σ α) : Act η ρ σ α :=
  if vm.isSome then act else pure missing

/-! ## 2. Checks -/

/-- A failed check, recorded. -/
def invalid (message : String) : Operation η ρ σ α :=
  Instance.tracked (throw (.invalidArgument message))

/-- A pointer that must not be NULL. -/
def required (what : String) : Option α → Operation η ρ σ α
  | some a => pure a
  | none => invalid (what ++ " is NULL")

/-- There must be a place for the result. -/
def requirePlace (what : String) (place : Bool) : Operation η ρ σ Unit :=
  if place then pure () else invalid (what ++ " is NULL")

/-- A text that must be UTF-8. -/
def text (what : String) (s : CText) : Operation η ρ σ String := do
  match (← required what s).toText? with
  | some s => pure s
  | none => invalid (what ++ " is not valid UTF-8")

/-- A class and a member of it. Both are looked at; the failure is that of the first. -/
def member (what : String) (cls name : CText) : Operation η ρ σ (String × String) := do
  let cls ← Instance.lift (text "class" cls).run
  let name ← Instance.lift (text what name).run
  return (← .mk (pure cls), ← .mk (pure name))

/-- The bytes of a piece of memory; NULL is an empty one. -/
def memory (data : Option Bytes) (size : Nat) : Operation η ρ σ Bytes :=
  match data with
  | some bs => pure (bs.take size)
  | none => if size = 0 then pure [] else invalid "bytecode pointer is NULL"

/-- A kind of events by its number. -/
def eventKind : Int → Operation η ρ σ EventKind
  | 0 => pure .asyncIo
  | 1 => pure .cooperative
  | 2 => pure .all
  | n => invalid ("unknown event loop kind " ++ toString n)

/-! ## 3. The life of the instance -/

/-- Creates the instance of the process. Settings that cannot be had are not told apart. -/
def createFrom (settings : Except ConfigError Settings) : Act η ρ σ (ErrorCode × CVm) :=
  match settings with
  | .error _ => pure (.initFailed, none)
  | .ok settings => do
    let outcome ← Instance.createIn settings
    pure (codeOf outcome, outcome.toOption.map fun _ => {})

/-- Creates the instance with settings from the environment. -/
def create (env : Environment) (place : Bool) : Act η ρ σ (ErrorCode × CVm) :=
  if place then createFrom (Settings.ofEnvironment env) else pure (.invalidArgument, none)

/-- Creates the instance with settings from a file. -/
def createWithConfig (path : CText) (env : Environment) (place : Bool) :
    Act η ρ σ (ErrorCode × CVm) :=
  match path.bind Bytes.toText?, place with
  | some path, true => do
    createFrom (← Task.read fun w => Settings.ofFile w.files path env)
  | _, _ => pure (.invalidArgument, none)

/-- Initializes the instance. NULL among the arguments is passed over. -/
def init (vm : CVm) (me : ThreadId) (argc : Int) (argv : Option (List CText)) :
    Act η ρ σ ErrorCode :=
  status vm do
    if argc < 0 || (0 < argc && argv.isNone) then invalid "argc/argv mismatch"
    let arguments := (argv.getD []).take argc.toNat
    Instance.init me (arguments.filterMap (·.map Bytes.toTextLossy))

def loadFile (vm : CVm) (me : ThreadId) (path : CText) : Act η ρ σ ErrorCode :=
  status vm do Instance.loadFile me (← text "path" path)

def loadMemory (vm : CVm) (me : ThreadId) (data : Option Bytes) (size : Nat) :
    Act η ρ σ ErrorCode :=
  status vm do Instance.loadMemory me (← memory data size)

/-- Runs the entry function. -/
def callEntry (host : Host η ρ σ) (vm : CVm) (me : ThreadId) : Act η ρ σ ErrorCode :=
  status vm (Instance.callEntry host me)

def destroy (vm : CVm) (me : ThreadId) : Act η ρ σ ErrorCode := status vm (Instance.destroy me)

/-- Gives the pointer back, destroying the instance if that has not been done. -/
def free (vm : CVm) (me : ThreadId) : Act η ρ σ Unit :=
  ask vm () do
    if (← Instance.state) ≠ .destroyed then discard (Instance.destroy me).run

/-- The wording of the last failure; empty if there was none. -/
def getError (vm : CVm) : Act η ρ σ (Option String) :=
  ask vm none do return some (exported (← Instance.errorMessage))

/-- The code of the last failure. -/
def getErrorCode (vm : CVm) : Act η ρ σ ErrorCode := ask vm .invalidArgument Instance.errorCode

/-- Forgets the last failure. -/
def clearError (vm : CVm) : Act η ρ σ Unit := ask vm () Instance.clearError

/-! ## 4. Modes and events -/

/-- Chooses who drives the instance. -/
def setMode (vm : CVm) (mode : Int) : Act η ρ σ ErrorCode :=
  status vm <| match mode with
    | 0 => Instance.setMode .nonThreaded
    | 1 => Instance.setMode .threaded
    | n => invalid ("unknown integration mode " ++ toString n)

/-- Who drives the instance, by number. -/
def getMode (vm : CVm) : Act η ρ σ Nat :=
  ask vm 0 do return if (← Instance.mode) = .threaded then 1 else 0

/-- A frame of a given length in seconds. -/
def update (host : Host η ρ σ) (vm : CVm) (me : ThreadId) (delta : Binary64) : Act η ρ σ ErrorCode :=
  status vm (Instance.update host me delta)

/-- Whether a frame would find something. -/
def hasPendingWork (host : Host η ρ σ) (vm : CVm) (me : ThreadId) : Act η ρ σ Bool :=
  ask vm false (Instance.hasPendingWork host me)

/-- Handles the events of a kind, and says how many if there is a place for that. -/
def processEvents (host : Host η ρ σ) (vm : CVm) (me : ThreadId) (kind : Int) (place : Bool) :
    Act η ρ σ (ErrorCode × Option Nat) := do
  let (code, count) ← on vm do Instance.process host me (← eventKind kind)
  pure (code, if place then count else none)

/-- Whether events of a kind are ready. -/
def hasPendingEvents (host : Host η ρ σ) (vm : CVm) (me : ThreadId) (kind : Int) : Act η ρ σ Bool := do
  let (_, pending) ← on vm do Instance.lift (Instance.hasPending host me (← eventKind kind))
  pure (pending.getD false)

/-! ## 5. The instance's own thread -/

def threadStart (vm : CVm) : Act η ρ σ ErrorCode := status vm Instance.start

def threadStop (vm : CVm) (me : ThreadId) : Act η ρ σ ErrorCode := status vm (Instance.stop me)

/-- Whether the thread runs and accepts calls. -/
def threadIsRunning (vm : CVm) : Act η ρ σ Bool := ask vm false Instance.isRunning

/-- Runs a function on the thread and waits for it. -/
def threadCallSync (vm : CVm) (me : ThreadId) (call : Option η) : Act η ρ σ ErrorCode :=
  status vm do Instance.callSync me (← required "callback" call)

/-- Runs a function on the thread and then another that is told how it ended. -/
def threadCallAsync (vm : CVm) (me : ThreadId) (call notify : Option η) : Act η ρ σ ErrorCode :=
  status vm do Instance.callAsync me (← required "callback" call) notify

/-! ## 6. Replacing the module -/

/-- Allows or forbids replacements. -/
def enableHotReload (vm : CVm) (enable : Bool) : Act η ρ σ ErrorCode :=
  status vm (Instance.enableHotReload enable)

/-- Whether replacements are allowed. -/
def isHotReloadEnabled (vm : CVm) : Act η ρ σ Bool := ask vm false Instance.isHotReloadEnabled

/-- Replaces the module by that of a file; NULL is the file it was loaded from. -/
def reloadModule (host : Host η ρ σ) (vm : CVm) (me : ThreadId) (path : CText) :
    Act η ρ σ ErrorCode :=
  status vm <| match path with
    | none => Instance.reloadCurrent host me
    | some _ => do Instance.reloadFile host me (← text "path" path)

/-- Replaces the module by one in memory. -/
def reloadModuleMemory (host : Host η ρ σ) (vm : CVm) (me : ThreadId) (data : Option Bytes)
    (size : Nat) : Act η ρ σ ErrorCode :=
  status vm do Instance.reloadMemory host me (← memory data size)

/-- Sets or removes the function that is told of replacements. -/
def setReloadCallback (vm : CVm) (listener : Option η) : Act η ρ σ ErrorCode :=
  status vm (Instance.lift (Instance.setReloadListener listener))

/-- Replaces the module if its file changed: 1 if it did, 0 if not, -1 on failure. -/
def checkReload (host : Host η ρ σ) (vm : CVm) (me : ThreadId) : Act η ρ σ Int := do
  match ← on vm (Instance.checkReload host me) with
  | (_, some true) => pure 1
  | (_, some false) => pure 0
  | (_, none) => pure (-1)

/-! ## 7. Threads of the host -/

/-- An operation on the instance of the process, if one was created. -/
def onCurrent (op : Operation η ρ σ α) : Act η ρ σ ErrorCode := do
  if ← Task.read (·.claimed) then status (some {}) op else pure .notInitialized

def workerRegister (me : ThreadId) : Act η ρ σ ErrorCode := onCurrent (Instance.workerRegister me)

/-- Takes back a registration of the thread `me`. -/
def workerUnregister (me : ThreadId) : Act η ρ σ ErrorCode :=
  onCurrent (Instance.workerUnregister me)

/-- Opens a blocking bracket of the thread `me`. -/
def blockingBegin (me : ThreadId) : Act η ρ σ ErrorCode := onCurrent (Instance.blockingBegin me)

/-- Closes a blocking bracket of the thread `me`. -/
def blockingEnd (me : ThreadId) : Act η ρ σ ErrorCode := onCurrent (Instance.blockingEnd me)

/-! ## 8. The module -/

/-- Whether modules may be replaced in the mode of execution. -/
def isJitMode (vm : CVm) : Act η ρ σ Bool := ask vm false Instance.isJitMode

def getStatic (vm : CVm) (me : ThreadId) (cls field : CText) (place : Bool) :
    Act η ρ σ (ErrorCode × Option Scalar) :=
  on vm do
    requirePlace "out_value" place
    let (cls, field) ← member "field" cls field
    Instance.getStatic me cls field

def setStatic (vm : CVm) (me : ThreadId) (cls field : CText) (value : CValue) :
    Act η ρ σ ErrorCode :=
  status vm do
    let (cls, field) ← member "field" cls field
    Instance.setStatic me cls field (← required "value" value)

/-- Reads a static field that has to hold an integer. -/
def getStaticInt (vm : CVm) (me : ThreadId) (cls field : CText) (place : Bool) :
    Act η ρ σ (ErrorCode × Option Int32) := do
  let (code, value) ← on vm do
    requirePlace "out" place
    let (cls, field) ← member "field" cls field
    Instance.getTyped me cls field .int
  pure (code, value.bind Scalar.toInt?)

/-- Writes an integer into a static field. -/
def setStaticInt (vm : CVm) (me : ThreadId) (cls field : CText) (value : Int32) :
    Act η ρ σ ErrorCode :=
  status vm do
    let (cls, field) ← member "field" cls field
    Instance.setStatic me cls field (.int value)

/-- The values of arguments, none of which may be NULL. -/
def arguments : (i : Nat) → List CValue → Operation η ρ σ (List Scalar)
  | _, [] => pure []
  | i, value :: rest => do
    let some value := value | invalid ("argument " ++ toString i ++ " is NULL")
    return value :: (← arguments (i + 1) rest)

/-- Calls a static method; the result is had if there is a place for it. -/
def callStatic (host : Host η ρ σ) (vm : CVm) (me : ThreadId) (cls method : CText)
    (args : Option (List CValue)) (argc : Nat) (place : Bool) :
    Act η ρ σ (ErrorCode × Option Scalar) := do
  let (code, value) ← on vm do
    let (cls, method) ← member "method" cls method
    if 0 < argc && args.isNone then invalid "args is NULL"
    let args ← arguments 0 ((args.getD []).take argc)
    Instance.callStatic host me cls method args
  pure (code, if place then value else none)

/-- Looks for a class. -/
def findType (vm : CVm) (me : ThreadId) (name : CText) (place : Bool) :
    Act η ρ σ (ErrorCode × CType) := do
  let (code, info) ← on vm do
    requirePlace "out_type" place
    Instance.findType me (← text "name" name)
  pure (code, info.bind CType.ofInfo)

/-- Registers a function that byte code may call. -/
def registerCallback (vm : CVm) (me : ThreadId) (name : CText) (callback : Option η) :
    Act η ρ σ ErrorCode :=
  status vm do
    let name ← text "name" name
    Instance.registerNative me name (← required "callback" callback)

/-- What byte code gets from such a function: NULL is null, and there are no failures. -/
def callbackResult (value : CValue) : Except String Scalar := .ok (value.getD .null)

end CApi

end EmbeddedVm
