import EmbeddedVm.Config.Settings
import EmbeddedVm.Host.Files
import EmbeddedVm.Text.Blank
import EmbeddedVm.Text.Quoted
import EmbeddedVm.Toml.Document

/-!
# Where settings come from

Settings start from their defaults or from a document, and environment variables override them one
by one. The first variable with a value it cannot have ends the overriding; those before it have
taken effect.
-/

namespace EmbeddedVm

/-- Why settings cannot be had: the file cannot be read, the document is unreadable or has a setting
    of a wrong kind, or a variable has a value it cannot have. -/
inductive ConfigError where
  | io (path : String) (cause : FileError)
  | parse
  | env (name value : String)
deriving DecidableEq, Repr, Inhabited

/-- The wording of a cause. What is wrong in a document is not told. -/
def ConfigError.message : ConfigError → String
  | io path cause => s!"Failed to read config file {path}: {cause.message}"
  | parse => "Failed to parse config"
  | env name value => s!"Invalid value for {name}: {Text.quoted value}"

/-- The environment: the values of variables. -/
abbrev Environment := List (String × String)

namespace Settings

/-! ## 1. Values of variables -/

/-- A letter of the ASCII alphabet in lower case, any other character as it is. -/
def lowered (s : String) : String := s.map Char.toLower

/-- A number below `2 ^ 64` in decimal, perhaps with a plus sign. -/
def plainNumber64? (s : String) : Option Nat :=
  let digits := match s.toList with
    | '+' :: rest => rest
    | cs => cs
  if digits.isEmpty || !digits.all Char.isDigit then none
  else
    let n := digits.foldl (fun n d => 10 * n + (d.toNat - 48)) 0
    if n < 18446744073709551616 then some n else none

/-- The same, with blanks around it. -/
def number64? (s : String) : Option Nat := plainNumber64? (Text.trim s)

/-- A choice of the mode of execution, in either case, with blanks around it. -/
def executionValue? (s : String) : Option ExecutionSetting :=
  ExecutionSetting.ofName? (lowered (Text.trim s))

/-- A switch in one of its four spellings, in either case, with blanks around it. -/
def switch? (s : String) : Option Bool :=
  let word := lowered (Text.trim s)
  if ["1", "true", "yes", "on"].contains word then some true
  else if ["0", "false", "no", "off"].contains word then some false
  else none

/-! ## 2. Overriding -/

/-- The variables, in the order in which they take effect, and what their values do. -/
def overrides : List (String × (String → Settings → Option Settings)) :=
  [("VESSEL_EXECUTION", fun v s => (executionValue? v).map fun x => { s with execution := x }),
   ("VESSEL_GC_THRESHOLD", fun v s => (number64? v).map fun x => { s with gcThreshold := x }),
   ("VESSEL_GC_PAUSE_TIMEOUT_MS", fun v s => (number64? v).map fun x => { s with pauseTimeout := x }),
   ("VESSEL_STOP_TIMEOUT_MS", fun v s => (number64? v).map fun x => { s with stopTimeout := x }),
   ("VESSEL_CALL_TIMEOUT_MS", fun v s => (number64? v).map fun x => { s with callTimeout := x }),
   ("VESSEL_TICK_INTERVAL_MS", fun v s => (number64? v).map fun x => { s with tickInterval := x }),
   ("VESSEL_HOT_RELOAD", fun v s => (switch? v).map fun x => { s with hotReload := x }),
   ("VESSEL_LOG_LEVEL", fun v s => some { s with logLevel := v })]

/-- Overrides settings by some of the variables; the settings reached stand beside the outcome. -/
def overrideBy (env : Environment) :
    List (String × (String → Settings → Option Settings)) → Settings →
      Except ConfigError Unit × Settings
  | [], s => (.ok (), s)
  | (name, read) :: rest, s =>
    match env.lookup name with
    | none => overrideBy env rest s
    | some value => match read value s with
      | some s => overrideBy env rest s
      | none => (.error (.env name value), s)

def override (s : Settings) (env : Environment) : Except ConfigError Unit × Settings :=
  overrideBy env overrides s

/-- The settings after overriding, if every value is one the variable can have. -/
def overridden (s : Settings) (env : Environment) : Except ConfigError Settings :=
  let (outcome, s) := s.override env
  outcome.map fun _ => s

/-- The settings of a document. -/
def parse (source : String) : Except ConfigError Settings :=
  match (Toml.parse? source).bind ofTable? with
  | some s => .ok s
  | none => .error .parse

def ofEnvironment (env : Environment) : Except ConfigError Settings := overridden {} env

/-- The settings of a file, overridden by an environment. -/
def ofFile (files : Files) (path : String) (env : Environment) : Except ConfigError Settings := do
  let source ← (files.readText path).mapError (.io path)
  (← parse source).overridden env

/-- The filter of diagnostics: what the environment says, unless that is blank, or else the given
    level. -/
def logFilter (env : Environment) (level : String) : String :=
  match (env.lookup "VESSEL_LOG").or (env.lookup "RUST_LOG") with
  | some filter => if (Text.trim filter).isEmpty then level else filter
  | none => level

end Settings

end EmbeddedVm
