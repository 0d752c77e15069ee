import EmbeddedVm.Toml.Value
import EmbeddedVm.Vm.Basic

/-!
# Settings

The settings of an instance come in sections. A document gives some of them and leaves the others
at their defaults; sections and settings it does not know are passed over, but a known setting of a
wrong kind makes the document unusable.
-/

namespace EmbeddedVm

/-- How the mode of execution is chosen; `auto` is the default. -/
inductive ExecutionSetting where
  | auto
  | jit
  | static
deriving DecidableEq, Repr, Inhabited

namespace ExecutionSetting

/-- The written form. -/
def name : ExecutionSetting → String
  | auto => "auto"
  | jit => "jit"
  | static => "static"

/-- Every choice. -/
def all : List ExecutionSetting := [auto, jit, static]

/-- The choice with a written form. -/
def ofName? (s : String) : Option ExecutionSetting := all.find? (·.name == s)

/-- The mode that is chosen. -/
def resolve : ExecutionSetting → ExecutionMode
  | auto => .jit
  | jit => .jit
  | static => .static

end ExecutionSetting

/-- The settings of an instance; times in milliseconds. -/
structure Settings where
  execution : ExecutionSetting := .auto
  gcThreshold : Nat := 1048576
  maxCallDepth : Nat := 1024
  pauseTimeout : Nat := 1000
  stopTimeout : Nat := 5000
  callTimeout : Nat := 30000
  tickInterval : Nat := 16
  hotReload : Bool := false
  logLevel : String := "info"
deriving DecidableEq, Repr, Inhabited

namespace Settings

/-! ## 1. What follows from settings -/

/-- The options of the machine. -/
def vmOptions (s : Settings) : VmOptions where
  mode := s.execution.resolve
  gcThreshold := s.gcThreshold
  pauseTimeout := s.pauseTimeout
  maxCallDepth := s.maxCallDepth

/-- A bound in milliseconds; zero means that there is none. -/
def bound (ms : Nat) : Option Nat := if ms = 0 then none else some ms

/-- How long to wait for the machine's thread to end. -/
def stopBound (s : Settings) : Option Nat := bound s.stopTimeout

/-- How long to wait for a call on the machine's thread. -/
def callBound (s : Settings) : Option Nat := bound s.callTimeout

/-- How often the machine's thread looks for events, never less than a millisecond apart. -/
def tick (s : Settings) : Nat := max s.tickInterval 1

/-! ## 2. Settings in a document -/

/-- A number that is not negative. -/
def number? : Toml.Value → Option Nat
  | .integer n => if 0 ≤ n then some n.toNat else none
  | _ => none

/-- A truth value. -/
def flag? : Toml.Value → Option Bool
  | .boolean b => some b
  | _ => none

def text? : Toml.Value → Option String
  | .string s => some s
  | _ => none

/-- A choice: its name, or a table whose only name it is and which holds nothing under it. -/
def execution? : Toml.Value → Option ExecutionSetting
  | .string s => ExecutionSetting.ofName? s
  | .table [(name, .table [])] | .table [(name, .array [])] => ExecutionSetting.ofName? name
  | _ => none

/-- One setting of a section: its name, and how it changes the settings. -/
structure Field where
  name : String
  read : Toml.Value → Settings → Option Settings

/-- A field read by `parse` and stored by `store`. -/
def field {α : Type} (name : String) (parse : Toml.Value → Option α) (store : α → Settings → Settings) :
    Field :=
  ⟨name, fun v s => (parse v).map (store · s)⟩

/-- The sections with their fields, in order. -/
def sections : List (String × List Field) :=
  [("vm",
    [field "execution" execution? fun v s => { s with execution := v },
     field "gc_threshold" number? fun v s => { s with gcThreshold := v },
     field "max_call_depth" number? fun v s => { s with maxCallDepth := v }]),
   ("gc", [field "pause_timeout_ms" number? fun v s => { s with pauseTimeout := v }]),
   ("threading",
    [field "stop_timeout_ms" number? fun v s => { s with stopTimeout := v },
     field "call_timeout_ms" number? fun v s => { s with callTimeout := v },
     field "tick_interval_ms" number? fun v s => { s with tickInterval := v }]),
   ("hot_reload", [field "enabled" flag? fun v s => { s with hotReload := v }]),
   ("logging", [field "level" text? fun v s => { s with logLevel := v }])]

/-- The settings with those of a section. A section is a table, or an array of the values of its
    first fields in order; a date has no fields. -/
def readSection (fields : List Field) (s : Settings) : Toml.Value → Option Settings
  | .table entries => fields.foldlM (fun s f => match entries.lookup f.name with
    | some v => f.read v s
    | none => some s) s
  | .array elements => (fields.zip elements).foldlM (fun s (f, v) => f.read v s) s
  | .dateTime _ => some s
  | _ => none

def ofTable? (document : Toml.Table) : Option Settings :=
  sections.foldlM (fun s (name, fields) => match document.lookup name with
    | some v => readSection fields s v
    | none => some s) {}

end Settings

end EmbeddedVm
