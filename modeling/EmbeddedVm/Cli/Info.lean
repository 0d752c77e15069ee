import EmbeddedVm.Cli.Report
import EmbeddedVm.Cli.Usage
import EmbeddedVm.Instance.State

/-!
# The environment

`info` shows the version, the settings that the environment leads to, and the variables themselves.
-/

namespace EmbeddedVm.Cli

def shownVariables : List String := Settings.overrides.map Prod.fst ++ ["VESSEL_LOG"]

/-- The lines about the settings. -/
def settingsLines (env : Environment) : List String :=
  match Settings.ofEnvironment env with
  | .ok s =>
    ["Execution:    " ++ s.execution.name, "Hot reload:   " ++ toString s.hotReload,
     "Log level:    " ++ s.logLevel]
  | .error e => ["Config:       invalid (" ++ e.message ++ ")"]

/-- **The command `info`.** -/
def info (env : Environment) : String :=
  unlines <|
    ["Vessel v" ++ Instance.version, "", "Platform:     linux (x86_64)",
     "Runtime:      " ++ Instance.version, "JIT:          available"] ++
    settingsLines env ++
    ["", "Environment:"] ++
    shownVariables.map fun name => "  " ++ name ++ " = " ++ (env.lookup name).getD "(default)"

end EmbeddedVm.Cli
