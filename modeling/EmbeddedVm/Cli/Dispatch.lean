import EmbeddedVm.Cli.Demo
import EmbeddedVm.Cli.Info
import EmbeddedVm.Cli.Inspect
import EmbeddedVm.Cli.Run

/-!
# From a command line to its outcome

Everything but `run` is over at once; `run` takes as long as the module does.
-/

namespace EmbeddedVm.Cli

/-- How a failed command ends. -/
def failed (files : Files) (out err : String) (e : Failure) : Outcome :=
  let (exit, report) := e.report
  { exit, out, err := err ++ report, files }

/-- The outcome of a command that prints something. -/
def printed (files : Files) : Except Failure String → Outcome
  | .ok out => { out, files }
  | .error e => failed files "" "" e

/-- The outcome of a run. -/
def Console.outcome (files : Files) (c : Console) : Outcome :=
  match c.result with
  | .ok () => { out := c.out, err := c.err, files }
  | .error e => failed files c.out c.err e

/-- What carries out a command. -/
def execute (env : Environment) (files : Files) : Command → Outcome
  | .run o => match plan files env o with
    | .ok (plan, settings) => (runModule files plan settings).outcome files
    | .error e => failed files "" "" e
  | .inspect file code => printed files (inspect files file code)
  | .demo output => match demo files output with
    | .ok (out, files) => { out, files }
    | .error e => failed files "" "" e
  | .info => { out := info env, files }

/-- **The outcome of a command line.** -/
def run (args : List String) (env : Environment) (files : Files) : Outcome :=
  match parse args with
  | .command c => execute env files c
  | .version => { out := versionLine, files }
  | .help topic => { out := topic.text, files }
  | .usage => { exit := 2, err := usageError, files }

end EmbeddedVm.Cli
