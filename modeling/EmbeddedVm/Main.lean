import EmbeddedVm.Cli.Dispatch
import Std.Time.DateTime.Timestamp

/-!
# The program

The command line is decided elsewhere, over files and an environment that are values. Here they come
from the operating system, what is printed goes there, and a run takes the time it says: before each
move of its threads the clock is set, and where no thread can move the program sleeps.
-/

namespace EmbeddedVm.Main

open Cli

/-! ## 1. The outside world -/

/-- The wall clock, in nanoseconds. -/
def wallClock : IO Nat :=
  return (← Std.Time.Timestamp.now).toNanosecondsSinceUnixEpoch.val.toNat

/-- The variables that matter, as far as they are set. -/
def readEnvironment : IO Environment :=
  (shownVariables ++ ["RUST_LOG"]).filterMapM fun name =>
    return (← IO.getEnv name).map fun value => (name, value)

/-- What stands at a path, if anything can be read there: error 21 tells of a directory. -/
def readNode (path : String) (now : Nat) : IO (Option FileNode) := do
  match ← (IO.FS.readBinFile path).toBaseIO with
  | .ok contents => return some (.file contents.toList now)
  | .error e => return match e with
    | .inappropriateType _ code _ => if code = 21 then some .directory else none
    | _ => none

/-- The files with a path and the directories above it as they are now. Contents that are the same
    as before leave the time of change alone. -/
def refresh (files : Files) (path : String) : IO Files := do
  let now ← wallClock
  let parts := Files.parts path
  let start := if path.startsWith "/" then "/" else ""
  let mut files := files
  for n in List.range parts.length do
    let here := parts.take (n + 1)
    let there := start ++ "/".intercalate here
    files := match ← readNode there now with
      | none => files.remove there
      | some .directory => files.makeDirectory there
      | some (.file contents now) => match files.node? (Files.place here) with
        | some (.file before _) =>
          if before == contents then files else files.write there contents now
        | _ => files.write there contents now
  return files

/-- The files that a command line names. -/
def named : Request → List String
  | .command (.run o) => o.file :: o.config.toList
  | .command (.inspect file _) => [file]
  | .command (.demo output) => [output]
  | _ => []

/-! ## 2. Running in real time -/

/-- The threads of a run. -/
abbrev Running := Executor (Work Cli.Job) (World Cli.Job Answer Console)

/-- Prints what was said and forgets it. -/
def flush (e : Running) : IO Running := do
  let console := e.state.session
  if console.out.isEmpty && console.err.isEmpty then return e
  IO.print console.out
  IO.eprint console.err
  (← IO.getStdout).flush
  return { e with state := { e.state with session := { console with out := "", err := "" } } }

/-- The files that a move may read: those of running reads and, when a round begins, a watched
    module. -/
def needed (plan : Plan) (e : Running) : List String :=
  let reads := match e.state.inst.runtime with
    | .free (some vm) => vm.store.reactor.running.map (·.path)
    | _ => []
  let begins := e.threads.any fun t => t.current.isNone && !t.queue.isEmpty
  if plan.options.watch && begins then plan.options.file :: reads else reads

/-- Lets the threads move until the main thread is done. -/
partial def live (plan : Plan) (e : Running) : IO Console := do
  let e ← flush e
  if e.isDone .main then return e.state.session
  let files ← (needed plan e).foldlM refresh e.state.files
  let e := { e with clock := max e.clock (← wallClock), state := { e.state with files } }
  match e.step? (Instance.perform host (jobs plan)) with
  | none => return e.state.session
  | some next =>
    if e.clock < next.clock then
      IO.sleep (min ((next.clock - e.clock) / 1000000 + 1) 4000000000).toUInt32
    live plan next

/-- Runs a module from now on. -/
def runLive (files : Files) (plan : Plan) (settings : Settings) : IO Console := do
  live plan
    { clock := ← wallClock
      threads := [{ id := .main, current := some (drive plan).toProgram }]
      state := initialWorld files settings }

/-! ## 3. The command line -/

/-- What a command line leads to; a run has printed most of it by then. -/
def perform (args : List String) : IO Outcome := do
  let env ← readEnvironment
  let request := parse args
  let files ← (named request).foldlM refresh {}
  match request with
  | .command (.run o) => match plan files env o with
    | .ok (plan, settings) => return (← runLive files plan settings).outcome files
    | .error e => return failed files "" "" e
  | .command (.demo output) =>
    let outcome := run args env files
    if let .ok contents := outcome.files.read output then
      if outcome.exit = 0 then IO.FS.writeBinFile output ⟨contents.toArray⟩
    return outcome
  | _ => return run args env files

end EmbeddedVm.Main

open EmbeddedVm in
/-- The program. -/
def main (args : List String) : IO UInt32 := do
  let outcome ← Main.perform args
  IO.print outcome.out
  IO.eprint outcome.err
  return outcome.exit.toUInt32
