import EmbeddedVm.Cli.Arguments
import EmbeddedVm.Cli.Report
import EmbeddedVm.Instance.Engine
import EmbeddedVm.Instance.Reload
import EmbeddedVm.Number.Nearest
import EmbeddedVm.Number.Shortest
import EmbeddedVm.Threads.Executor

/-!
# Running a module

`run` plays the host: it creates the instance, loads the file, and drives the instance frame by frame
or lets the instance's own thread do that and only feeds it calls. With a number of frames, frames
follow each other at once; without, the run lasts until nothing is ready and a frame takes as long as
it says. In the end static fields are printed and the instance is destroyed.

The rounds of a run are pieces of work that the main thread gives itself.
-/

namespace EmbeddedVm.Cli

/-! ## 1. What a run consists of -/

/-- A static field to print. -/
structure Probe where
  cls : String
  field : String
deriving DecidableEq, Repr, Inhabited

/-- What a run does besides the instance, the labels of its host: the host functions that print and
    tell the time, a round of the run, and calls that ask whether anything is ready, replace the
    module if its file changed, and read the static fields to print. -/
inductive Job where
  | print
  | time
  | round (frame : Nat)
  | pending
  | reload
  | probes
deriving DecidableEq, Repr, Inhabited

/-- What a call yields. -/
inductive Answer where
  | pending (more : Bool)
  | reload (outcome : Except InstanceError Bool)
  | probes (outcome : Except InstanceError (List Scalar))
deriving Inhabited

/-- What a run has printed, and how it ended once it has. -/
structure Console where
  out : String := ""
  err : String := ""
  result : Except Failure Unit := .ok ()
deriving Inhabited

/-- What a thread of a run does. -/
abbrev Play (α : Type) := Act Job Answer Console α

/-- A part of a run that may fail. -/
abbrev Step (α : Type) := ExceptT Failure (Task (Work Job) (World Job Answer Console)) α

/-- A run with its options and the static fields to print. -/
structure Plan where
  options : RunOptions
  probes : List Probe

/-- The static field that is meant. -/
def Probe.parse (s : String) : Except Failure Probe :=
  let cls := s.toList.takeWhile (· != '.')
  let field := (s.toList.dropWhile (· != '.')).drop 1
  if cls.isEmpty || field.isEmpty then
    .error (.error ("expected CLASS.FIELD, got '" ++ s ++ "'") [])
  else .ok ⟨String.ofList cls, String.ofList field⟩

/-! ## 2. Printing and waiting -/

/-- Prints a line. -/
def say (line : String) : Play Unit := Task.change fun w =>
  { w with session := { w.session with out := w.session.out ++ (line ++ "\n") } }

/-- Prints a line about something that went wrong. -/
def complain (line : String) : Play Unit := Task.change fun w =>
  { w with session := { w.session with err := w.session.err ++ (line ++ "\n") } }

/-- A span of seconds in nanoseconds, unless it is too long. -/
def nanoseconds? (seconds : Binary64) : Option Nat :=
  let (m, q) := Decimal.parts seconds
  let ns := Binary64.roundRatio (m * Nat.pow 2 q.toNat * 1000000000) (Nat.pow 2 (-q).toNat)
  if ns < Nat.pow 2 64 * 1000000000 then some ns else none

/-- An operation of the instance as a part of a run. -/
def ask {α : Type} (op : Operation Job Answer Console α) : Step α :=
  .mk do return (← op.run).mapError Failure.ofInstance

/-- An act as a part of a run. -/
def act {α : Type} (a : Play α) : Step α := ExceptT.lift a

/-- The length of a frame. -/
def frameSpan (delta : Binary64) : Step Nat :=
  match nanoseconds? delta with
  | some ns => pure ns
  | none =>
    throw (.panic "cannot convert float seconds to Duration: value is either too big or NaN")

/-! ## 3. The host -/

/-- What the host functions do. -/
def native (_ : ThreadId) (label : Job) (args : List Scalar) : Play (Except String Scalar) := do
  match label with
  | .print =>
    say (" ".intercalate (args.map (·.display)))
    pure (.ok .null)
  | .time => return .ok (.float (.ofRatio false (← Task.now) 1000000000))
  | _ => pure (.ok .null)

def host : Host Job Answer Console where
  native := native

/-- The values of the static fields to print, up to the first that cannot be read. -/
def readProbes (me : ThreadId) : List Probe → Operation Job Answer Console (List Scalar)
  | [] => pure []
  | p :: rest => do
    let value ← Instance.getStatic me p.cls p.field
    return value :: (← readProbes me rest)

/-- A call on the instance's own thread. -/
def call (plan : Plan) (me : ThreadId) : Job → Play Answer
  | .reload => return .reload (← (Instance.checkReload host me).run)
  | .probes => return .probes (← (readProbes me plan.probes).run)
  | _ => return .pending (← Instance.hasPendingWork host me)

/-! ## 4. Rounds -/

/-- Says what a look at the file led to. -/
def reportReload : Except InstanceError Bool → Play Unit
  | .ok true => say "Reloaded."
  | .ok false => pure ()
  | .error e => complain ("Reload failed: " ++ e.message)

/-- One frame on the main thread; whether there was one. -/
def frameHere (plan : Plan) (frame : Nat) : Step Bool := do
  let o := plan.options
  let realtime := o.frames == 0
  let more ← if realtime then act (Instance.hasPendingWork host .main) else pure (frame < o.frames)
  if !more then return false
  if o.watch then act do reportReload (← (Instance.checkReload host .main).run)
  ask (Instance.update host .main o.delta)
  if realtime then
    let span ← frameSpan o.delta
    act (Task.sleep span)
  return true

/-- One frame of waiting while the instance's own thread runs; whether there was one. -/
def frameThere (plan : Plan) (frame : Nat) : Step Bool := do
  let o := plan.options
  let span ← frameSpan o.delta
  if o.frames == 0 then
    if let .pending false ← ask (Instance.callSync .main .pending) then return false
  else if o.frames ≤ frame then return false
  if o.watch then
    if let .reload outcome ← ask (Instance.callSync .main .reload) then act (reportReload outcome)
  act (Task.sleep span)
  return true

/-- The values to print; the instance's own thread ends. -/
def values (plan : Plan) : Step (List Scalar) := do
  if plan.options.threaded then
    let answer ← ask (Instance.callSync .main .probes)
    let values ← match answer with
      | .probes outcome => ask (.mk (pure outcome))
      | _ => pure []
    ask (Instance.stop .main)
    return values
  else ask (readProbes .main plan.probes)

/-- Prints the static fields. -/
def finish (plan : Plan) : Step Unit := do
  let values ← values plan
  act <| (plan.probes.zip values).forM fun (p, value) =>
    say (p.cls ++ "." ++ p.field ++ " = " ++ value.display)

/-- The end of a run: the instance is destroyed, unless the program broke off. -/
def settle (result : Except Failure Unit) : Play Unit := do
  let result ← match result with
    | .error (.panic message) => pure (.error (.panic message))
    | result => do
      match result, ← (Instance.destroy .main).run with
      | .ok (), .error e => pure (.error (.error "teardown failed" [e.message]))
      | result, _ => pure result
  Task.change fun w => { w with session := { w.session with result } }

/-- A round: a frame and the next round, or the end. -/
def round (plan : Plan) (frame : Nat) : Play Unit := do
  let step := if plan.options.threaded then frameThere plan frame else frameHere plan frame
  match ← step.run with
  | .ok true => Task.post .main (.host (.round (frame + 1)))
  | .ok false => settle (← (finish plan).run)
  | .error e => settle (.error e)

/-- What the labels of a run do besides running inside the machine. -/
def jobs (plan : Plan) : Calls Job Answer Console where
  call me job := return .ok (← call plan me job)
  complete _ _ _ := pure ()
  work _ job := match job with
    | .round frame => round plan frame
    | _ => pure ()

/-! ## 5. The run -/

/-- Brings the instance up to its first frame. -/
def launch (plan : Plan) : Step Unit := do
  let o := plan.options
  ask (Instance.init .main (o.file :: o.args))
  ask (Instance.registerNative .main "host.print" .print)
  ask (Instance.registerNative .main "host.time" .time)
  match ← act (Instance.loadFile .main o.file).run with
  | .ok () => pure ()
  | .error e => throw (.error ("failed to load '" ++ o.file ++ "'") [e.message])
  if o.threaded then
    ask (Instance.setMode .threaded)
    ask Instance.start
  else ask (Instance.callEntry host .main)

/-- All of a run after the instance is created. -/
def drive (plan : Plan) : Play Unit := do
  match ← (launch plan).run with
  | .ok () => Task.post .main (.host (.round 0))
  | .error e => settle (.error e)

/-- The settings of a run, from a file or from the environment alone. -/
def runSettings (files : Files) (env : Environment) (o : RunOptions) : Except Failure Settings := do
  let s ← match o.config with
    | some path =>
      (Settings.ofFile files path env).mapError fun e =>
        Failure.error ("failed to read config '" ++ path ++ "'") (configChain e)
    | none => (Settings.ofEnvironment env).mapError fun e => Failure.ofChain (configChain e)
  return if o.hotReload || o.watch then { s with hotReload := true } else s

def plan (files : Files) (env : Environment) (o : RunOptions) : Except Failure (Plan × Settings) := do
  if !o.delta.isFinite || o.delta.lt .zero then
    throw (.error "--dt must be a non-negative number of seconds" [])
  let probes ← o.print.mapM Probe.parse
  return ({ options := o, probes }, ← runSettings files env o)

/-- The state in which a run begins. -/
def initialWorld (files : Files) (settings : Settings) : World Job Answer Console :=
  { inst := .create settings, files, session := {} }

/-- **The command `run`.** -/
def runModule (files : Files) (plan : Plan) (settings : Settings) : Console :=
  (Executor.runMain (Instance.perform host (jobs plan)) (drive plan)
    (initialWorld files settings)).session

end EmbeddedVm.Cli
