import EmbeddedVm.Config.Environment
import EmbeddedVm.Number.Nearest

/-!
# The command line

A command line names a command and gives it words and options. An option has a long name and perhaps
a letter; letters may stand together behind one dash; the value of an option stands behind it, as the
next argument or attached. Two dashes end the options. An argument that does not fit ends the
reading at once, and so does a request for help.
-/

namespace EmbeddedVm.Cli

/-! ## 1. Grammars -/

/-- What an option does to what is read so far; it may refuse. -/
inductive Effect (σ : Type) where
  | flag (set : σ → Option σ)
  | value (set : String → σ → Option σ)

/-- An option. -/
structure Switch (σ : Type) where
  long : String
  short : Option Char := none
  effect : Effect σ

/-- What may follow a command. `word` takes a word, unless it is one too many, and says whether only
    words may follow. -/
structure Grammar (σ : Type) where
  switches : List (Switch σ)
  word : String → σ → Option (σ × Bool)

/-- Why reading ends early. -/
inductive Stop where
  | usage
  | help
deriving DecidableEq, Repr, Inhabited

namespace Grammar

variable {σ : Type}

/-- What does not fit is a wrong use. -/
def fitting {α : Type} : Option α → Except Stop α
  | some a => .ok a
  | none => .error .usage

/-- Whether an argument is an option rather than a word. -/
def isOption (argument : String) : Bool := argument.startsWith "-" && argument != "-"

/-- Reads letters behind one dash. The last one may leave an option that needs the next argument. -/
def letters (g : Grammar σ) :
    List Char → σ → Except Stop (σ × Option (String → σ → Option σ))
  | [], s => .ok (s, none)
  | c :: rest, s =>
    if c = 'h' then .error .help
    else do
      match (← fitting (g.switches.find? (·.short == some c))).effect, rest with
      | .flag set, rest => letters g rest (← fitting (set s))
      | .value set, [] => .ok (s, some set)
      | .value set, '=' :: attached => .ok (← fitting (set (String.ofList attached) s), none)
      | .value set, attached => .ok (← fitting (set (String.ofList attached) s), none)

/-- Reads a long name, perhaps with a value attached. -/
def long (g : Grammar σ) (argument : String) (s : σ) :
    Except Stop (σ × Option (String → σ → Option σ)) := do
  let name := (argument.toList.drop 2).takeWhile (· != '=')
  let attached := (argument.toList.drop 2).dropWhile (· != '=')
  if name = "help".toList && attached.isEmpty then throw .help
  match (← fitting (g.switches.find? (·.long.toList == name))).effect, attached with
  | .flag set, [] => .ok (← fitting (set s), none)
  | .flag _, _ :: _ => .error .usage
  | .value set, [] => .ok (s, some set)
  | .value set, _ :: value => .ok (← fitting (set (String.ofList value) s), none)

/-- Reads arguments, given the option that waits for a value and whether only words may follow. -/
def read (g : Grammar σ) :
    List String → (waiting : Option (String → σ → Option σ)) → (words : Bool) → σ → Except Stop σ
  | [], none, _, s => .ok s
  | [], some _, _, _ => .error .usage
  | a :: rest, some set, words, s =>
    if isOption a then .error .usage else do read g rest none words (← fitting (set a s))
  | a :: rest, none, words, s =>
    if words || !isOption a then do
      let (s, onlyWords) ← fitting (g.word a s)
      read g rest none (words || onlyWords) s
    else if a = "--" then read g rest none true s
    else do
      let (s, waiting) ← if a.startsWith "--" then g.long a s else g.letters (a.toList.drop 1) s
      read g rest waiting false s

end Grammar

/-! ## 2. Commands -/

/-- What to run, and how. No frames means until nothing is ready; a frame is `delta` seconds long.
    The static fields named in `print` are printed afterwards. -/
structure RunOptions where
  file : String
  args : List String := []
  config : Option String := none
  threaded : Bool := false
  frames : Nat := 0
  delta : Binary64 := .ofRatio false 1 60
  hotReload : Bool := false
  watch : Bool := false
  print : List String := []
deriving Repr, Inhabited

inductive Command where
  | run (options : RunOptions)
  | inspect (file : String) (code : Bool)
  | demo (output : String)
  | info
deriving Repr, Inhabited

/-- What help is about. -/
inductive Topic where
  | all
  | run
  | inspect
  | demo
  | info
  | help
deriving DecidableEq, Repr, Inhabited

/-- The command with a name. -/
def Topic.ofName? : String → Option Topic
  | "run" => some run
  | "inspect" => some inspect
  | "demo" => some demo
  | "info" => some info
  | "help" => some help
  | _ => none

/-- What a command line asks for, if it can be understood. -/
inductive Request where
  | command (command : Command)
  | version
  | help (topic : Topic)
  | usage
deriving Repr, Inhabited

/-! ## 3. Grammars of the commands -/

/-- A path has at least one character. -/
def path? (s : String) : Option String := if s.isEmpty then none else some s

/-- The options of a run as they are read, each at most once except those that add up. -/
structure RunDraft where
  file : Option String := none
  args : List String := []
  config : Option String := none
  threaded : Bool := false
  frames : Option Nat := none
  delta : Option Binary64 := none
  hotReload : Bool := false
  watch : Bool := false
  print : List String := []

/-- The options of a run, if the file is there. -/
def RunDraft.finish (d : RunDraft) : Option RunOptions := do
  let defaults : RunOptions := { file := ← d.file }
  return { defaults with
    args := d.args, config := d.config, threaded := d.threaded
    frames := d.frames.getD defaults.frames, delta := d.delta.getD defaults.delta
    hotReload := d.hotReload, watch := d.watch, print := d.print }

/-- What may follow `run`. From the first argument of the program on, all is for the program. -/
def runGrammar : Grammar RunDraft where
  switches :=
    [{ long := "config", short := some 'c', effect := .value fun v d =>
        if d.config.isSome then none else (path? v).map fun v => { d with config := some v } },
     { long := "threaded", short := some 't', effect := .flag fun d =>
        if d.threaded then none else some { d with threaded := true } },
     { long := "frames", short := some 'f', effect := .value fun v d =>
        if d.frames.isSome then none
        else (Settings.plainNumber64? v).map fun v => { d with frames := some v } },
     { long := "dt", effect := .value fun v d =>
        if d.delta.isSome then none
        else (Binary64.parse? v).map fun v => { d with delta := some v } },
     { long := "hot-reload", effect := .flag fun d =>
        if d.hotReload then none else some { d with hotReload := true } },
     { long := "watch", short := some 'w', effect := .flag fun d =>
        if d.watch then none else some { d with watch := true } },
     { long := "print", short := some 'p', effect := .value fun v d =>
        some { d with print := d.print ++ [v] } }]
  word w d := match d.file with
    | none => (path? w).map fun w => ({ d with file := some w }, false)
    | some _ => some ({ d with args := d.args ++ [w] }, true)

/-- A path, and nothing after it. -/
def onePath {σ : Type} (get : σ → Option String) (set : String → σ → σ) (w : String) (s : σ) :
    Option (σ × Bool) :=
  match get s with
  | none => (path? w).map fun w => (set w s, false)
  | some _ => none

/-- What may follow `inspect`: a file, and whether code is shown. -/
def inspectGrammar : Grammar (Option String × Bool) where
  switches :=
    [{ long := "code", short := some 'c', effect := .flag fun (file, code) =>
        if code then none else some (file, true) }]
  word := onePath Prod.fst fun w s => (some w, s.2)

/-- What may follow `demo`: a file. -/
def demoGrammar : Grammar (Option String) where
  switches := []
  word := onePath id fun w _ => some w

/-- What may follow `info`: nothing. -/
def infoGrammar : Grammar Unit where
  switches := []
  word _ _ := none

/-! ## 4. Reading -/

/-- Reads what follows a command. -/
def readCommand {σ : Type} (topic : Topic) (g : Grammar σ) (start : σ)
    (finish : σ → Option Command) (args : List String) : Request :=
  match g.read args none false start with
  | .ok s => match finish s with
    | some c => .command c
    | none => .usage
  | .error .help => .help topic
  | .error .usage => .usage

/-- Reads a command line. -/
def parse : List String → Request
  | [] => .usage
  | ["help"] => .help .all
  | ["help", name] => match Topic.ofName? name with
    | some topic => .help topic
    | none => .usage
  | "run" :: rest => readCommand .run runGrammar {} (fun d => d.finish.map .run) rest
  | "inspect" :: rest =>
    readCommand .inspect inspectGrammar (none, false)
      (fun (file, code) => file.map fun file => .inspect file code) rest
  | "demo" :: rest =>
    readCommand .demo demoGrammar none (fun output => some (.demo (output.getD "demo.vbc"))) rest
  | "info" :: rest => readCommand .info infoGrammar () (fun _ => some .info) rest
  | option :: _ =>
    if option = "--help" || option.startsWith "-h" then .help .all
    else if option = "--version" || option.startsWith "-V" then .version
    else .usage

end EmbeddedVm.Cli
