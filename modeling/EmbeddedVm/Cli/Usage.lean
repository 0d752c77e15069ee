import EmbeddedVm.Cli.Arguments

/-!
# Help

What the command line says about itself.
-/

namespace EmbeddedVm.Cli

/-- Lines of text. -/
def unlines (lines : List String) : String := String.join (lines.map (· ++ "\n"))

/-- The version, as it is printed. -/
def versionLine : String := "vessel 0.2.0\n"

/-- The help on a topic. -/
def Topic.text : Topic → String
  | all => unlines [
    "Run and inspect Vessel bytecode", "",
    "Usage: vessel <COMMAND>", "",
    "Commands:",
    "  run      Run a bytecode file",
    "  inspect  Show the contents of a bytecode file",
    "  demo     Write a small demo module",
    "  info     Display version and environment info",
    "  help     Print this message or the help of the given subcommand(s)", "",
    "Options:",
    "  -h, --help     Print help",
    "  -V, --version  Print version"]
  | run => unlines [
    "Run a bytecode file", "",
    "Usage: vessel run [OPTIONS] <FILE> [ARGS]...", "",
    "Arguments:",
    "  <FILE>     Bytecode file (.vbc)",
    "  [ARGS]...  Arguments passed to the program", "",
    "Options:",
    "  -c, --config <CONFIG>      Runtime configuration (TOML)",
    "  -t, --threaded             Run on a dedicated VM thread",
    "  -f, --frames <FRAMES>      Number of frames to run (0 = until no work is pending) [default: 0]",
    "      --dt <DT>              Seconds per frame [default: 0.016666666666666666]",
    "      --hot-reload           Enable hot reload",
    "  -w, --watch                Reload the file when it changes on disk (implies --hot-reload)",
    "  -p, --print <CLASS.FIELD>  Print a static field after the run, as Class.field",
    "  -h, --help                 Print help"]
  | inspect => unlines [
    "Show the contents of a bytecode file", "",
    "Usage: vessel inspect [OPTIONS] <FILE>", "",
    "Arguments:",
    "  <FILE>  Bytecode file (.vbc)", "",
    "Options:",
    "  -c, --code  Disassemble function bodies",
    "  -h, --help  Print help"]
  | demo => unlines [
    "Write a small demo module", "",
    "Usage: vessel demo [OUTPUT]", "",
    "Arguments:",
    "  [OUTPUT]  Output file [default: demo.vbc]", "",
    "Options:",
    "  -h, --help  Print help"]
  | info => unlines [
    "Display version and environment info", "",
    "Usage: vessel info", "",
    "Options:",
    "  -h, --help  Print help"]
  | help => unlines [
    "Print this message or the help of the given subcommand(s)", "",
    "Usage: vessel help [COMMAND]...", "",
    "Arguments:",
    "  [COMMAND]...  Print help for the subcommand(s)"]

/-- What is said of a command line that cannot be understood. -/
def usageError : String := unlines [
  "error: the arguments do not fit", "",
  "Usage: vessel <COMMAND>", "",
  "For more information, try '--help'."]

end EmbeddedVm.Cli
