import EmbeddedVm.Config.Environment
import EmbeddedVm.Module.Load
import EmbeddedVm.Instance.Error

/-!
# How commands end

A command that fails tells what went wrong and, below that, why. The causes are indented; they are
numbered if there are several.
-/

namespace EmbeddedVm.Cli

/-- Why a command failed: something went wrong, because of something else, and so on, or the program
    broke off. -/
inductive Failure where
  | error (message : String) (causes : List String)
  | panic (message : String)
deriving DecidableEq, Repr, Inhabited

/-- How a command ended, with the files afterwards. -/
structure Outcome where
  exit : UInt8 := 0
  out : String := ""
  err : String := ""
  files : Files := {}
deriving Repr, Inhabited

/-! ## 1. Chains of causes -/

/-- A refusal of a module file and the causes behind it. -/
def loadChain (e : LoadError) : List String :=
  e.message :: match e with
    | .module (.decode cause) | .verify (.decode _ cause) => [cause.message]
    | _ => []

/-- A refusal of settings and the causes behind it. -/
def configChain (e : ConfigError) : List String :=
  e.message :: match e with
    | .io _ cause => [cause.message]
    | _ => []

def Failure.ofInstance (e : InstanceError) : Failure := .error e.message []

/-- The failure that a chain tells of. -/
def Failure.ofChain : List String → Failure
  | [] => .error "" []
  | message :: causes => .error message causes

/-! ## 2. In print -/

/-- The lines of a text, without an empty one behind the last line break. -/
def lines (s : String) : List String :=
  let pieces := s.splitOn "\n"
  if pieces.getLast? = some "" then pieces.dropLast else pieces

/-- A cause, its first line behind its number and the others below. -/
def indented (number : Option Nat) (cause : String) : String :=
  let (first, others) := match number with
    | some n =>
      let digits := toString n
      (String.ofList (List.replicate (5 - digits.length) ' ') ++ digits ++ ": ", "       ")
    | none => ("    ", "    ")
  match lines cause with
  | [] => ""
  | line :: rest => first ++ line ++ String.join (rest.map fun line => "\n" ++ others ++ line)

/-- The causes, one below the other. -/
def causeList : List String → String
  | [] => ""
  | [cause] => "\n\nCaused by:\n" ++ indented none cause
  | causes =>
    "\n\nCaused by:" ++
      String.join (causes.zipIdx.map fun (cause, n) => "\n" ++ indented (some n) cause)

/-- The exit status of a failure, and what is said of it. -/
def Failure.report : Failure → UInt8 × String
  | error message causes => (1, "Error: " ++ message ++ causeList causes ++ "\n")
  | panic message => (101, "thread 'main' panicked:\n" ++ message ++ "\n")

end EmbeddedVm.Cli
