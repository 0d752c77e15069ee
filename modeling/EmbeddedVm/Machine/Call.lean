import EmbeddedVm.Host.Run
import EmbeddedVm.Machine.Execution

/-!
# Running a function to its end

A call pushes its arguments, enters the function and takes steps until the outermost function
returns or an exception ends it. Strings are allocated here: if the heap asks for a collection, the
other threads are paused first, and if they do not stop in time the collection is skipped and the
heap grows.
-/

namespace EmbeddedVm

namespace Machine

variable {ν : Type}

/-! ## 1. Collection and allocation -/

/-- The handles a machine can still reach: those in static fields and on the stack. -/
def roots (m : Machine) : List Handle :=
  (m.store.statics.toList.flatMap fun fields => fields.toList.filterMap Value.handle?) ++
    m.stack.toList.filterMap Value.handle?

/-- Frees every string out of reach. -/
def collect (m : Machine) : Machine :=
  { m with store := { m.store with heap := (m.store.heap.collect m.roots).1 } }

/-- Allocates a string and pushes it. -/
def pushText (m : Machine) (text : String) : Machine :=
  let (heap, r) := m.store.heap.alloc text
  { m with store := { m.store with heap }, stack := m.stack.push (.string r) }

/-- Pushes the value of a scalar. A string may need a collection first. -/
def pushScalar (m : Machine) (v : Scalar) : Run ν Machine :=
  match v with
  | .string text =>
    if m.store.heap.shouldCollect then
      .pause fun
        | none => .done (m.collect.pushText text)
        | some _ => .done (m.pushText text)
    else .done (m.pushText text)
  | .null => .done { m with stack := m.stack.push .null }
  | .bool b => .done { m with stack := m.stack.push (.bool b) }
  | .int n => .done { m with stack := m.stack.push (.int n) }
  | .float x => .done { m with stack := m.stack.push (.float x) }

/-- Pushes the values of scalars, the first one first. -/
def pushScalars (m : Machine) : List Scalar → Run ν Machine
  | [] => .done m
  | v :: rest => (m.pushScalar v).bind fun m => m.pushScalars rest

/-! ## 2. Runs -/

/-- What a call ends with, and what it leaves behind. -/
structure Outcome where
  result : Except VmError Scalar
  store : Store

/-- Takes steps until the call is over. -/
def run (ctx : Context ν) : (fuel : Nat) → Machine → Run ν Outcome
  | 0, _ => .exhausted
  | fuel + 1, m =>
    match (step ctx).run m with
    | .error e m => .done ⟨.error e, m.store⟩
    | .ok .next m => run ctx fuel m
    | .ok (.allocate text) m =>
      -- without a pause the run goes on at once, and no continuation piles up
      match m.pushScalar (.string text) with
      | .done m => run ctx fuel m
      | paused => paused.bind (run ctx fuel)
    | .ok (.invoke handler name args) m =>
      .invoke handler args fun
        | .ok v => (m.pushScalar v).bind (run ctx fuel)
        | .error message => .done ⟨.error (m.exception ctx (.nativeFailed name message)), m.store⟩
    | .ok (.finish v) m => .done ⟨.ok v, m.store⟩

/-- More steps than any run that ends in practice takes. -/
def stepLimit : Nat := Nat.pow 2 60

/-- **Calls a function** by index. The number of arguments is checked before anything else; the
    arguments are on the stack before the function is entered. -/
def call (ctx : Context ν) (store : Store) (function : Nat) (args : List Scalar) : Run ν Outcome :=
  match ctx.image.functions[function]? with
  | none => .done ⟨.error (.functionNotFound s!"#{function}"), store⟩
  | some f =>
    if args.length = f.params then
      (pushScalars { store } args).bind fun m =>
        match (enter ctx function).run m with
        | .ok _ m => run ctx stepLimit m
        | .error e m => .done ⟨.error e, m.store⟩
    else .done ⟨.error (.arityMismatch f.name f.params args.length), store⟩

end Machine

end EmbeddedVm
