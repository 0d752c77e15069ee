import EmbeddedVm.Threads.Program

/-!
# One way to run threads

Of all the ways in which threads can take turns, `Executor.run` follows one: a thread goes on until
it has to wait, then the first that can move does, and only when none can does the clock advance, to
the earliest deadline. A run ends when the main thread has nothing left to do, or when no thread
will ever move again.
-/

namespace EmbeddedVm

/-- A thread with the program it is in, none between two pieces of work, and the work that waits. -/
structure Activity (κ S : Type) where
  id : ThreadId
  current : Option (Program κ S) := none
  queue : List κ := []

/-- Threads that run on a state, the one that moved last first. The clock is in nanoseconds. -/
structure Executor (κ S : Type) where
  clock : Nat := 0
  threads : List (Activity κ S) := []
  state : S

namespace Executor

variable {κ S : Type}

/-- Adds work for a thread, which is new if it is not among the threads. -/
def deliver (threads : List (Activity κ S)) (id : ThreadId) (work : κ) : List (Activity κ S) :=
  if threads.any (·.id == id) then
    threads.map fun t => if t.id == id then { t with queue := t.queue ++ [work] } else t
  else threads ++ [{ id, queue := [work] }]

/-- What a move leaves behind: the thread, the state and the work it posted. -/
structure Move (κ S : Type) where
  thread : Activity κ S
  state : S
  posted : Option (ThreadId × κ) := none

/-- One move of a thread, if it can make one. -/
def move? (body : ThreadId → κ → Program κ S) (clock : Nat) (s : S) (t : Activity κ S) :
    Option (Move κ S) :=
  match t.current with
  | none => match t.queue with
    | [] => none
    | work :: queue => some { thread := { t with current := some (body t.id work), queue }, state := s }
  | some .halt => some { thread := { t with current := none }, state := s }
  | some (.clock next) => some { thread := { t with current := some (next clock) }, state := s }
  | some (.post id work next) =>
    some { thread := { t with current := some next }, state := s, posted := some (id, work) }
  | some (.region enter) | some (.regionUntil _ enter _) =>
    (enter s).map fun (s, next) => { thread := { t with current := some next }, state := s }

/-- The deadline of the wait a thread is in. -/
def deadline? (t : Activity κ S) : Option Nat :=
  match t.current with
  | some (.regionUntil deadline _ _) => some deadline
  | _ => none

/-- The thread after its wait is over. -/
def expire (s : S) (t : Activity κ S) : Activity κ S × S :=
  match t.current with
  | some (.regionUntil _ _ late) =>
    let (s, next) := late s
    ({ t with current := some next }, s)
  | _ => (t, s)

/-- The first thread that can move, moved, and the others. -/
def moveFirst? (body : ThreadId → κ → Program κ S) (clock : Nat) (s : S) :
    List (Activity κ S) → Option (Move κ S × List (Activity κ S))
  | [] => none
  | t :: rest => match move? body clock s t with
    | some m => some (m, rest)
    | none => (moveFirst? body clock s rest).map fun (m, rest) => (m, t :: rest)

/-- The earliest deadline of all waits. -/
def earliest? (threads : List (Activity κ S)) : Option Nat := (threads.filterMap deadline?).min?

/-- Ends the first wait with a deadline, given that deadline. -/
def expireFirst (deadline : Nat) (s : S) : List (Activity κ S) → List (Activity κ S) × S
  | [] => ([], s)
  | t :: rest =>
    if deadline? t = some deadline then
      let (t, s) := expire s t
      (t :: rest, s)
    else
      let (rest, s) := expireFirst deadline s rest
      (t :: rest, s)

/-- One step of the whole: a move of a thread or, if none can move, of the clock. -/
def step? (body : ThreadId → κ → Program κ S) (e : Executor κ S) : Option (Executor κ S) :=
  match moveFirst? body e.clock e.state e.threads with
  | some (m, rest) =>
    let threads := m.thread :: rest
    some { e with
      state := m.state
      threads := match m.posted with
        | some (id, work) => deliver threads id work
        | none => threads }
  | none => (earliest? e.threads).map fun deadline =>
    let (threads, state) := expireFirst deadline e.state e.threads
    { clock := max e.clock deadline, threads, state }

/-- Whether a thread has nothing left to do. -/
def isDone (e : Executor κ S) (id : ThreadId) : Bool :=
  e.threads.all fun t => t.id != id || (t.current.isNone && t.queue.isEmpty)

/-- Runs until the main thread is done. -/
def run (body : ThreadId → κ → Program κ S) : (fuel : Nat) → Executor κ S → Executor κ S
  | 0, e => e
  | fuel + 1, e =>
    if e.isDone .main then e
    else match e.step? body with
      | some e => run body fuel e
      | none => e

/-- More steps than any run that ends in practice takes. -/
def stepLimit : Nat := Nat.pow 2 60

/-- **Runs a computation on the main thread**, and all threads it needs, and returns the state they
    leave. -/
def runMain (body : ThreadId → κ → Program κ S) (main : Task κ S Unit) (state : S) : S :=
  (run body stepLimit
    { threads := [{ id := .main, current := some main.toProgram }], state }).state

end Executor

end EmbeddedVm
