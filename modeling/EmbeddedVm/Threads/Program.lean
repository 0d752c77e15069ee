/-!
# Programs of threads

Threads share one state. A thread is a program of atomic steps on it: each step is what one
critical region does to the state, and between two steps of a thread any other may move. A step can
wait until the state admits it, with or without a point of time after which it gives up waiting.
Work for threads is posted by labels of a type `κ`; what a label stands for is decided where
programs are run, so a thread that serves for ever posts its own next round.

`Program` is what is run. `Task` is how programs are written: a computation with a result, in
sequence by `do`.
-/

namespace EmbeddedVm

/-- A thread: one of the host's, the one a machine made for itself at its `number`-th start, or the
    one that reads files. -/
inductive ThreadId where
  | host (number : Nat)
  | own (number : Nat)
  | background
deriving DecidableEq, Repr, Inhabited

/-- The host's first thread. -/
def ThreadId.main : ThreadId := host 0

/-- What a thread does with a state of type `S`, posting labels of type `κ`. `clock` reads the
    clock, in nanoseconds; `post` gives a thread work to do after all it has already. A `region` is
    critical, and is entered once `enter` admits the state; with a deadline the wait may end with
    the region `late` instead. -/
inductive Program (κ S : Type) where
  | halt
  | clock (next : Nat → Program κ S)
  | post (thread : ThreadId) (work : κ) (next : Program κ S)
  | region (enter : S → Option (S × Program κ S))
  | regionUntil (deadline : Nat) (enter : S → Option (S × Program κ S)) (late : S → S × Program κ S)

/-- A computation of a thread with a result of type `α`: what the thread does, given what it does
    with the result. -/
def Task (κ S α : Type) : Type := (α → Program κ S) → Program κ S

namespace Task

variable {κ S α β : Type}

/-- A result at once. -/
def pure (a : α) : Task κ S α := fun k => k a

/-- One computation after another. -/
def bind (t : Task κ S α) (f : α → Task κ S β) : Task κ S β := fun k => t fun a => f a k

instance : Monad (Task κ S) where
  pure := Task.pure
  bind := Task.bind

/-- A critical region that is always admitted. -/
def atomically (f : S → α × S) : Task κ S α := fun k =>
  .region fun s =>
    let (a, s) := f s
    some (s, k a)

/-- Looks at the state. -/
def read (f : S → α) : Task κ S α := atomically fun s => (f s, s)

/-- Changes the state. -/
def change (f : S → S) : Task κ S Unit := atomically fun s => ((), f s)

/-- Waits for a state that `enter` admits. -/
def await (enter : S → Option (α × S)) : Task κ S α := fun k =>
  .region fun s => (enter s).map fun (a, s) => (s, k a)

/-- Waits for a state that `enter` admits, up to a deadline, if there is one. -/
def awaitUntil (deadline : Option Nat) (enter : S → Option (α × S)) (late : S → α × S) :
    Task κ S α :=
  match deadline with
  | none => await enter
  | some deadline => fun k =>
    .regionUntil deadline (fun s => (enter s).map fun (a, s) => (s, k a)) fun s =>
      let (a, s) := late s
      (s, k a)

/-- The clock, in nanoseconds. -/
def now : Task κ S Nat := .clock

/-- Gives a thread work. -/
def post (thread : ThreadId) (work : κ) : Task κ S Unit := fun k => .post thread work (k ())

/-- Does nothing for a span of nanoseconds. -/
def sleep (span : Nat) : Task κ S Unit := do
  let start ← now
  awaitUntil (some (start + span)) (fun _ => none) fun s => ((), s)

/-- Never ends. -/
def forever : Task κ S α := fun _ => .region fun _ => none

/-- The program of a computation whose result nobody needs. -/
def toProgram (t : Task κ S Unit) : Program κ S := t fun _ => .halt

end Task

end EmbeddedVm
