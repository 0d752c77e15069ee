import EmbeddedVm.Events.Reactor
import EmbeddedVm.Events.Scheduler
import EmbeddedVm.Heap.Basic
import EmbeddedVm.Machine.Image

/-!
# One step of execution

The machine is a stack machine. The locals of every active function and, above them, its operands
lie on one stack, which is therefore the full set of roots together with the static fields. A frame
says where its function stands, where its locals begin and from where on its operands lie; popping
below that is an underflow. `step` carries out one instruction. What it cannot do by itself it
leaves to its caller as an `Effect`: pushing a new string, which may need a collection first, and
calling the host.

A background read is taken to start whenever it is submitted, so no fault says that its thread was
refused.
-/

namespace EmbeddedVm

/-! ## 1. State -/

/-- What outlives a call. Static fields are kept by class and field index. -/
structure Store where
  heap : Heap
  statics : Array (Array Value) := #[]
  scheduler : Scheduler Binary64
  reactor : Reactor := {}
deriving Inhabited

/-- An active function: its index, the index of its next instruction, and where its locals and its
    operands begin on the stack. -/
structure Frame where
  function : Nat
  ip : Nat := 0
  base : Nat
  floor : Nat
deriving DecidableEq, Repr, Inhabited

/-- The machine during a call, with the innermost function first. -/
structure Machine where
  store : Store
  stack : Array Value := #[]
  frames : List Frame := []
deriving Inhabited

/-- What does not change during a call. -/
structure Context (ν : Type) where
  image : Image ν
  maxDepth : Nat
deriving Inhabited

/-- What is left to do after an instruction, before the next: a string is to be allocated and
    pushed, the host is to carry out a function whose result is pushed, or the call is over. -/
inductive Effect (ν : Type) where
  | next
  | allocate (text : String)
  | invoke (handler : ν) (name : String) (args : List Scalar)
  | finish (result : Scalar)

/-- A part of an instruction: it changes the machine and may fail. The machine as it was when it
    failed is kept, because what was stored stays stored. -/
abbrev Exec := EStateM VmError Machine

namespace Machine

variable {ν : Type}

/-! ## 2. Frames and operands -/

/-- The names of the active functions, the innermost first. -/
def trace (ctx : Context ν) (m : Machine) : List String :=
  m.frames.map fun f => ((ctx.image.functions[f.function]?).map (·.name)).getD ""

def exception (ctx : Context ν) (m : Machine) (fault : Fault) : VmError :=
  .exception fault (m.trace ctx)

/-- Fails with a fault. -/
def raise {α : Type} (ctx : Context ν) (fault : Fault) : Exec α := fun m =>
  .error (m.exception ctx fault) m

/-- From where on operands may be popped. -/
def floor (m : Machine) : Nat :=
  match m.frames with
  | f :: _ => f.floor
  | [] => 0

/-- Where the locals of the innermost function begin. -/
def base (m : Machine) : Nat :=
  match m.frames with
  | f :: _ => f.base
  | [] => 0

def push (v : Value) : Exec Unit :=
  modify fun m => { m with stack := m.stack.push v }

def pop (ctx : Context ν) : Exec Value := do
  let m ← get
  if m.stack.size ≤ m.floor then raise ctx .stackUnderflow
  else match m.stack.back? with
    | some v =>
      modify fun m => { m with stack := m.stack.pop }
      pure v
    | none => raise ctx .stackUnderflow

/-- Pops an integer. -/
def popInt (ctx : Context ν) (op : Opcode) : Exec Int32 := do
  match ← pop ctx with
  | .int n => pure n
  | other => raise ctx (.typeError op "int" other.kind)

/-- Pops a number, an integer widened. -/
def popNumber (ctx : Context ν) (op : Opcode) : Exec Binary64 := do
  match ← pop ctx with
  | .int n => pure (.ofInt32 n)
  | .float x => pure x
  | other => raise ctx (.typeError op "number" other.kind)

/-- Pops the arguments of a host function, the last one first, and reads them. -/
def popArgs (ctx : Context ν) : (count : Nat) → (after : List Scalar) → Exec (List Scalar)
  | 0, args => pure args
  | count + 1, args => do
    let v ← pop ctx
    popArgs ctx count ((← get).store.heap.toScalar v :: args)

/-- Makes a function the innermost one: its parameters are the topmost operands, and the other
    locals start as null. -/
def enter (ctx : Context ν) (function : Nat) : Exec Unit := do
  let m ← get
  if ctx.maxDepth ≤ m.frames.length then raise ctx (.stackOverflow ctx.maxDepth)
  else match ctx.image.functions[function]? with
    | none => raise ctx (.danglingReference .function function)
    | some f =>
      if m.stack.size < m.floor + f.params then raise ctx .underflowInCall
      else
        modify fun m =>
          let base := m.stack.size - f.params
          let floor := base + f.locals
          -- a function that declares fewer locals than parameters loses the last of them
          let kept := m.stack.shrink floor
          { m with
            stack := kept ++ Array.replicate (floor - kept.size) .null
            frames := { function, base, floor } :: m.frames }

/-! ## 3. Values -/

def display (m : Machine) (v : Value) : String :=
  match v with
  | .string r => m.store.heap.textOf r
  | v => (m.store.heap.toScalar v).display

/-- Equality of values: strings by their text, an integer and a float as numbers. -/
def equal (m : Machine) : Value → Value → Bool
  | .null, .null => true
  | .bool a, .bool b => a == b
  | .int a, .int b => a == b
  | .float a, .float b => a.eqv b
  | .int a, .float b => (Binary64.ofInt32 a).eqv b
  | .float a, .int b => a.eqv (Binary64.ofInt32 b)
  | .string a, .string b => m.store.heap.get? a == m.store.heap.get? b
  | _, _ => false

/-- A comparison of integers. -/
def compareInts : Comparison → Int32 → Int32 → Bool
  | .lt, a, b => decide (a < b)
  | .le, a, b => decide (a ≤ b)
  | .gt, a, b => decide (b < a)
  | .ge, a, b => decide (b ≤ a)

/-- A comparison of floats; none holds of a NaN. -/
def compareFloats : Comparison → Binary64 → Binary64 → Bool
  | .lt, a, b => a.lt b
  | .le, a, b => a.le b
  | .gt, a, b => b.lt a
  | .ge, a, b => b.le a

/-- A comparison of texts, character by character. -/
def compareTexts : Comparison → String → String → Bool
  | .lt, a, b => decide (a < b)
  | .le, a, b => !decide (b < a)
  | .gt, a, b => decide (b < a)
  | .ge, a, b => !decide (a < b)

/-- A comparison of values: numbers with numbers, strings with strings. -/
def compare (ctx : Context ν) (op : Comparison) (a b : Value) : Exec Bool := do
  match a, b with
  | .int x, .int y => pure (compareInts op x y)
  | .int x, .float y => pure (compareFloats op (.ofInt32 x) y)
  | .float x, .int y => pure (compareFloats op x (.ofInt32 y))
  | .float x, .float y => pure (compareFloats op x y)
  | .string x, .string y =>
    let heap := (← get).store.heap
    pure (compareTexts op (heap.textOf x) (heap.textOf y))
  | _, _ => raise ctx (.typeError (.simple (.compare op)) "numbers or strings" b.kind)

/-- The truth of a value: null counts as false, and no other kind but booleans has one. -/
def truth (ctx : Context ν) (op : Opcode) : Value → Exec Bool
  | .bool b => pure b
  | .null => pure false
  | other => raise ctx (.typeError op "bool" other.kind)

/-- Arithmetic on integers wraps; division truncates, and none divides by zero. -/
def intResult? : IntOp → Int32 → Int32 → Option Int32
  | .add, a, b => some (a + b)
  | .sub, a, b => some (a - b)
  | .mul, a, b => some (a * b)
  | .div, a, b => if b = 0 then none else some (a / b)
  | .mod, a, b => if b = 0 then none else some (a % b)

/-- Arithmetic on floats. -/
def floatResult : FloatOp → Binary64 → Binary64 → Binary64
  | .add, a, b => a + b
  | .sub, a, b => a - b
  | .mul, a, b => a * b
  | .div, a, b => a / b

/-! ## 4. Instructions -/

/-- Ends the innermost function with a value, which becomes an operand of its caller. -/
def leave (v : Value) : Exec (Effect ν) := do
  let m ← get
  match m.frames with
  | [] => return .finish (m.store.heap.toScalar v)
  | f :: rest =>
    set { m with stack := m.stack.shrink f.base, frames := rest }
    if rest.isEmpty then
      return .finish (m.store.heap.toScalar v)
    else
      push v
      return .next

/-- An operation without operands. -/
def simple (ctx : Context ν) (op : SimpleOp) : Exec (Effect ν) := do
  match op with
  | .nop => return .next
  | .pop =>
    let _ ← pop ctx
    return .next
  | .dup =>
    let v ← pop ctx
    push v
    push v
    return .next
  | .pushNull =>
    push .null
    return .next
  | .pushBool b =>
    push (.bool b)
    return .next
  | .int o =>
    let b ← popInt ctx (.simple op)
    let a ← popInt ctx (.simple op)
    match intResult? o a b with
    | some n =>
      push (.int n)
      return .next
    | none => raise ctx .divisionByZero
  | .intNeg =>
    let a ← popInt ctx (.simple op)
    push (.int (-a))
    return .next
  | .float o =>
    let b ← popNumber ctx (.simple op)
    let a ← popNumber ctx (.simple op)
    push (.float (floatResult o a b))
    return .next
  | .floatNeg =>
    let a ← popNumber ctx (.simple op)
    push (.float (-a))
    return .next
  | .toFloat =>
    let a ← popNumber ctx (.simple op)
    push (.float a)
    return .next
  | .toInt =>
    match ← pop ctx with
    | .int n =>
      push (.int n)
      return .next
    | .float x =>
      push (.int x.toInt32)
      return .next
    | other => raise ctx (.typeError (.simple op) "number" other.kind)
  | .eq =>
    let b ← pop ctx
    let a ← pop ctx
    push (.bool ((← get).equal a b))
    return .next
  | .ne =>
    let b ← pop ctx
    let a ← pop ctx
    push (.bool (!(← get).equal a b))
    return .next
  | .compare o =>
    let b ← pop ctx
    let a ← pop ctx
    let result ← compare ctx o a b
    push (.bool result)
    return .next
  | .not =>
    let v ← pop ctx
    let b ← truth ctx (.simple op) v
    push (.bool !b)
    return .next
  | .concat =>
    let b ← pop ctx
    let a ← pop ctx
    -- the operands are off the stack: a collection before the allocation may free them
    let m ← get
    return .allocate (m.display a ++ m.display b)
  | .ret =>
    let v ← pop ctx
    leave v
  | .retVoid => leave .null
  | .throw =>
    let v ← pop ctx
    raise ctx (.thrown ((← get).display v))
  | .timerCancel =>
    let id ← popInt ctx (.simple op)
    if 0 < id then
      let m ← get
      let (scheduler, found) := m.store.scheduler.cancel id.toUInt32
      set { m with store := { m.store with scheduler } }
      push (.bool found)
      return .next
    else
      push (.bool false)
      return .next

/-- Hands a function to the scheduler or to the reader of files. -/
def callback (ctx : Context ν) (kind : Callback) (function : Nat) : Exec (Effect ν) := do
  match ctx.image.functions[function]? with
  | none => raise ctx (.danglingReference .function function)
  | some f =>
    let addTimer (repeats : Bool) : Exec (Effect ν) := do
      let delay ← popNumber ctx (.callback kind)
      let m ← get
      let (scheduler, id) := m.store.scheduler.addTimer f.name delay repeats
      set { m with store := { m.store with scheduler } }
      push (.int id.toInt32)
      return .next
    match kind with
    | .timerOnce => addTimer false
    | .timerEvery => addTimer true
    | .mainLoop =>
      modify fun m =>
        { m with store := { m.store with scheduler := m.store.scheduler.addMainLoop f.name } }
      return .next
    | .asyncRead =>
      match ← pop ctx with
      | .string r =>
        modify fun m =>
          let path := m.store.heap.textOf r
          { m with store := { m.store with reactor := m.store.reactor.submit path f.name } }
        return .next
      | other => raise ctx (.typeError (.callback kind) "string" other.kind)

/-- Moves the innermost function to another instruction. -/
def goto (ip : Nat) : Exec Unit :=
  modify fun m => match m.frames with
    | [] => m
    | f :: rest => { m with frames := { f with ip } :: rest }

def taken (ctx : Context ν) (kind : Jump) : Exec Bool := do
  match kind with
  | .always => pure true
  | .ifFalse =>
    let v ← pop ctx
    return !(← truth ctx (.jump kind) v)
  | .ifTrue =>
    let v ← pop ctx
    truth ctx (.jump kind) v

/-- Carries out an instruction whose frame already points behind it. -/
def execute (ctx : Context ν) (s : Step) : Exec (Effect ν) := do
  match s.instruction with
  | .simple op => simple ctx op
  | .pushInt n =>
    push (.int n)
    return .next
  | .pushFloat x =>
    push (.float x)
    return .next
  | .pushString index =>
    match ctx.image.module.strings[index.toNat]? with
    | some text => return .allocate text
    | none => raise ctx (.danglingReference .string index.toNat)
  | .loadLocal slot =>
    let m ← get
    match m.stack[m.base + slot.toNat]? with
    | some v =>
      push v
      return .next
    | none => raise ctx (.danglingReference .local slot.toNat)
  | .storeLocal slot =>
    let v ← pop ctx
    let m ← get
    let i := m.base + slot.toNat
    if i < m.stack.size then
      set { m with stack := m.stack.setIfInBounds i v }
      return .next
    else raise ctx (.danglingReference .local slot.toNat)
  | .loadStatic cls field =>
    match (← get).store.statics[cls.toNat]?.bind (·[field.toNat]?) with
    | some v =>
      push v
      return .next
    | none => raise ctx (.danglingReference .static field.toNat)
  | .storeStatic cls field =>
    let v ← pop ctx
    match ctx.image.static? cls.toNat field.toNat with
    | none => raise ctx (.danglingReference .static field.toNat)
    | some (c, f) =>
      match f.kind? with
      | some k =>
        if v.fits (some k) then store cls.toNat field.toNat v
        else raise ctx (.kindMismatch v.kind c.name f.name k)
      | none => store cls.toNat field.toNat v
  | .jump kind _ =>
    if ← taken ctx kind then goto s.target
    return .next
  | .call function =>
    enter ctx function.toNat
    return .next
  | .callNative native argc =>
    let args ← popArgs ctx argc.toNat []
    match ctx.image.imports.get? native.toNat with
    | some (name, handler) => return .invoke handler name args
    | none => raise ctx (.unboundNative native.toNat)
  | .callback kind function => callback ctx kind function.toNat
where
  /-- Writes a static field that exists. -/
  store (cls field : Nat) (v : Value) : Exec (Effect ν) := do
    let m ← get
    if (m.store.statics[cls]?.bind (·[field]?)).isSome then
      set { m with store := { m.store with
        statics := m.store.statics.modify cls (·.setIfInBounds field v) } }
      return .next
    else raise ctx (.danglingReference .static field)

/-- **One instruction** of the innermost function. -/
def step (ctx : Context ν) : Exec (Effect ν) := do
  let m ← get
  match m.frames with
  | [] => return .finish .null
  | f :: rest =>
    match ctx.image.functions[f.function]?.bind (·.code[f.ip]?) with
    | none => raise ctx .fellOffEnd
    | some s =>
      set { m with frames := { f with ip := f.ip + 1 } :: rest }
      execute ctx s

end Machine

end EmbeddedVm
