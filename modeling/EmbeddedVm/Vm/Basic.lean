import EmbeddedVm.Machine.Call
import EmbeddedVm.Text.Duration
import EmbeddedVm.Text.Quoted

/-!
# The virtual machine

A `Vm` owns the store, the linked module and the host's functions. Loading verifies and links; calls
by name run to their end; static fields are read and written by name. What changes the machine is an
`Update`: its checks and its changes take the machine one after the other, and where a check fails
the machine stays as the changes before it have left it.
-/

namespace EmbeddedVm

/-! ## 1. Options -/

/-- How loaded code is treated: modules may be replaced while running, or the loaded one is
    final. -/
inductive ExecutionMode where
  | jit
  | static
deriving DecidableEq, Repr, Inhabited

def ExecutionMode.name : ExecutionMode → String
  | jit => "Jit"
  | static => "Static"

/-- The options of a machine: how many bytes are allocated between collections, how many
    milliseconds a collection waits for the other threads, and how many functions may be active. -/
structure VmOptions where
  mode : ExecutionMode := .jit
  gcThreshold : Nat := 1048576
  pauseTimeout : Nat := 1000
  maxCallDepth : Nat := 1024
deriving DecidableEq, Repr, Inhabited

def VmOptions.describe (o : VmOptions) : String :=
  "VmOptions \x7b execution_mode: " ++ o.mode.name ++ ", gc_threshold: " ++ toString o.gcThreshold ++
    ", gc_pause_timeout: " ++ displayMilliseconds o.pauseTimeout ++ ", max_call_depth: " ++
    toString o.maxCallDepth ++ " \x7d"

/-! ## 2. State -/

/-- A virtual machine whose host functions are handlers of type `ν`. -/
structure Vm (ν : Type) where
  options : VmOptions
  natives : NativeTable ν := {}
  image : Option (Image ν) := none
  store : Store
deriving Inhabited

namespace Vm

variable {ν : Type}

/-- A machine without a module, made when the wall clock shows `wall`. -/
def create (options : VmOptions) (wall : Nat) : Vm ν :=
  { options, store := { heap := .empty options.gcThreshold, scheduler := .empty wall } }

def isLoaded (vm : Vm ν) : Bool := vm.image.isSome

/-- The loaded module. -/
def module? (vm : Vm ν) : Option Module := vm.image.map (·.module)

def describe (vm : Vm ν) : String :=
  let name := match vm.module? with
    | some m => "Some(" ++ Text.quoted m.name ++ ")"
    | none => "None"
  "Vm \x7b options: " ++ vm.options.describe ++ ", module: " ++ name ++ ", natives: " ++
    vm.natives.describe ++ " \x7d"

/-- Registers a host function. A loaded module that imports its name uses it from now on. -/
def registerNative (vm : Vm ν) (name : String) (handler : ν) : Vm ν :=
  { vm with
    image := vm.image.map fun i => { i with imports := i.imports.rebind name handler }
    natives := vm.natives.insert name handler }

/-! ## 3. Updates -/

/-- A change of the machine: a sequence of checks and changes, which may fail. The machine as it was
    when it failed is kept, because what was changed before stays changed. -/
abbrev Update (ν : Type) := EStateM VmError (Vm ν)

/-- What an update ends with, and the machine it leaves behind. -/
def attempt {α : Type} (vm : Vm ν) (u : Update ν α) : Except VmError α × Vm ν :=
  match u.run vm with
  | .ok a vm => (.ok a, vm)
  | .error e vm => (.error e, vm)

/-- Looks at the machine, and fails as the verdict does. -/
def check {α : Type} (verdict : Vm ν → Except VmError α) : Update ν α := do
  match verdict (← get) with
  | .ok a => pure a
  | .error e => throw e

/-- Builds something on the heap. -/
def build {α : Type} (f : Heap → Heap × α) : Update ν α :=
  modifyGet fun vm =>
    let (heap, a) := f vm.store.heap
    (a, { vm with store := { vm.store with heap } })

/-- Changes the static fields. -/
def modifyStatics (f : Array (Array Value) → Array (Array Value)) : Update ν Unit :=
  modify fun vm => { vm with store := { vm.store with statics := f vm.store.statics } }

/-! ## 4. Loading -/

/-- The values of the static fields of a class; strings are allocated. -/
def initialFields (heap : Heap) : List StaticField → Heap × List Value
  | [] => (heap, [])
  | f :: rest =>
    let (heap, v) := heap.ofScalar f.initial
    let (heap, values) := initialFields heap rest
    (heap, v :: values)

/-- The static fields of all classes. -/
def initialStatics (heap : Heap) : List Class → Heap × List (Array Value)
  | [] => (heap, [])
  | c :: rest =>
    let (heap, fields) := initialFields heap c.statics
    let (heap, classes) := initialStatics heap rest
    (heap, fields.toArray :: classes)

/-- Verifies and links a module. -/
def prepare (natives : NativeTable ν) (m : Module) : Except VmError (Image ν) := do
  m.verify.mapError fun e => .load (.verify e)
  (Image.link natives m).mapError .link

/-- **Loads a module** into a machine that has none. Its static fields take their initial values;
    no code runs. -/
def load (m : Module) : Update ν Unit := do
  check fun vm => if vm.isLoaded then .error .alreadyLoaded else .ok ()
  let image ← check fun vm => prepare vm.natives m
  -- from here on nothing fails
  let statics ← build (initialStatics · m.classes)
  modifyStatics fun _ => statics.toArray
  modify ({ · with image := some image })

/-- The loaded module, ready to run. -/
def loaded (vm : Vm ν) : Except VmError (Image ν) :=
  match vm.image with
  | some image => .ok image
  | none => .error .notLoaded

/-! ## 5. Calls -/

/-- Calls a function of the loaded module by index. -/
def callIndex (vm : Vm ν) (image : Image ν) (function : Nat) (args : List Scalar) :
    Run ν (Except VmError Scalar × Vm ν) :=
  (Machine.call ⟨image, vm.options.maxCallDepth⟩ vm.store function args).bind fun o =>
    .done (o.result, { vm with store := o.store })

/-- Calls the function that `find` picks, or fails as `find` does. -/
def callWith (vm : Vm ν) (find : Image ν → Except VmError Nat) (args : List Scalar) :
    Run ν (Except VmError Scalar × Vm ν) :=
  match vm.loaded with
  | .error e => .done (.error e, vm)
  | .ok image =>
    match find image with
    | .error e => .done (.error e, vm)
    | .ok function => vm.callIndex image function args

/-- Calls the function to start with. -/
def callEntry (vm : Vm ν) : Run ν (Except VmError Scalar × Vm ν) :=
  vm.callWith (fun image => .ok image.module.entry.toNat) []

/-- The index of a function. -/
def findFunction (name : String) (image : Image ν) : Except VmError Nat :=
  match image.functionIndex? name with
  | some i => .ok i
  | none => .error (.functionNotFound name)

/-- The index of the function behind a static method. -/
def findMethod (cls method : String) (image : Image ν) : Except VmError Nat :=
  match image.class? cls with
  | none => .error (.classNotFound cls)
  | some (_, c) =>
    match c.method? method with
    | some f => .ok f.toNat
    | none => .error (.methodNotFound cls method)

def callFunction (vm : Vm ν) (name : String) (args : List Scalar) :
    Run ν (Except VmError Scalar × Vm ν) :=
  vm.callWith (findFunction name) args

def callStatic (vm : Vm ν) (cls method : String) (args : List Scalar) :
    Run ν (Except VmError Scalar × Vm ν) :=
  vm.callWith (findMethod cls method) args

/-! ## 6. Static fields -/

/-- A static field by name: its indices and its declaration. -/
def staticSlot (vm : Vm ν) (cls field : String) : Except VmError (Nat × Nat × StaticField) := do
  let image ← vm.loaded
  match image.class? cls with
  | none => .error (.classNotFound cls)
  | some (ci, c) =>
    match c.staticIndex? field with
    | none => .error (.fieldNotFound cls field)
    | some fi =>
      match c.statics[fi]? with
      | none => .error (.fieldNotFound cls field)
      | some f => .ok (ci, fi, f)

/-- The value in a slot; null where there is none. -/
def slotValue (vm : Vm ν) (ci fi : Nat) : Value :=
  ((vm.store.statics[ci]?).bind (·[fi]?)).getD .null

def getStatic (vm : Vm ν) (cls field : String) : Except VmError Scalar := do
  let (ci, fi, _) ← vm.staticSlot cls field
  pure (vm.store.heap.toScalar (vm.slotValue ci fi))

/-- A field declared with a kind takes values of that kind and null. -/
def checkKind (f : StaticField) (v : Scalar) : Except VmError Unit :=
  match f.kind? with
  | some expected =>
    if v.kind ≠ expected ∧ v.kind ≠ .null then .error (.typeMismatch expected v.kind) else .ok ()
  | none => .ok ()

def setStatic (cls field : String) (v : Scalar) : Update ν Unit := do
  let (ci, fi, f) ← check (·.staticSlot cls field)
  check fun _ => checkKind f v
  let value ← build (·.ofScalar v)
  modifyStatics (·.modify ci (·.setIfInBounds fi value))

/-! ## 7. Reflection -/

/-- What can be told about a class: its static fields with their declared kinds, in the order of
    declaration, and the names of its methods, sorted. -/
structure ClassInfo where
  name : String
  fields : List (String × Option Kind)
  methods : List String
deriving DecidableEq, Repr, Inhabited

/-- What can be told about the classes of the loaded module. -/
def classes (vm : Vm ν) : List ClassInfo :=
  match vm.image with
  | none => []
  | some image => image.module.classes.map fun c =>
    { name := c.name
      fields := c.statics.map fun f => (f.name, f.kind?)
      methods := (c.methods.map (·.name)).mergeSort fun a b => decide (a ≤ b) }

/-- What can be told about one class. -/
def classInfo? (vm : Vm ν) (name : String) : Option ClassInfo :=
  vm.classes.find? (·.name == name)

/-! ## 8. Collection -/

/-- The handles in static fields. -/
def roots (vm : Vm ν) : List Handle :=
  vm.store.statics.toList.flatMap fun fields => fields.toList.filterMap Value.handle?

/-- Frees every string that no static field holds, with all other threads paused. -/
def collectGarbage (vm : Vm ν) : Run ν (Except VmError Unit × Vm ν) :=
  .pause fun
    | some unresponsive => .done (.error (.gcStalled (.pauseTimeout unresponsive)), vm)
    | none =>
      let heap := (vm.store.heap.collect vm.roots).1
      .done (.ok (), { vm with store := { vm.store with heap } })

/-- The figures of the heap, with the number of collections given up. -/
def gcStats (vm : Vm ν) (stalledPauses : Nat) : GcStats := vm.store.heap.stats stalledPauses

end Vm

end EmbeddedVm
