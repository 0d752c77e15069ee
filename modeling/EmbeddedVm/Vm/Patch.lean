import EmbeddedVm.Vm.Events

/-!
# Replacing the loaded module

A new module takes the place of the loaded one while the store stays. Static fields that both
modules have keep their values; the others start anew. A field whose declared kind changed, a value
that no longer fits, and a callback that is still to run but missing from the new module refuse the
replacement. All checks come before the first change of the machine.
-/

namespace EmbeddedVm

/-- What a replacement changed. Functions are told apart by name, and one of both modules counts as
    changed if its signature or its body differs; `changed` says whether any function or any method
    binding differs. -/
structure PatchReport where
  changed : Bool
  functionsAdded : Nat
  functionsRemoved : Nat
  functionsChanged : Nat
  staticsPreserved : Nat
  staticsAdded : Nat
deriving DecidableEq, Repr, Inhabited

namespace Vm

variable {ν : Type}

/-! ## 1. Static fields -/

/-- Where the value of a static field of the new module comes from: the field was there before and
    keeps its value, or it is new. -/
inductive Inherited where
  | kept (value : Value)
  | fresh (initial : Scalar)
deriving DecidableEq, Repr, Inhabited

/-- The value and the declaration of a static field before the replacement. -/
def carried? (vm : Vm ν) (old : Image ν) (cls field : String) : Option (Value × StaticField) := do
  let (ci, c) ← old.class? cls
  let fi ← c.staticIndex? field
  let f ← c.statics[fi]?
  some (vm.slotValue ci fi, f)

/-- Where the value of one static field comes from, if the replacement is admissible for it. -/
def inheritField (vm : Vm ν) (old : Image ν) (cls : String) (f : StaticField) :
    Except PatchRefusal Inherited :=
  match vm.carried? old cls f.name with
  | none => .ok (.fresh f.initial)
  | some (live, before) =>
    match f.kind?, before.kind? with
    | some new, some known =>
      if new ≠ known then .error (.kindChanged cls f.name known new)
      else if live.fits (some new) then .ok (.kept live)
      else .error (.valueMisfit cls f.name live.kind new)
    | some new, none =>
      if live.fits (some new) then .ok (.kept live)
      else .error (.valueMisfit cls f.name live.kind new)
    | none, _ => .ok (.kept live)

/-- Looks at the machine, and refuses the replacement as the verdict does. -/
def vet {α : Type} (verdict : Vm ν → Except PatchRefusal α) : Update ν α :=
  check fun vm => (verdict vm).mapError .patchRejected

/-- The same for every field of every class, one after the other. -/
def inheritStatics (old : Image ν) (classes : List Class) : Update ν (List (List Inherited)) :=
  classes.mapM fun c => c.statics.mapM fun f => vet (·.inheritField old c.name f)

/-- The values of the fields of a class; the strings of new ones are allocated. -/
def settleFields (heap : Heap) : List Inherited → Heap × List Value
  | [] => (heap, [])
  | .kept v :: rest =>
    let (heap, values) := settleFields heap rest
    (heap, v :: values)
  | .fresh initial :: rest =>
    let (heap, v) := heap.ofScalar initial
    let (heap, values) := settleFields heap rest
    (heap, v :: values)

/-- The values of the fields of all classes. -/
def settleStatics (heap : Heap) : List (List Inherited) → Heap × List (Array Value)
  | [] => (heap, [])
  | fields :: rest =>
    let (heap, values) := settleFields heap fields
    let (heap, classes) := settleStatics heap rest
    (heap, values.toArray :: classes)

/-! ## 2. Callbacks -/

/-- The names of all callbacks that are still to run: the scheduler's, then those of reads. -/
def pendingCallbacks (vm : Vm ν) : List String :=
  vm.store.scheduler.callbackNames ++ vm.store.reactor.pendingCallbacks

/-- Every callback that is still to run is in the new module. -/
def checkCallbacks (image : Image ν) (names : List String) : Except PatchRefusal Unit :=
  match names.find? fun name => (image.functionIndex? name).isNone with
  | some name => .error (.callbackMissing name)
  | none => .ok ()

/-! ## 3. Differences -/

/-- Every method as class, name and name of its function. -/
def methodBindings (m : Module) : List (String × String × String) :=
  m.classes.flatMap fun c => c.methods.map fun b =>
    (c.name, b.name, ((m.functions[b.function.toNat]?).map (·.name)).getD "")

/-- What differs between two modules, given where the static fields come from. -/
def report (old new : Module) (statics : List (List Inherited)) : PatchReport :=
  let before (name : String) := old.functions.find? (·.name == name)
  let functionsAdded := new.functions.countP fun f => (before f.name).isNone
  let functionsChanged := new.functions.countP fun f => match before f.name with
    -- bodies are compared byte by byte, whatever their operands stand for in either module
    | some g => g != f
    | none => false
  let functionsRemoved := old.functions.countP fun f => (new.functionIndex? f.name).isNone
  let methodsChanged := !(methodBindings old).isPerm (methodBindings new)
  let isKept : Inherited → Bool
    | .kept _ => true
    | .fresh _ => false
  { changed := decide (0 < functionsAdded) || decide (0 < functionsRemoved) ||
      decide (0 < functionsChanged) || methodsChanged
    functionsAdded, functionsRemoved, functionsChanged
    staticsPreserved := (statics.map (·.countP isKept)).foldr (· + ·) 0
    staticsAdded := (statics.map (·.countP fun f => !isKept f)).foldr (· + ·) 0 }

/-- **Replaces the loaded module.** Every check of the new module against the machine comes first;
    then its new strings are allocated, and then it takes the place of the old one. -/
def patch (m : Module) : Update ν PatchReport := do
  check fun vm => if vm.options.mode = .static then .error .patchUnsupported else .ok ()
  let old ← check loaded
  let image ← check fun vm => prepare vm.natives m
  let inherited ← inheritStatics old m.classes
  vet fun vm => checkCallbacks image vm.pendingCallbacks
  -- from here on nothing fails
  let statics ← build (settleStatics · inherited)
  modify ({ · with image := some image })
  modifyStatics fun _ => statics.toArray
  pure (report old.module m inherited)

end Vm

end EmbeddedVm
