import EmbeddedVm.Proofs.Checks
import EmbeddedVm.Proofs.Vm.Operations
import Mathlib.Logic.Relation

/-!
# What an operation does to the virtual machine

Every operation of the host is a chain of elementary changes: a module comes, a module takes the
place of another, a host function is registered, a call ends, a static field is written, the heap is
swept, or the event facilities change. `changes_perform` says so once for all operations, however
their calls end; a property of the machine is then checked against the elementary changes, not
against the operations. How the event facilities change is left open here: what is said of them is
said in terms of their own operations.
-/

namespace EmbeddedVm.Vm

variable {ν : Type}

/-- **An elementary change of a virtual machine.** -/
inductive Change (vm : Vm ν) : Vm ν → Prop where
  /-- A module is loaded. -/
  | load {m : Module} {vm' : Vm ν} (h : (load m).run vm = .ok () vm') : Change vm vm'
  /-- Another module takes the place of the loaded one. -/
  | patch {m : Module} {report : PatchReport} {vm' : Vm ν}
      (h : (patch m).run vm = .ok report vm') : Change vm vm'
  /-- A host function is registered. -/
  | registerNative (name : String) (handler : ν) : Change vm (vm.registerNative name handler)
  /-- A call of the loaded module ends. -/
  | call {image : Image ν} {function : Nat} {args : List Scalar} {o : Machine.Outcome}
      (h : vm.image = some image)
      (ho : (Machine.call ⟨image, vm.options.maxCallDepth⟩ vm.store function args).Ends o) :
    Change vm { vm with store := o.store }
  /-- A static field is written. -/
  | setStatic {cls field : String} {v : Scalar} {vm' : Vm ν}
      (h : (setStatic cls field v).run vm = .ok () vm') : Change vm vm'
  /-- What no static field holds is swept. -/
  | collect : Change vm { vm with store := { vm.store with
      heap := (vm.store.heap.collect vm.roots).1 } }
  /-- Events come and go. -/
  | events (scheduler : Scheduler Binary64) (reactor : Reactor) :
    Change vm { vm with store := { vm.store with scheduler, reactor } }

/-- A chain of elementary changes. -/
def Changes : Vm ν → Vm ν → Prop := Relation.ReflTransGen Change

theorem Change.single {vm vm' : Vm ν} (h : Change vm vm') : Changes vm vm' :=
  Relation.ReflTransGen.single h

theorem Changes.trans {a b c : Vm ν} (h : Changes a b) (h' : Changes b c) : Changes a c :=
  Relation.ReflTransGen.trans h h'

/-- **What every elementary change keeps, their chains keep.** -/
theorem Changes.induct {I : Vm ν → Prop} {vm vm' : Vm ν} (h : Changes vm vm')
    (hchange : ∀ a b, I a → Change a b → I b) (hvm : I vm) : I vm' := by
  induction h with
  | refl => exact hvm
  | tail _ hc ih => exact hchange _ _ ih hc

/-! ## 1. Calls -/

/-- A call by index that ends is one elementary change. -/
theorem callIndex_ends {vm vm' : Vm ν} {image : Image ν} {function : Nat} {args : List Scalar}
    {result : Except VmError Scalar} (h : (vm.callIndex image function args).Ends (result, vm')) :
    ∃ o, (Machine.call ⟨image, vm.options.maxCallDepth⟩ vm.store function args).Ends o ∧
      result = o.result ∧ vm' = { vm with store := o.store } := by
  obtain ⟨o, ho, hd⟩ := Run.ends_bind.mp h
  have he := Run.ends_done.mp hd
  exact ⟨o, ho, congrArg Prod.fst he, congrArg Prod.snd he⟩

theorem changes_callIndex {vm vm' : Vm ν} {image : Image ν} (hi : vm.image = some image)
    {function : Nat} {args : List Scalar} {result : Except VmError Scalar}
    (h : (vm.callIndex image function args).Ends (result, vm')) : Changes vm vm' := by
  obtain ⟨o, ho, -, rfl⟩ := callIndex_ends h
  exact (Change.call hi ho).single

/-- What a machine has loaded, it has. -/
theorem loaded_eq_ok {vm : Vm ν} {image : Image ν} : vm.loaded = .ok image ↔
    vm.image = some image := by
  unfold loaded
  cases vm.image with
  | none => exact ⟨nofun, nofun⟩
  | some i => simp

/-- A call by name that ends: nothing was called, or a function of the loaded module that was
    found. -/
theorem callWith_found {vm vm' : Vm ν} {find : Image ν → Except VmError Nat} {args : List Scalar}
    {result : Except VmError Scalar} (h : (vm.callWith find args).Ends (result, vm')) :
    vm' = vm ∨ ∃ image function, vm.image = some image ∧ find image = .ok function ∧
      (vm.callIndex image function args).Ends (result, vm') := by
  unfold callWith at h
  split at h
  · cases Run.ends_done.mp h
    exact .inl rfl
  · rename_i image hl
    split at h
    · cases Run.ends_done.mp h
      exact .inl rfl
    · rename_i function hfound
      exact .inr ⟨image, function, loaded_eq_ok.mp hl, hfound, h⟩

theorem callWith_cases {vm vm' : Vm ν} {find : Image ν → Except VmError Nat} {args : List Scalar}
    {result : Except VmError Scalar} (h : (vm.callWith find args).Ends (result, vm')) :
    vm' = vm ∨ ∃ image function, vm.image = some image ∧
      (vm.callIndex image function args).Ends (result, vm') := by
  rcases callWith_found h with hsame | ⟨image, function, hi, -, hcall⟩
  · exact .inl hsame
  · exact .inr ⟨image, function, hi, hcall⟩

theorem changes_callWith {vm vm' : Vm ν} {find : Image ν → Except VmError Nat} {args : List Scalar}
    {result : Except VmError Scalar} (h : (vm.callWith find args).Ends (result, vm')) :
    Changes vm vm' := by
  rcases callWith_cases h with rfl | ⟨image, function, hi, hcall⟩
  · exact .refl
  · exact changes_callIndex hi hcall

/-! ## 2. Drains -/

/-- The function a callback is looked up to. -/
theorem callback_eq_some {vm : Vm ν} {name : String} {image : Image ν} {function : Nat}
    (h : (vm.image.bind fun image => (image.functionIndex? name).map (image, ·)) =
      some (image, function)) :
    vm.image = some image ∧ image.functionIndex? name = some function := by
  obtain ⟨i, hi, h⟩ := Option.bind_eq_some_iff.mp h
  obtain ⟨f, hf, h⟩ := Option.map_eq_some_iff.mp h
  cases h
  exact ⟨hi, hf⟩

/-- **A property that calls by index keep**, however they end. -/
def KeptByCalls (P : Vm ν → Prop) : Prop :=
  ∀ ⦃vm vm' : Vm ν⦄ ⦃image : Image ν⦄ ⦃function : Nat⦄ ⦃args : List Scalar⦄
    ⦃result : Except VmError Scalar⦄, P vm → vm.image = some image →
    (vm.callIndex image function args).Ends (result, vm') → P vm'

namespace KeptByCalls

variable {P : Vm ν → Prop}

theorem callWith (h : KeptByCalls P) {vm vm' : Vm ν} {find : Image ν → Except VmError Nat}
    {args : List Scalar} {result : Except VmError Scalar} (hvm : P vm)
    (hends : (vm.callWith find args).Ends (result, vm')) : P vm' := by
  rcases callWith_cases hends with rfl | ⟨image, function, hi, hcall⟩
  · exact hvm
  · exact h hvm hi hcall

/-- Callbacks that are called in turn keep it, if putting some back does. -/
theorem runDue (h : KeptByCalls P)
    (hdefer : ∀ {vm : Vm ν} (back : List DueCallback), P vm →
      P { vm with store := { vm.store with scheduler := vm.store.scheduler.defer back } })
    {due : List DueCallback} {ran : Nat} {vm vm' : Vm ν} {result : Except VmError Nat}
    (hvm : P vm) (hends : (vm.runDue due ran).Ends (result, vm')) : P vm' := by
  induction due generalizing ran vm with
  | nil =>
      cases Run.ends_done.mp hends
      exact hvm
  | cons c rest ih =>
      unfold Vm.runDue at hends
      split at hends
      · exact ih hvm hends
      · rename_i image function hc
        obtain ⟨⟨called, vm₁⟩, hcall, hends⟩ := Run.ends_bind.mp hends
        have hvm₁ : P vm₁ := h hvm (callback_eq_some hc).1 hcall
        cases called with
        | ok v => exact ih hvm₁ hends
        | error e =>
            cases Run.ends_done.mp hends
            exact hdefer rest hvm₁

/-- Finished reads that are handed over in turn keep it, if changes of the reactor do. -/
theorem runReads (h : KeptByCalls P)
    (hreactor : ∀ {vm : Vm ν} (reactor : Reactor), P vm → P (vm.withReactor reactor))
    {ready : List ReadCompletion} {ran : Nat} {vm vm' : Vm ν} {result : Except VmError Nat}
    (hvm : P vm) (hends : (vm.runReads ready ran).Ends (result, vm')) : P vm' := by
  induction ready generalizing ran vm with
  | nil =>
      cases Run.ends_done.mp hends
      exact hvm
  | cons c rest ih =>
      unfold Vm.runReads at hends
      dsimp only at hends
      have hdispatched : P (vm.withReactor (vm.store.reactor.dispatched c.id)) := hreactor _ hvm
      split at hends
      · exact ih hdispatched hends
      · rename_i image function hc
        obtain ⟨⟨called, vm₁⟩, hcall, hends⟩ := Run.ends_bind.mp hends
        have hvm₁ : P vm₁ := h hdispatched (by exact (callback_eq_some hc).1) hcall
        cases called with
        | ok v => exact ih hvm₁ hends
        | error e =>
            cases Run.ends_done.mp hends
            exact hreactor _ hvm₁

theorem drainCooperative (h : KeptByCalls P)
    (hscheduler : ∀ {vm : Vm ν} (scheduler : Scheduler Binary64), P vm →
      P { vm with store := { vm.store with scheduler } })
    {vm vm' : Vm ν} {hint : Option Binary64} {wall : Nat} {result : Except VmError Nat}
    (hvm : P vm) (hends : (vm.drainCooperative hint wall).Ends (result, vm')) : P vm' := by
  unfold Vm.drainCooperative at hends
  split at hends
  · exact h.runDue (fun _ => hscheduler _) (hscheduler _ hvm) hends
  · cases Run.ends_done.mp hends
    exact hvm

theorem drainReads (h : KeptByCalls P)
    (hreactor : ∀ {vm : Vm ν} (reactor : Reactor), P vm → P (vm.withReactor reactor))
    {vm vm' : Vm ν} {result : Except VmError Nat}
    (hvm : P vm) (hends : vm.drainReads.Ends (result, vm')) : P vm' := by
  unfold Vm.drainReads at hends
  split at hends
  · exact h.runReads hreactor (hreactor _ hvm) hends
  · cases Run.ends_done.mp hends
    exact hvm

end KeptByCalls

/-- Calls leave the loaded module and its imports alone. -/
theorem keptByCalls_image (image : Option (Image ν)) :
    KeptByCalls fun vm : Vm ν => vm.image = image := by
  intro vm vm' _ function args result h _ hcall
  obtain ⟨o, -, -, rfl⟩ := callIndex_ends hcall
  exact h

/-- Chains of elementary changes go on with a call. -/
theorem keptByCalls_changes (vm : Vm ν) : KeptByCalls (Changes vm) :=
  fun _ _ _ _ _ _ h hi hcall => h.trans (changes_callIndex hi hcall)

theorem changes_drainCooperative {vm vm' : Vm ν} {hint : Option Binary64} {wall : Nat}
    {result : Except VmError Nat} (h : (vm.drainCooperative hint wall).Ends (result, vm')) :
    Changes vm vm' :=
  (keptByCalls_changes vm).drainCooperative
    (fun {vm₁} scheduler hchange => hchange.trans (Change.events scheduler vm₁.store.reactor).single)
    .refl h

theorem changes_drainReads {vm vm' : Vm ν} {result : Except VmError Nat}
    (h : vm.drainReads.Ends (result, vm')) : Changes vm vm' :=
  (keptByCalls_changes vm).drainReads
    (fun {vm₁} reactor hchange => hchange.trans (Change.events vm₁.store.scheduler reactor).single)
    .refl h

/-! ## 3. Operations -/

/-- **Every operation is a chain of elementary changes**, whatever the host answers. -/
theorem changes_perform {vm vm' : Vm ν} {op : Operation ν} {answer : Answer}
    (h : (vm.perform op).Ends (answer, vm')) : Changes vm vm' := by
  unfold perform at h
  cases op with
  | load m =>
      exact of_answering (allOrNothing_load m) .refl (fun _ _ h => (Change.load h).single)
        (Run.ends_done.mp h)
  | registerNative name handler =>
      cases Run.ends_done.mp h
      exact (Change.registerNative name handler).single
  | callEntry | callFunction | callStatic =>
      exact of_answer (fun _ _ => changes_callWith) h
  | getStatic cls field =>
      cases Run.ends_done.mp h
      exact .refl
  | setStatic cls field v =>
      exact of_answering (allOrNothing_setStatic cls field v) .refl
        (fun _ _ h => (Change.setStatic h).single) (Run.ends_done.mp h)
  | drainCooperative hint wall => exact of_answer (fun _ _ => changes_drainCooperative) h
  | sendRead | settleRead =>
      cases Run.ends_done.mp h
      exact (Change.events vm.store.scheduler _).single
  | drainReads => exact of_answer (fun _ _ => changes_drainReads) h
  | patch m =>
      exact of_answering (allOrNothing_patch m) .refl (fun _ _ h => (Change.patch h).single)
        (Run.ends_done.mp h)
  | collectGarbage =>
      refine of_answer (fun result vm' h => ?_) h
      unfold collectGarbage at h
      cases h with
      | pause stopped h =>
          cases stopped with
          | none =>
              cases Run.ends_done.mp h
              exact Change.collect.single
          | some n =>
              cases Run.ends_done.mp h
              exact .refl
  | gcStats stalledPauses =>
      cases Run.ends_done.mp h
      exact .refl

/-- **What holds at the start and is kept by every elementary change holds of every reachable
    machine.** -/
theorem Reachable.induct {I : Vm ν → Prop} {vm : Vm ν} (h : Reachable vm)
    (hcreate : ∀ options wall, I (.create options wall))
    (hchange : ∀ vm vm', I vm → Change vm vm' → I vm') : I vm := by
  induction h with
  | create options wall => exact hcreate options wall
  | perform _ hop ih => exact (changes_perform hop).induct hchange ih

end EmbeddedVm.Vm
