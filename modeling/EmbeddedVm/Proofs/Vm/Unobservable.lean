import EmbeddedVm.Proofs.Machine.Resolution
import EmbeddedVm.Proofs.Vm.Alike
import EmbeddedVm.Proofs.Vm.Companions
import EmbeddedVm.Proofs.Vm.Operations

/-!
# Collections are unobservable

When a collection happens depends on a threshold, on what was allocated before and on whether the
other threads stop in time. A host cannot tell: whatever it does, in whatever order, every operation
answers the same on two virtual machines that collect at different moments. Only the figures of the
collector, and whether a requested collection was carried out, may differ.

Every operation goes in lockstep on machines that are alike (`Alike.perform`), so whole sessions do.
What is alike to something holds live handles only, so the reading of a swept slot never happens.
-/

namespace EmbeddedVm.Vm

variable {ν : Type}

/-! ## 1. Calls -/

namespace Alike

variable {a b : Vm ν}

theorem symm (h : a.Alike b) : b.Alike a := by
  refine ⟨?_, h.natives.symm, h.image.symm, h.store.symm⟩
  rw [h.options]

theorem callIndex (h : a.Alike b) (image : Image ν) (function : Nat) (args : List Scalar) :
    Run.Lockstep (Same Alike) (a.callIndex image function args)
      (b.callIndex image function args) := by
  unfold Vm.callIndex
  rw [h.maxCallDepth]
  refine ((Pairing.fits_same _).call_lockstep (Pairing.storesAlike_same.mpr h.store) rfl args).bind
    fun _ _ ho => .done ⟨ho.result, h.withStore (Pairing.storesAlike_same.mp ho.store)⟩

theorem callWith (h : a.Alike b) (find : Image ν → Except VmError Nat) (args : List Scalar) :
    Run.Lockstep (Same Alike) (a.callWith find args) (b.callWith find args) := by
  unfold Vm.callWith
  rw [h.loaded]
  split
  · exact .done ⟨rfl, h⟩
  · split
    · exact .done ⟨rfl, h⟩
    · exact h.callIndex _ _ _

/-! ## 2. Drains -/

/-- A callback is found on both sides or on none. -/
theorem callback (h : a.Alike b) (name : String) :
    (a.image.bind fun image => (image.functionIndex? name).map (image, ·)) =
      b.image.bind fun image => (image.functionIndex? name).map (image, ·) := by
  rw [h.image]

/-- **Machines that differ in their heaps only serve their events alike.** -/
theorem companions : Companions (Alike (ν := ν)) where
  isLoaded h := h.isLoaded
  scheduler h := h.store.scheduler
  reactor h := h.store.reactor
  withScheduler h := h.withScheduler
  withReactor h := h.withReactor
  callback {a b} h name := by
    rw [h.callback]
    cases b.image.bind fun image => (image.functionIndex? name).map (image, ·) with
    | none => exact .inl ⟨rfl, rfl⟩
    | some x => exact .inr ⟨x, x, rfl, rfl, fun args => h.callIndex _ _ args⟩

/-! ## 3. Requested collections -/

/-- A collection between two operations is not noticed either: the static fields are all the roots
    there are. -/
theorem collect (h : a.Alike b) :
    Alike { a with store := { a.store with heap := (a.store.heap.collect a.roots).1 } } b := by
  have hkept : StaticsAlike Handle.Any (a.store.heap.collect a.roots).1 b.store.heap
      a.store.statics b.store.statics :=
    h.store.statics.left fun fields hf v hv r text hr htext => by
      have hroot : r ∈ a.roots := mem_handles hf hv hr
      rw [h.store.tidy_left.get?_collect, if_pos hroot]
      exact htext
  exact ⟨h.options, h.natives, h.image, ⟨h.store.tidy_left.collect _, h.store.tidy_right, hkept,
    h.store.scheduler, h.store.reactor⟩⟩

end Alike

/-- A requested collection was carried out, or given up because other threads did not stop. -/
def CollectedOrStalled (result : Except VmError Unit) : Prop :=
  result = .ok () ∨ ∃ cause, result = .error (.gcStalled cause)

/-- A requested collection goes in lockstep if neither side notices one. -/
theorem collectGarbage_lockstep {R : Vm ν → Vm ν → Prop} {a b : Vm ν} (h : R a b)
    (hl : ∀ a b, R a b →
      R { a with store := { a.store with heap := (a.store.heap.collect a.roots).1 } } b)
    (hr : ∀ a b, R a b →
      R a { b with store := { b.store with heap := (b.store.heap.collect b.roots).1 } }) :
    Run.Lockstep (fun x y => (CollectedOrStalled x.1 ∧ CollectedOrStalled y.1) ∧ R x.2 y.2)
      a.collectGarbage b.collectGarbage := by
  refine .left fun answer₁ => .right fun answer₂ => ?_
  cases answer₁ with
  | none =>
      cases answer₂ with
      | none => exact .done ⟨⟨.inl rfl, .inl rfl⟩, hr _ _ (hl _ _ h)⟩
      | some n => exact .done ⟨⟨.inl rfl, .inr ⟨_, rfl⟩⟩, hl _ _ h⟩
  | some n =>
      cases answer₂ with
      | none => exact .done ⟨⟨.inr ⟨_, rfl⟩, .inl rfl⟩, hr _ _ h⟩
      | some n' => exact .done ⟨⟨.inr ⟨_, rfl⟩, .inr ⟨_, rfl⟩⟩, h⟩

/-! ## 4. Operations -/

/-- **Answers that agree**: equal, but for what they tell about the collector itself. -/
inductive Answer.Agree : Answer → Answer → Prop where
  | same (answer : Answer) : Agree answer answer
  | collected {result result' : Except VmError Unit} (h : CollectedOrStalled result)
      (h' : CollectedOrStalled result') : Agree (.collected result) (.collected result')
  | figures (stats stats' : GcStats) : Agree (.figures stats) (.figures stats')

/-- The answers agree, and the machines are related. -/
def Agreeing (R : Vm ν → Vm ν → Prop) (x y : Answer × Vm ν) : Prop :=
  x.1.Agree y.1 ∧ R x.2 y.2

/-- Updates that match answer the same. -/
theorem agreeing_answering {R : Vm ν → Vm ν → Prop} {a b : Vm ν} {α : Type} {u w : Update ν α}
    (h : Matched R (· = ·) (u.run a) (w.run b)) (f : Except VmError α → Answer) :
    Agreeing R (a.answering f u) (b.answering f w) := by
  unfold answering attempt
  generalize u.run a = x at h ⊢
  generalize w.run b = y at h ⊢
  cases h with
  | ok hR hS =>
      cases hR
      exact ⟨.same _, hS⟩
  | error e hS => exact ⟨.same _, hS⟩

/-- The result of a run in lockstep, as an answer. -/
theorem answer_lockstep {R : Vm ν → Vm ν → Prop} {α : Type} {x y : Run ν (α × Vm ν)}
    (h : Run.Lockstep (Same R) x y) (f : α → Answer) :
    Run.Lockstep (Agreeing R) (x.bind fun (result, vm) => .done (f result, vm))
      (y.bind fun (result, vm) => .done (f result, vm)) :=
  h.bind fun x y hxy => .done ⟨by rw [hxy.1]; exact .same _, hxy.2⟩

/-- Operations that go in lockstep one by one do so one after the other. -/
theorem session_lockstep {R : Vm ν → Vm ν → Prop} {a b : Vm ν} {ops : List (Operation ν)}
    (hops : ∀ op ∈ ops, ∀ a b, R a b → Run.Lockstep (Agreeing R) (a.perform op) (b.perform op))
    (h : R a b) :
    Run.Lockstep (fun x y => List.Forall₂ Answer.Agree x.1 y.1 ∧ R x.2 y.2) (a.session ops)
      (b.session ops) := by
  induction ops generalizing a b with
  | nil => exact .done ⟨.nil, h⟩
  | cons op rest ih =>
      refine (hops op List.mem_cons_self a b h).bind fun _ _ hop => ?_
      exact (ih (fun op' hop' => hops op' (List.mem_cons_of_mem _ hop')) hop.2).bind
        fun _ _ hs => .done ⟨.cons hop.1 hs.1, hs.2⟩

/-- **Every operation goes in lockstep on machines that are alike.** -/
theorem Alike.perform {a b : Vm ν} (h : a.Alike b) (op : Operation ν) :
    Run.Lockstep (Agreeing Alike) (a.perform op) (b.perform op) := by
  cases op with
  | load m => exact .done (agreeing_answering (h.load m) .done)
  | registerNative name handler => exact .done ⟨.same _, h.registerNative name handler⟩
  | callEntry => exact answer_lockstep (h.callWith _ _) .value
  | callFunction name args => exact answer_lockstep (h.callWith _ _) .value
  | callStatic cls method args => exact answer_lockstep (h.callWith _ _) .value
  | getStatic cls field =>
      unfold Vm.perform
      dsimp only
      rw [h.getStatic]
      exact .done ⟨.same _, h⟩
  | setStatic cls field v => exact .done (agreeing_answering (h.setStatic cls field v) .done)
  | drainCooperative hint wall =>
      exact answer_lockstep (companions.drainCooperative h hint wall) .ran
  | sendRead id result =>
      unfold Vm.perform
      dsimp only
      rw [h.store.reactor]
      exact .done ⟨.same _, h.withReactor _⟩
  | settleRead =>
      unfold Vm.perform
      dsimp only
      rw [h.store.reactor]
      exact .done ⟨.same _, h.withReactor _⟩
  | drainReads => exact answer_lockstep (companions.drainReads h) .ran
  | patch m => exact .done (agreeing_answering (h.patch m) .patched)
  | collectGarbage =>
      exact (collectGarbage_lockstep h (fun _ _ h => h.collect)
        fun _ _ h => h.symm.collect.symm).bind fun x y hxy => .done ⟨.collected hxy.1.1 hxy.1.2, hxy.2⟩
  | gcStats stalledPauses => exact .done ⟨.figures _ _, h⟩

theorem Alike.session {a b : Vm ν} (h : a.Alike b) (ops : List (Operation ν)) :
    Run.Lockstep (fun x y => List.Forall₂ Answer.Agree x.1 y.1 ∧ x.2.Alike y.2)
      (a.session ops) (b.session ops) :=
  session_lockstep (fun op _ _ _ h => h.perform op) h

/-! ## 5. The machines a call begins with -/

theorem alike_create (options : VmOptions) (threshold wall : Nat) :
    (create options wall : Vm ν).Alike
      (create { options with gcThreshold := threshold } wall) :=
  ⟨rfl, rfl, rfl, ⟨Heap.tidy_empty _, Heap.tidy_empty _, .empty, rfl, rfl⟩⟩

theorem Alike.refl_left {a b : Vm ν} (h : a.Alike b) : a.Alike a := by
  refine ⟨rfl, rfl, rfl, ⟨h.store.tidy_left, h.store.tidy_left, ?_, rfl, rfl⟩⟩
  exact h.store.statics.self fun _ _ _ _ _ _ => trivial

theorem Reachable.alike {vm : Vm ν} (h : Reachable vm) : vm.Alike vm := by
  induction h with
  | create options wall => exact alike_create options options.gcThreshold wall
  | perform _ hop ih =>
      obtain ⟨_, -, -, h⟩ := (ih.perform _).ends_left hop
      exact h.refl_left

/-- **The machines at which calls begin**: the reachable ones, and those between two callbacks of a
    drain, which has taken events off the scheduler or the reactor. -/
inductive Visited : Vm ν → Prop where
  | reachable {vm : Vm ν} (h : Reachable vm) : Visited vm
  | events {vm : Vm ν} (h : Visited vm) (scheduler : Scheduler Binary64) (reactor : Reactor) :
    Visited { vm with store := { vm.store with scheduler, reactor } }
  | call {vm vm' : Vm ν} (h : Visited vm) {image : Image ν} (hi : vm.image = some image)
      {function : Nat} {args : List Scalar} {result : Except VmError Scalar}
      (hc : (vm.callIndex image function args).Ends (result, vm')) : Visited vm'

theorem Visited.alike {vm : Vm ν} (h : Visited vm) : vm.Alike vm := by
  induction h with
  | reachable h => exact h.alike
  | events _ scheduler reactor ih => exact (ih.withScheduler scheduler).withReactor reactor
  | call _ _ hc ih =>
      obtain ⟨_, -, -, h⟩ := (ih.callIndex _ _ _).ends_left hc
      exact h.refl_left

/-- **Collections are unobservable.** Two machines that differ only in the threshold of the
    collector are put through the same operations. Their host functions answer by what they were
    asked before, while the other threads of each stop in time, or do not, as they like. Then either
    neither session ends or both do, having asked their host functions the same, and the answers
    agree. Wherever a call begins, takes in its arguments or has come to, every handle in a static
    field or on the stack refers to the text it was allocated with. -/
theorem collections_unobservable {σ ρ₁ ρ₂ : Type}
    (native : ν → List Scalar → σ → Except String Scalar × σ) (threads₁ : σ → ρ₁ → Option Nat × ρ₁)
    (threads₂ : σ → ρ₂ → Option Nat × ρ₂) (options : VmOptions) (threshold wall : Nat)
    (ops : List (Operation ν)) (s : σ) (p₁ : ρ₁) (p₂ : ρ₂) :
    Option.Rel
      (fun x y => (List.Forall₂ Answer.Agree x.1.1 y.1.1 ∧ x.1.2.Alike y.1.2) ∧ x.2.1 = y.2.1)
      (((create options wall).session ops).against (.paused native threads₁) (s, p₁))
      (((create { options with gcThreshold := threshold } wall).session ops).against
        (.paused native threads₂) (s, p₂)) ∧
    ∀ vm : Vm ν, Visited vm →
      (∀ r ∈ vm.roots, ∃ text, vm.store.heap.get? r = some text) ∧
      (∀ args m, (Machine.pushScalars { store := vm.store } args : Run ν Machine).Ends m →
        ∀ r ∈ m.roots, ∃ text, m.store.heap.get? r = some text) ∧
      ∀ image, vm.image = some image → ∀ function args m,
        Machine.Reached ⟨image, vm.options.maxCallDepth⟩ vm.store function args m →
        Machine.Resolves ⟨image, vm.options.maxCallDepth⟩ m := by
  refine ⟨((alike_create options threshold wall).session ops).against native threads₁ threads₂
    s p₁ p₂, fun vm hvm => ?_⟩
  have hstart : Machine.Alike { store := vm.store } { store := vm.store } :=
    ⟨hvm.alike.store, .empty, rfl⟩
  refine ⟨fun r hr => ?_, fun args m hm r hr => ?_, fun image _ function args m hm => ?_⟩
  · -- without operands the roots of the machine are those of its static fields
    exact (hstart.beside.of_root (List.mem_append_left _ hr)).2
  · obtain ⟨_, -, h⟩ := (Machine.pushScalars_lockstep hstart args).ends_left hm
    exact (h.beside.of_root hr).2
  · exact (Machine.Alike.reached hvm.alike.store hm).resolves

end EmbeddedVm.Vm
