import EmbeddedVm.Proofs.Machine.CallChain
import EmbeddedVm.Proofs.Machine.Invariants

/-!
# What an instruction writes

An instruction leaves the store alone but for what it is there to change. `Instruction.Writes` says
so for all of them at once: the heap stays, a static field changes only where the instruction stores
into it, the scheduler only where it uses the cooperative facility and the reactor only where it
uses background reads. So the facilities noted when a module is linked are all that its code can
change. And what an instruction leaves to be done afterwards is the call of a host function only
where it calls one, and then it is the import it names (`Effect.DueTo`).

Nothing is asked of the code here; `after_execute_writes` and `after_step_writes` hold of any
instruction and of any machine. Parts of instructions that leave the whole store alone are closed
under sequencing (`Leaves`), and the few that write come last in theirs.
-/

namespace EmbeddedVm

variable {ν α β : Type}

/-- **What an instruction may write**: the store before it and the store behind it differ in nothing
    else. -/
structure Instruction.Writes (i : Instruction) (before after : Store) : Prop where
  heap : after.heap = before.heap
  statics : after.statics = before.statics ∨ ∃ c field v, i = .storeStatic c field ∧
    after.statics = before.statics.modify c.toNat (·.setIfInBounds field.toNat v)
  scheduler : after.scheduler = before.scheduler ∨ (Image.uses i).cooperative = true
  reactor : after.reactor = before.reactor ∨ (Image.uses i).asyncIo = true

theorem Instruction.writes_refl (i : Instruction) (s : Store) : i.Writes s s :=
  ⟨rfl, .inl rfl, .inl rfl, .inl rfl⟩

/-- **What an instruction may leave to the host**: the import it names, with as many arguments as it
    says. -/
def Effect.DueTo (image : Image ν) (i : Instruction) : Effect ν → Prop
  | .invoke handler name args => ∃ native argc, i = .callNative native argc ∧
      image.imports.get? native.toNat = some (name, handler) ∧ args.length = argc.toNat
  | _ => True

namespace Machine

variable {ctx : Context ν}

/-! ## 1. Actions that leave the store alone -/

/-- **An action that leaves the store alone**, and ends with a result of which `R` holds. -/
def Leaves (R : α → Prop) (x : Exec α) : Prop :=
  ∀ m, After x m (fun a m' => R a ∧ m'.store = m.store) fun _ m' => m'.store = m.store

theorem leaves_pure {R : α → Prop} {a : α} (h : R a) : Leaves R (pure a) := fun _ => ⟨h, rfl⟩

theorem leaves_raise {R : α → Prop} (fault : Fault) : Leaves R (raise ctx fault) := fun _ => rfl

theorem Leaves.bind {R : α → Prop} {S : β → Prop} {x : Exec α} {f : α → Exec β}
    (hx : Leaves R x) (hf : ∀ a, R a → Leaves S (f a)) : Leaves S (x >>= f) := fun m => by
  rw [after_bind]
  refine (hx m).mono (fun a m' ⟨ha, hstore⟩ => ?_) fun _ _ h => h
  rw [← hstore]
  exact hf a ha m'

theorem leaves_get {R : α → Prop} {f : Machine → Exec α} (hf : ∀ m, Leaves R (f m)) :
    Leaves R (get >>= f) := fun m => after_get.mpr (hf m m)

theorem Leaves.weaken {R S : α → Prop} {x : Exec α} (h : Leaves R x) (hRS : ∀ a, R a → S a) :
    Leaves S x := fun m => (h m).mono (fun a _ ⟨ha, hs⟩ => ⟨hRS a ha, hs⟩) fun _ _ hs => hs

theorem leaves_push (v : Value) : Leaves (fun _ => True) (push v) := fun _ => ⟨trivial, rfl⟩

/-- No import is called by an instruction behind which nothing is left to do. -/
theorem leaves_push_next {image : Image ν} {i : Instruction} (v : Value) :
    Leaves (Effect.DueTo image i) (push v >>= fun _ => pure .next) :=
  (leaves_push v).bind fun _ _ => leaves_pure trivial

theorem leaves_pop : Leaves (fun _ => True) (pop ctx) := by
  unfold pop
  refine leaves_get fun m => ?_
  split
  · exact leaves_raise _
  · split
    · exact fun _ => ⟨trivial, rfl⟩
    · exact leaves_raise _

theorem leaves_popInt (op : Opcode) : Leaves (fun _ => True) (popInt ctx op) :=
  leaves_pop.bind fun v _ => by
    cases v with
    | int n => exact leaves_pure trivial
    | _ => exact leaves_raise _

theorem leaves_popNumber (op : Opcode) : Leaves (fun _ => True) (popNumber ctx op) :=
  leaves_pop.bind fun v _ => by
    cases v with
    | int n => exact leaves_pure trivial
    | float x => exact leaves_pure trivial
    | _ => exact leaves_raise _

theorem leaves_popArgs : ∀ (count : Nat) (after : List Scalar),
    Leaves (fun args => args.length = count + after.length) (popArgs ctx count after)
  | 0, after => leaves_pure (Nat.zero_add _).symm
  | count + 1, after => leaves_pop.bind fun v _ => leaves_get fun m =>
      (leaves_popArgs count _).weaken fun args h => by
        rw [h, List.length_cons]
        omega

theorem leaves_compare (op : Comparison) (a b : Value) :
    Leaves (fun _ => True) (compare ctx op a b) := by
  unfold compare
  split
  · exact leaves_pure trivial
  · exact leaves_pure trivial
  · exact leaves_pure trivial
  · exact leaves_pure trivial
  · exact leaves_get fun _ => leaves_pure trivial
  · exact leaves_raise _

theorem leaves_truth (op : Opcode) (v : Value) : Leaves (fun _ => True) (truth ctx op v) := by
  cases v with
  | bool b => exact leaves_pure trivial
  | null => exact leaves_pure trivial
  | _ => exact leaves_raise _

theorem leaves_taken (kind : Jump) : Leaves (fun _ => True) (taken ctx kind) := by
  cases kind with
  | always => exact leaves_pure trivial
  | ifFalse => exact leaves_pop.bind fun v _ => (leaves_truth _ v).bind fun _ _ => leaves_pure trivial
  | ifTrue => exact leaves_pop.bind fun v _ => leaves_truth _ v

theorem leaves_goto (ip : Nat) : Leaves (fun _ => True) (goto ip) := fun m => by
  refine ⟨trivial, ?_⟩
  dsimp only
  split
  · rfl
  · rfl

theorem leaves_enter (function : Nat) : Leaves (fun _ => True) (enter ctx function) := by
  unfold enter
  refine leaves_get fun m => ?_
  split
  · exact leaves_raise _
  · split
    · exact leaves_raise _
    · split
      · exact leaves_raise _
      · exact fun _ => ⟨trivial, rfl⟩

theorem leaves_leave {image : Image ν} {i : Instruction} (v : Value) :
    Leaves (Effect.DueTo image i) (leave v) := by
  intro m
  unfold leave
  rw [after_get]
  cases hf : m.frames with
  | nil => exact ⟨trivial, rfl⟩
  | cons f rest =>
      dsimp only
      rw [after_set]
      split
      · exact ⟨trivial, rfl⟩
      · exact ⟨trivial, rfl⟩

/-! ## 2. Instructions -/

/-- What `After` says of an instruction here. -/
def WritesAfter (ctx : Context ν) (i : Instruction) (x : Exec (Effect ν)) (m : Machine) : Prop :=
  After x m (fun effect m' => effect.DueTo ctx.image i ∧ i.Writes m.store m'.store)
    fun _ m' => i.Writes m.store m'.store

/-- What leaves the store alone writes nothing. -/
theorem Leaves.writes {i : Instruction} {x : Exec (Effect ν)}
    (h : Leaves (Effect.DueTo ctx.image i) x) (m : Machine) : WritesAfter ctx i x m :=
  (h m).mono (fun _ _ ⟨heffect, hs⟩ => ⟨heffect, by rw [hs]; exact i.writes_refl _⟩)
    fun _ _ hs => by rw [hs]; exact i.writes_refl _

/-- What an instruction writes behind a part that leaves the store alone. -/
theorem Leaves.bind_writes {i : Instruction} {R : α → Prop} {x : Exec α} {f : α → Exec (Effect ν)}
    (h : Leaves R x) (hf : ∀ a m, R a → WritesAfter ctx i (f a) m) (m : Machine) :
    WritesAfter ctx i (x >>= f) m := by
  unfold WritesAfter
  rw [after_bind]
  refine (h m).mono (fun a m' ⟨ha, hs⟩ => ?_) fun _ _ hs => by rw [hs]; exact i.writes_refl _
  rw [← hs]
  exact hf a m' ha

/-- An instruction that uses the scheduler may write it, and pushes a result. -/
theorem writes_scheduler {i : Instruction} (hi : (Image.uses i).cooperative = true)
    (scheduler : Scheduler Binary64) (v : Value) (m : Machine) :
    WritesAfter ctx i (do
      set { m with store := { m.store with scheduler } }
      push v
      return .next) m :=
  ⟨trivial, rfl, .inl rfl, .inr hi, .inl rfl⟩

theorem writes_simple (op : SimpleOp) (m : Machine) :
    WritesAfter ctx (.simple op) (simple ctx op) m := by
  cases op with
  | timerCancel =>
      refine (leaves_popInt _).bind_writes (fun id m _ => ?_) m
      split
      · exact writes_scheduler rfl _ _ m
      · exact (leaves_push_next _).writes m
  | nop => exact (leaves_pure trivial).writes m
  | pop => exact (leaves_pop.bind fun _ _ => leaves_pure trivial).writes m
  | dup =>
      exact (leaves_pop.bind fun v _ => (leaves_push v).bind fun _ _ => leaves_push_next v).writes m
  | pushNull => exact (leaves_push_next _).writes m
  | pushBool b => exact (leaves_push_next _).writes m
  | int o =>
      refine Leaves.writes ((leaves_popInt _).bind fun b _ => (leaves_popInt _).bind fun a _ => ?_) m
      split
      · exact leaves_push_next _
      · exact leaves_raise _
  | intNeg => exact ((leaves_popInt _).bind fun _ _ => leaves_push_next _).writes m
  | float o =>
      exact ((leaves_popNumber _).bind fun _ _ => (leaves_popNumber _).bind fun _ _ =>
        leaves_push_next _).writes m
  | floatNeg => exact ((leaves_popNumber _).bind fun _ _ => leaves_push_next _).writes m
  | toFloat => exact ((leaves_popNumber _).bind fun _ _ => leaves_push_next _).writes m
  | toInt =>
      refine Leaves.writes (leaves_pop.bind fun v _ => ?_) m
      cases v with
      | int n => exact leaves_push_next _
      | float x => exact leaves_push_next _
      | _ => exact leaves_raise _
  | eq | ne =>
      exact (leaves_pop.bind fun _ _ => leaves_pop.bind fun _ _ => leaves_get fun _ =>
        leaves_push_next _).writes m
  | compare o =>
      exact (leaves_pop.bind fun b _ => leaves_pop.bind fun a _ =>
        (leaves_compare o a b).bind fun _ _ => leaves_push_next _).writes m
  | not =>
      exact (leaves_pop.bind fun v _ => (leaves_truth _ v).bind fun _ _ => leaves_push_next _).writes
        m
  | concat =>
      exact (leaves_pop.bind fun _ _ => leaves_pop.bind fun _ _ => leaves_get fun _ =>
        leaves_pure trivial).writes m
  | ret => exact (leaves_pop.bind fun v _ => leaves_leave v).writes m
  | retVoid => exact (leaves_leave .null).writes m
  | throw =>
      exact (leaves_pop.bind fun _ _ => leaves_get fun _ => leaves_raise _).writes m

theorem writes_callback (kind : Callback) (index : UInt32) (m : Machine) :
    WritesAfter ctx (.callback kind index) (callback ctx kind index.toNat) m := by
  unfold callback
  split
  · exact (leaves_raise _).writes m
  · rename_i f _
    cases kind with
    | timerOnce | timerEvery =>
        exact (leaves_popNumber _).bind_writes (fun delay m _ => writes_scheduler rfl _ _ m) m
    | mainLoop => exact ⟨trivial, rfl, .inl rfl, .inr rfl, .inl rfl⟩
    | asyncRead =>
        refine leaves_pop.bind_writes (fun v m _ => ?_) m
        cases v with
        | string r => exact ⟨trivial, rfl, .inl rfl, .inl rfl, .inr rfl⟩
        | _ => exact (leaves_raise _).writes m

theorem writes_store (c : UInt32) (field : UInt16) (v : Value) (m : Machine) :
    WritesAfter ctx (.storeStatic c field) (execute.store ctx c.toNat field.toNat v) m := by
  unfold WritesAfter execute.store
  rw [after_get]
  split
  · exact ⟨trivial, rfl, .inr ⟨c, field, v, rfl, rfl⟩, .inl rfl, .inl rfl⟩
  · exact (leaves_raise _).writes m

/-- **An instruction writes only what it is there to write**, wherever it breaks off. -/
theorem after_execute_writes (s : Step) (m : Machine) :
    WritesAfter ctx s.instruction (execute ctx s) m := by
  unfold execute
  cases hi : s.instruction with
  | simple op => exact writes_simple op m
  | pushInt n => exact (leaves_push_next _).writes m
  | pushFloat x => exact (leaves_push_next _).writes m
  | pushString index =>
      dsimp only
      split
      · exact (leaves_pure trivial).writes m
      · exact (leaves_raise _).writes m
  | loadLocal slot =>
      refine Leaves.writes (leaves_get fun m => ?_) m
      split
      · exact leaves_push_next _
      · exact leaves_raise _
  | storeLocal slot =>
      refine leaves_pop.bind_writes (fun v m _ => ?_) m
      unfold WritesAfter
      rw [after_get]
      dsimp only
      split
      · exact ⟨trivial, Instruction.writes_refl _ _⟩
      · exact (leaves_raise _).writes m
  | loadStatic c field =>
      refine Leaves.writes (leaves_get fun m => ?_) m
      split
      · exact leaves_push_next _
      · exact leaves_raise _
  | storeStatic c field =>
      refine leaves_pop.bind_writes (fun v m _ => ?_) m
      split
      · exact (leaves_raise _).writes m
      · split
        · split
          · exact writes_store c field v m
          · exact (leaves_raise _).writes m
        · exact writes_store c field v m
  | jump kind offset =>
      refine Leaves.writes ((leaves_taken kind).bind fun b _ => ?_) m
      split
      · exact (leaves_goto _).bind fun _ _ => leaves_pure trivial
      · exact leaves_pure trivial
  | call callee => exact ((leaves_enter _).bind fun _ _ => leaves_pure trivial).writes m
  | callNative native argc =>
      refine ((leaves_popArgs argc.toNat []).bind fun args hargs => ?_).writes m
      split
      · rename_i name handler himport
        exact leaves_pure ⟨native, argc, rfl, himport, hargs⟩
      · exact leaves_raise _
  | callback kind callee => exact writes_callback kind callee m

/-- **The same of a step**, taken where the innermost function stands at an instruction. -/
theorem after_step_writes {m : Machine} {f : Frame} {rest : List Frame}
    (hf : m.frames = f :: rest) {g : LinkedFunction}
    (hg : ctx.image.functions[f.function]? = some g) {s : Step} (hs : g.code[f.ip]? = some s) :
    WritesAfter ctx s.instruction (step ctx) m := by
  have hfetched : m.fetched.store = m.store := StoreInvariant.fetched (I := (· = m.store)) rfl
  have h : WritesAfter ctx s.instruction (execute ctx s) m.fetched := after_execute_writes s m.fetched
  unfold WritesAfter After at h ⊢
  rw [run_step hf hg hs, ← hfetched]
  exact h

end Machine

/-! ## 3. The code of a call -/

namespace Image

/-- One function has an instruction that calls another. -/
def Calls (image : Image ν) (caller callee : Nat) : Prop :=
  ∃ g, ∃ ip : Nat, ∃ s : Step, ∃ index : UInt32, image.functions[caller]? = some g ∧
    g.code[ip]? = some s ∧ s.instruction = .call index ∧ index.toNat = callee

/-- **The instructions that a call can come to**: those of the function called, and of all that it
    calls, directly or through others. -/
def CodeOf (image : Image ν) (function : Nat) (i : Instruction) : Prop :=
  ∃ inner g s, Relation.ReflTransGen image.Calls function inner ∧
    image.functions[inner]? = some g ∧ s ∈ g.code ∧ s.instruction = i

/-- A function that calls no other comes to its own instructions only. -/
theorem CodeOf.of_no_call {image : Image ν} {function : Nat} {i : Instruction}
    (h : image.CodeOf function i) {g : LinkedFunction} (hg : image.functions[function]? = some g)
    (hcall : ∀ s ∈ g.code, ∀ callee, s.instruction ≠ .call callee) :
    ∃ s ∈ g.code, s.instruction = i := by
  obtain ⟨inner, g', s, hreach, hg', hs, hi⟩ := h
  rcases Relation.ReflTransGen.cases_head hreach with rfl | ⟨next, hnext, -⟩
  · cases hg.symm.trans hg'
    exact ⟨s, hs, hi⟩
  · obtain ⟨g₁, ip, s₁, index, hg₁, hs₁, hi₁, -⟩ := hnext
    cases hg.symm.trans hg₁
    exact absurd hi₁ (hcall s₁ (Array.mem_of_getElem? hs₁) index)

end Image

/-- Every function in a chain of calls is one that the first one comes to. -/
theorem CallChain.calls {image : Image ν} {invoked : Nat} {frames : List Frame}
    {names : List String} (h : CallChain image invoked frames names) :
    ∀ f rest, frames = f :: rest → Relation.ReflTransGen image.Calls invoked f.function := by
  induction h with
  | outermost hf hg =>
      rintro f rest heq
      cases heq
      rw [hf]
  | called hg hcaller hrest ih =>
      rintro f rest heq
      cases heq
      obtain ⟨g, ip, s, index, hg', -, hs, hi, hindex⟩ := hcaller
      exact (ih _ _ rfl).tail ⟨g, ip, s, index, hg', hs, hi, hindex⟩

namespace Machine

variable {ctx : Context ν}

/-- A machine that a call reaches stands at an instruction of the call's code. -/
theorem Reached.next_codeOf (hsound : ctx.image.Sound) {store : Store}
    (hst : ctx.image.Shapes store.statics) {function : Nat} {args : List Scalar} {m : Machine}
    (h : Reached ctx store function args m) :
    ∃ f rest g s, m.frames = f :: rest ∧ ctx.image.functions[f.function]? = some g ∧
      g.code[f.ip]? = some s ∧ ctx.image.CodeOf function s.instruction := by
  obtain ⟨g₀, hg₀⟩ := h.exists_function
  obtain ⟨f, rest, g, s, hf, hg, hs, -, -⟩ := (h.wellFormed hsound hst hg₀).step hsound
  have hcalls := (h.callChain hsound hst).calls f rest hf
  exact ⟨f, rest, g, s, hf, hg, hs, f.function, g, s, hcalls, hg, Array.mem_of_getElem? hs, rfl⟩

/-! ## 4. What a call leaves in place -/

/-- **A property of the store that code of a sort leaves in place**: no instruction of the sort
    breaks it, nor does a string that is allocated, with or without a collection before it. -/
structure CodeInvariant (sort : Instruction → Prop) (I : Store → Prop) : Prop where
  writes : ∀ {i : Instruction} {a b : Store}, sort i → i.Writes a b → I a → I b
  alloc : ∀ {s : Store} (text : String), I s → I { s with heap := (s.heap.alloc text).1 }
  collect : ∀ {m : Machine}, I m.store → I m.collect.store

namespace CodeInvariant

variable {sort : Instruction → Prop} {I : Store → Prop} {m m' : Machine}

theorem pushScalar (h : CodeInvariant sort I) {v : Scalar} (hm : I m.store)
    (hp : (m.pushScalar v : Run ν Machine).Ends m') : I m'.store := by
  cases v with
  | string text =>
      unfold Machine.pushScalar at hp
      dsimp only at hp
      split at hp
      · cases hp with
        | pause answer hp =>
            cases answer with
            | none =>
                rw [Run.ends_done.mp hp]
                exact h.alloc text (h.collect hm)
            | some n =>
                rw [Run.ends_done.mp hp]
                exact h.alloc text hm
      · rw [Run.ends_done.mp hp]
        exact h.alloc text hm
  | null | bool | int | float =>
      rw [Run.ends_done.mp hp]
      exact hm

theorem pushScalars (h : CodeInvariant sort I) : ∀ {args : List Scalar} {m m' : Machine},
    I m.store → (m.pushScalars args : Run ν Machine).Ends m' → I m'.store
  | [], m, m', hm, hp => by
      rw [Run.ends_done.mp hp]
      exact hm
  | v :: rest, m, m', hm, hp => by
      obtain ⟨m₁, hv, hp⟩ := Run.ends_bind.mp hp
      exact h.pushScalars (h.pushScalar hm hv) hp

/-- After a step at an instruction of the sort, the property holds. -/
theorem after_step (h : CodeInvariant sort I) (hm : I m.store) {f : Frame} {rest : List Frame}
    (hf : m.frames = f :: rest) {g : LinkedFunction}
    (hg : ctx.image.functions[f.function]? = some g) {s : Step} (hs : g.code[f.ip]? = some s)
    (hi : sort s.instruction) :
    After (step ctx) m (fun _ m' => I m'.store) (fun _ m' => I m'.store) :=
  (after_step_writes hf hg hs).mono (fun _ _ ⟨_, hw⟩ => h.writes hi hw hm)
    fun _ _ hw => h.writes hi hw hm

/-- **Every machine that a call of such code reaches has the property.** -/
theorem reached (h : CodeInvariant sort I) (hsound : ctx.image.Sound) {store : Store}
    (hst : ctx.image.Shapes store.statics) {function : Nat}
    (hcode : ∀ i, ctx.image.CodeOf function i → sort i) (hI : I store) {args : List Scalar}
    (hm : Reached ctx store function args m) : I m.store := by
  obtain ⟨m₀, m₁, hp, henter, hturns⟩ := hm
  induction hturns with
  | refl => rw [((leaves_enter function m₀).ok henter).2]; exact h.pushScalars hI hp
  | tail hturns ht ih =>
      obtain ⟨f, rest, g, s, hf, hg, hs, hi⟩ :=
        Reached.next_codeOf hsound hst ⟨m₀, m₁, hp, henter, hturns⟩
      have hafter := h.after_step ih hf hg hs (hcode _ hi)
      cases ht with
      | next hstep => exact hafter.ok hstep
      | allocate hstep hp | invoke hstep answer hp => exact h.pushScalar (hafter.ok hstep) hp

/-- **However a call of such code ends, it leaves the property in place.** -/
theorem call (h : CodeInvariant sort I) (hsound : ctx.image.Sound) {store : Store}
    (hst : ctx.image.Shapes store.statics) {function : Nat}
    (hcode : ∀ i, ctx.image.CodeOf function i → sort i) (hI : I store) {args : List Scalar}
    {o : Outcome} (ho : (Machine.call ctx store function args).Ends o) : I o.store := by
  cases over_of_ends ho with
  | missing _ | arity _ _ => exact hI
  | refused hg _ hp henter =>
      rw [(leaves_enter function _).error henter]
      exact h.pushScalars hI hp
  | closed hg hm hc =>
      obtain ⟨f, rest, g, s, hf, hg', hs, hi⟩ := hm.next_codeOf hsound hst
      have hafter := h.after_step (h.reached hsound hst hcode hI hm) hf hg' hs (hcode _ hi)
      cases hc with
      | raised hstep => exact hafter.error hstep
      | refused hstep message | finished hstep => exact hafter.ok hstep

end CodeInvariant

end Machine

end EmbeddedVm
