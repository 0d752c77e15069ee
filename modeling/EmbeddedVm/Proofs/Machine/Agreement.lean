import EmbeddedVm.Proofs.Machine.Pairing

/-!
# One instruction on two machines

No instruction looks at a handle but through the text it refers to, nor at an index but through what
stands there. So on machines that are alike, in contexts that fit, an instruction does alike:
`agree_step` says that it leaves the same to be done, or fails with the same exception, and that the
machines are alike again. The proof is compositional. `Agree` relates an action on one machine to an
action on the other, it is closed under sequencing (`Agree.bind`), and each part of an instruction
agrees with itself as soon as the values it is given are alike.

During an instruction neither heap changes, which is why both are fixed throughout.
-/

namespace EmbeddedVm.Machine

variable {ν α β γ δ : Type} {P : Pairing} {c₁ c₂ : Context ν} {S : Handle → Handle → Prop}
  {h₁ h₂ : Heap}

/-! ## 1. Agreement -/

/-- Machines with these heaps, and alike in everything else. -/
structure Beside (P : Pairing) (S : Handle → Handle → Prop) (h₁ h₂ : Heap) (m₁ m₂ : Machine) :
    Prop where
  left : m₁.store.heap = h₁
  right : m₂.store.heap = h₂
  statics : P.statics (Value.Alike S h₁ h₂) m₁.store.statics m₂.store.statics
  stack : Abreast (Value.Alike S h₁ h₂) m₁.stack m₂.stack
  scheduler : m₁.store.scheduler = m₂.store.scheduler
  reactor : m₁.store.reactor = m₂.store.reactor
  frames : List.Forall₂ P.FramesAlike m₁.frames m₂.frames

/-- Ends that match: both with related results or both with the same failure. -/
inductive Matched (P : Pairing) (S : Handle → Handle → Prop) (h₁ h₂ : Heap) (R : α → β → Prop) :
    EStateM.Result VmError Machine α → EStateM.Result VmError Machine β → Prop where
  | ok {a : α} {b : β} {m₁ m₂ : Machine} (hR : R a b) (hm : Beside P S h₁ h₂ m₁ m₂) :
    Matched P S h₁ h₂ R (.ok a m₁) (.ok b m₂)
  | error (e : VmError) {m₁ m₂ : Machine} (hm : Beside P S h₁ h₂ m₁ m₂) :
    Matched P S h₁ h₂ R (.error e m₁) (.error e m₂)

/-- **Two actions agree** if their ends match wherever they are carried out side by side. -/
def Agree (P : Pairing) (S : Handle → Handle → Prop) (h₁ h₂ : Heap) (R : α → β → Prop) (x : Exec α)
    (y : Exec β) : Prop :=
  ∀ m₁ m₂, Beside P S h₁ h₂ m₁ m₂ → Matched P S h₁ h₂ R (x.run m₁) (y.run m₂)

theorem agree_pure {R : α → β → Prop} {a : α} {b : β} (h : R a b) :
    Agree P S h₁ h₂ R (pure a) (pure b) :=
  fun _ _ hm => .ok h hm

theorem Agree.bind {R : α → β → Prop} {Q : γ → δ → Prop} {x : Exec α} {y : Exec β}
    {f : α → Exec γ} {g : β → Exec δ} (h : Agree P S h₁ h₂ R x y)
    (hfg : ∀ a b, R a b → Agree P S h₁ h₂ Q (f a) (g b)) :
    Agree P S h₁ h₂ Q (x >>= f) (y >>= g) := by
  intro m₁ m₂ hm
  have hxy := h m₁ m₂ hm
  rw [EStateM.run_bind, EStateM.run_bind]
  generalize x.run m₁ = r₁ at hxy ⊢
  generalize y.run m₂ = r₂ at hxy ⊢
  cases hxy with
  | ok hR hm' => exact hfg _ _ hR _ _ hm'
  | error e hm' => exact .error e hm'

/-- The same action gives the same values. -/
theorem Agree.bind_eq {Q : γ → δ → Prop} {x y : Exec α} {f : α → Exec γ} {g : α → Exec δ}
    (h : Agree P S h₁ h₂ (· = ·) x y) (hfg : ∀ a, Agree P S h₁ h₂ Q (f a) (g a)) :
    Agree P S h₁ h₂ Q (x >>= f) (y >>= g) :=
  h.bind fun a b hab => by
    cases hab
    exact hfg a

theorem agree_get : Agree P S h₁ h₂ (Beside P S h₁ h₂) get get := fun _ _ hm => .ok hm hm

theorem agree_set {m₁ m₂ : Machine} (hm : Beside P S h₁ h₂ m₁ m₂) :
    Agree P S h₁ h₂ (fun _ _ => True) (set m₁ : Exec Unit) (set m₂) :=
  fun _ _ _ => .ok trivial hm

theorem agree_modify {f g : Machine → Machine}
    (h : ∀ m₁ m₂, Beside P S h₁ h₂ m₁ m₂ → Beside P S h₁ h₂ (f m₁) (g m₂)) :
    Agree P S h₁ h₂ (fun _ _ => True) (modify f : Exec Unit) (modify g) :=
  fun _ _ hm => .ok trivial (h _ _ hm)

/-! ## 2. What machines beside each other have in common -/

namespace Beside

variable {m₁ m₂ : Machine}

theorem floor (h : Beside P S h₁ h₂ m₁ m₂) : m₁.floor = m₂.floor := by
  have hframes := h.frames
  unfold Machine.floor
  generalize m₁.frames = l₁ at hframes ⊢
  generalize m₂.frames = l₂ at hframes ⊢
  cases hframes with
  | nil => rfl
  | cons hfg _ => exact hfg.floor

theorem base (h : Beside P S h₁ h₂ m₁ m₂) : m₁.base = m₂.base := by
  have hframes := h.frames
  unfold Machine.base
  generalize m₁.frames = l₁ at hframes ⊢
  generalize m₂.frames = l₂ at hframes ⊢
  cases hframes with
  | nil => rfl
  | cons hfg _ => exact hfg.base

/-- Paired functions have the same name, so the traces are the same. -/
theorem exception (h : Beside P S h₁ h₂ m₁ m₂) (hP : P.Fits c₁ c₂) (fault : Fault) :
    m₁.exception c₁ fault = m₂.exception c₂ fault := by
  have htrace : m₁.trace c₁ = m₂.trace c₂ := by
    have hframes := h.frames
    unfold trace
    generalize m₁.frames = l₁ at hframes ⊢
    generalize m₂.frames = l₂ at hframes ⊢
    induction hframes with
    | nil => rfl
    | cons hfg _ ih => rw [List.map_cons, List.map_cons, hP.linked hfg.function, ih]
  unfold Machine.exception
  rw [htrace]

theorem toScalar (h : Beside P S h₁ h₂ m₁ m₂) {v w : Value} (hvw : v.Alike S h₁ h₂ w) :
    m₁.store.heap.toScalar v = m₂.store.heap.toScalar w := by
  rw [h.left, h.right]
  exact hvw.toScalar

/-- The text of a handle, of which both heaps know the same. -/
theorem textOf (h : Beside P S h₁ h₂ m₁ m₂) {r₁ r₂ : Handle}
    (hr : Value.Alike S h₁ h₂ (.string r₁) (.string r₂)) :
    m₁.store.heap.textOf r₁ = m₂.store.heap.textOf r₂ := by
  unfold Heap.textOf
  rw [h.left, h.right]
  cases hr with
  | string hS hl hr => rw [hl, hr]

theorem display (h : Beside P S h₁ h₂ m₁ m₂) {v w : Value} (hvw : v.Alike S h₁ h₂ w) :
    m₁.display v = m₂.display w := by
  cases hvw with
  | string hS hl hr => exact h.textOf (.string hS hl hr)
  | null | bool | int | float => rfl

theorem equal (h : Beside P S h₁ h₂ m₁ m₂) {v w v' w' : Value} (hv : v.Alike S h₁ h₂ v')
    (hw : w.Alike S h₁ h₂ w') : m₁.equal v w = m₂.equal v' w' := by
  cases hv with
  | string hS hl hr =>
      cases hw with
      | string hS' hl' hr' =>
          unfold Machine.equal
          dsimp only
          rw [h.left, h.right, hl, hr, hl', hr']
      | null | bool | int | float => rfl
  | null | bool | int | float => cases hw <;> rfl

/-- The stacks change in step. -/
theorem withStack (h : Beside P S h₁ h₂ m₁ m₂) {s₁ s₂ : Array Value}
    (hs : Abreast (Value.Alike S h₁ h₂) s₁ s₂) :
    Beside P S h₁ h₂ { m₁ with stack := s₁ } { m₂ with stack := s₂ } :=
  ⟨h.left, h.right, h.statics, hs, h.scheduler, h.reactor, h.frames⟩

theorem withFrames (h : Beside P S h₁ h₂ m₁ m₂) {l₁ l₂ : List Frame}
    (hl : List.Forall₂ P.FramesAlike l₁ l₂) :
    Beside P S h₁ h₂ { m₁ with frames := l₁ } { m₂ with frames := l₂ } :=
  ⟨h.left, h.right, h.statics, h.stack, h.scheduler, h.reactor, hl⟩

theorem withStatics (h : Beside P S h₁ h₂ m₁ m₂) {s₁ s₂ : Array (Array Value)}
    (hs : P.statics (Value.Alike S h₁ h₂) s₁ s₂) :
    Beside P S h₁ h₂ { m₁ with store := { m₁.store with statics := s₁ } }
      { m₂ with store := { m₂.store with statics := s₂ } } :=
  ⟨h.left, h.right, hs, h.stack, h.scheduler, h.reactor, h.frames⟩

theorem withScheduler (h : Beside P S h₁ h₂ m₁ m₂) (scheduler : Scheduler Binary64) :
    Beside P S h₁ h₂ { m₁ with store := { m₁.store with scheduler } }
      { m₂ with store := { m₂.store with scheduler } } :=
  ⟨h.left, h.right, h.statics, h.stack, rfl, h.reactor, h.frames⟩

theorem withReactor (h : Beside P S h₁ h₂ m₁ m₂) (reactor : Reactor) :
    Beside P S h₁ h₂ { m₁ with store := { m₁.store with reactor } }
      { m₂ with store := { m₂.store with reactor } } :=
  ⟨h.left, h.right, h.statics, h.stack, h.scheduler, rfl, h.frames⟩

end Beside

/-! ## 3. Actions of the machine alone -/

theorem agree_push {v w : Value} (hvw : v.Alike S h₁ h₂ w) :
    Agree P S h₁ h₂ (fun _ _ => True) (push v) (push w) :=
  agree_modify fun _ _ hm => hm.withStack (hm.stack.push hvw)

/-- Pushing is the end of most instructions. -/
theorem agree_push_next {v w : Value} (hvw : v.Alike S h₁ h₂ w) :
    Agree P S h₁ h₂ (· = ·) (do push v; return Effect.next (ν := ν)) (do push w; return .next) :=
  (agree_push hvw).bind fun _ _ _ => agree_pure rfl

theorem agree_leave {v w : Value} (hvw : v.Alike S h₁ h₂ w) :
    Agree P S h₁ h₂ (· = ·) (leave v : Exec (Effect ν)) (leave w) := by
  unfold leave
  refine agree_get.bind fun m₁ m₂ hm => ?_
  rw [hm.toScalar hvw]
  have hframes := hm.frames
  generalize m₁.frames = l₁ at hframes ⊢
  generalize m₂.frames = l₂ at hframes ⊢
  cases hframes with
  | nil => exact agree_pure rfl
  | @cons f g rest₁ rest₂ hfg hrest =>
      dsimp only
      rw [hfg.base]
      refine (agree_set ((hm.withStack (hm.stack.shrink g.base)).withFrames hrest)).bind
        fun _ _ _ => ?_
      cases hrest with
      | nil => exact agree_pure rfl
      | cons => exact (agree_push hvw).bind fun _ _ _ => agree_pure rfl

theorem agree_goto (ip : Nat) : Agree P S h₁ h₂ (fun _ _ => True) (goto ip) (goto ip) := by
  refine agree_modify fun m₁ m₂ hm => ?_
  have hframes := hm.frames
  generalize m₁.frames = l₁ at hframes ⊢
  generalize m₂.frames = l₂ at hframes ⊢
  cases hframes with
  | nil => exact hm
  | cons hfg hrest => exact hm.withFrames (.cons ⟨hfg.function, rfl, hfg.base, hfg.floor⟩ hrest)

/-! ## 4. Operands -/

section Contexts

variable (hP : P.Fits c₁ c₂)

include hP

theorem agree_raise {R : α → β → Prop} (fault : Fault) :
    Agree P S h₁ h₂ R (raise c₁ fault) (raise c₂ fault) := by
  intro m₁ m₂ hm
  show Matched P S h₁ h₂ R (.error (m₁.exception c₁ fault) m₁) (.error (m₂.exception c₂ fault) m₂)
  rw [hm.exception hP]
  exact .error _ hm

theorem agree_pop : Agree P S h₁ h₂ (Value.Alike S h₁ h₂) (pop c₁) (pop c₂) := by
  unfold pop
  refine agree_get.bind fun m₁ m₂ hm => ?_
  rw [hm.stack.size, hm.floor]
  split
  · exact agree_raise hP _
  · unfold Array.back?
    rw [hm.stack.size]
    rcases hm.stack.lookup (m₂.stack.size - 1) with ⟨v, w, hv, hw, hvw⟩ | ⟨hv, hw⟩
    · rw [hv, hw]
      exact (agree_modify fun _ _ hm => hm.withStack hm.stack.pop).bind
        fun _ _ _ => agree_pure hvw
    · rw [hv, hw]
      exact agree_raise hP _

theorem agree_popInt (op : Opcode) : Agree P S h₁ h₂ (· = ·) (popInt c₁ op) (popInt c₂ op) := by
  unfold popInt
  refine (agree_pop hP).bind fun v w hvw => ?_
  cases hvw with
  | int n => exact agree_pure rfl
  | null | bool | float | string => exact agree_raise hP _

theorem agree_popNumber (op : Opcode) :
    Agree P S h₁ h₂ (· = ·) (popNumber c₁ op) (popNumber c₂ op) := by
  unfold popNumber
  refine (agree_pop hP).bind fun v w hvw => ?_
  cases hvw with
  | int n => exact agree_pure rfl
  | float x => exact agree_pure rfl
  | null | bool | string => exact agree_raise hP _

theorem agree_popArgs (count : Nat) (after : List Scalar) :
    Agree P S h₁ h₂ (· = ·) (popArgs c₁ count after) (popArgs c₂ count after) := by
  induction count generalizing after with
  | zero => exact agree_pure rfl
  | succ count ih =>
      unfold popArgs
      refine (agree_pop hP).bind fun v w hvw => agree_get.bind fun m₁ m₂ hm => ?_
      rw [hm.toScalar hvw]
      exact ih _

theorem agree_compare (op : Comparison) {a b a' b' : Value} (ha : a.Alike S h₁ h₂ a')
    (hb : b.Alike S h₁ h₂ b') :
    Agree P S h₁ h₂ (· = ·) (compare c₁ op a b) (compare c₂ op a' b') := by
  unfold compare
  cases ha with
  | null | bool =>
      dsimp only
      rw [hb.kind]
      exact agree_raise hP _
  | int | float =>
      cases hb with
      | int | float => exact agree_pure rfl
      | null | bool | string => exact agree_raise hP _
  | string hS hl hr =>
      cases hb with
      | string hS' hl' hr' =>
          refine agree_get.bind fun m₁ m₂ hm => agree_pure ?_
          rw [hm.textOf (.string hS hl hr), hm.textOf (.string hS' hl' hr')]
      | null | bool | int | float => exact agree_raise hP _

theorem agree_truth (op : Opcode) {v w : Value} (hvw : v.Alike S h₁ h₂ w) :
    Agree P S h₁ h₂ (· = ·) (truth c₁ op v) (truth c₂ op w) := by
  cases hvw with
  | null | bool => exact agree_pure rfl
  | int | float | string => exact agree_raise hP _

/-! ## 5. Instructions -/

/-- Paired functions are entered alike. -/
theorem agree_enter {i j : Nat} (hij : P.function i j) :
    Agree P S h₁ h₂ (fun _ _ => True) (enter c₁ i) (enter c₂ j) := by
  unfold enter
  refine agree_get.bind fun m₁ m₂ hm => ?_
  rw [hm.frames.length_eq, hP.depth]
  split
  · exact agree_raise hP _
  · cases hi : c₁.image.functions[i]? with
    | none =>
        obtain rfl := hP.missing hij hi
        rw [← hP.linked hij, hi]
        exact agree_raise hP _
    | some f =>
        rw [← hP.linked hij, hi]
        dsimp only
        rw [hm.stack.size, hm.floor]
        split
        · exact agree_raise hP _
        · refine agree_modify fun a b hab => ?_
          rw [hab.stack.size, (hab.stack.shrink _).size]
          exact (hab.withStack ((hab.stack.shrink _).append (.replicate _ .null))).withFrames
            (.cons ⟨hij, rfl, rfl, rfl⟩ hab.frames)

theorem agree_simple (op : SimpleOp) : Agree P S h₁ h₂ (· = ·) (simple c₁ op) (simple c₂ op) := by
  unfold simple
  cases op with
  | nop => exact agree_pure rfl
  | pop => exact (agree_pop hP).bind fun _ _ _ => agree_pure rfl
  | dup =>
      exact (agree_pop hP).bind fun v w hvw => (agree_push hvw).bind fun _ _ _ => agree_push_next hvw
  | pushNull => exact agree_push_next .null
  | pushBool b => exact agree_push_next (.bool b)
  | int o =>
      refine (agree_popInt hP _).bind_eq fun b => (agree_popInt hP _).bind_eq fun a => ?_
      cases intResult? o a b with
      | some n => exact agree_push_next (.int n)
      | none => exact agree_raise hP _
  | intNeg => exact (agree_popInt hP _).bind_eq fun a => agree_push_next (.int _)
  | float o =>
      exact (agree_popNumber hP _).bind_eq fun b => (agree_popNumber hP _).bind_eq fun a =>
        agree_push_next (.float _)
  | floatNeg => exact (agree_popNumber hP _).bind_eq fun a => agree_push_next (.float _)
  | toFloat => exact (agree_popNumber hP _).bind_eq fun a => agree_push_next (.float a)
  | toInt =>
      refine (agree_pop hP).bind fun v w hvw => ?_
      cases hvw with
      | int n => exact agree_push_next (.int n)
      | float x => exact agree_push_next (.int _)
      | null | bool | string => exact agree_raise hP _
  | eq =>
      refine (agree_pop hP).bind fun b b' hb => (agree_pop hP).bind fun a a' ha =>
        agree_get.bind fun m₁ m₂ hm => ?_
      rw [hm.equal ha hb]
      exact agree_push_next (.bool _)
  | ne =>
      refine (agree_pop hP).bind fun b b' hb => (agree_pop hP).bind fun a a' ha =>
        agree_get.bind fun m₁ m₂ hm => ?_
      rw [hm.equal ha hb]
      exact agree_push_next (.bool _)
  | compare o =>
      exact (agree_pop hP).bind fun b b' hb => (agree_pop hP).bind fun a a' ha =>
        (agree_compare hP o ha hb).bind_eq fun result => agree_push_next (.bool result)
  | not =>
      exact (agree_pop hP).bind fun v w hvw => (agree_truth hP _ hvw).bind_eq fun b =>
        agree_push_next (.bool _)
  | concat =>
      refine (agree_pop hP).bind fun b b' hb => (agree_pop hP).bind fun a a' ha =>
        agree_get.bind fun m₁ m₂ hm => ?_
      rw [hm.display ha, hm.display hb]
      exact agree_pure rfl
  | ret => exact (agree_pop hP).bind fun v w hvw => agree_leave hvw
  | retVoid => exact agree_leave .null
  | throw =>
      refine (agree_pop hP).bind fun v w hvw => agree_get.bind fun m₁ m₂ hm => ?_
      rw [hm.display hvw]
      exact agree_raise hP _
  | timerCancel =>
      refine (agree_popInt hP _).bind_eq fun id => ?_
      split
      · refine agree_get.bind fun m₁ m₂ hm => ?_
        rw [hm.scheduler]
        exact (agree_set (hm.withScheduler _)).bind fun _ _ _ => agree_push_next (.bool _)
      · exact agree_push_next (.bool false)

theorem agree_callback (kind : Callback) {function : Nat} (hf : P.function function function) :
    Agree P S h₁ h₂ (· = ·) (callback c₁ kind function) (callback c₂ kind function) := by
  unfold callback
  rw [hP.linked hf]
  cases c₂.image.functions[function]? with
  | none => exact agree_raise hP _
  | some f =>
      have timer (repeats : Bool) : Agree P S h₁ h₂ (· = ·)
          (do
            let delay ← popNumber c₁ (.callback kind)
            let m ← get
            let added := m.store.scheduler.addTimer f.name delay repeats
            set { m with store := { m.store with scheduler := added.1 } }
            push (.int added.2.toInt32)
            return Effect.next (ν := ν) : Exec (Effect ν))
          (do
            let delay ← popNumber c₂ (.callback kind)
            let m ← get
            let added := m.store.scheduler.addTimer f.name delay repeats
            set { m with store := { m.store with scheduler := added.1 } }
            push (.int added.2.toInt32)
            return .next) := by
        refine (agree_popNumber hP _).bind_eq fun delay => agree_get.bind fun m₁ m₂ hm => ?_
        rw [hm.scheduler]
        exact (agree_set (hm.withScheduler _)).bind fun _ _ _ => agree_push_next (.int _)
      cases kind with
      | timerOnce => exact timer false
      | timerEvery => exact timer true
      | mainLoop =>
          refine (agree_modify fun m₁ m₂ hm => ?_).bind fun _ _ _ => agree_pure rfl
          rw [hm.scheduler]
          exact hm.withScheduler _
      | asyncRead =>
          refine (agree_pop hP).bind fun v w hvw => ?_
          cases hvw with
          | string hS hl hr =>
              refine (agree_modify fun m₁ m₂ hm => ?_).bind fun _ _ _ => agree_pure rfl
              dsimp only
              rw [hm.textOf (.string hS hl hr), hm.reactor]
              exact hm.withReactor _
          | null | bool | int | float => exact agree_raise hP _

theorem agree_taken (kind : Jump) : Agree P S h₁ h₂ (· = ·) (taken c₁ kind) (taken c₂ kind) := by
  unfold taken
  cases kind with
  | always => exact agree_pure rfl
  | ifFalse =>
      exact (agree_pop hP).bind fun v w hvw => (agree_truth hP _ hvw).bind_eq fun b => agree_pure rfl
  | ifTrue => exact (agree_pop hP).bind fun v w hvw => agree_truth hP _ hvw

theorem agree_storeStatic {cls field : Nat} (hf : P.field cls field cls field) {v w : Value}
    (hvw : v.Alike S h₁ h₂ w) :
    Agree P S h₁ h₂ (· = ·) (execute.store c₁ cls field v) (execute.store c₂ cls field w) := by
  unfold execute.store
  refine agree_get.bind fun m₁ m₂ hm => ?_
  rcases P.lookup hm.statics hf with ⟨v', w', hv', hw', -⟩ | ⟨hv', hw'⟩
  · rw [hv', hw', if_pos Option.isSome_some, if_pos Option.isSome_some]
    exact (agree_set (hm.withStatics (P.store hm.statics hf hvw))).bind fun _ _ _ => agree_pure rfl
  · rw [hv', hw']
    exact agree_raise hP _

/-- A static field is written alike where both sides declare it alike. -/
theorem agree_execute_storeStatic {cls : UInt32} {field : UInt16} (target : Nat)
    (h : P.Aligned c₁ c₂ (.storeStatic cls field)) :
    Agree P S h₁ h₂ (· = ·) (execute c₁ ⟨.storeStatic cls field, target⟩)
      (execute c₂ ⟨.storeStatic cls field, target⟩) := by
  obtain ⟨hfield, hdeclared⟩ := h
  unfold execute
  refine (agree_pop hP).bind fun v w hvw => ?_
  cases hl : c₁.image.static? cls.toNat field.toNat with
  | none =>
      rw [hl, Option.map_none] at hdeclared
      rw [Option.map_eq_none_iff.mp hdeclared.symm]
      exact agree_raise hP _
  | some p =>
      rw [hl, Option.map_some] at hdeclared
      obtain ⟨p', hr, heq⟩ := Option.map_eq_some_iff.mp hdeclared.symm
      simp only [Prod.mk.injEq] at heq
      obtain ⟨hcls, hname, hkind⟩ := heq
      rw [hr]
      dsimp only
      rw [hcls, hname, hkind, hvw.kind]
      cases p.2.kind? with
      | none => exact agree_storeStatic hP hfield hvw
      | some k =>
          dsimp only
          rw [hvw.fits]
          split
          · exact agree_storeStatic hP hfield hvw
          · exact agree_raise hP _

theorem agree_execute {s : Step} (h : P.Aligned c₁ c₂ s.instruction) :
    Agree P S h₁ h₂ (· = ·) (execute c₁ s) (execute c₂ s) := by
  obtain ⟨i, target⟩ := s
  unfold execute
  cases i with
  | simple op => exact agree_simple hP op
  | pushInt n => exact agree_push_next (.int n)
  | pushFloat x => exact agree_push_next (.float x)
  | pushString index =>
      have hindex : c₁.image.module.strings[index.toNat]? =
        c₂.image.module.strings[index.toNat]? := h
      dsimp only
      rw [hindex]
      cases c₂.image.module.strings[index.toNat]? with
      | some text => exact agree_pure rfl
      | none => exact agree_raise hP _
  | loadLocal slot =>
      refine agree_get.bind fun m₁ m₂ hm => ?_
      rw [hm.base]
      rcases hm.stack.lookup (m₂.base + slot.toNat) with ⟨v, w, hv, hw, hvw⟩ | ⟨hv, hw⟩
      · rw [hv, hw]
        exact agree_push_next hvw
      · rw [hv, hw]
        exact agree_raise hP _
  | storeLocal slot =>
      refine (agree_pop hP).bind fun v w hvw => agree_get.bind fun m₁ m₂ hm => ?_
      dsimp only
      rw [hm.base, hm.stack.size]
      split
      · exact (agree_set (hm.withStack (hm.stack.setIfInBounds _ hvw))).bind
          fun _ _ _ => agree_pure rfl
      · exact agree_raise hP _
  | loadStatic cls field =>
      refine agree_get.bind fun m₁ m₂ hm => ?_
      rcases P.lookup hm.statics h with ⟨v, w, hv, hw, hvw⟩ | ⟨hv, hw⟩
      · rw [hv, hw]
        exact agree_push_next hvw
      · rw [hv, hw]
        exact agree_raise hP _
  | storeStatic cls field => exact agree_execute_storeStatic hP target h
  | jump kind relative =>
      refine (agree_taken hP kind).bind_eq fun b => ?_
      split
      · exact (agree_goto _).bind fun _ _ _ => agree_pure rfl
      · exact agree_pure rfl
  | call function => exact (agree_enter hP h).bind fun _ _ _ => agree_pure rfl
  | callNative native argc =>
      have hnative : c₁.image.imports.get? native.toNat = c₂.image.imports.get? native.toNat := h
      dsimp only
      rw [hnative]
      refine (agree_popArgs hP _ _).bind_eq fun args => ?_
      cases c₂.image.imports.get? native.toNat with
      | some found => exact agree_pure rfl
      | none => exact agree_raise hP _
  | callback kind function => exact agree_callback hP kind h

/-- **An instruction does alike on machines that are alike**, in contexts that fit. -/
theorem agree_step : Agree P S h₁ h₂ (· = ·) (step c₁) (step c₂) := by
  unfold step
  refine agree_get.bind fun m₁ m₂ hm => ?_
  have hframes := hm.frames
  generalize m₁.frames = l₁ at hframes ⊢
  generalize m₂.frames = l₂ at hframes ⊢
  cases hframes with
  | nil => exact agree_pure rfl
  | @cons f g rest₁ rest₂ hfg hrest =>
      dsimp only
      rw [hP.linked hfg.function, hfg.ip]
      cases hs : c₂.image.functions[g.function]?.bind (·.code[g.ip]?) with
      | none => exact agree_raise hP _
      | some s =>
          obtain ⟨linked, hlinked, hcode⟩ := Option.bind_eq_some_iff.mp hs
          have haligned := hP.aligned hfg.function ((hP.linked hfg.function).trans hlinked)
            (Array.mem_of_getElem? hcode)
          have hmoved : P.FramesAlike { f with ip := g.ip + 1 } { g with ip := g.ip + 1 } :=
            ⟨hfg.function, rfl, hfg.base, hfg.floor⟩
          exact (agree_set (hm.withFrames (.cons hmoved hrest))).bind
            fun _ _ _ => agree_execute hP haligned

end Contexts

end EmbeddedVm.Machine
