import EmbeddedVm.Proofs.Machine.Change

/-!
# The inversion of a step

What one step of sound code can do, said once: `after_step`. An instruction makes a chain of
elementary changes and then either lets its function go on, moves it to another step, enters a
function or leaves one; and where it fails, the machine has made such a chain and the fault is
dynamic.
-/

namespace EmbeddedVm

variable {ν α β : Type}

/-- The effects behind which the run goes on. -/
def Effect.Continues : Effect ν → Prop
  | .finish _ => False
  | _ => True

namespace Machine

variable {ctx : Context ν}

/-! ## 1. Actions that make elementary changes -/

/-- Code fails with a dynamic fault, having made elementary changes. -/
def Fails (ctx : Context ν) (m : Machine) (e : VmError) (m' : Machine) : Prop :=
  Changes ctx m m' ∧ ∃ fault : Fault, fault.IsDynamic ∧ e = m'.exception ctx fault

/-- **An action that makes elementary changes** and ends with a result of which `R` holds, or fails
    with a dynamic fault. -/
def Acts (ctx : Context ν) (R : α → Prop) (x : Exec α) : Prop :=
  ∀ m, Placed ctx m → After x m (fun a m' => R a ∧ Changes ctx m m') (Fails ctx m)

/-- What an action does behind a chain of changes adds to the chain. -/
theorem after_changes {R : α → Prop} {x : Exec α} {m m' : Machine} (h : Changes ctx m m')
    (hx : After x m' (fun a m'' => R a ∧ Changes ctx m' m'') (Fails ctx m')) :
    After x m' (fun a m'' => R a ∧ Changes ctx m m'') (Fails ctx m) :=
  hx.mono (fun _ _ ⟨ha, hc⟩ => ⟨ha, h.trans hc⟩) fun _ _ ⟨hc, hf⟩ => ⟨h.trans hc, hf⟩

theorem acts_pure {R : α → Prop} {a : α} (h : R a) : Acts ctx R (pure a) :=
  fun _ _ => ⟨h, .refl⟩

theorem acts_raise {R : α → Prop} {fault : Fault} (h : fault.IsDynamic) :
    Acts ctx R (raise ctx fault) :=
  fun _ _ => ⟨.refl, fault, h, rfl⟩

theorem acts_bind {R : α → Prop} {S : β → Prop} {x : Exec α} {f : α → Exec β}
    (hx : Acts ctx R x) (hf : ∀ a, R a → Acts ctx S (f a)) : Acts ctx S (x >>= f) := fun m hm => by
  rw [after_bind]
  refine (hx m hm).mono (fun a m' ⟨ha, hc⟩ => ?_) fun _ _ h => h
  exact after_changes hc (hf a ha m' (hm.changes hc))

theorem acts_get {R : α → Prop} {f : Machine → Exec α} (hf : ∀ m, Acts ctx R (f m)) :
    Acts ctx R (get >>= f) := fun m hm => after_get.mpr (hf m m hm)

/-- An action behind one elementary change. -/
theorem after_change {R : α → Prop} {x : Exec α} {m m' : Machine} (hm : Placed ctx m)
    (h : Change ctx m m') (hx : Acts ctx R x) :
    After x m' (fun a m'' => R a ∧ Changes ctx m m'') (Fails ctx m) :=
  after_changes h.single (hx m' (hm.change h))

/-! ## 2. Operands -/

theorem acts_push (v : Value) : Acts ctx (fun _ => True) (push v) :=
  fun _ _ => ⟨trivial, (Change.push v).single⟩

/-- Most instructions end by pushing their result. -/
theorem acts_push_next (v : Value) :
    Acts ctx Effect.Continues (push v >>= fun _ => pure (.next : Effect ν)) :=
  acts_bind (acts_push v) fun _ _ => acts_pure trivial

theorem acts_pop : Acts ctx (fun _ => True) (pop ctx) := fun m hm => by
  unfold pop
  rw [after_get]
  split
  · exact acts_raise (show Fault.IsDynamic .stackUnderflow from trivial) m hm
  · rename_i h
    split
    · exact ⟨trivial, (Change.pop (by omega)).single⟩
    · exact acts_raise (show Fault.IsDynamic .stackUnderflow from trivial) m hm

theorem acts_popInt (op : Opcode) : Acts ctx (fun _ => True) (popInt ctx op) :=
  acts_bind acts_pop fun v _ => by
    cases v with
    | int n => exact acts_pure trivial
    | _ => exact acts_raise trivial

theorem acts_popNumber (op : Opcode) : Acts ctx (fun _ => True) (popNumber ctx op) :=
  acts_bind acts_pop fun v _ => by
    cases v with
    | int n => exact acts_pure trivial
    | float x => exact acts_pure trivial
    | _ => exact acts_raise trivial

theorem acts_popArgs : ∀ (count : Nat) (after : List Scalar),
    Acts ctx (fun _ => True) (popArgs ctx count after)
  | 0, _ => acts_pure trivial
  | count + 1, _ => acts_bind acts_pop fun _ _ => acts_get fun _ => acts_popArgs count _

theorem acts_compare (op : Comparison) (a b : Value) :
    Acts ctx (fun _ => True) (compare ctx op a b) := by
  unfold compare
  cases a with
  | int x =>
      cases b with
      | int y => exact acts_pure trivial
      | float y => exact acts_pure trivial
      | _ => exact acts_raise trivial
  | float x =>
      cases b with
      | int y => exact acts_pure trivial
      | float y => exact acts_pure trivial
      | _ => exact acts_raise trivial
  | string x =>
      cases b with
      | string y => exact acts_get fun _ => acts_pure trivial
      | _ => exact acts_raise trivial
  | _ => exact acts_raise trivial

theorem acts_truth (op : Opcode) (v : Value) : Acts ctx (fun _ => True) (truth ctx op v) := by
  cases v with
  | bool b => exact acts_pure trivial
  | null => exact acts_pure trivial
  | _ => exact acts_raise trivial

theorem acts_taken (kind : Jump) : Acts ctx (fun _ => True) (taken ctx kind) := by
  cases kind with
  | always => exact acts_pure trivial
  | ifFalse =>
      exact acts_bind acts_pop fun v _ => acts_bind (acts_truth _ v) fun _ _ => acts_pure trivial
  | ifTrue => exact acts_bind acts_pop fun v _ => acts_truth _ v

/-! ## 3. Straight instructions -/

/-- The instructions that leave the frames alone. -/
def Straight : Instruction → Prop
  | .simple .ret | .simple .retVoid | .jump _ _ | .call _ => False
  | _ => True

theorem acts_timerCancel :
    Acts ctx Effect.Continues (simple ctx .timerCancel) := by
  unfold simple
  refine acts_bind (acts_popInt _) fun id _ => ?_
  split
  · intro m hm
    rw [after_get]
    dsimp only
    rw [after_set]
    exact after_change hm (.cancel id.toUInt32) (acts_push_next _)
  · exact acts_push_next _

theorem acts_simple (op : SimpleOp) (h : Straight (.simple op)) :
    Acts ctx Effect.Continues (simple ctx op) := by
  cases op with
  | timerCancel => exact acts_timerCancel
  | ret => exact h.elim
  | retVoid => exact h.elim
  | nop => exact acts_pure trivial
  | pop => exact acts_bind acts_pop fun _ _ => acts_pure trivial
  | dup =>
      exact acts_bind acts_pop fun v _ => acts_bind (acts_push v) fun _ _ => acts_push_next v
  | pushNull => exact acts_push_next _
  | pushBool b => exact acts_push_next _
  | int o =>
      refine acts_bind (acts_popInt _) fun b _ => acts_bind (acts_popInt _) fun a _ => ?_
      split
      · exact acts_push_next _
      · exact acts_raise trivial
  | intNeg => exact acts_bind (acts_popInt _) fun _ _ => acts_push_next _
  | float o =>
      exact acts_bind (acts_popNumber _) fun _ _ => acts_bind (acts_popNumber _) fun _ _ =>
        acts_push_next _
  | floatNeg => exact acts_bind (acts_popNumber _) fun _ _ => acts_push_next _
  | toFloat => exact acts_bind (acts_popNumber _) fun _ _ => acts_push_next _
  | toInt =>
      refine acts_bind acts_pop fun v _ => ?_
      cases v with
      | int n => exact acts_push_next _
      | float x => exact acts_push_next _
      | _ => exact acts_raise trivial
  | eq =>
      exact acts_bind acts_pop fun _ _ => acts_bind acts_pop fun _ _ => acts_get fun _ =>
        acts_push_next _
  | ne =>
      exact acts_bind acts_pop fun _ _ => acts_bind acts_pop fun _ _ => acts_get fun _ =>
        acts_push_next _
  | compare o =>
      exact acts_bind acts_pop fun b _ => acts_bind acts_pop fun a _ =>
        acts_bind (acts_compare o a b) fun _ _ => acts_push_next _
  | not =>
      exact acts_bind acts_pop fun v _ => acts_bind (acts_truth _ v) fun _ _ => acts_push_next _
  | concat =>
      exact acts_bind acts_pop fun _ _ => acts_bind acts_pop fun _ _ => acts_get fun _ =>
        acts_pure trivial
  | throw => exact acts_bind acts_pop fun _ _ => acts_get fun _ => acts_raise trivial

/-- A callback is handed over with the number of parameters it will be called with. -/
theorem acts_callback {kind : Callback} {g : Nat} {f : LinkedFunction}
    (hf : ctx.image.functions[g]? = some f) (hp : f.params = kind.arity.toNat) :
    Acts ctx Effect.Continues (callback ctx kind g) := by
  have timer (op : Opcode) (h0 : f.params = 0) (repeats : Bool) :
      Acts ctx Effect.Continues (do
        let delay ← popNumber ctx op
        let m ← get
        let added := m.store.scheduler.addTimer f.name delay repeats
        set { m with store := { m.store with scheduler := added.1 } }
        push (.int added.2.toInt32)
        return (.next : Effect ν)) := by
    refine acts_bind (acts_popNumber _) fun delay _ m hm => ?_
    rw [after_get]
    dsimp only
    rw [after_set]
    exact after_change hm (.addTimer hf h0 delay repeats) (acts_push_next _)
  unfold callback
  rw [hf]
  cases kind with
  | timerOnce => exact timer _ hp false
  | timerEvery => exact timer _ hp true
  | mainLoop =>
      intro m hm
      exact ⟨trivial, (Change.addMainLoop hf hp).single⟩
  | asyncRead =>
      refine acts_bind acts_pop fun v _ => ?_
      cases v with
      | string r =>
          intro m hm
          exact ⟨trivial, (Change.submit hf hp (m.store.heap.textOf r)).single⟩
      | _ => exact acts_raise trivial

/-- The local a sound step names lies between base and floor of the innermost frame. -/
theorem lt_floor_of_refers {m : Machine} (hm : Placed ctx m) {f : Frame} {rest : List Frame}
    (hf : m.frames = f :: rest) {g : LinkedFunction}
    (hg : ctx.image.functions[f.function]? = some g) {slot : Nat} (h : slot < g.locals) :
    m.base + slot < m.floor ∧ m.floor ≤ m.stack.size := by
  refine ⟨?_, hm.floor_le⟩
  have hs := hm.frames
  rw [hf] at hs
  obtain ⟨⟨g', hg', hsum⟩, -, -⟩ := hs
  rw [hg] at hg'
  cases hg'
  unfold base floor
  rw [hf]
  show f.base + slot < f.floor
  omega

/-- The slot of a static field that exists. -/
theorem exists_slot {image : Image ν} {statics : Array (Array Value)} (h : image.Shapes statics)
    {c field : Nat} {cls : Class} (hc : image.module.classes[c]? = some cls)
    (hf : field < cls.statics.length) :
    ∃ v, statics[c]?.bind (·[field]?) = some v := by
  have hc' := congrArg (fun l => l[c]?) h
  simp only [List.getElem?_map, hc, Option.map_some, Array.getElem?_toList] at hc'
  cases hs : statics[c]? with
  | none => rw [hs] at hc'; cases hc'
  | some fields =>
      rw [hs] at hc'
      have hsize : fields.size = cls.statics.length := by simpa using hc'
      exact ⟨fields[field], by simp [hsize, hf]⟩

theorem acts_storeStatic {c field : Nat} {cls : Class} {f : StaticField} {v : Value}
    (h : ctx.image.static? c field = some (cls, f)) (hv : v.fits f.kind? = true)
    (hc : ctx.image.module.classes[c]? = some cls) (hf : field < cls.statics.length) :
    Acts ctx Effect.Continues (execute.store ctx c field v) := fun m hm => by
  obtain ⟨w, hw⟩ := exists_slot hm.statics hc hf
  unfold execute.store
  rw [after_get, hw]
  exact ⟨trivial, (Change.setStatic h hv).single⟩

/-- **A straight instruction of sound code makes elementary changes.** -/
theorem after_straight {m : Machine} (hm : Placed ctx m) {f : Frame} {rest : List Frame}
    (hf : m.frames = f :: rest) {g : LinkedFunction}
    (hg : ctx.image.functions[f.function]? = some g) {s : Step} (hs : s.Refers ctx.image g)
    (hst : Straight s.instruction) :
    After (execute ctx s) m (fun effect m' => effect.Continues ∧ Changes ctx m m')
      (Fails ctx m) := by
  unfold Step.Refers at hs
  unfold execute
  cases hi : s.instruction with
  | simple op => rw [hi] at hst; exact acts_simple op hst m hm
  | pushInt n => exact acts_push_next _ m hm
  | pushFloat x => exact acts_push_next _ m hm
  | pushString index =>
      rw [hi] at hs
      dsimp only at hs ⊢
      rw [List.getElem?_eq_getElem hs]
      exact ⟨trivial, .refl⟩
  | loadLocal slot =>
      rw [hi] at hs
      obtain ⟨hlt, hle⟩ := lt_floor_of_refers hm hf hg hs
      dsimp only
      rw [after_get, Array.getElem?_eq_getElem (by omega)]
      exact acts_push_next _ m hm
  | storeLocal slot =>
      rw [hi] at hs
      dsimp only
      rw [after_bind]
      refine (acts_pop m hm).mono (fun v m' ⟨_, hc⟩ => ?_) fun _ _ h => h
      -- the pop moves no frame, so the local still lies below the floor
      have hm' := hm.changes hc
      obtain ⟨hlt, hle⟩ := lt_floor_of_refers hm' (hc.frames_eq.1.trans hf) hg hs
      refine after_changes hc ?_
      rw [after_get, if_pos (by omega)]
      exact ⟨trivial, (Change.setLocal v (Nat.le_add_right _ _) hlt).single⟩
  | loadStatic c field =>
      rw [hi] at hs
      obtain ⟨cls, hc, hlt⟩ := hs
      obtain ⟨v, hv⟩ := exists_slot hm.statics hc hlt
      dsimp only
      rw [after_get, hv]
      exact acts_push_next _ m hm
  | storeStatic c field =>
      rw [hi] at hs
      obtain ⟨cls, hc, hlt⟩ := hs
      have hstatic : ctx.image.static? c.toNat field.toNat =
          some (cls, cls.statics[field.toNat]) := by
        unfold Image.static?
        simp [hc, hlt]
      refine acts_bind (R := fun _ => True) acts_pop (fun v _ => ?_) m hm
      rw [hstatic]
      dsimp only
      split
      · rename_i k hk
        split
        · exact acts_storeStatic hstatic (by rw [hk]; assumption) hc hlt
        · exact acts_raise trivial
      · rename_i hk
        exact acts_storeStatic hstatic (by rw [hk]; rfl) hc hlt
  | jump kind offset => rw [hi] at hst; exact hst.elim
  | call callee => rw [hi] at hst; exact hst.elim
  | callNative n argc =>
      rw [hi] at hs
      refine acts_bind (R := fun _ => True) (acts_popArgs _ _) (fun args _ => ?_) m hm
      unfold Imports.get?
      rw [Array.getElem?_eq_getElem hs]
      exact acts_pure (R := Effect.Continues) trivial
  | callback kind callee =>
      rw [hi] at hs
      obtain ⟨h, hh, hp⟩ := hs
      exact acts_callback hh hp m hm

/-! ## 4. Instructions that move between frames -/

/-- The machine inside a function, which has taken its parameters off the operands. -/
def entered (m : Machine) (function : Nat) (g : LinkedFunction) : Machine :=
  let base := m.stack.size - g.params
  let floor := base + g.locals
  let kept := m.stack.shrink floor
  { m with
    stack := kept ++ Array.replicate (floor - kept.size) .null
    frames := { function, base, floor } :: m.frames }

/-- The machine whose innermost function goes on at `ip`. -/
def movedTo (m : Machine) (ip : Nat) : Machine :=
  match m.frames with
  | [] => m
  | f :: rest => { m with frames := { f with ip } :: rest }

/-- The machine whose innermost function has fetched a step. -/
def fetched (m : Machine) : Machine :=
  match m.frames with
  | [] => m
  | f :: rest => { m with frames := { f with ip := f.ip + 1 } :: rest }

/-- What entering a function comes to. -/
theorem run_enter (m : Machine) {function : Nat} {g : LinkedFunction}
    (hg : ctx.image.functions[function]? = some g) :
    (enter ctx function).run m =
      if ctx.maxDepth ≤ m.frames.length then
        .error (m.exception ctx (.stackOverflow ctx.maxDepth)) m
      else if m.stack.size < m.floor + g.params then .error (m.exception ctx .underflowInCall) m
      else .ok () (m.entered function g) := by
  unfold enter
  rw [EStateM.run_bind, EStateM.run_get]
  dsimp only
  rw [hg]
  split
  · rfl
  · dsimp only
    split
    · rfl
    · rfl

/-- Entering a function fails, or there was room for it. -/
theorem after_enter (m : Machine) {function : Nat} {g : LinkedFunction}
    (hg : ctx.image.functions[function]? = some g) :
    After (enter ctx function) m
      (fun _ m' => m' = m.entered function g ∧ m.frames.length < ctx.maxDepth ∧
        m.floor + g.params ≤ m.stack.size) (Fails ctx m) := by
  unfold After
  rw [run_enter m hg]
  by_cases hdepth : ctx.maxDepth ≤ m.frames.length
  · rw [if_pos hdepth]
    exact ⟨.refl, .stackOverflow ctx.maxDepth, trivial, rfl⟩
  · rw [if_neg hdepth]
    by_cases hfew : m.stack.size < m.floor + g.params
    · rw [if_pos hfew]
      exact ⟨.refl, .underflowInCall, trivial, rfl⟩
    · rw [if_neg hfew]
      exact ⟨rfl, Nat.not_le.mp hdepth, Nat.not_lt.mp hfew⟩

/-- **The ways in which an instruction ends**, after its elementary changes have led to `m`. -/
inductive Stepped (ctx : Context ν) (s : Step) (m : Machine) : Effect ν → Machine → Prop where
  /-- Its function goes on with the next step. -/
  | onward {effect : Effect ν} (ht : s.instruction.opcode.isTerminator = false)
      (he : effect.Continues) : Stepped ctx s m effect m
  /-- Its function goes on where the jump leads. -/
  | jumped {kind : Jump} {offset : Int32} (hi : s.instruction = .jump kind offset) :
    Stepped ctx s m .next (m.movedTo s.target)
  /-- Another function is called. -/
  | called {callee : UInt32} {g : LinkedFunction} (hi : s.instruction = .call callee)
      (hg : ctx.image.functions[callee.toNat]? = some g) (hd : m.frames.length < ctx.maxDepth)
      (hr : m.floor + g.params ≤ m.stack.size) :
    Stepped ctx s m .next (m.entered callee.toNat g)
  /-- Its function returns to its caller. -/
  | returned {f : Frame} {rest : List Frame} (v : Value) (hf : m.frames = f :: rest)
      (hr : rest ≠ []) :
    Stepped ctx s m .next { m with stack := (m.stack.shrink f.base).push v, frames := rest }
  /-- The outermost function returns. -/
  | finished {f : Frame} (v : Value) (hf : m.frames = [f]) :
    Stepped ctx s m (.finish (m.store.heap.toScalar v))
      { m with stack := m.stack.shrink f.base, frames := [] }

/-- What an instruction does: elementary changes, and one of the endings. -/
def Steps (ctx : Context ν) (s : Step) (m : Machine) (effect : Effect ν) (m' : Machine) : Prop :=
  ∃ m₁, Changes ctx m m₁ ∧ Stepped ctx s m₁ effect m'

theorem after_leave (s : Step) {m m₁ : Machine} (h : Changes ctx m m₁) {f : Frame}
    {rest : List Frame} (hf : m.frames = f :: rest) (v : Value) :
    After (leave v) m₁ (Steps ctx s m) (Fails ctx m) := by
  have hf₁ : m₁.frames = f :: rest := h.frames_eq.1.trans hf
  unfold leave
  rw [after_get, hf₁]
  dsimp only
  rw [after_set]
  cases rest with
  | nil => exact ⟨m₁, h, .finished v hf₁⟩
  | cons c rest => exact ⟨m₁, h, .returned v hf₁ (List.cons_ne_nil c rest)⟩

theorem after_jump {s : Step} {kind : Jump} {offset : Int32}
    (hi : s.instruction = .jump kind offset) {m : Machine} (hm : Placed ctx m) :
    After (execute ctx s) m (Steps ctx s m) (Fails ctx m) := by
  unfold execute
  rw [hi]
  dsimp only
  cases kind with
  | always => exact ⟨m, .refl, .jumped hi⟩
  | ifFalse | ifTrue =>
      rw [after_bind]
      refine (acts_taken _ m hm).mono (fun b m₁ ⟨_, hc⟩ => ?_) fun _ _ h => h
      cases b with
      | true => exact ⟨m₁, hc, .jumped hi⟩
      | false => exact ⟨m₁, hc, .onward (by rw [hi]; rfl) trivial⟩

/-- A straight instruction lets its function go on, unless it throws. -/
theorem isTerminator_of_straight {i : Instruction} (h : Straight i) (ht : i ≠ .simple .throw) :
    i.opcode.isTerminator = false := by
  cases i with
  | simple op =>
      cases op with
      | ret => exact h.elim
      | retVoid => exact h.elim
      | throw => exact absurd rfl ht
      | _ => rfl
  | jump kind offset => exact h.elim
  | call callee => exact h.elim
  | _ => rfl

/-- Throwing fails. -/
theorem after_throw {s : Step} (hi : s.instruction = .simple .throw) {m : Machine}
    (hm : Placed ctx m) : After (execute ctx s) m (Steps ctx s m) (Fails ctx m) := by
  unfold execute
  rw [hi]
  refine (acts_bind (R := fun _ => True) (S := fun _ : Effect ν => False) acts_pop
    (fun v _ => acts_get fun m => acts_raise (show Fault.IsDynamic (.thrown (m.display v)) from
      trivial)) m hm).mono
      (fun _ _ h => h.1.elim) fun _ _ h => h

/-- **An instruction of sound code**, carried out in a function of the image. -/
theorem after_execute {m : Machine} (hm : Placed ctx m) {f : Frame} {rest : List Frame}
    (hf : m.frames = f :: rest) {g : LinkedFunction}
    (hg : ctx.image.functions[f.function]? = some g) {s : Step} (hs : s.Refers ctx.image g) :
    After (execute ctx s) m (Steps ctx s m) (Fails ctx m) := by
  have straight (hst : Straight s.instruction) (ht : s.instruction ≠ .simple .throw) :
      After (execute ctx s) m (Steps ctx s m) (Fails ctx m) :=
    (after_straight hm hf hg hs hst).mono
      (fun effect m' ⟨he, hc⟩ => ⟨m', hc, .onward (isTerminator_of_straight hst ht) he⟩)
      fun _ _ h => h
  cases hi : s.instruction with
  | jump kind offset => exact after_jump hi hm
  | call callee =>
      unfold Step.Refers at hs
      rw [hi] at hs
      obtain ⟨h, hh⟩ := hs
      unfold execute
      rw [hi]
      dsimp only
      rw [after_bind]
      refine (after_enter m hh).mono (fun _ m' ⟨he, hd, hr⟩ => ?_) fun _ _ h => h
      exact ⟨m, .refl, he ▸ .called hi hh hd hr⟩
  | simple op =>
      cases op with
      | ret =>
          unfold execute
          rw [hi]
          dsimp only [simple]
          rw [after_bind]
          exact (acts_pop m hm).mono (fun v m₁ ⟨_, hc⟩ => after_leave s hc hf v) fun _ _ h => h
      | retVoid =>
          unfold execute
          rw [hi]
          exact after_leave s .refl hf .null
      | throw => exact after_throw hi hm
      | _ => exact straight (by rw [hi]; trivial) (by rw [hi]; exact nofun)
  | _ => exact straight (by rw [hi]; trivial) (by rw [hi]; exact nofun)

/-- Fetching leaves everything in its place. -/
theorem Placed.fetched {m : Machine} (h : Placed ctx m) : Placed ctx m.fetched := by
  unfold Machine.fetched
  split
  · exact h
  · rename_i f rest hf
    have hs := h.frames
    have hd := h.depth
    rw [hf] at hs hd
    exact ⟨⟨hs.1, hs.2.1, hs.2.2⟩, hd, h.statics⟩

/-- **The inversion of a step** of sound code whose innermost function stands at a step `s`. -/
theorem after_step (hsound : ctx.image.Sound) {m : Machine} (hm : Placed ctx m) {f : Frame}
    {rest : List Frame} (hf : m.frames = f :: rest) {g : LinkedFunction}
    (hg : ctx.image.functions[f.function]? = some g) {s : Step} (hs : g.code[f.ip]? = some s) :
    After (step ctx) m (Steps ctx s m.fetched) (Fails ctx m.fetched) := by
  have hfetched : m.fetched = { m with frames := { f with ip := f.ip + 1 } :: rest } := by
    unfold fetched
    rw [hf]
  unfold step
  rw [after_get, hf]
  dsimp only
  rw [hg, Option.bind_some, hs]
  dsimp only
  rw [after_set, ← hfetched]
  have hf' : m.fetched.frames = { f with ip := f.ip + 1 } :: rest := by rw [hfetched]
  exact after_execute hm.fetched hf' hg ((hsound hg).refers hs)

end Machine

end EmbeddedVm
