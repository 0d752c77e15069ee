import EmbeddedVm.Proofs.Machine.Footprint

/-!
# Too few operands

The verifier does not balance the stack, so code can ask for more operands than its function has
left. `Instruction.pops` says how many an instruction takes off, and `short_of_pops` what
comes of it where fewer lie above the floor: none is taken from the caller, the instruction fails
with an underflow. It may fail for another reason before it comes to that, with a type error over an
operand that is there, or, if it is a call, because too many functions are active.
-/

namespace EmbeddedVm

variable {ν α β : Type}

/-! ## 1. What instructions take off the stack -/

/-- How many operands an operation takes. -/
def SimpleOp.pops : SimpleOp → Nat
  | .int _ | .float _ | .eq | .ne | .compare _ | .concat => 2
  | .pop | .dup | .intNeg | .floatNeg | .toFloat | .toInt | .not | .ret | .throw | .timerCancel => 1
  | .nop | .pushNull | .pushBool _ | .retVoid => 0

/-- How many operands an instruction takes. A call takes the parameters of its function. -/
def Instruction.pops (image : Image ν) : Instruction → Nat
  | .simple op => op.pops
  | .storeLocal _ | .storeStatic _ _ => 1
  | .jump .always _ => 0
  | .jump _ _ => 1
  | .call callee => ((image.functions[callee.toNat]?).map (·.params)).getD 0
  | .callNative _ argc => argc.toNat
  | .callback .mainLoop _ => 0
  | .callback _ _ => 1
  | .pushInt _ | .pushFloat _ | .pushString _ | .loadLocal _ | .loadStatic _ _ => 0

namespace Machine

variable {ctx : Context ν} {m : Machine}

/-- **What an instruction fails with where operands are missing**: an underflow, or a type error over
    an operand that is there. -/
inductive Short (ctx : Context ν) (m : Machine) : VmError → Prop where
  /-- There was nothing left to pop. -/
  | underflow : Short ctx m (m.exception ctx .stackUnderflow)
  /-- An operand of its own is of the wrong kind. -/
  | misfit {i : Nat} {v : Value} (hi : m.floor ≤ i) (hv : m.stack[i]? = some v) (op : Opcode)
      (expected : String) : Short ctx m (m.exception ctx (.typeError op expected v.kind))

/-- **An action that takes `n` operands**: where fewer are left it fails so. -/
def Wants (ctx : Context ν) (n : Nat) (x : Exec α) : Prop :=
  ∀ m, m.floor ≤ m.stack.size → m.stack.size < m.floor + n →
    After x m (fun _ _ => False) (fun e _ => Short ctx m e)

/-- What fails behind a pop fails for want of the operands that were there before. -/
theorem Short.of_pop {e : VmError} (h : Short ctx { m with stack := m.stack.pop } e) :
    Short ctx m e := by
  cases h with
  | underflow => exact .underflow (m := m)
  | misfit hi hv op expected =>
      rw [Array.getElem?_pop] at hv
      split at hv
      · exact .misfit (m := m) hi hv op expected
      · cases hv

/-- The same of an action behind the popping of this operand, which took the machine from `m`. -/
def WantsBehind (ctx : Context ν) (n : Nat) (v : Value) (x : Exec α) : Prop :=
  ∀ m, m.floor < m.stack.size → m.stack.back? = some v → m.stack.size < m.floor + (n + 1) →
    After x { m with stack := m.stack.pop } (fun _ _ => False) (fun e _ => Short ctx m e)

theorem Wants.behind {n : Nat} {x : Exec α} (h : Wants ctx n x) (v : Value) :
    WantsBehind ctx n v x := by
  intro m hleft hv hm
  have hsize : m.stack.pop.size = m.stack.size - 1 := Array.size_pop
  exact (h { m with stack := m.stack.pop } (show m.floor ≤ m.stack.pop.size by omega)
    (show m.stack.pop.size < m.floor + n by omega)).mono (fun _ _ hfalse => hfalse)
    fun _ _ he => he.of_pop

/-- The operand that was popped is of the wrong kind. -/
theorem wantsBehind_raise {n : Nat} {v : Value} (op : Opcode) (expected : String) :
    WantsBehind ctx n v (raise ctx (.typeError op expected v.kind) : Exec α) := by
  intro m hleft hv hm
  exact .misfit (m := m) (i := m.stack.size - 1) (by omega) hv op expected

theorem Wants.pop_bind {n : Nat} {f : Value → Exec α} (h : ∀ v, WantsBehind ctx n v (f v)) :
    Wants ctx (n + 1) (pop ctx >>= f) := by
  intro m hle hm
  rw [after_bind]
  by_cases hleft : m.floor < m.stack.size
  · obtain ⟨v, hv, hpop⟩ := run_pop_of_lt ctx hleft
    unfold After
    rw [hpop]
    exact h v m hleft hv hm
  · unfold After
    rw [run_pop_of_le (Nat.not_lt.mp hleft)]
    exact .underflow

theorem Wants.popInt_bind {n : Nat} {op : Opcode} {f : Int32 → Exec α}
    (h : ∀ k, Wants ctx n (f k)) : Wants ctx (n + 1) (popInt ctx op >>= f) := by
  unfold popInt
  rw [bind_assoc]
  refine .pop_bind fun v => ?_
  cases v with
  | int k => exact (h k).behind _
  | null | bool _ | float _ | string _ => exact wantsBehind_raise op "int"

theorem Wants.popNumber_bind {n : Nat} {op : Opcode} {f : Binary64 → Exec α}
    (h : ∀ x, Wants ctx n (f x)) : Wants ctx (n + 1) (popNumber ctx op >>= f) := by
  unfold popNumber
  rw [bind_assoc]
  refine .pop_bind fun v => ?_
  cases v with
  | int k => exact (h _).behind _
  | float x => exact (h x).behind _
  | null | bool _ | string _ => exact wantsBehind_raise op "number"

/-- There is never want of no operands. -/
theorem wants_zero (x : Exec α) : Wants ctx 0 x :=
  fun _ hle hm => absurd hle (Nat.not_le.mpr hm)

theorem wants_popArgs (count : Nat) (after : List Scalar) :
    Wants ctx count (popArgs ctx count after) := by
  induction count generalizing after with
  | zero => exact wants_zero _
  | succ count ih =>
      unfold popArgs
      refine .pop_bind fun v => Wants.behind ?_ v
      exact fun m hle hm => ih _ m hle hm

/-- An action that wants operands wants them whatever follows. -/
theorem Wants.bind {n : Nat} {x : Exec α} (h : Wants ctx n x) (f : α → Exec β) :
    Wants ctx n (x >>= f) := by
  intro m hle hm
  rw [after_bind]
  exact (h m hle hm).mono (fun _ _ hfalse => hfalse.elim) fun _ _ he => he

/-! ## 2. Instructions -/

theorem wants_simple (op : SimpleOp) : Wants ctx op.pops (simple ctx op) := by
  have last (f : Value → Exec (Effect ν)) : Wants ctx 1 (pop ctx >>= f) :=
    .pop_bind fun v => (wants_zero _).behind v
  unfold simple
  cases op with
  | nop | pushNull | pushBool _ | retVoid => exact wants_zero _
  | pop | dup | toInt | not | ret | throw => exact last _
  | int _ => exact .popInt_bind fun b => .popInt_bind fun a => wants_zero _
  | intNeg | timerCancel => exact .popInt_bind fun a => wants_zero _
  | float _ => exact .popNumber_bind fun b => .popNumber_bind fun a => wants_zero _
  | floatNeg | toFloat => exact .popNumber_bind fun a => wants_zero _
  | eq | ne | compare _ | concat => exact .pop_bind fun b => (last _).behind b

theorem wants_callback (kind : Callback) {function : Nat} {g : LinkedFunction}
    (hg : ctx.image.functions[function]? = some g) :
    Wants ctx ((Instruction.callback kind (.ofNat function)).pops ctx.image)
      (callback ctx kind function) := by
  unfold callback
  rw [hg]
  cases kind with
  | timerOnce | timerEvery => exact .popNumber_bind fun delay => wants_zero _
  | mainLoop => exact wants_zero _
  | asyncRead => exact .pop_bind fun v => (wants_zero _).behind v

/-- A call that finds too few operands, or too many active functions, fails. -/
theorem after_enter_of_lt {function : Nat} {g : LinkedFunction}
    (hg : ctx.image.functions[function]? = some g) (h : m.stack.size < m.floor + g.params) :
    After (enter ctx function) m (fun _ _ => False) fun e _ =>
      e = m.exception ctx .underflowInCall ∨
        ctx.maxDepth ≤ m.frames.length ∧ e = m.exception ctx (.stackOverflow ctx.maxDepth) := by
  unfold After
  rw [run_enter m hg, if_pos h]
  by_cases hdepth : ctx.maxDepth ≤ m.frames.length
  · rw [if_pos hdepth]
    exact .inr ⟨hdepth, rfl⟩
  · rw [if_neg hdepth]
    exact .inl rfl

/-- Where an exception is raised, it is of no matter that the instruction has been fetched. -/
theorem exception_fetched (fault : Fault) :
    m.fetched.exception ctx fault = m.exception ctx fault := by
  unfold exception trace fetched
  cases hf : m.frames with
  | nil => rw [hf]
  | cons f rest => rfl

theorem fetched_eq {f : Frame} {rest : List Frame} (hf : m.frames = f :: rest) :
    m.fetched = { m with frames := { f with ip := f.ip + 1 } :: rest } := by
  unfold fetched
  rw [hf]

theorem Short.of_fetched {f : Frame} {rest : List Frame} (hf : m.frames = f :: rest) {e : VmError}
    (h : Short ctx m.fetched e) : Short ctx m e := by
  have hfloor : m.fetched.floor = m.floor := by
    rw [fetched_eq hf]
    unfold floor
    rw [hf]
  have hstack : m.fetched.stack = m.stack := by rw [fetched_eq hf]
  cases h with
  | underflow =>
      rw [exception_fetched]
      exact .underflow
  | misfit hi hv op expected =>
      rw [exception_fetched]
      rw [hfloor] at hi
      rw [hstack] at hv
      exact .misfit hi hv op expected

theorem wants_execute {s : Step} {g : LinkedFunction} (hs : s.Refers ctx.image g)
    (hcall : ∀ callee, s.instruction ≠ .call callee) :
    Wants ctx (s.instruction.pops ctx.image) (execute ctx s) := by
  have last (f : Value → Exec (Effect ν)) : Wants ctx 1 (pop ctx >>= f) :=
    .pop_bind fun v => (wants_zero _).behind v
  unfold Step.Refers at hs
  unfold execute
  cases hi : s.instruction with
  | simple op => exact wants_simple op
  | pushInt _ | pushFloat _ | pushString _ | loadLocal _ | loadStatic _ _ => exact wants_zero _
  | storeLocal slot | storeStatic c field => exact last _
  | jump kind offset =>
      cases kind with
      | always => exact wants_zero _
      | ifFalse | ifTrue =>
          dsimp only
          unfold taken
          dsimp only
          rw [bind_assoc]
          exact last _
  | call callee => exact absurd hi (hcall callee)
  | callNative native argc => exact (wants_popArgs _ _).bind _
  | callback kind callee =>
      rw [hi] at hs
      obtain ⟨h, hh, -⟩ := hs
      have hwants := wants_callback kind hh
      rw [UInt32.ofNat_toNat] at hwants
      exact hwants

/-- **An instruction that wants more operands than its function has left fails**, with an underflow
    or for a reason that comes first: an operand of its own of the wrong kind, or, of a call, that
    too many functions are active. -/
theorem short_of_pops (hsound : ctx.image.Sound) (hm : Placed ctx m) {f : Frame} {rest : List Frame}
    (hf : m.frames = f :: rest) {g : LinkedFunction}
    (hg : ctx.image.functions[f.function]? = some g) {s : Step} (hs : g.code[f.ip]? = some s)
    (hfew : m.stack.size < f.floor + s.instruction.pops ctx.image) :
    After (step ctx) m (fun _ _ => False) fun e _ =>
      Short ctx m e ∨ (∃ callee, s.instruction = .call callee) ∧
        (e = m.exception ctx .underflowInCall ∨
          ctx.maxDepth ≤ m.frames.length ∧ e = m.exception ctx (.stackOverflow ctx.maxDepth)) := by
  have hrefers := (hsound hg).refers hs
  have hfloor : m.fetched.floor = f.floor := by rw [fetched_eq hf]; rfl
  have hstack : m.fetched.stack = m.stack := by rw [fetched_eq hf]
  unfold After
  rw [run_step hf hg hs]
  change After (execute ctx s) m.fetched _ _
  by_cases hcall : ∃ callee, s.instruction = .call callee
  · obtain ⟨callee, hi⟩ := hcall
    unfold Step.Refers at hrefers
    rw [hi] at hrefers hfew
    obtain ⟨h, hh⟩ := hrefers
    have hpops : (Instruction.call callee).pops ctx.image = h.params := by
      show ((ctx.image.functions[callee.toNat]?).map (·.params)).getD 0 = h.params
      rw [hh]
      rfl
    rw [hpops] at hfew
    have hlt : m.fetched.stack.size < m.fetched.floor + h.params := by
      rw [hfloor, hstack]
      exact hfew
    have hlength : m.fetched.frames.length = m.frames.length := by
      rw [fetched_eq hf, hf]
      rfl
    unfold execute
    rw [hi]
    dsimp only
    rw [after_bind]
    refine (after_enter_of_lt hh hlt).mono (fun _ _ hfalse => hfalse.elim) fun e _ he => ?_
    rw [exception_fetched, exception_fetched, hlength] at he
    exact .inr ⟨⟨callee, rfl⟩, he⟩
  · have hwants := wants_execute hrefers (fun callee hi => hcall ⟨callee, hi⟩) m.fetched
      (hm.fetched.floor_le) (by rw [hfloor, hstack]; exact hfew)
    exact hwants.mono (fun _ _ hfalse => hfalse) fun e _ he => .inl (he.of_fetched hf)

end Machine

end EmbeddedVm
