import EmbeddedVm.Machine.Call

/-!
# Instruction pointers are of no matter to instructions

Where a function stands is something that only fetching an instruction and jumping look at. A
`Relocation` gives every place in every function another number, the first place excepted, and
relocates the frames of a machine. Everything an instruction does but jumping commutes with that
(`blind_execute`): on the relocated machine it does the same and leaves the relocated result. The
proof is compositional: `Blind` is closed under sequencing and holds of each part of an instruction.
-/

namespace EmbeddedVm

variable {ν α β : Type}

/-- **Other numbers for the places in functions.** -/
structure Relocation where
  place : (function ip : Nat) → Nat
  /-- A function that is entered stands at its first place in any case. -/
  first : ∀ function, place function 0 = 0

namespace Machine

variable {ctx : Context ν} {ρ : Relocation} {m : Machine}

/-! ## 1. Relocated machines -/

/-- A frame whose function stands at another place. -/
def relocateFrame (ρ : Relocation) (f : Frame) : Frame := { f with ip := ρ.place f.function f.ip }

/-- A machine whose functions stand at other places. -/
def relocate (ρ : Relocation) (m : Machine) : Machine :=
  { m with frames := m.frames.map (relocateFrame ρ) }

@[simp] theorem relocate_stack : (m.relocate ρ).stack = m.stack := rfl

@[simp] theorem relocate_store : (m.relocate ρ).store = m.store := rfl

theorem relocate_frames : (m.relocate ρ).frames = m.frames.map (relocateFrame ρ) := rfl

@[simp] theorem relocate_floor : (m.relocate ρ).floor = m.floor := by
  unfold floor relocate
  cases m.frames <;> rfl

@[simp] theorem relocate_base : (m.relocate ρ).base = m.base := by
  unfold base relocate
  cases m.frames <;> rfl

/-- An exception names the functions, not where they stand. -/
@[simp] theorem relocate_exception (fault : Fault) :
    (m.relocate ρ).exception ctx fault = m.exception ctx fault := by
  unfold exception trace relocate
  rw [List.map_map]
  rfl

/-- What an action ends with, on a relocated machine. -/
def relocateEnd (ρ : Relocation) :
    EStateM.Result VmError Machine α → EStateM.Result VmError Machine α
  | .ok a m => .ok a (m.relocate ρ)
  | .error e m => .error e (m.relocate ρ)

/-! ## 2. Actions that do the same -/

/-- **On a machine, the first action does what the second one does on the relocated machine.** -/
def FollowsAt (ρ : Relocation) (m : Machine) (x y : Exec α) : Prop :=
  y.run (m.relocate ρ) = relocateEnd ρ (x.run m)

/-- **An action that does not look at where functions stand.** -/
def Blind (x : Exec α) : Prop := ∀ ρ m, FollowsAt ρ m x x

theorem FollowsAt.bind {x y : Exec α} {f g : α → Exec β} (h : FollowsAt ρ m x y)
    (hfg : ∀ a m', x.run m = .ok a m' → FollowsAt ρ m' (f a) (g a)) :
    FollowsAt ρ m (x >>= f) (y >>= g) := by
  unfold FollowsAt at h ⊢
  rw [EStateM.run_bind, EStateM.run_bind, h]
  cases hx : x.run m with
  | ok a m' => exact hfg a m' hx
  | error e m' => rfl

theorem FollowsAt.get {f g : Machine → Exec α} (h : FollowsAt ρ m (f m) (g (m.relocate ρ))) :
    FollowsAt ρ m (get >>= f) (get >>= g) := h

theorem blind_pure (a : α) : Blind (pure a) := fun _ _ => rfl

theorem Blind.bind {x : Exec α} {f : α → Exec β} (h : Blind x) (hf : ∀ a, Blind (f a)) :
    Blind (x >>= f) :=
  fun ρ m => (h ρ m).bind fun a m' _ => hf a ρ m'

/-- What is read of a machine may be read of the relocated one. -/
theorem blind_get {f : Machine → Exec α} (h : ∀ ρ m, FollowsAt ρ m (f m) (f (m.relocate ρ))) :
    Blind (get >>= f) := fun ρ m => .get (h ρ m)

theorem blind_modify {u : Machine → Machine} (h : ∀ ρ m, u (m.relocate ρ) = (u m).relocate ρ) :
    Blind (modify u : Exec Unit) := by
  intro ρ m
  show EStateM.Result.ok () (u (m.relocate ρ)) = .ok () ((u m).relocate ρ)
  rw [h]

/-- What is put in place of the machine may be put in place of the relocated one. -/
theorem FollowsAt.set {u : Machine} {f g : PUnit → Exec α}
    (h : FollowsAt ρ u (f ⟨⟩) (g ⟨⟩)) : FollowsAt ρ m (set u >>= f) (set (u.relocate ρ) >>= g) := h

theorem blind_raise (fault : Fault) : Blind (raise ctx fault : Exec α) := by
  intro ρ m
  show EStateM.Result.error ((m.relocate ρ).exception ctx fault) _ = _
  rw [relocate_exception]
  rfl

/-! ## 3. Operands -/

theorem blind_push (v : Value) : Blind (push v) := blind_modify fun _ _ => rfl

/-- Pushing is the end of most instructions. -/
theorem blind_push_next (v : Value) : Blind (do push v; return Effect.next (ν := ν)) :=
  (blind_push v).bind fun _ => blind_pure _

theorem blind_pop : Blind (pop ctx) := by
  unfold pop
  refine blind_get fun ρ m => ?_
  rw [relocate_stack, relocate_floor]
  split
  · exact blind_raise _ ρ m
  · split
    · exact ((blind_modify fun _ _ => rfl).bind fun _ => blind_pure _) ρ m
    · exact blind_raise _ ρ m

theorem blind_popInt (op : Opcode) : Blind (popInt ctx op) := by
  unfold popInt
  refine blind_pop.bind fun v => ?_
  cases v with
  | int n => exact blind_pure _
  | null | bool | float | string => exact blind_raise _

theorem blind_popNumber (op : Opcode) : Blind (popNumber ctx op) := by
  unfold popNumber
  refine blind_pop.bind fun v => ?_
  cases v with
  | int n => exact blind_pure _
  | float x => exact blind_pure _
  | null | bool | string => exact blind_raise _

theorem blind_popArgs (count : Nat) (after : List Scalar) : Blind (popArgs ctx count after) := by
  induction count generalizing after with
  | zero => exact blind_pure _
  | succ count ih =>
      unfold popArgs
      exact blind_pop.bind fun v => blind_get fun ρ m => ih _ ρ m

theorem blind_compare (op : Comparison) (a b : Value) : Blind (compare ctx op a b) := by
  unfold compare
  split
  · exact blind_pure _
  · exact blind_pure _
  · exact blind_pure _
  · exact blind_pure _
  · exact blind_get fun ρ m => blind_pure _ ρ m
  · exact blind_raise _

theorem blind_truth (op : Opcode) (v : Value) : Blind (truth ctx op v) := by
  unfold truth
  split
  · exact blind_pure _
  · exact blind_pure _
  · exact blind_raise _

theorem blind_taken (kind : Jump) : Blind (taken ctx kind) := by
  unfold taken
  cases kind with
  | always => exact blind_pure _
  | ifFalse => exact blind_pop.bind fun v => (blind_truth _ v).bind fun b => blind_pure _
  | ifTrue => exact blind_pop.bind fun v => blind_truth _ v

/-! ## 4. Frames -/

theorem blind_enter (function : Nat) : Blind (enter ctx function) := by
  unfold enter
  refine blind_get fun ρ m => ?_
  rw [relocate_frames, List.length_map]
  split
  · exact blind_raise _ ρ m
  · split
    · exact blind_raise _ ρ m
    · rename_i f hf
      rw [relocate_stack, relocate_floor]
      split
      · exact blind_raise _ ρ m
      · refine blind_modify (fun ρ m => ?_) ρ m
        -- the function that is entered stands at its first place
        unfold relocate
        dsimp only
        rw [List.map_cons]
        unfold relocateFrame
        rw [ρ.first]

theorem blind_leave (v : Value) : Blind (leave v : Exec (Effect ν)) := by
  unfold leave
  refine blind_get fun ρ m => ?_
  rw [relocate_frames]
  cases hf : m.frames with
  | nil => exact blind_pure _ ρ m
  | cons f rest =>
      refine .set (u := { m with stack := m.stack.shrink f.base, frames := rest }) ?_
      cases rest with
      | nil => exact blind_pure _ ρ _
      | cons f' rest => exact blind_push_next v ρ _

/-- A jump leads to the relocated place. -/
theorem followsAt_goto {f : Frame} {rest : List Frame} (h : m.frames = f :: rest) (ip : Nat) :
    FollowsAt ρ m (goto ip) (goto (ρ.place f.function ip)) := by
  unfold FollowsAt goto
  show EStateM.Result.ok () _ = .ok () _
  dsimp only
  rw [relocate_frames, h]
  rfl

/-! ## 5. Instructions -/

theorem blind_simple (op : SimpleOp) : Blind (simple ctx op) := by
  unfold simple
  cases op with
  | nop => exact blind_pure _
  | pop => exact blind_pop.bind fun _ => blind_pure _
  | dup => exact blind_pop.bind fun v => (blind_push v).bind fun _ => blind_push_next v
  | pushNull => exact blind_push_next _
  | pushBool b => exact blind_push_next _
  | int o =>
      refine (blind_popInt _).bind fun b => (blind_popInt _).bind fun a => ?_
      cases intResult? o a b with
      | some n => exact blind_push_next _
      | none => exact blind_raise _
  | intNeg => exact (blind_popInt _).bind fun a => blind_push_next _
  | float o =>
      exact (blind_popNumber _).bind fun b => (blind_popNumber _).bind fun a => blind_push_next _
  | floatNeg => exact (blind_popNumber _).bind fun a => blind_push_next _
  | toFloat => exact (blind_popNumber _).bind fun a => blind_push_next _
  | toInt =>
      refine blind_pop.bind fun v => ?_
      cases v with
      | int n => exact blind_push_next _
      | float x => exact blind_push_next _
      | null | bool | string => exact blind_raise _
  | eq =>
      exact blind_pop.bind fun b => blind_pop.bind fun a => blind_get fun ρ m =>
        blind_push_next _ ρ m
  | ne =>
      exact blind_pop.bind fun b => blind_pop.bind fun a => blind_get fun ρ m =>
        blind_push_next _ ρ m
  | compare o =>
      exact blind_pop.bind fun b => blind_pop.bind fun a => (blind_compare o a b).bind fun _ =>
        blind_push_next _
  | not => exact blind_pop.bind fun v => (blind_truth _ v).bind fun b => blind_push_next _
  | concat =>
      exact blind_pop.bind fun b => blind_pop.bind fun a => blind_get fun ρ m => blind_pure _ ρ m
  | ret => exact blind_pop.bind fun v => blind_leave v
  | retVoid => exact blind_leave _
  | throw => exact blind_pop.bind fun v => blind_get fun ρ m => blind_raise _ ρ m
  | timerCancel =>
      refine (blind_popInt _).bind fun id => ?_
      split
      · exact blind_get fun ρ m => .set (blind_push_next _ ρ _)
      · exact blind_push_next _

theorem blind_callback (kind : Callback) (function : Nat) : Blind (callback ctx kind function) := by
  unfold callback
  split
  · exact blind_raise _
  · rename_i f hf
    cases kind with
    | timerOnce | timerEvery =>
        exact (blind_popNumber _).bind fun delay => blind_get fun ρ m =>
          .set (blind_push_next _ ρ _)
    | mainLoop => exact (blind_modify fun _ _ => rfl).bind fun _ => blind_pure _
    | asyncRead =>
        refine blind_pop.bind fun v => ?_
        cases v with
        | string r => exact (blind_modify fun _ _ => rfl).bind fun _ => blind_pure _
        | null | bool | int | float => exact blind_raise _

theorem blind_storeStatic (cls field : Nat) (v : Value) :
    Blind (execute.store ctx cls field v) := by
  unfold execute.store
  refine blind_get fun ρ m => ?_
  rw [relocate_store]
  split
  · exact .set (blind_pure _ ρ _)
  · exact blind_raise _ ρ m

/-- **No instruction but a jump looks at where functions stand.** -/
theorem blind_execute {s : Step} (h : ∀ kind relative, s.instruction ≠ .jump kind relative) :
    Blind (execute ctx s) := by
  unfold execute
  split
  · exact blind_simple _
  · exact blind_push_next _
  · exact blind_push_next _
  · split
    · exact blind_pure _
    · exact blind_raise _
  · -- a local is read
    refine blind_get fun ρ m => ?_
    rw [relocate_stack, relocate_base]
    split
    · exact blind_push_next _ ρ m
    · exact blind_raise _ ρ m
  · -- a local is written
    refine blind_pop.bind fun v => blind_get fun ρ m => ?_
    dsimp only
    rw [relocate_stack, relocate_base]
    split
    · exact .set (blind_pure _ ρ _)
    · exact blind_raise _ ρ m
  · -- a static field is read
    refine blind_get fun ρ m => ?_
    rw [relocate_store]
    split
    · exact blind_push_next _ ρ m
    · exact blind_raise _ ρ m
  · -- a static field is written
    refine blind_pop.bind fun v => ?_
    split
    · exact blind_raise _
    · split
      · split
        · exact blind_storeStatic _ _ v
        · exact blind_raise _
      · exact blind_storeStatic _ _ v
  · rename_i kind relative hi
    exact absurd hi (h kind relative)
  · exact (blind_enter _).bind fun _ => blind_pure _
  · refine (blind_popArgs _ _).bind fun args => ?_
    split
    · exact blind_pure _
    · exact blind_raise _
  · exact blind_callback _ _

end Machine

end EmbeddedVm
