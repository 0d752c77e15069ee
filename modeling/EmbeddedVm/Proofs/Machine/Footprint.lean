import EmbeddedVm.Proofs.Machine.Safety

/-!
# What an instruction sees of the stack

The locals and operands of all active functions lie on one stack. An instruction neither reads nor
writes what lies below the locals of its own function: put other values there (`atop`), and it does
the same and leaves them alone (`step_atop`). The proof is compositional: `Local` holds of an action
that does so where the innermost function has its locals above the values exchanged (`Clear`), and
leaves the machine in such a state; it is closed under sequencing and holds of each part of an
instruction. Entering and leaving a function come last in theirs and change who is innermost, so
they are looked at for themselves.
-/

namespace EmbeddedVm

variable {ν α β : Type}

/-! ## 1. Stacks with other values at the bottom -/

/-- A stack with other values at its bottom. -/
def overlay (below stack : Array Value) : Array Value :=
  below ++ stack.extract below.size stack.size

theorem size_overlay {below stack : Array Value} (h : below.size ≤ stack.size) :
    (overlay below stack).size = stack.size := by
  unfold overlay
  rw [Array.size_append, Array.size_extract]
  omega

theorem getElem?_overlay {below stack : Array Value} (i : Nat) :
    (overlay below stack)[i]? = if i < below.size then below[i]? else stack[i]? := by
  unfold overlay
  rw [Array.getElem?_append]
  split
  · rfl
  · rename_i hi
    rw [Array.getElem?_extract]
    split
    · rw [Nat.add_sub_cancel' (by omega)]
    · rw [Array.getElem?_eq_none (by omega)]

/-- The slots of a stack that is cut off. -/
theorem getElem?_shrink (stack : Array Value) (n i : Nat) :
    (stack.shrink n)[i]? = if i < n then stack[i]? else none := by
  rw [← Array.getElem?_toList, Array.toList_shrink, List.getElem?_take, Array.getElem?_toList]

theorem overlay_push {below stack : Array Value} (h : below.size ≤ stack.size) (v : Value) :
    overlay below (stack.push v) = (overlay below stack).push v := by
  refine Array.ext_getElem? fun i => ?_
  rw [Array.getElem?_push, getElem?_overlay, getElem?_overlay, Array.getElem?_push, size_overlay h]
  split
  · rw [if_neg (by omega)]
  · rfl

theorem overlay_pop {below stack : Array Value} (h : below.size < stack.size) :
    overlay below stack.pop = (overlay below stack).pop := by
  refine Array.ext_getElem? fun i => ?_
  rw [Array.getElem?_pop, getElem?_overlay, getElem?_overlay, Array.getElem?_pop,
    size_overlay (Nat.le_of_lt h)]
  split
  · rw [if_pos (by omega)]
  · rfl

theorem overlay_set {below stack : Array Value} (h : below.size ≤ stack.size) {i : Nat}
    (hi : below.size ≤ i) (v : Value) :
    overlay below (stack.setIfInBounds i v) = (overlay below stack).setIfInBounds i v := by
  refine Array.ext_getElem? fun j => ?_
  rw [Array.getElem?_setIfInBounds, getElem?_overlay, getElem?_overlay,
    Array.getElem?_setIfInBounds, size_overlay h]
  split
  · rw [if_neg (by omega)]
  · rfl

theorem overlay_shrink {below : Array Value} (stack : Array Value) {n : Nat}
    (hn : below.size ≤ n) : overlay below (stack.shrink n) = (overlay below stack).shrink n := by
  refine Array.ext_getElem? fun i => ?_
  rw [getElem?_shrink, getElem?_overlay, getElem?_overlay, getElem?_shrink]
  split
  · rw [if_pos (by omega)]
  · rfl

theorem overlay_append {below stack : Array Value} (h : below.size ≤ stack.size)
    (more : Array Value) : overlay below (stack ++ more) = overlay below stack ++ more := by
  refine Array.ext_getElem? fun i => ?_
  rw [Array.getElem?_append, getElem?_overlay, getElem?_overlay, Array.getElem?_append,
    size_overlay h]
  split
  · rw [if_pos (by omega)]
  · rfl

/-- Above the values exchanged the topmost one is the same. -/
theorem back?_overlay {below stack : Array Value} (h : below.size < stack.size) :
    (overlay below stack).back? = stack.back? := by
  unfold Array.back?
  rw [size_overlay (Nat.le_of_lt h), getElem?_overlay, if_neg (by omega)]

namespace Machine

variable {ctx : Context ν} {below : Array Value} {m : Machine}

/-- The machine with other values at the bottom of its stack. -/
def atop (below : Array Value) (m : Machine) : Machine := { m with stack := overlay below m.stack }

/-- **The values exchanged lie below the locals** of the innermost function. -/
structure Clear (below : Array Value) (m : Machine) : Prop where
  base : below.size ≤ m.base
  floor : m.base ≤ m.floor
  size : m.floor ≤ m.stack.size

theorem Clear.le_size (h : Clear below m) : below.size ≤ m.stack.size :=
  Nat.le_trans h.base (Nat.le_trans h.floor h.size)

theorem Clear.size_atop (h : Clear below m) : (m.atop below).stack.size = m.stack.size :=
  size_overlay h.le_size

/-! ## 2. Actions that see nothing of it -/

/-- What an action ends with, with other values at the bottom of the stack. -/
def atopEnd (below : Array Value) :
    EStateM.Result VmError Machine α → EStateM.Result VmError Machine α
  | .ok a m => .ok a (m.atop below)
  | .error e m => .error e (m.atop below)

/-- On the machine with other values at the bottom, the second action does what the first one does
    on the machine itself. -/
def SameAtop (below : Array Value) (m : Machine) (x y : Exec α) : Prop :=
  y.run (m.atop below) = atopEnd below (x.run m)

/-- **An action that neither reads nor writes the values below the locals.** -/
def Apart (below : Array Value) (x : Exec α) : Prop := ∀ m, Clear below m → SameAtop below m x x

/-- An action of this kind behind which the values still lie below the locals. -/
structure Local (below : Array Value) (x : Exec α) : Prop where
  apart : Apart below x
  keeps : ∀ {m a m'}, Clear below m → x.run m = .ok a m' → Clear below m'

theorem SameAtop.bind {x y : Exec α} {f g : α → Exec β} (h : SameAtop below m x y)
    (hfg : ∀ a m', x.run m = .ok a m' → SameAtop below m' (f a) (g a)) :
    SameAtop below m (x >>= f) (y >>= g) := by
  unfold SameAtop at h ⊢
  rw [EStateM.run_bind, EStateM.run_bind, h]
  cases hx : x.run m with
  | ok a m' => exact hfg a m' hx
  | error e m' => rfl

theorem SameAtop.get {f g : Machine → Exec α} (h : SameAtop below m (f m) (g (m.atop below))) :
    SameAtop below m (get >>= f) (get >>= g) := h

/-- What is put in place of the machine may be put there with the other values at its bottom. -/
theorem SameAtop.set {u : Machine} {f g : PUnit → Exec α} (h : SameAtop below u (f ⟨⟩) (g ⟨⟩)) :
    SameAtop below m (set u >>= f) (set (u.atop below) >>= g) := h

theorem Apart.get {f : Machine → Exec α}
    (h : ∀ m, Clear below m → SameAtop below m (f m) (f (m.atop below))) :
    Apart below (get >>= f) := h

theorem local_pure (a : α) : Local below (pure a) := by
  refine ⟨fun m hm => rfl, fun {m b m'} hm hrun => ?_⟩
  cases hrun
  exact hm

theorem local_raise (fault : Fault) : Local below (raise ctx fault : Exec α) := by
  refine ⟨fun m hm => rfl, fun {m b m'} hm hrun => ?_⟩
  cases hrun

theorem Local.bind {x : Exec α} {f : α → Exec β} (h : Local below x)
    (hf : ∀ a, Local below (f a)) : Local below (x >>= f) := by
  refine ⟨fun m hm => ?_, fun {m b m'} hm hrun => ?_⟩
  · exact (h.apart m hm).bind fun a m' hrun => (hf a).apart m' (h.keeps hm hrun)
  · rw [EStateM.run_bind] at hrun
    cases hx : x.run m with
    | ok a m₁ =>
        rw [hx] at hrun
        exact (hf a).keeps (h.keeps hm hx) hrun
    | error e m₁ =>
        rw [hx] at hrun
        cases hrun

/-- Behind an action of this kind, one that sees nothing of the values below. -/
theorem Local.apart_bind {x : Exec α} {f : α → Exec β} (h : Local below x)
    (hf : ∀ a, Apart below (f a)) : Apart below (x >>= f) :=
  fun m hm => (h.apart m hm).bind fun a m' hrun => hf a m' (h.keeps hm hrun)

/-- A question to the machine whose answer does not lie at the bottom of the stack. -/
theorem local_get {f : Machine → Exec α} (hf : ∀ m, Local below (f m))
    (h : ∀ m, f (m.atop below) = f m) : Local below (get >>= f) := by
  refine ⟨fun m hm => .get ?_, fun {m a m'} hm hrun => (hf m).keeps hm hrun⟩
  rw [h]
  exact (hf m).apart m hm

/-! ## 3. Operands -/

theorem local_push (v : Value) : Local below (push v) := by
  refine ⟨fun m hm => ?_, fun {m a m'} hm hrun => ?_⟩
  · show EStateM.Result.ok () { m with stack := (overlay below m.stack).push v } =
      .ok () { m with stack := overlay below (m.stack.push v) }
    rw [overlay_push hm.le_size]
  · cases hrun
    refine ⟨hm.base, hm.floor, ?_⟩
    rw [Array.size_push]
    exact Nat.le_succ_of_le hm.size

theorem local_push_next (v : Value) : Local below (do push v; return Effect.next (ν := ν)) :=
  (local_push v).bind fun _ => local_pure _

/-- Where no operand is left, popping is an underflow. -/
theorem run_pop_of_le (h : m.stack.size ≤ m.floor) :
    (pop ctx).run m = .error (m.exception ctx .stackUnderflow) m := by
  unfold pop
  rw [EStateM.run_bind]
  show (if m.stack.size ≤ m.floor then raise ctx .stackUnderflow else _ : Exec Value).run m = _
  rw [if_pos h]
  rfl

/-- Where one is left, popping takes the topmost one. -/
theorem run_pop_of_lt (ctx : Context ν) (h : m.floor < m.stack.size) :
    ∃ v, m.stack.back? = some v ∧ (pop ctx).run m = .ok v { m with stack := m.stack.pop } := by
  have hback : m.stack.back? = some m.stack[m.stack.size - 1] :=
    Array.getElem?_eq_getElem (by omega)
  refine ⟨_, hback, ?_⟩
  unfold pop
  rw [EStateM.run_bind]
  show (if m.stack.size ≤ m.floor then raise ctx .stackUnderflow else _ : Exec Value).run m = _
  rw [if_neg (by omega), hback]
  rfl

theorem local_pop : Local below (pop ctx) := by
  refine ⟨fun m hm => ?_, fun {m a m'} hm hrun => ?_⟩
  · unfold SameAtop
    by_cases h : m.floor < m.stack.size
    · have hlt : below.size < m.stack.size :=
        Nat.lt_of_le_of_lt (Nat.le_trans hm.base hm.floor) h
      obtain ⟨v, hv, hrun⟩ := run_pop_of_lt ctx h
      obtain ⟨w, hw, hatop⟩ := run_pop_of_lt (m := m.atop below) ctx
        (by rw [hm.size_atop]; exact h)
      have hback : (m.atop below).stack.back? = m.stack.back? := back?_overlay hlt
      rw [hback, hv] at hw
      cases hw
      rw [hrun, hatop]
      show EStateM.Result.ok v { m with stack := (overlay below m.stack).pop } =
        .ok v { m with stack := overlay below m.stack.pop }
      rw [overlay_pop hlt]
    · rw [run_pop_of_le (Nat.not_lt.mp h),
        run_pop_of_le (by rw [hm.size_atop]; exact Nat.not_lt.mp h)]
      rfl
  · by_cases h : m.floor < m.stack.size
    · obtain ⟨v, -, hpop⟩ := run_pop_of_lt ctx h
      rw [hpop] at hrun
      cases hrun
      refine ⟨hm.base, hm.floor, ?_⟩
      show m.floor ≤ m.stack.pop.size
      rw [Array.size_pop]
      omega
    · rw [run_pop_of_le (Nat.not_lt.mp h)] at hrun
      cases hrun

theorem local_popInt (op : Opcode) : Local below (popInt ctx op) := by
  unfold popInt
  refine local_pop.bind fun v => ?_
  cases v with
  | int n => exact local_pure _
  | null | bool | float | string => exact local_raise _

theorem local_popNumber (op : Opcode) : Local below (popNumber ctx op) := by
  unfold popNumber
  refine local_pop.bind fun v => ?_
  cases v with
  | int n => exact local_pure _
  | float x => exact local_pure _
  | null | bool | string => exact local_raise _

theorem local_popArgs (count : Nat) (after : List Scalar) :
    Local below (popArgs ctx count after) := by
  induction count generalizing after with
  | zero => exact local_pure _
  | succ count ih =>
      unfold popArgs
      exact local_pop.bind fun v => local_get (fun m => ih _) fun m => rfl

theorem local_compare (op : Comparison) (a b : Value) : Local below (compare ctx op a b) := by
  unfold compare
  split
  · exact local_pure _
  · exact local_pure _
  · exact local_pure _
  · exact local_pure _
  · exact local_get (fun m => local_pure _) fun m => rfl
  · exact local_raise _

theorem local_truth (op : Opcode) (v : Value) : Local below (truth ctx op v) := by
  unfold truth
  split
  · exact local_pure _
  · exact local_pure _
  · exact local_raise _

theorem local_taken (kind : Jump) : Local below (taken ctx kind) := by
  unfold taken
  cases kind with
  | always => exact local_pure _
  | ifFalse => exact local_pop.bind fun v => (local_truth _ v).bind fun b => local_pure _
  | ifTrue => exact local_pop.bind fun v => local_truth _ v

/-! ## 4. Frames -/

/-- A function takes its parameters off the operands of its caller, and leaves all below alone. -/
theorem entered_atop (hm : Clear below m) (function : Nat) {g : LinkedFunction}
    (hroom : m.floor + g.params ≤ m.stack.size) :
    (m.atop below).entered function g = (m.entered function g).atop below := by
  have hlow : below.size ≤ m.stack.size - g.params + g.locals := by
    have hbase := hm.base
    have hfloor := hm.floor
    omega
  have hkept : below.size ≤ (m.stack.shrink (m.stack.size - g.params + g.locals)).size := by
    rw [Array.size_shrink]
    exact Nat.le_min.mpr ⟨hlow, hm.le_size⟩
  unfold entered atop
  dsimp only
  rw [size_overlay hm.le_size, ← overlay_shrink _ hlow, overlay_append hkept, size_overlay hkept]

theorem apart_enter (function : Nat) : Apart below (enter ctx function) := by
  unfold enter
  refine Apart.get fun m hm => ?_
  show SameAtop below m _ (if ctx.maxDepth ≤ m.frames.length then _ else _)
  split
  · exact (local_raise _).apart m hm
  · split
    · exact (local_raise _).apart m hm
    · rename_i g hg
      rw [hm.size_atop]
      show SameAtop below m _ (if m.stack.size < m.floor + g.params then _ else _)
      split
      · exact (local_raise _).apart m hm
      · rename_i hroom
        show EStateM.Result.ok () ((m.atop below).entered function g) =
          .ok () ((m.entered function g).atop below)
        rw [entered_atop hm function (Nat.not_lt.mp hroom)]

/-- A function that is left cuts the stack where its locals began. -/
theorem apart_leave (v : Value) : Apart below (leave v : Exec (Effect ν)) := by
  unfold leave
  refine Apart.get fun m hm => ?_
  have hframes : (m.atop below).frames = m.frames := rfl
  rw [hframes]
  cases hf : m.frames with
  | nil => exact (local_pure _).apart m hm
  | cons f rest =>
      have hlow : below.size ≤ f.base := by
        have hbase := hm.base
        unfold base at hbase
        rwa [hf] at hbase
      have hcut : below.size ≤ (m.stack.shrink f.base).size := by
        rw [Array.size_shrink]
        exact Nat.le_min.mpr ⟨hlow, hm.le_size⟩
      have hatop : ({ m.atop below with
            stack := (m.atop below).stack.shrink f.base, frames := rest } : Machine) =
          ({ m with stack := m.stack.shrink f.base, frames := rest } : Machine).atop below := by
        unfold atop
        dsimp only
        rw [overlay_shrink _ hlow]
      dsimp only
      rw [hatop]
      refine .set ?_
      cases rest with
      | nil => rfl
      | cons c rest =>
          show EStateM.Result.ok Effect.next _ = .ok Effect.next _
          unfold atop
          dsimp only
          rw [overlay_push hcut]

theorem apart_goto (ip : Nat) : Apart below (goto ip) := by
  intro m hm
  unfold SameAtop goto
  show EStateM.Result.ok () _ = .ok () _
  dsimp only
  have hframes : (m.atop below).frames = m.frames := rfl
  rw [hframes]
  cases hf : m.frames with
  | nil => rfl
  | cons f rest => rfl

/-! ## 5. Instructions -/

theorem apart_simple (op : SimpleOp) : Apart below (simple ctx op) := by
  have next (v : Value) : Apart below (do push v; return Effect.next (ν := ν)) :=
    (local_push_next v).apart
  unfold simple
  cases op with
  | nop => exact (local_pure _).apart
  | pop => exact (local_pop.bind fun _ => local_pure _).apart
  | dup => exact local_pop.apart_bind fun v => (local_push v).apart_bind fun _ => next v
  | pushNull => exact next _
  | pushBool b => exact next _
  | int o =>
      refine (local_popInt _).apart_bind fun b => (local_popInt _).apart_bind fun a => ?_
      cases intResult? o a b with
      | some n => exact next _
      | none => exact (local_raise _).apart
  | intNeg => exact (local_popInt _).apart_bind fun a => next _
  | float o =>
      exact (local_popNumber _).apart_bind fun b => (local_popNumber _).apart_bind fun a => next _
  | floatNeg => exact (local_popNumber _).apart_bind fun a => next _
  | toFloat => exact (local_popNumber _).apart_bind fun a => next _
  | toInt =>
      refine local_pop.apart_bind fun v => ?_
      cases v with
      | int n => exact next _
      | float x => exact next _
      | null | bool | string => exact (local_raise _).apart
  | eq =>
      exact local_pop.apart_bind fun b => local_pop.apart_bind fun a => .get fun m hm =>
        next _ m hm
  | ne =>
      exact local_pop.apart_bind fun b => local_pop.apart_bind fun a => .get fun m hm =>
        next _ m hm
  | compare o =>
      exact local_pop.apart_bind fun b => local_pop.apart_bind fun a =>
        (local_compare o a b).apart_bind fun _ => next _
  | not => exact local_pop.apart_bind fun v => (local_truth _ v).apart_bind fun b => next _
  | concat =>
      exact local_pop.apart_bind fun b => local_pop.apart_bind fun a => .get fun m hm =>
        (local_pure _).apart m hm
  | ret => exact local_pop.apart_bind fun v => apart_leave v
  | retVoid => exact apart_leave _
  | throw => exact local_pop.apart_bind fun v => .get fun m hm => (local_raise _).apart m hm
  | timerCancel =>
      refine (local_popInt _).apart_bind fun id => ?_
      split
      · exact .get fun m hm => .set (next _ _ ⟨hm.base, hm.floor, hm.size⟩)
      · exact next _

theorem apart_callback (kind : Callback) (function : Nat) :
    Apart below (callback ctx kind function : Exec (Effect ν)) := by
  unfold callback
  split
  · exact (local_raise _).apart
  · rename_i f hf
    cases kind with
    | timerOnce | timerEvery =>
        exact (local_popNumber _).apart_bind fun delay => .get fun m hm =>
          .set ((local_push_next _).apart _ ⟨hm.base, hm.floor, hm.size⟩)
    | mainLoop => exact fun m hm => rfl
    | asyncRead =>
        refine local_pop.apart_bind fun v => ?_
        cases v with
        | string r => exact fun m hm => rfl
        | null | bool | int | float => exact (local_raise _).apart

theorem apart_storeStatic (cls field : Nat) (v : Value) :
    Apart below (execute.store ctx cls field v) := by
  unfold execute.store
  refine .get fun m hm => ?_
  show SameAtop below m _ (if (m.store.statics[cls]?.bind (·[field]?)).isSome then _ else _)
  split
  · rfl
  · exact (local_raise _).apart m hm

/-- **No instruction reads or writes anything below the locals of its function.** -/
theorem apart_execute (s : Step) : Apart below (execute ctx s) := by
  have next (v : Value) : Apart below (do push v; return Effect.next (ν := ν)) :=
    (local_push_next v).apart
  unfold execute
  split
  · exact apart_simple _
  · exact next _
  · exact next _
  · split
    · exact (local_pure _).apart
    · exact (local_raise _).apart
  · -- a local is read
    rename_i slot hi
    refine .get fun m hm => ?_
    have hslot : (m.atop below).stack[(m.atop below).base + slot.toNat]? =
        m.stack[m.base + slot.toNat]? := by
      have hbase := hm.base
      show (overlay below m.stack)[m.base + slot.toNat]? = _
      rw [getElem?_overlay, if_neg (by omega)]
    rw [hslot]
    split
    · exact next _ m hm
    · exact (local_raise _).apart m hm
  · -- a local is written
    rename_i slot hi
    refine local_pop.apart_bind fun v => .get fun m hm => ?_
    dsimp only
    rw [hm.size_atop]
    show SameAtop below m _ (if m.base + slot.toNat < m.stack.size then _ else _)
    split
    · have hatop : ({ m.atop below with
            stack := (m.atop below).stack.setIfInBounds (m.base + slot.toNat) v } : Machine) =
          ({ m with stack := m.stack.setIfInBounds (m.base + slot.toNat) v } : Machine).atop
            below := by
        have hbase := hm.base
        unfold atop
        dsimp only
        rw [overlay_set hm.le_size (by omega)]
      show SameAtop below m _ (set ({ m.atop below with
            stack := (m.atop below).stack.setIfInBounds (m.base + slot.toNat) v } : Machine) >>= _)
      rw [hatop]
      exact .set rfl
    · exact (local_raise _).apart m hm
  · -- a static field is read
    refine .get fun m hm => ?_
    have hstore : (m.atop below).store = m.store := rfl
    rw [hstore]
    split
    · exact next _ m hm
    · exact (local_raise _).apart m hm
  · -- a static field is written
    refine local_pop.apart_bind fun v => ?_
    split
    · exact (local_raise _).apart
    · split
      · split
        · exact apart_storeStatic _ _ v
        · exact (local_raise _).apart
      · exact apart_storeStatic _ _ v
  · -- a jump
    refine (local_taken _).apart_bind fun b => ?_
    cases b with
    | true => exact fun m hm => (apart_goto _ m hm).bind fun a m' hrun => rfl
    | false => exact (local_pure _).apart
  · exact fun m hm => (apart_enter _ m hm).bind fun a m' hrun => rfl
  · refine (local_popArgs _ _).apart_bind fun args => ?_
    split
    · exact (local_pure _).apart
    · exact (local_raise _).apart
  · exact apart_callback _ _

/-- **A step is the instruction at which the innermost function stands**, carried out where it has
    been fetched. -/
theorem run_step {f : Frame} {rest : List Frame} (hf : m.frames = f :: rest) {g : LinkedFunction}
    (hg : ctx.image.functions[f.function]? = some g) {s : Step} (hs : g.code[f.ip]? = some s) :
    (step ctx).run m = (execute ctx s).run m.fetched := by
  unfold fetched
  rw [hf]
  unfold step
  rw [EStateM.run_bind, EStateM.run_get]
  dsimp only
  rw [hf]
  dsimp only
  rw [hg, Option.bind_some, hs]
  rfl

theorem apart_step (ctx : Context ν) : Apart below (step ctx) := by
  unfold step
  refine .get fun m hm => ?_
  have hframes : (m.atop below).frames = m.frames := rfl
  rw [hframes]
  cases hf : m.frames with
  | nil => exact (local_pure _).apart m hm
  | cons f rest =>
      dsimp only
      split
      · exact (local_raise _).apart m hm
      · refine .set (apart_execute _ _ ?_)
        have hbase := hm.base
        have hfloor := hm.floor
        have hsize := hm.size
        unfold base floor at *
        rw [hf] at hbase hfloor hsize
        exact ⟨hbase, hfloor, hsize⟩

/-- Where everything lies in its place, the values below the innermost function are clear. -/
theorem Placed.clear (h : Placed ctx m) (hsize : below.size ≤ m.base) : Clear below m := by
  refine ⟨hsize, ?_, h.floor_le⟩
  have hs := h.frames
  unfold base floor
  cases hf : m.frames with
  | nil => exact Nat.le_refl 0
  | cons f rest =>
      rw [hf] at hs
      obtain ⟨⟨g, hg, hsum⟩, -, -⟩ := hs
      dsimp only
      omega

/-- **A step depends on nothing below the locals of its function**: with other values there, it ends
    in the same way, and the values are still there. -/
theorem step_atop (h : Placed ctx m) (hsize : below.size ≤ m.base) :
    (step ctx).run (m.atop below) = atopEnd below ((step ctx).run m) :=
  apart_step ctx m (h.clear hsize)

/-- What is at the bottom of a stack may be put there. -/
theorem atop_extract (m : Machine) (n : Nat) : m.atop (m.stack.extract 0 n) = m := by
  have hstack : overlay (m.stack.extract 0 n) m.stack = m.stack := by
    refine Array.ext_getElem? fun i => ?_
    rw [getElem?_overlay, Array.getElem?_extract, Array.size_extract]
    split
    · rw [Nat.zero_add]
    · rfl
  unfold atop
  rw [hstack]

/-- **A step changes nothing below the locals of its function.** -/
theorem step_below (h : Placed ctx m) {effect : Effect ν} {m' : Machine}
    (hstep : (step ctx).run m = .ok effect m') {i : Nat} (hi : i < m.base) :
    m'.stack[i]? = m.stack[i]? := by
  have hclear : Clear (m.stack.extract 0 m.base) m := by
    refine h.clear ?_
    rw [Array.size_extract]
    omega
  have hbase : m.base ≤ m.stack.size := Nat.le_trans hclear.floor hclear.size
  have hatop := apart_step ctx m hclear
  unfold SameAtop at hatop
  rw [atop_extract, hstep] at hatop
  unfold atopEnd at hatop
  simp only [EStateM.Result.ok.injEq, true_and] at hatop
  rw [hatop]
  show (overlay _ _)[i]? = _
  rw [getElem?_overlay, if_pos (by rw [Array.size_extract]; omega), Array.getElem?_extract,
    if_pos (by omega), Nat.zero_add]

end Machine

end EmbeddedVm
