import EmbeddedVm.Machine.Call
import EmbeddedVm.Proofs.Machine.LinkedCode
import Mathlib.Logic.Relation

/-!
# What an instruction does to the machine

Most instructions pop operands, push results and touch one thing in the store; three of them move
between functions. `Change` lists the elementary changes of the first sort, each with the guard
under which an instruction makes it, and `Stepped` lists the ways in which an instruction ends.
`after_step` is the inversion of `step` for sound code: what an instruction does is a chain of
elementary changes and one such ending, and what makes it fail is one of the dynamic faults. An
invariant of the machine is then checked against the changes and the endings, not against the
instructions.
-/

namespace EmbeddedVm

variable {ν α β : Type}

/-- A fault that code can run into; the others would mean that an operand refers to nothing or that
    a body has no further instruction. -/
def Fault.IsDynamic : Fault → Prop
  | .fellOffEnd | .unboundNative _ | .danglingReference _ _ => False
  | _ => True

/-- The static fields are arranged like the classes of the module. -/
def Image.Shapes (image : Image ν) (statics : Array (Array Value)) : Prop :=
  statics.toList.map Array.size = image.module.classes.map (·.statics.length)

namespace Machine

/-! ## 1. After an action -/

/-- `Q` holds of what an action ends with, and `E` of what it fails with. -/
def After (x : Exec α) (m : Machine) (Q : α → Machine → Prop) (E : VmError → Machine → Prop) :
    Prop :=
  match x.run m with
  | .ok a m' => Q a m'
  | .error e m' => E e m'

theorem after_bind {x : Exec α} {f : α → Exec β} {m : Machine} {Q : β → Machine → Prop}
    {E : VmError → Machine → Prop} :
    After (x >>= f) m Q E ↔ After x m (fun a m' => After (f a) m' Q E) E := by
  unfold After
  rw [EStateM.run_bind]
  cases x.run m with
  | ok a m' => rfl
  | error e m' => rfl

theorem After.mono {x : Exec α} {m : Machine} {Q Q' : α → Machine → Prop}
    {E E' : VmError → Machine → Prop} (h : After x m Q E) (hQ : ∀ a m', Q a m' → Q' a m')
    (hE : ∀ e m', E e m' → E' e m') : After x m Q' E' := by
  unfold After at h ⊢
  cases hx : x.run m with
  | ok a m' => rw [hx] at h; exact hQ a m' h
  | error e m' => rw [hx] at h; exact hE e m' h

/-- What an action has ended with. -/
theorem After.ok {x : Exec α} {m m' : Machine} {a : α} {Q : α → Machine → Prop}
    {E : VmError → Machine → Prop} (h : After x m Q E) (hx : x.run m = .ok a m') : Q a m' := by
  unfold After at h
  rw [hx] at h
  exact h

/-- What it has failed with. -/
theorem After.error {x : Exec α} {m m' : Machine} {e : VmError} {Q : α → Machine → Prop}
    {E : VmError → Machine → Prop} (h : After x m Q E) (hx : x.run m = .error e m') : E e m' := by
  unfold After at h
  rw [hx] at h
  exact h

theorem after_get {f : Machine → Exec α} {m : Machine} {Q : α → Machine → Prop}
    {E : VmError → Machine → Prop} : After (get >>= f) m Q E ↔ After (f m) m Q E := Iff.rfl

theorem after_set {m' : Machine} {f : PUnit → Exec α} {m : Machine} {Q : α → Machine → Prop}
    {E : VmError → Machine → Prop} : After (set m' >>= f) m Q E ↔ After (f ⟨⟩) m' Q E := Iff.rfl

/-! ## 2. Frames in their places -/

/-- The frames, the innermost first, lie below `top` one above the other: each has its locals from
    its base to its floor, and its caller's operands below its base. -/
def Stacked (image : Image ν) : (top : Nat) → List Frame → Prop
  | _, [] => True
  | top, f :: rest =>
    (∃ g, image.functions[f.function]? = some g ∧ f.base + g.locals = f.floor) ∧ f.floor ≤ top ∧
      Stacked image f.base rest

/-- **Where everything lies.** This is what every part of an instruction keeps. -/
structure Placed (ctx : Context ν) (m : Machine) : Prop where
  /-- The frames lie on the stack. -/
  frames : Stacked ctx.image m.stack.size m.frames
  /-- There are not too many of them. -/
  depth : m.frames.length ≤ ctx.maxDepth
  /-- The static fields are those of the module. -/
  statics : ctx.image.Shapes m.store.statics

theorem Stacked.mono {image : Image ν} {a b : Nat} {frames : List Frame}
    (h : Stacked image a frames) (hab : a ≤ b) : Stacked image b frames := by
  cases frames with
  | nil => trivial
  | cons f rest => exact ⟨h.1, Nat.le_trans h.2.1 hab, h.2.2⟩

/-- Frames lie as well above any height that is not below the floor. -/
theorem Stacked.of_floor_le {ctx : Context ν} {m : Machine} (h : Placed ctx m) {n : Nat}
    (hn : m.floor ≤ n) : Stacked ctx.image n m.frames := by
  have hs := h.frames
  unfold floor at hn
  cases hf : m.frames with
  | nil => trivial
  | cons f rest =>
      rw [hf] at hs hn
      exact ⟨hs.1, hn, hs.2.2⟩

theorem Placed.floor_le {ctx : Context ν} {m : Machine} (h : Placed ctx m) :
    m.floor ≤ m.stack.size := by
  have hs := h.frames
  unfold floor
  cases hf : m.frames with
  | nil => exact Nat.zero_le _
  | cons f rest =>
      rw [hf] at hs
      exact hs.2.1

/-! ## 3. Elementary changes -/

/-- **An elementary change**, with the guard under which an instruction makes it. -/
inductive Change (ctx : Context ν) (m : Machine) : Machine → Prop where
  /-- An operand goes. -/
  | pop (h : m.floor < m.stack.size) : Change ctx m { m with stack := m.stack.pop }
  /-- An operand comes. -/
  | push (v : Value) : Change ctx m { m with stack := m.stack.push v }
  /-- A local of the innermost function changes. -/
  | setLocal {i : Nat} (v : Value) (hb : m.base ≤ i) (hi : i < m.floor) :
    Change ctx m { m with stack := m.stack.setIfInBounds i v }
  /-- A static field changes, within its declared kind. -/
  | setStatic {c field : Nat} {cls : Class} {f : StaticField} {v : Value}
      (h : ctx.image.static? c field = some (cls, f)) (hv : v.fits f.kind? = true) :
    Change ctx m { m with store := { m.store with
      statics := m.store.statics.modify c (·.setIfInBounds field v) } }
  /-- A timer is cancelled. -/
  | cancel (id : UInt32) :
    Change ctx m { m with store := { m.store with
      scheduler := (m.store.scheduler.cancel id).1 } }
  /-- A function without parameters is scheduled. -/
  | addTimer {g : Nat} {f : LinkedFunction} (hf : ctx.image.functions[g]? = some f)
      (hp : f.params = 0) (delay : Binary64) (repeats : Bool) :
    Change ctx m { m with store := { m.store with
      scheduler := (m.store.scheduler.addTimer f.name delay repeats).1 } }
  /-- A function without parameters is to run on every sweep. -/
  | addMainLoop {g : Nat} {f : LinkedFunction} (hf : ctx.image.functions[g]? = some f)
      (hp : f.params = 0) :
    Change ctx m { m with store := { m.store with
      scheduler := m.store.scheduler.addMainLoop f.name } }
  /-- A read is submitted, for a function with one parameter. -/
  | submit {g : Nat} {f : LinkedFunction} (hf : ctx.image.functions[g]? = some f)
      (hp : f.params = 1) (path : String) :
    Change ctx m { m with store := { m.store with
      reactor := m.store.reactor.submit path f.name } }

/-- A chain of elementary changes. -/
def Changes (ctx : Context ν) : Machine → Machine → Prop := Relation.ReflTransGen (Change ctx)

theorem Change.single {ctx : Context ν} {m m' : Machine} (h : Change ctx m m') : Changes ctx m m' :=
  Relation.ReflTransGen.single h

theorem Changes.refl {ctx : Context ν} {m : Machine} : Changes ctx m m := Relation.ReflTransGen.refl

theorem Changes.trans {ctx : Context ν} {a b c : Machine} (h : Changes ctx a b)
    (h' : Changes ctx b c) : Changes ctx a c := Relation.ReflTransGen.trans h h'

/-- **An invariant of the elementary changes is one of their chains.** -/
theorem Changes.induct {ctx : Context ν} {I : Machine → Prop} {m m' : Machine}
    (h : Changes ctx m m') (hI : ∀ a b, I a → Change ctx a b → I b) (hm : I m) : I m' := by
  induction h with
  | refl => exact hm
  | tail _ hc ih => exact hI _ _ ih hc

/-- No elementary change touches the frames or the heap. -/
theorem Change.frames_eq {ctx : Context ν} {m m' : Machine} (h : Change ctx m m') :
    m'.frames = m.frames ∧ m'.store.heap = m.store.heap := by
  cases h <;> exact ⟨rfl, rfl⟩

theorem Changes.frames_eq {ctx : Context ν} {m m' : Machine} (h : Changes ctx m m') :
    m'.frames = m.frames ∧ m'.store.heap = m.store.heap :=
  h.induct (I := fun a => a.frames = m.frames ∧ a.store.heap = m.store.heap)
    (fun _ _ ha hc => ⟨hc.frames_eq.1.trans ha.1, hc.frames_eq.2.trans ha.2⟩) ⟨rfl, rfl⟩

/-- What a static field holds after a write. -/
theorem lookup_modify {statics : Array (Array Value)} {c f d e : Nat} {v : Value} :
    (statics.modify c (·.setIfInBounds f v))[d]?.bind (·[e]?) =
      if c = d ∧ f = e then (statics[d]?.bind (·[e]?)).map fun _ => v
      else statics[d]?.bind (·[e]?) := by
  rw [Array.getElem?_modify]
  by_cases hc : c = d
  · cases statics[d]? with
    | none => simp
    | some row =>
        rw [if_pos hc, Option.map_some, Option.bind_some, Option.bind_some,
          Array.getElem?_setIfInBounds]
        by_cases hf : f = e
        · subst hf
          by_cases hlt : f < row.size
          · simp [hc, hlt]
          · simp [hc, hlt]
        · rw [if_neg hf, if_neg fun h => hf h.2]
  · rw [if_neg hc, if_neg fun h => hc h.1]

/-- Writing a static field keeps the arrangement of all. -/
theorem shapes_modify {image : Image ν} {statics : Array (Array Value)} (h : image.Shapes statics)
    (c field : Nat) (v : Value) :
    image.Shapes (statics.modify c (·.setIfInBounds field v)) := by
  unfold Image.Shapes at h ⊢
  rw [← h, Array.toList_modify]
  refine List.ext_getElem? fun i => ?_
  rw [List.getElem?_map, List.getElem?_map, List.getElem?_modify]
  cases statics.toList[i]? with
  | none => rfl
  | some fields =>
      by_cases hi : c = i
      · simp [hi]
      · simp [hi]

/-- **Every elementary change leaves everything in its place.** -/
theorem Placed.change {ctx : Context ν} {m m' : Machine} (h : Placed ctx m)
    (hc : Change ctx m m') : Placed ctx m' := by
  cases hc with
  | pop hf =>
      refine ⟨Stacked.of_floor_le h ?_, h.depth, h.statics⟩
      rw [Array.size_pop]
      omega
  | push v =>
      refine ⟨h.frames.mono ?_, h.depth, h.statics⟩
      rw [Array.size_push]
      omega
  | setLocal v hb hi =>
      refine ⟨?_, h.depth, h.statics⟩
      show Stacked ctx.image (m.stack.setIfInBounds _ v).size m.frames
      rw [Array.size_setIfInBounds]
      exact h.frames
  | setStatic hs hv => exact ⟨h.frames, h.depth, shapes_modify h.statics _ _ _⟩
  | cancel id => exact ⟨h.frames, h.depth, h.statics⟩
  | addTimer hf hp delay repeats => exact ⟨h.frames, h.depth, h.statics⟩
  | addMainLoop hf hp => exact ⟨h.frames, h.depth, h.statics⟩
  | submit hf hp path => exact ⟨h.frames, h.depth, h.statics⟩

theorem Placed.changes {ctx : Context ν} {m m' : Machine} (h : Placed ctx m)
    (hc : Changes ctx m m') : Placed ctx m' :=
  hc.induct (fun _ _ ha hab => ha.change hab) h

end Machine

end EmbeddedVm
