import EmbeddedVm.Proofs.Machine.Collection
import EmbeddedVm.Proofs.Vm.Update

/-!
# Virtual machines that differ in their heaps only

Two virtual machines are `Alike` when their stores are and all else is equal but for the threshold
of the collector. Every operation does alike on them: what allocates allocates the same texts on
both sides, and what reads reads the same. Loading is a case of replacing, with every static field
new.
-/

namespace EmbeddedVm

/-! ## 1. Settling static fields -/

namespace Vm

/-- Where the value of a static field comes from, in two heaps. -/
inductive Inherited.Alike (h₁ h₂ : Heap) : Inherited → Inherited → Prop where
  | kept {v w : Value} (h : v.Alike Handle.Any h₁ h₂ w) : Alike h₁ h₂ (.kept v) (.kept w)
  | fresh (initial : Scalar) : Alike h₁ h₂ (.fresh initial) (.fresh initial)

end Vm

/-- Values stay alike while both heaps keep their texts. -/
theorem Value.Alike.keeps {h₁ h₂ h₁' h₂' : Heap} {v w : Value} (h : v.Alike Handle.Any h₁ h₂ w)
    (hl : h₁.Keeps h₁') (hr : h₂.Keeps h₂') : v.Alike Handle.Any h₁' h₂' w :=
  ((h.left fun r text _ => hl r text).symm.left fun r text _ => hr r text).symm

theorem StaticsAlike.keeps {h₁ h₂ h₁' h₂' : Heap} {a b : Array (Array Value)}
    (h : StaticsAlike Handle.Any h₁ h₂ a b) (hl : h₁.Keeps h₁') (hr : h₂.Keeps h₂') :
    StaticsAlike Handle.Any h₁' h₂' a b :=
  h.imp fun _ _ _ _ h => h.imp fun _ _ _ _ h => h.keeps hl hr

/-- The arrays of two lists that are related entry by entry. -/
theorem Abreast.of_forall₂ {α β : Type} {R : α → β → Prop} {l₁ : List α} {l₂ : List β}
    (h : List.Forall₂ R l₁ l₂) : Abreast R l₁.toArray l₂.toArray := by
  refine ⟨by simpa using h.length_eq, fun {i v w} hv hw => ?_⟩
  rw [List.getElem?_toArray] at hv hw
  obtain ⟨hi, rfl⟩ := List.getElem?_eq_some_iff.mp hv
  obtain ⟨hj, rfl⟩ := List.getElem?_eq_some_iff.mp hw
  exact h.get hi hj

namespace Vm

/-- What two heaps have come to while they took in the same things. -/
structure Settled {α : Type} (R : Heap → Heap → α → α → Prop) (h₁ h₂ : Heap) (x y : Heap × α) :
    Prop where
  tidy_left : x.1.Tidy
  tidy_right : y.1.Tidy
  keeps_left : h₁.Keeps x.1
  keeps_right : h₂.Keeps y.1
  related : R x.1 y.1 x.2 y.2

theorem Inherited.Alike.keeps {h₁ h₂ h₁' h₂' : Heap} {x y : Inherited} (h : x.Alike h₁ h₂ y)
    (hl : h₁.Keeps h₁') (hr : h₂.Keeps h₂') : x.Alike h₁' h₂' y := by
  cases h with
  | kept h => exact .kept (h.keeps hl hr)
  | fresh initial => exact .fresh initial

/-- The values of the fields of a class settle alike. -/
theorem settleFields_alike {h₁ h₂ : Heap} (ht₁ : h₁.Tidy) (ht₂ : h₂.Tidy) {l₁ l₂ : List Inherited}
    (h : List.Forall₂ (Inherited.Alike h₁ h₂) l₁ l₂) :
    Settled (fun a b => List.Forall₂ (Value.Alike Handle.Any a b)) h₁ h₂
      (settleFields h₁ l₁) (settleFields h₂ l₂) := by
  induction l₁ generalizing h₁ h₂ l₂ with
  | nil =>
      cases h
      exact ⟨ht₁, ht₂, fun _ _ hr => hr, fun _ _ hr => hr, .nil⟩
  | cons x rest₁ ih =>
      cases h with
      | cons hxy hrest =>
      cases hxy with
      | kept hvw =>
          obtain ⟨t₁, t₂, k₁, k₂, hrel⟩ := ih ht₁ ht₂ hrest
          exact ⟨t₁, t₂, k₁, k₂, .cons (hvw.keeps k₁ k₂) hrel⟩
      | fresh initial =>
          have hl := Heap.keeps_ofScalar ht₁ initial
          have hr := Heap.keeps_ofScalar ht₂ initial
          obtain ⟨t₁, t₂, k₁, k₂, hrel⟩ := ih (ht₁.ofScalar initial) (ht₂.ofScalar initial)
            (hrest.imp fun _ _ h => h.keeps hl hr)
          exact ⟨t₁, t₂, hl.trans k₁, hr.trans k₂,
            .cons ((Value.Alike.ofScalar ht₁ ht₂ initial).keeps k₁ k₂) hrel⟩

/-- The values of all fields settle alike. -/
theorem settleStatics_alike {h₁ h₂ : Heap} (ht₁ : h₁.Tidy) (ht₂ : h₂.Tidy)
    {l₁ l₂ : List (List Inherited)}
    (h : List.Forall₂ (List.Forall₂ (Inherited.Alike h₁ h₂)) l₁ l₂) :
    Settled (fun a b => List.Forall₂ (Abreast (Value.Alike Handle.Any a b))) h₁ h₂
      (settleStatics h₁ l₁) (settleStatics h₂ l₂) := by
  induction l₁ generalizing h₁ h₂ l₂ with
  | nil =>
      cases h
      exact ⟨ht₁, ht₂, fun _ _ hr => hr, fun _ _ hr => hr, .nil⟩
  | cons fields rest₁ ih =>
      cases h with
      | cons hfields hrest =>
      obtain ⟨t₁, t₂, k₁, k₂, hrel⟩ := settleFields_alike ht₁ ht₂ hfields
      obtain ⟨t₁', t₂', k₁', k₂', hrel'⟩ := ih t₁ t₂
        (hrest.imp fun _ _ h => h.imp fun _ _ h => h.keeps k₁ k₂)
      refine ⟨t₁', t₂', k₁.trans k₁', k₂.trans k₂', .cons ?_ hrel'⟩
      exact (Abreast.of_forall₂ hrel).imp fun _ _ _ _ h => h.keeps k₁' k₂'

/-- The fields of a class, all of them new. -/
def freshFields (c : Class) : List Inherited := c.statics.map fun f => .fresh f.initial

theorem initialFields_eq (heap : Heap) (fields : List StaticField) :
    initialFields heap fields = settleFields heap (fields.map fun f => .fresh f.initial) := by
  induction fields generalizing heap with
  | nil => rfl
  | cons f rest ih =>
      unfold initialFields
      rw [List.map_cons]
      unfold settleFields
      dsimp only
      rw [ih]

/-- Initial values are those of a replacement in which every field is new. -/
theorem initialStatics_eq (heap : Heap) (classes : List Class) :
    initialStatics heap classes = settleStatics heap (classes.map freshFields) := by
  induction classes generalizing heap with
  | nil => rfl
  | cons c rest ih =>
      unfold initialStatics
      rw [List.map_cons]
      unfold settleStatics
      dsimp only
      rw [initialFields_eq, ih]
      rfl

/-! ## 2. Machines -/

variable {ν : Type}

/-- **Virtual machines that differ in their heaps, and in when they collect, only.** -/
structure Alike (a b : Vm ν) : Prop where
  options : b.options = { a.options with gcThreshold := b.options.gcThreshold }
  natives : a.natives = b.natives
  image : a.image = b.image
  store : a.store.Alike b.store

namespace Alike

variable {a b : Vm ν}

theorem maxCallDepth (h : a.Alike b) : a.options.maxCallDepth = b.options.maxCallDepth := by
  rw [h.options]

theorem withStore (h : a.Alike b) {s t : Store} (hst : s.Alike t) :
    Alike { a with store := s } { b with store := t } :=
  ⟨h.options, h.natives, h.image, hst⟩

theorem withScheduler (h : a.Alike b) (scheduler : Scheduler Binary64) :
    Alike { a with store := { a.store with scheduler } }
      { b with store := { b.store with scheduler } } :=
  h.withStore ⟨h.store.tidy_left, h.store.tidy_right, h.store.statics, rfl, h.store.reactor⟩

theorem withReactor (h : a.Alike b) (reactor : Reactor) :
    Alike { a with store := { a.store with reactor } }
      { b with store := { b.store with reactor } } :=
  h.withStore ⟨h.store.tidy_left, h.store.tidy_right, h.store.statics, h.store.scheduler, rfl⟩

/-- The static fields change in step, and the heaps with them. -/
theorem withStatics (h : a.Alike b) {heap₁ heap₂ : Heap} {statics₁ statics₂ : Array (Array Value)}
    (ht₁ : heap₁.Tidy) (ht₂ : heap₂.Tidy)
    (hs : StaticsAlike Handle.Any heap₁ heap₂ statics₁ statics₂) :
    Alike { a with store := { a.store with heap := heap₁, statics := statics₁ } }
      { b with store := { b.store with heap := heap₂, statics := statics₂ } } :=
  h.withStore ⟨ht₁, ht₂, hs, h.store.scheduler, h.store.reactor⟩

theorem isLoaded (h : a.Alike b) : a.isLoaded = b.isLoaded := by
  unfold Vm.isLoaded
  rw [h.image]

theorem loaded (h : a.Alike b) : a.loaded = b.loaded := by
  unfold Vm.loaded
  rw [h.image]

theorem staticSlot (h : a.Alike b) (cls field : String) :
    a.staticSlot cls field = b.staticSlot cls field := by
  unfold Vm.staticSlot
  rw [h.loaded]

theorem slotValue (h : a.Alike b) (ci fi : Nat) :
    (a.slotValue ci fi).Alike Handle.Any a.store.heap b.store.heap (b.slotValue ci fi) := by
  unfold Vm.slotValue
  rcases h.store.statics.lookup ci with ⟨x, y, hx, hy, hxy⟩ | ⟨hx, hy⟩
  · rw [hx, hy]
    rcases hxy.lookup fi with ⟨v, w, hv, hw, hvw⟩ | ⟨hv, hw⟩
    · rw [Option.bind_some, hv, Option.bind_some, hw]
      exact hvw
    · rw [Option.bind_some, hv, Option.bind_some, hw]
      exact .null
  · rw [hx, hy]
    exact .null

/-- Static fields read the same. -/
theorem getStatic (h : a.Alike b) (cls field : String) :
    a.getStatic cls field = b.getStatic cls field := by
  unfold Vm.getStatic
  rw [h.staticSlot]
  refine congrArg (b.staticSlot cls field >>= ·) (funext fun (ci, fi, f) => ?_)
  exact congrArg Except.ok (h.slotValue ci fi).toScalar

/-- Static fields are written alike. -/
theorem setStatic (h : a.Alike b) (cls field : String) (v : Scalar) :
    Matched Alike (· = ·) ((setStatic cls field v).run a) ((setStatic cls field v).run b) := by
  have ht₁ := h.store.tidy_left
  have ht₂ := h.store.tidy_right
  have hs := h.store.statics.keeps (Heap.keeps_ofScalar ht₁ v) (Heap.keeps_ofScalar ht₂ v)
  -- what is left once the field is found and the kind is right
  have written (ci fi : Nat) := h.withStatics (ht₁.ofScalar v) (ht₂.ofScalar v)
    (hs.modify ci fun _ _ hf => hf.setIfInBounds fi (.ofScalar ht₁ ht₂ v))
  unfold Vm.setStatic
  refine .check_bind_eq h (h.staticSlot cls field) fun (ci, fi, f) => ?_
  exact .check_bind_eq h rfl fun _ => .ok rfl (written ci fi)

theorem registerNative (h : a.Alike b) (name : String) (handler : ν) :
    (a.registerNative name handler).Alike (b.registerNative name handler) := by
  refine ⟨h.options, ?_, ?_, h.store⟩
  · unfold Vm.registerNative
    rw [h.natives]
  · unfold Vm.registerNative
    rw [h.image]

/-- Settled static fields make stores that are alike. -/
theorem settled (h : a.Alike b) {l₁ l₂ : List (List Inherited)}
    (hl : List.Forall₂ (List.Forall₂ (Inherited.Alike a.store.heap b.store.heap)) l₁ l₂)
    (image : Image ν) :
    Alike
      { a with
        image := some image
        store := { a.store with
          heap := (settleStatics a.store.heap l₁).1
          statics := (settleStatics a.store.heap l₁).2.toArray } }
      { b with
        image := some image
        store := { b.store with
          heap := (settleStatics b.store.heap l₂).1
          statics := (settleStatics b.store.heap l₂).2.toArray } } := by
  obtain ⟨t₁, t₂, -, -, hrel⟩ := settleStatics_alike h.store.tidy_left h.store.tidy_right hl
  exact ⟨h.options, h.natives, rfl,
    ⟨t₁, t₂, Abreast.of_forall₂ hrel, h.store.scheduler, h.store.reactor⟩⟩

/-- Modules are loaded alike. -/
theorem load (h : a.Alike b) (m : Module) :
    Matched Alike (· = ·) ((load m).run a) ((load m).run b) := by
  unfold Vm.load
  refine .check_bind_eq h (by rw [h.isLoaded]) fun _ => ?_
  refine .check_bind_eq h (by rw [h.natives]) fun image => .ok rfl ?_
  rw [initialStatics_eq, initialStatics_eq]
  refine h.settled ?_ image
  refine List.forall₂_same.mpr fun fields hf => List.forall₂_same.mpr fun x hx => ?_
  obtain ⟨c, -, rfl⟩ := List.mem_map.mp hf
  obtain ⟨f, -, rfl⟩ := List.mem_map.mp hx
  exact .fresh f.initial

/-! ## 3. Replacing the module -/

/-- A static field carries over on both sides or on none. -/
theorem carried (h : a.Alike b) (old : Image ν) (cls field : String) :
    (a.carried? old cls field = none ∧ b.carried? old cls field = none) ∨
    ∃ v w f, a.carried? old cls field = some (v, f) ∧ b.carried? old cls field = some (w, f) ∧
      v.Alike Handle.Any a.store.heap b.store.heap w := by
  unfold carried?
  cases old.class? cls with
  | none => exact .inl ⟨rfl, rfl⟩
  | some found =>
      obtain ⟨ci, c⟩ := found
      cases hfi : c.staticIndex? field with
      | none => exact .inl ⟨by simp [hfi], by simp [hfi]⟩
      | some fi =>
          cases hf : c.statics[fi]? with
          | none => exact .inl ⟨by simp [hfi, hf], by simp [hfi, hf]⟩
          | some f =>
              exact .inr ⟨_, _, f, by simp [hfi, hf], by simp [hfi, hf], h.slotValue ci fi⟩

theorem inheritField (h : a.Alike b) (old : Image ν) (cls : String) (f : StaticField) :
    Checks.Both (Inherited.Alike a.store.heap b.store.heap) (a.inheritField old cls f)
      (b.inheritField old cls f) := by
  unfold Vm.inheritField
  rcases h.carried old cls f.name with ⟨ha, hb⟩ | ⟨v, w, before, ha, hb, hvw⟩
  · rw [ha, hb]
    exact .ok (.fresh _)
  · rw [ha, hb]
    dsimp only
    split
    · split
      · exact .error _
      · rw [hvw.fits, hvw.kind]
        split
        · exact .ok (.kept hvw)
        · exact .error _
    · rw [hvw.fits, hvw.kind]
      split
      · exact .ok (.kept hvw)
      · exact .error _
    · exact .ok (.kept hvw)

theorem inheritance (h : a.Alike b) (old : Image ν) (classes : List Class) :
    Checks.Both (List.Forall₂ (List.Forall₂ (Inherited.Alike a.store.heap b.store.heap)))
      (a.inheritance old classes) (b.inheritance old classes) :=
  .mapM fun c _ => .mapM fun f _ => h.inheritField old c.name f

theorem pendingCallbacks (h : a.Alike b) : a.pendingCallbacks = b.pendingCallbacks := by
  unfold Vm.pendingCallbacks
  rw [h.store.scheduler, h.store.reactor]

end Alike

/-- Fields that settle alike are counted alike, by what only asks where they come from. -/
theorem countP_eq_of_alike {h₁ h₂ : Heap} {l₁ l₂ : List Inherited}
    (h : List.Forall₂ (Inherited.Alike h₁ h₂) l₁ l₂) {p : Inherited → Bool}
    (hp : ∀ v w, p (.kept v) = p (.kept w)) : l₁.countP p = l₂.countP p := by
  induction h with
  | nil => rfl
  | cons hxy _ ih =>
      cases hxy with
      | kept _ => rw [List.countP_cons, List.countP_cons, ih, hp]
      | fresh _ => rw [List.countP_cons, List.countP_cons, ih]

theorem report_eq_of_alike {h₁ h₂ : Heap} {l₁ l₂ : List (List Inherited)}
    (h : List.Forall₂ (List.Forall₂ (Inherited.Alike h₁ h₂)) l₁ l₂) (old new : Module) :
    report old new l₁ = report old new l₂ := by
  have key (p : Inherited → Bool) (hp : ∀ v w, p (.kept v) = p (.kept w)) :
      l₁.map (·.countP p) = l₂.map (·.countP p) := by
    induction h with
    | nil => rfl
    | cons hfields _ ih => rw [List.map_cons, List.map_cons, ih, countP_eq_of_alike hfields hp]
  unfold report
  dsimp only
  rw [key _ fun _ _ => rfl, key _ fun _ _ => rfl]

/-- **Modules are replaced alike**, with the same report or the same refusal. -/
theorem Alike.patch {a b : Vm ν} (h : a.Alike b) (m : Module) :
    Matched Alike (· = ·) ((patch m).run a) ((patch m).run b) := by
  unfold Vm.patch
  refine .check_bind_eq h (by rw [h.options]) fun _ => ?_
  refine .check_bind_eq h h.loaded fun old => ?_
  refine .check_bind_eq h (by rw [h.natives]) fun image => ?_
  rw [inheritStatics_eq]
  refine .check_bind h ((h.inheritance old m.classes).mapError _) fun l₁ l₂ hl => ?_
  refine .check_bind_eq h (by dsimp only; rw [h.pendingCallbacks]) fun _ => ?_
  exact .ok (report_eq_of_alike hl _ _) (h.settled hl image)

end Vm

end EmbeddedVm
