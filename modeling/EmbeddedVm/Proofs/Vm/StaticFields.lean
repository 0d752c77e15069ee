import EmbeddedVm.Proofs.Machine.Linking
import EmbeddedVm.Proofs.Vm.Soundness
import EmbeddedVm.Proofs.Vm.Unobservable

/-!
# What static fields hold

A static field reads as a scalar; in the store it is a value in a slot, and a text behind a handle.
`Heap.Holds` says that a value stands for a scalar and refers to something, which is what survives an
allocation. When fields settle, each comes to hold the scalar expected of it: a field that was there
before the one it held, a new one its initial value (`settleStatics_holds`).
-/

namespace EmbeddedVm

/-- **A value that stands for a scalar**, in a heap in which it refers to something. -/
def Heap.Holds (h : Heap) (v : Value) (s : Scalar) : Prop :=
  v.Alike Handle.Any h h v ∧ h.toScalar v = s

namespace Heap

variable {h h' : Heap} {v : Value} {s : Scalar}

theorem Holds.keeps (hv : h.Holds v s) (hk : h.Keeps h') : h'.Holds v s := by
  refine ⟨hv.1.keeps hk hk, ?_⟩
  have hsame : v.Alike Handle.Any h h' v := hv.1.keeps (fun _ _ hr => hr) hk
  rw [← hsame.toScalar]
  exact hv.2

theorem holds_ofScalar (ht : h.Tidy) (s : Scalar) : (h.ofScalar s).1.Holds (h.ofScalar s).2 s := by
  refine ⟨.ofScalar ht ht s, ?_⟩
  cases s with
  | string text =>
      show (h.alloc text).1.toScalar (.string (h.alloc text).2) = .string text
      unfold toScalar
      dsimp only
      rw [get?_new ht text]
  | null | bool | int | float => rfl

end Heap

namespace Vm

variable {ν : Type}

/-! ## 1. Settling -/

/-- Where a static field comes from, and what it is to hold. -/
inductive Inherited.Holds (h : Heap) : Inherited → Scalar → Prop where
  | kept {v : Value} {s : Scalar} (hv : h.Holds v s) : Holds h (.kept v) s
  | fresh (initial : Scalar) : Holds h (.fresh initial) initial

theorem Inherited.Holds.keeps {h h' : Heap} {x : Inherited} {s : Scalar} (hx : x.Holds h s)
    (hk : h.Keeps h') : x.Holds h' s := by
  cases hx with
  | kept hv => exact .kept (hv.keeps hk)
  | fresh _ => exact .fresh _

/-- The fields of a class come to hold what they are to hold. -/
theorem settleFields_holds {h : Heap} (ht : h.Tidy) {l : List Inherited} {expected : List Scalar}
    (hl : List.Forall₂ (Inherited.Holds h) l expected) :
    (settleFields h l).1.Tidy ∧ h.Keeps (settleFields h l).1 ∧
      List.Forall₂ (settleFields h l).1.Holds (settleFields h l).2 expected := by
  induction l generalizing h expected with
  | nil =>
      cases hl
      exact ⟨ht, fun _ _ hr => hr, .nil⟩
  | cons x rest ih =>
      cases hl with
      | cons hx hrest =>
      cases hx with
      | kept hv =>
          obtain ⟨ht', hk, hvalues⟩ := ih ht hrest
          exact ⟨ht', hk, .cons (hv.keeps hk) hvalues⟩
      | fresh _ =>
          rename_i initial _
          have hk₀ := Heap.keeps_ofScalar ht initial
          obtain ⟨ht', hk, hvalues⟩ := ih (ht.ofScalar initial)
            (hrest.imp fun _ _ hx => hx.keeps hk₀)
          exact ⟨ht', hk₀.trans hk, .cons ((Heap.holds_ofScalar ht initial).keeps hk) hvalues⟩

/-- **All fields come to hold what they are to hold.** -/
theorem settleStatics_holds {h : Heap} (ht : h.Tidy) {l : List (List Inherited)}
    {expected : List (List Scalar)} (hl : List.Forall₂ (List.Forall₂ (Inherited.Holds h)) l expected) :
    (settleStatics h l).1.Tidy ∧ h.Keeps (settleStatics h l).1 ∧
      List.Forall₂ (fun fields ss => List.Forall₂ (settleStatics h l).1.Holds fields.toList ss)
        (settleStatics h l).2 expected := by
  induction l generalizing h expected with
  | nil =>
      cases hl
      exact ⟨ht, fun _ _ hr => hr, .nil⟩
  | cons fields rest ih =>
      cases hl with
      | cons hfields hrest =>
      obtain ⟨ht₁, hk₁, hvalues₁⟩ := settleFields_holds ht hfields
      obtain ⟨ht₂, hk₂, hvalues₂⟩ := ih ht₁ (hrest.imp fun _ _ hf => hf.imp fun _ _ hx =>
        hx.keeps hk₁)
      exact ⟨ht₂, hk₁.trans hk₂, .cons (hvalues₁.imp fun _ _ hv => hv.keeps hk₂) hvalues₂⟩

/-! ## 2. Slots -/

end Vm

/-- The declaration of a static field, by name. -/
def Module.static? (m : Module) (cls field : String) : Option StaticField :=
  (m.class? cls).bind fun c => c.statics.find? (·.name == field)

/-- A static field by name: its indices and its declaration. -/
def Image.slot? {ν : Type} (image : Image ν) (cls field : String) :
    Option (Nat × Nat × StaticField) := do
  let (ci, c) ← image.class? cls
  let fi ← c.staticIndex? field
  let f ← c.statics[fi]?
  some (ci, fi, f)

namespace Image

variable {ν : Type} {image : Image ν} {cls field : String}

/-- What a test has found stands where it was found. -/
theorem getElem?_of_findIdx? {α : Type} {l : List α} {p : α → Bool} {i : Nat}
    (h : l.findIdx? p = some i) : ∃ a, l[i]? = some a ∧ l.find? p = some a ∧ p a = true := by
  obtain ⟨hi, hp, -⟩ := List.findIdx?_eq_some_iff_getElem.mp h
  refine ⟨l[i], List.getElem?_eq_getElem hi, ?_, hp⟩
  rw [List.find?_eq_bind_findIdx?_getElem?, h]
  exact List.getElem?_eq_getElem hi

theorem class?_eq_some {ci : Nat} {c : Class} (h : image.class? cls = some (ci, c)) :
    image.module.classes[ci]? = some c ∧ c.name = cls ∧ image.module.class? cls = some c := by
  unfold class? at h
  split at h
  · rename_i i hi
    obtain ⟨d, hd, h⟩ := Option.map_eq_some_iff.mp h
    cases h
    obtain ⟨e, he, hfind, hname⟩ := getElem?_of_findIdx? hi
    rw [hd] at he
    cases he
    exact ⟨hd, beq_iff_eq.mp hname, hfind⟩
  · cases h

theorem class?_eq_none (h : image.class? cls = none) : image.module.class? cls = none := by
  unfold class? at h
  split at h
  · rename_i i hi
    obtain ⟨e, he, -, -⟩ := getElem?_of_findIdx? hi
    rw [he] at h
    cases h
  · rename_i hi
    exact List.find?_eq_none.mpr fun c hc => by
      rw [List.findIdx?_eq_none_iff.mp hi c hc]
      exact Bool.false_ne_true

/-- Where a slot is. -/
theorem slot?_eq_some {ci fi : Nat} {f : StaticField} (h : image.slot? cls field = some (ci, fi, f)) :
    ∃ c, image.module.classes[ci]? = some c ∧ c.name = cls ∧ c.statics[fi]? = some f ∧
      f.name = field := by
  unfold slot? at h
  obtain ⟨⟨i, c⟩, hc, h⟩ := Option.bind_eq_some_iff.mp h
  obtain ⟨j, hj, h⟩ := Option.bind_eq_some_iff.mp h
  obtain ⟨g, hg, h⟩ := Option.bind_eq_some_iff.mp h
  cases h
  obtain ⟨hci, hname, -⟩ := class?_eq_some hc
  obtain ⟨e, he, -, hfield⟩ := getElem?_of_findIdx? hj
  rw [hg] at he
  cases he
  exact ⟨c, hci, hname, hg, beq_iff_eq.mp hfield⟩

/-- Where names are distinct, a static field is found at the indices at which it is declared. -/
theorem slot?_of_declared (hn : image.module.WellNamed) {ci fi : Nat} {c : Class} {f : StaticField}
    (hc : image.module.classes[ci]? = some c) (hf : c.statics[fi]? = some f) :
    image.slot? c.name f.name = some (ci, fi, f) := by
  have hci : image.class? c.name = some (ci, c) := (class?_eq_some_iff hn).mpr ⟨hc, rfl⟩
  have hfi : c.staticIndex? f.name = some fi :=
    (findIdx?_eq_some (hn.members c (List.mem_of_getElem? hc)).statics).mpr ⟨f, hf, rfl⟩
  unfold slot?
  rw [hci, Option.bind_eq_bind, Option.bind_some]
  dsimp only
  rw [hfi, Option.bind_eq_bind, Option.bind_some, hf]
  rfl

/-- There is a slot for exactly the static fields that are declared. -/
theorem static?_eq (image : Image ν) (cls field : String) :
    image.module.static? cls field = (image.slot? cls field).map (·.2.2) := by
  unfold Module.static? slot?
  cases hc : image.class? cls with
  | none =>
      rw [class?_eq_none hc]
      rfl
  | some found =>
      obtain ⟨ci, c⟩ := found
      rw [(class?_eq_some hc).2.2]
      show c.statics.find? _ = Option.map _ ((c.staticIndex? field).bind _)
      unfold Class.staticIndex?
      cases hi : c.statics.findIdx? (·.name == field) with
      | none =>
          rw [List.find?_eq_bind_findIdx?_getElem?, hi]
          rfl
      | some fi =>
          obtain ⟨f, hf, hfind, -⟩ := getElem?_of_findIdx? hi
          rw [hfind, Option.bind_some, hf]
          rfl

end Image

namespace Vm

variable {ν : Type} {vm : Vm ν} {image : Image ν} {cls field : String}

theorem staticSlot_eq (hi : vm.image = some image) {ci fi : Nat} {f : StaticField}
    (h : image.slot? cls field = some (ci, fi, f)) :
    vm.staticSlot cls field = .ok (ci, fi, f) := by
  unfold Image.slot? at h
  obtain ⟨⟨i, c⟩, hc, h⟩ := Option.bind_eq_some_iff.mp h
  obtain ⟨j, hj, h⟩ := Option.bind_eq_some_iff.mp h
  obtain ⟨g, hg, h⟩ := Option.bind_eq_some_iff.mp h
  cases h
  unfold staticSlot
  rw [loaded_eq_ok.mpr hi]
  simp only [bind, Except.bind, hc, hj, hg]

/-- A static field without a slot is missing, or its class is. -/
theorem staticSlot_eq_error (hi : vm.image = some image) (h : image.slot? cls field = none) :
    vm.staticSlot cls field =
      .error (if (image.class? cls).isSome then .fieldNotFound cls field
        else .classNotFound cls) := by
  unfold Image.slot? at h
  unfold staticSlot
  rw [loaded_eq_ok.mpr hi]
  cases hc : image.class? cls with
  | none => simp [bind, Except.bind, hc]
  | some p =>
      obtain ⟨i, c⟩ := p
      rw [hc, Option.bind_eq_bind, Option.bind_some] at h
      cases hj : c.staticIndex? field with
      | none => simp [bind, Except.bind, hc, hj]
      | some j =>
          dsimp only at h
          rw [hj, Option.bind_eq_bind, Option.bind_some] at h
          have hg : c.statics[j]? = none := by
            cases hg : c.statics[j]? with
            | none => rfl
            | some f =>
                rw [hg] at h
                cases h
          simp [bind, Except.bind, hc, hj, hg]

/-- **A static field reads as what its slot holds.** -/
theorem getStatic_eq (hi : vm.image = some image) {ci fi : Nat} {f : StaticField}
    (h : image.slot? cls field = some (ci, fi, f)) :
    vm.getStatic cls field = .ok (vm.store.heap.toScalar (vm.slotValue ci fi)) := by
  unfold getStatic
  rw [staticSlot_eq hi h]
  rfl

/-! ## 3. What is expected of the fields of another module -/

/-- What a replacement is to leave in a static field: what the loaded module has under that name,
    and otherwise the initial value. -/
def expected (vm : Vm ν) (old : Image ν) (cls : String) (f : StaticField) : Scalar :=
  match old.slot? cls f.name with
  | some (ci, fi, _) => vm.store.heap.toScalar (vm.slotValue ci fi)
  | none => f.initial

theorem carried?_eq (vm : Vm ν) (old : Image ν) (cls field : String) :
    vm.carried? old cls field =
      (old.slot? cls field).map fun p => (vm.slotValue p.1 p.2.1, p.2.2) := by
  unfold carried? Image.slot?
  cases old.class? cls with
  | none => rfl
  | some found =>
      obtain ⟨ci, c⟩ := found
      show (c.staticIndex? field).bind _ = Option.map _ ((c.staticIndex? field).bind _)
      cases c.staticIndex? field with
      | none => rfl
      | some fi =>
          show (c.statics[fi]?).bind _ = Option.map _ ((c.statics[fi]?).bind _)
          cases c.statics[fi]? with
          | none => rfl
          | some f => rfl

/-- An admissible field inherits what is expected of it. -/
theorem inheritField_holds (h : vm.Alike vm) {old : Image ν} {f : StaticField} {x : Inherited}
    (hx : vm.inheritField old cls f = .ok x) : x.Holds vm.store.heap (vm.expected old cls f) := by
  unfold inheritField at hx
  rw [carried?_eq] at hx
  unfold expected
  cases hs : old.slot? cls f.name with
  | none =>
      rw [hs] at hx
      cases hx
      exact .fresh _
  | some p =>
      obtain ⟨ci, fi, before⟩ := p
      rw [hs] at hx
      have hlive : vm.store.heap.Holds (vm.slotValue ci fi)
          (vm.store.heap.toScalar (vm.slotValue ci fi)) := ⟨h.slotValue ci fi, rfl⟩
      dsimp only [Option.map_some] at hx ⊢
      -- whichever check is made, a field that passes it is kept
      split at hx
      · split at hx
        · cases hx
        · split at hx
          · cases hx
            exact .kept hlive
          · cases hx
      · split at hx
        · cases hx
          exact .kept hlive
        · cases hx
      · cases hx
        exact .kept hlive

theorem inheritance_holds (h : vm.Alike vm) {old : Image ν} {classes : List Class}
    {l : List (List Inherited)} (hl : vm.inheritance old classes = .ok l) :
    List.Forall₂ (List.Forall₂ (Inherited.Holds vm.store.heap)) l
      (classes.map fun c => c.statics.map (vm.expected old c.name)) := by
  rw [List.forall₂_map_right_iff]
  refine List.Forall₂.flip ((Checks.mapM_eq_ok.mp hl).imp fun c fields hfields => ?_)
  show List.Forall₂ _ fields (c.statics.map _)
  rw [List.forall₂_map_right_iff]
  exact List.Forall₂.flip ((Checks.mapM_eq_ok.mp hfields).imp fun f x hx =>
    inheritField_holds h hx)

/-- Of two lists that are related entry by entry, the entries at a position are. -/
theorem getElem?_of_forall₂ {α β : Type} {R : α → β → Prop} {l₁ : List α} {l₂ : List β}
    (h : List.Forall₂ R l₁ l₂) {i : Nat} {b : β} (hb : l₂[i]? = some b) :
    ∃ a, l₁[i]? = some a ∧ R a b := by
  obtain ⟨hi, rfl⟩ := List.getElem?_eq_some_iff.mp hb
  have hi' : i < l₁.length := by
    rw [h.length_eq]
    exact hi
  exact ⟨l₁[i], List.getElem?_eq_getElem hi', h.get hi' hi⟩

/-- After a replacement every slot holds what is expected of the field that stands there. -/
theorem slot_patched (h : vm.Alike vm) {m : Module} {r : PatchReport} {vm' : Vm ν}
    (hp : (patch m).run vm = .ok r vm') {old : Image ν} (ho : vm.image = some old) {ci fi : Nat}
    {c : Class} {f : StaticField} (hci : m.classes[ci]? = some c) (hfi : c.statics[fi]? = some f) :
    ∃ v, vm'.store.statics[ci]?.bind (·[fi]?) = some v ∧
      vm'.store.heap.Holds v (vm.expected old c.name f) := by
  obtain ⟨old', image, inherited, ho', -, hl, -, -, rfl⟩ := patch_eq_ok hp
  rw [ho] at ho'
  cases ho'
  -- the value in the slot is the one that was settled there
  obtain ⟨-, -, hvalues⟩ := settleStatics_holds h.store.tidy_left (inheritance_holds h hl)
  obtain ⟨fields, hfields, hrow⟩ := getElem?_of_forall₂ hvalues (i := ci)
    (b := c.statics.map (vm.expected old c.name)) (by rw [List.getElem?_map, hci]; rfl)
  obtain ⟨v, hv, hholds⟩ := getElem?_of_forall₂ hrow (i := fi) (b := vm.expected old c.name f)
    (by rw [List.getElem?_map, hfi]; rfl)
  refine ⟨v, ?_, hholds⟩
  dsimp only
  rw [List.getElem?_toArray, hfields, Option.bind_some, ← Array.getElem?_toList, hv]

/-- **After a replacement every static field of the new module reads as expected.** -/
theorem getStatic_patched (h : vm.Alike vm) {m : Module} {r : PatchReport} {vm' : Vm ν}
    (hp : (patch m).run vm = .ok r vm') {old : Image ν} (ho : vm.image = some old) {f : StaticField}
    (hf : m.static? cls field = some f) :
    f.name = field ∧ vm'.getStatic cls field = .ok (vm.expected old cls f) := by
  obtain ⟨_, image, inherited, -, hprepared, -, -, -, hvm'⟩ := patch_eq_ok hp
  have hm : image.module = m := (Image.link_eq_ok (prepare_eq_ok.mp hprepared).2).1
  rw [← hm, Image.static?_eq] at hf
  obtain ⟨⟨ci, fi, g⟩, hslot, rfl⟩ := Option.map_eq_some_iff.mp hf
  obtain ⟨c, hci, rfl, hfi, rfl⟩ := Image.slot?_eq_some hslot
  rw [hm] at hci
  obtain ⟨v, hv, hholds⟩ := slot_patched h hp ho hci hfi
  refine ⟨rfl, ?_⟩
  rw [getStatic_eq (by rw [hvm']) hslot]
  unfold slotValue
  rw [hv]
  exact congrArg Except.ok hholds.2

end Vm

end EmbeddedVm
