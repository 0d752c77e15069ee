import EmbeddedVm.Proofs.Machine.Invariants
import EmbeddedVm.Proofs.Module.Names
import EmbeddedVm.Proofs.Vm.Alike
import EmbeddedVm.Proofs.Vm.Change

/-!
# The loaded module is verified and linked

Whatever a host does with a virtual machine, the module in it is one that the verifier accepts,
linked against the functions that are registered now, and its static fields are arranged like its
classes (`Reachable.sound`). So what verified code may rely on holds of every call, at any moment of
a session.

That the imports stay up to date takes an argument: a host function registered later gives the
imports of its name a new handler in place, and that is what linking anew would do
(`link_insert`).
-/

namespace EmbeddedVm

variable {ν : Type}

/-! ## 1. Host functions registered later -/

namespace NativeTable

theorem lookup_replace {entries : List (String × ν)} {name : String} {handler : ν} (n : String) :
    (entries.map fun e => if e.1 == name then (e.1, handler) else (e.1, e.2)).lookup n =
      if n = name then (entries.lookup n).map fun _ => handler else entries.lookup n := by
  induction entries with
  | nil => simp
  | cons e rest ih =>
      obtain ⟨k, v⟩ := e
      rw [List.map_cons, List.lookup_cons]
      by_cases hk : k = name
      · subst hk
        by_cases hn : n = k
        · subst hn
          simp
        · have hn' : (n == k) = false := beq_eq_false_iff_ne.mpr hn
          simp only [beq_self_eq_true, if_true, List.lookup_cons, hn', ih, if_neg hn]
      · have hk' : (k == name) = false := beq_eq_false_iff_ne.mpr hk
        by_cases hn : n = k
        · subst hn
          simp [hk]
        · have hn' : (n == k) = false := beq_eq_false_iff_ne.mpr hn
          simp only [hk', Bool.false_eq_true, if_false, List.lookup_cons, hn', ih]

/-- **A registered handler is found under its name; every other name finds what it found.** -/
theorem find?_insert (t : NativeTable ν) (name : String) (handler : ν) (n : String) :
    (t.insert name handler).find? n = if n = name then some handler else t.find? n := by
  unfold insert contains find?
  split
  · rename_i hc
    show (t.entries.map fun e => if e.1 == name then (e.1, handler) else (e.1, e.2)).lookup n = _
    rw [lookup_replace]
    by_cases hn : n = name
    · subst hn
      obtain ⟨h, hh⟩ := Option.isSome_iff_exists.mp hc
      rw [if_pos rfl, if_pos rfl, hh]
      rfl
    · rw [if_neg hn, if_neg hn]
  · rename_i hc
    dsimp only
    rw [List.lookup_append]
    by_cases hn : n = name
    · subst hn
      rw [if_pos rfl, Option.not_isSome_iff_eq_none.mp hc]
      simp
    · rw [if_neg hn, List.lookup_cons, beq_eq_false_iff_ne.mpr hn]
      simp

end NativeTable

namespace Imports

theorem resolveList_insert {t : NativeTable ν} (name : String) (handler : ν) :
    ∀ {names : List String} {l : List (String × ν)}, resolveList t names = .ok l →
    resolveList (t.insert name handler) names =
      .ok (l.map fun e => if e.1 == name then (e.1, handler) else (e.1, e.2))
  | [], l, h => by
      cases h
      rfl
  | n :: rest, l, h => by
      unfold resolveList at h
      split at h
      · rename_i found hfound
        obtain ⟨resolved, hr, h⟩ := Checks.bind_eq_ok.mp h
        cases h
        unfold resolveList
        rw [NativeTable.find?_insert, resolveList_insert name handler hr]
        by_cases hn : n = name
        · subst hn
          rw [if_pos rfl, List.map_cons]
          simp only [beq_self_eq_true, if_true]
          rfl
        · rw [if_neg hn, hfound, List.map_cons]
          simp only [beq_eq_false_iff_ne.mpr hn, Bool.false_eq_true, if_false]
          rfl
      · cases h

/-- Giving imports a new handler is resolving them anew. -/
theorem resolve_insert {t : NativeTable ν} {names : List String} {imports : Imports ν}
    (h : resolve t names = .ok imports) (name : String) (handler : ν) :
    resolve (t.insert name handler) names = .ok (imports.rebind name handler) := by
  unfold resolve at h
  obtain ⟨l, hl, h⟩ := Checks.bind_eq_ok.mp h
  cases h
  unfold resolve
  rw [resolveList_insert name handler hl]
  show Except.ok _ = Except.ok _
  unfold rebind
  rw [List.map_toArray]

end Imports

/-- **Registering a host function later is linking anew.** -/
theorem Image.link_insert {natives : NativeTable ν} {m : Module} {image : Image ν}
    (h : link natives m = .ok image) (name : String) (handler : ν) :
    link (natives.insert name handler) m =
      .ok { image with imports := image.imports.rebind name handler } := by
  unfold link at h ⊢
  simp only [Checks.bind_eq_ok, Checks.mapError_eq_ok, Checks.pure_eq_ok] at h ⊢
  obtain ⟨imports, himports, functions, hfunctions, rfl⟩ := h
  exact ⟨_, Imports.resolve_insert himports name handler, functions, hfunctions, rfl⟩

namespace Vm

/-! ## 2. Static fields in their places -/

theorem prepare_eq_ok {natives : NativeTable ν} {m : Module} {image : Image ν} :
    prepare natives m = .ok image ↔ m.verify = .ok () ∧ Image.link natives m = .ok image := by
  unfold prepare
  simp only [Checks.bind_eq_ok, Checks.mapError_eq_ok]
  constructor
  · rintro ⟨_, hv, hl⟩
    exact ⟨hv, hl⟩
  · rintro ⟨hv, hl⟩
    exact ⟨(), hv, hl⟩

theorem length_settleFields (heap : Heap) (l : List Inherited) :
    (settleFields heap l).2.length = l.length := by
  induction l generalizing heap with
  | nil => rfl
  | cons x rest ih =>
      cases x with
      | kept v => exact congrArg (· + 1) (ih heap)
      | fresh initial => exact congrArg (· + 1) (ih _)

/-- Settled static fields are arranged as the list says. -/
theorem sizes_settleStatics (heap : Heap) (l : List (List Inherited)) :
    (settleStatics heap l).2.map Array.size = l.map List.length := by
  induction l generalizing heap with
  | nil => rfl
  | cons fields rest ih =>
      unfold settleStatics
      dsimp only
      rw [List.map_cons, List.map_cons, ih, List.size_toArray, length_settleFields]

theorem shapes_settled {image : Image ν} {heap : Heap} {l : List (List Inherited)}
    (h : l.map List.length = image.module.classes.map (·.statics.length)) :
    image.Shapes (settleStatics heap l).2.toArray := by
  unfold Image.Shapes
  rw [List.toList_toArray, sizes_settleStatics, h]

/-- Every field of the new module inherits or starts anew. -/
theorem lengths_inheritance {vm : Vm ν} {old : Image ν} {classes : List Class}
    {l : List (List Inherited)} (h : vm.inheritance old classes = .ok l) :
    l.map List.length = classes.map (·.statics.length) := by
  have hl := Checks.mapM_eq_ok.mp h
  induction hl with
  | nil => rfl
  | cons hfields hrest ih =>
      rw [List.map_cons, List.map_cons, Checks.length_of_mapM hfields,
        ih (Checks.mapM_eq_ok.mpr hrest)]

/-! ## 3. The invariant -/

/-- **A machine whose module is verified, linked as it would be now, and has its static fields.** -/
structure Sound (vm : Vm ν) : Prop where
  prepared : ∀ {image : Image ν}, vm.image = some image →
    prepare vm.natives image.module = .ok image
  shapes : ∀ {image : Image ν}, vm.image = some image → image.Shapes vm.store.statics

/-- Of such a machine, every operand of the code refers to something. -/
theorem Sound.image {vm : Vm ν} (h : vm.Sound) {image : Image ν} (hi : vm.image = some image) :
    image.Sound := by
  obtain ⟨hv, hl⟩ := prepare_eq_ok.mp (h.prepared hi)
  exact Image.sound_of_verify hv hl

theorem Sound.wellNamed {vm : Vm ν} (h : vm.Sound) {image : Image ν} (hi : vm.image = some image) :
    image.module.WellNamed :=
  Module.wellNamed_of_verify (prepare_eq_ok.mp (h.prepared hi)).1

/-- What loading comes to. -/
theorem load_eq_ok {vm vm' : Vm ν} {m : Module} (h : (load m).run vm = .ok () vm') :
    vm.image = none ∧ ∃ image, prepare vm.natives m = .ok image ∧
      vm' = { vm with
        image := some image
        store := { vm.store with
          heap := (settleStatics vm.store.heap (m.classes.map freshFields)).1
          statics := (settleStatics vm.store.heap (m.classes.map freshFields)).2.toArray } } := by
  unfold load at h
  simp only [check_bind_eq_ok, Checks.refuse_eq_ok] at h
  obtain ⟨_, ⟨hi, -⟩, image, hp, h⟩ := h
  cases h
  refine ⟨Option.not_isSome_iff_eq_none.mp hi, image, hp, ?_⟩
  rw [initialStatics_eq]

/-- What replacing comes to. -/
theorem patch_eq_ok {vm vm' : Vm ν} {m : Module} {r : PatchReport}
    (h : (patch m).run vm = .ok r vm') :
    ∃ old image inherited, vm.image = some old ∧ prepare vm.natives m = .ok image ∧
      vm.inheritance old m.classes = .ok inherited ∧
      checkCallbacks image vm.pendingCallbacks = .ok () ∧ r = report old.module m inherited ∧
      vm' = { vm with
        image := some image
        store := { vm.store with
          heap := (settleStatics vm.store.heap inherited).1
          statics := (settleStatics vm.store.heap inherited).2.toArray } } := by
  unfold patch at h
  simp only [inheritStatics_eq, vet, check_bind_eq_ok, Checks.mapError_eq_ok] at h
  obtain ⟨_, -, old, hold, image, hp, inherited, hl, _, hc, h⟩ := h
  cases h
  exact ⟨old, image, inherited, loaded_eq_ok.mp hold, hp, hl, hc, rfl, rfl⟩

/-- What writing a static field comes to. -/
theorem setStatic_eq_ok {vm vm' : Vm ν} {cls field : String} {v : Scalar}
    (h : (setStatic cls field v).run vm = .ok () vm') :
    ∃ ci fi f, vm.staticSlot cls field = .ok (ci, fi, f) ∧ checkKind f v = .ok () ∧ vm' = { vm with
      store := { vm.store with
        heap := (vm.store.heap.ofScalar v).1
        statics := vm.store.statics.modify ci
          (·.setIfInBounds fi (vm.store.heap.ofScalar v).2) } } := by
  unfold setStatic at h
  obtain ⟨⟨ci, fi, f⟩, hslot, h⟩ := check_bind_eq_ok.mp h
  obtain ⟨_, hkind, h⟩ := check_bind_eq_ok.mp h
  cases h
  exact ⟨ci, fi, f, hslot, hkind, rfl⟩

/-- No elementary change takes the module away. -/
theorem Change.isLoaded {vm vm' : Vm ν} (h : Change vm vm') (hl : vm.isLoaded = true) :
    vm'.isLoaded = true := by
  cases h with
  | load h =>
      obtain ⟨-, image, -, rfl⟩ := load_eq_ok h
      rfl
  | patch h =>
      obtain ⟨-, image, -, -, -, -, -, -, rfl⟩ := patch_eq_ok h
      rfl
  | registerNative name handler => exact Option.isSome_map.trans hl
  | setStatic h =>
      obtain ⟨ci, fi, f, -, -, rfl⟩ := setStatic_eq_ok h
      exact hl
  | call _ _ | collect | events _ _ => exact hl

theorem Changes.isLoaded {vm vm' : Vm ν} (h : Changes vm vm') (hl : vm.isLoaded = true) :
    vm'.isLoaded = true :=
  h.induct (I := fun vm => vm.isLoaded = true) (fun _ _ ha hc => hc.isLoaded ha) hl

/-- A collection neither brings a module nor takes one away. -/
theorem isLoaded_collectGarbage {vm vm' : Vm ν} {result : Except VmError Unit}
    (h : vm.collectGarbage.Ends (result, vm')) : vm'.isLoaded = vm.isLoaded := by
  cases h with
  | pause stopped h =>
      cases stopped <;> cases Run.ends_done.mp h <;> rfl

/-- **Every elementary change keeps the module verified and linked.** -/
theorem Sound.change {vm vm' : Vm ν} (h : vm.Sound) (hc : Change vm vm') : vm'.Sound := by
  cases hc with
  | load hload =>
      obtain ⟨-, image, hp, rfl⟩ := load_eq_ok hload
      have hm := (Image.link_eq_ok (prepare_eq_ok.mp hp).2).1
      refine ⟨fun hi => ?_, fun hi => ?_⟩
      · cases hi
        rw [hm]
        exact hp
      · cases hi
        refine shapes_settled ?_
        rw [hm, List.map_map]
        refine List.map_congr_left fun c _ => ?_
        exact List.length_map _
  | patch hpatch =>
      obtain ⟨old, image, inherited, -, hp, hl, -, -, rfl⟩ := patch_eq_ok hpatch
      have hm := (Image.link_eq_ok (prepare_eq_ok.mp hp).2).1
      refine ⟨fun hi => ?_, fun hi => ?_⟩
      · cases hi
        rw [hm]
        exact hp
      · cases hi
        refine shapes_settled ?_
        rw [hm]
        exact lengths_inheritance hl
  | registerNative name handler =>
      unfold registerNative
      refine ⟨fun hi => ?_, fun hi => ?_⟩
      · obtain ⟨before, hb, rfl⟩ := Option.map_eq_some_iff.mp hi
        obtain ⟨hv, hl⟩ := prepare_eq_ok.mp (h.prepared hb)
        exact prepare_eq_ok.mpr ⟨hv, Image.link_insert hl name handler⟩
      · obtain ⟨before, hb, rfl⟩ := Option.map_eq_some_iff.mp hi
        have hshapes : before.Shapes vm.store.statics := h.shapes hb
        exact hshapes
  | call hi ho =>
      refine ⟨h.prepared, fun {image} hi' => ?_⟩
      rw [hi] at hi'
      cases hi'
      exact Machine.storeInvariant_shapes.call (h.image hi) (h.shapes hi) (h.shapes hi) ho
  | setStatic hset =>
      obtain ⟨ci, fi, f, -, -, rfl⟩ := setStatic_eq_ok hset
      exact ⟨h.prepared, fun hi => Machine.shapes_modify (h.shapes hi) _ _ _⟩
  | collect => exact ⟨h.prepared, h.shapes⟩
  | events scheduler reactor => exact ⟨h.prepared, h.shapes⟩

/-- **Every reachable machine has a verified, linked module.** -/
theorem Reachable.sound {vm : Vm ν} (h : Reachable vm) : vm.Sound :=
  h.induct (fun _ _ => ⟨nofun, nofun⟩) fun _ _ hvm hc => hvm.change hc

end Vm

end EmbeddedVm
