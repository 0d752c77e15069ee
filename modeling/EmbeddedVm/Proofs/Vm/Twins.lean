import EmbeddedVm.Proofs.Machine.Naming
import EmbeddedVm.Proofs.Vm.StaticFields

/-!
# Virtual machines with twin modules

Two virtual machines are `Paired` when their modules are twins with the same methods and their
stores are alike wherever the modules are paired by name. What a host asks for by name is then found
on both sides or on neither, and what is found does alike: calls and drains go in lockstep, a static
field that both modules declare reads the same and is written alike.
-/

namespace EmbeddedVm.Vm

variable {ν : Type}

/-- **Virtual machines whose modules are twins**, and which hold the same under every name. -/
structure Paired (m m' : Module) (a b : Vm ν) : Prop where
  twins : m.Twins m'
  methods : (methodBindings m).Perm (methodBindings m')
  options : a.options = b.options
  natives : a.natives = b.natives
  left : ∃ image, a.image = some image ∧ Image.link a.natives m = .ok image
  right : ∃ image, b.image = some image ∧ Image.link b.natives m' = .ok image
  store : twins.pairing.StoresAlike a.store b.store

namespace Paired

variable {m m' : Module} {a b : Vm ν}

/-! ## 1. Names -/

/-- A function is found on both sides or on none. -/
theorem functionIndex (h : Paired m m' a b) (name : String) :
    (m.functionIndex? name = none ∧ m'.functionIndex? name = none) ∨
      ∃ i j, m.functionIndex? name = some i ∧ m'.functionIndex? name = some j ∧
        h.twins.pairing.function i j := by
  have hsame := h.twins.functions name
  cases hi : m.functionIndex? name with
  | none =>
      rw [Module.function?_of_no_index hi] at hsame
      cases hj : m'.functionIndex? name with
      | none => exact .inl ⟨rfl, rfl⟩
      | some j =>
          obtain ⟨f, -, hfind⟩ := Module.function?_of_index hj
          rw [hfind] at hsame
          cases hsame
  | some i =>
      obtain ⟨f, hf, hfind⟩ := Module.function?_of_index hi
      rw [hfind] at hsame
      cases hj : m'.functionIndex? name with
      | none =>
          rw [Module.function?_of_no_index hj] at hsame
          cases hsame
      | some j =>
          obtain ⟨f', hf', hfind'⟩ := Module.function?_of_index hj
          rw [hfind'] at hsame
          cases hsame
          exact .inr ⟨i, j, rfl, rfl, f, hf, hf'⟩

/-- The modules of both sides, linked against the same functions of the host. -/
theorem images (h : Paired m m' a b) : ∃ image image', a.image = some image ∧
    b.image = some image' ∧ Image.link a.natives m = .ok image ∧
    Image.link a.natives m' = .ok image' ∧ image.module = m ∧ image'.module = m' := by
  obtain ⟨image, ha, hl⟩ := h.left
  obtain ⟨image', hb, hl'⟩ := h.right
  rw [← h.natives] at hl'
  exact ⟨image, image', ha, hb, hl, hl', (Image.link_eq_ok hl).1, (Image.link_eq_ok hl').1⟩

/-! ## 2. Calls -/

theorem withStore (h : Paired m m' a b) {s t : Store} (hst : h.twins.pairing.StoresAlike s t) :
    Paired m m' { a with store := s } { b with store := t } :=
  ⟨h.twins, h.methods, h.options, h.natives, h.left, h.right, hst⟩

/-- **Paired functions are called in lockstep.** -/
theorem callIndex (h : Paired m m' a b) {image image' : Image ν} (ha : a.image = some image)
    (hb : b.image = some image') {i j : Nat} (hij : h.twins.pairing.function i j)
    (args : List Scalar) :
    Run.Lockstep (Same (Paired m m')) (a.callIndex image i args) (b.callIndex image' j args) := by
  obtain ⟨_, _, ha', hb', hl, hl', -, -⟩ := h.images
  rw [ha] at ha'
  rw [hb] at hb'
  cases ha'
  cases hb'
  unfold Vm.callIndex
  rw [← congrArg VmOptions.maxCallDepth h.options]
  exact ((h.twins.fits hl hl' _).call_lockstep h.store hij args).bind
    fun _ _ ho => .done ⟨ho.result, h.withStore ho.store⟩

/-- What both sides find by name is called in lockstep. -/
theorem callWith (h : Paired m m' a b) {find : Image ν → Except VmError Nat}
    (hfind : ∀ image image' : Image ν, image.module = m → image'.module = m' →
      Checks.Both h.twins.pairing.function (find image) (find image')) (args : List Scalar) :
    Run.Lockstep (Same (Paired m m')) (a.callWith find args) (b.callWith find args) := by
  obtain ⟨image, image', ha, hb, -, -, hm, hm'⟩ := h.images
  unfold Vm.callWith
  rw [loaded_eq_ok.mpr ha, loaded_eq_ok.mpr hb]
  dsimp only
  have hboth := hfind image image' hm hm'
  generalize find image = x at hboth ⊢
  generalize find image' = y at hboth ⊢
  cases hboth with
  | error e => exact .done ⟨rfl, h⟩
  | ok hij => exact h.callIndex ha hb hij args

theorem callFunction (h : Paired m m' a b) (name : String) (args : List Scalar) :
    Run.Lockstep (Same (Paired m m')) (a.callFunction name args) (b.callFunction name args) := by
  refine h.callWith (fun image image' hm hm' => ?_) args
  unfold findFunction Image.functionIndex?
  rw [hm, hm']
  rcases h.functionIndex name with ⟨hi, hj⟩ | ⟨i, j, hi, hj, hij⟩
  · rw [hi, hj]
    exact .error _
  · rw [hi, hj]
    exact .ok hij

/-- A verified module has a function to start with. -/
theorem exists_entry {m : Module} (h : m.verify = .ok ()) :
    ∃ f, m.functions[m.entry.toNat]? = some f := by
  unfold Module.verify at h
  simp only [Checks.bind_eq_ok] at h
  obtain ⟨_, -, _, -, _, hentry, -⟩ := h
  unfold Module.checkEntry Module.entryFunction? at hentry
  split at hentry
  · exact ⟨_, ‹_›⟩
  · cases hentry

theorem callEntry (h : Paired m m' a b) :
    Run.Lockstep (Same (Paired m m')) a.callEntry b.callEntry := by
  refine h.callWith (fun image image' hm hm' => ?_) []
  rw [hm, hm']
  obtain ⟨f, hf⟩ := exists_entry h.twins.left
  exact .ok (h.twins.function_of_name hf h.twins.synonymous.entry)

/-! ## 3. Methods -/

/-- A class is found in a linked module exactly where it is declared. -/
theorem isSome_class? (image : Image ν) (cls : String) :
    (image.class? cls).isSome = (image.module.class? cls).isSome := by
  cases hc : image.class? cls with
  | none =>
      rw [Image.class?_eq_none hc]
      rfl
  | some p =>
      rw [(Image.class?_eq_some hc).2.2]
      rfl

/-- A method of one module, of a class that both have, is a method of the other, bound to a function
    of the same name. -/
theorem method_of_bindings {m m' : Module} (hn : m.WellNamed) (hn' : m'.WellNamed)
    (hsub : methodBindings m ⊆ methodBindings m') {c c' : Class} (hc : c ∈ m.classes)
    (hc' : c' ∈ m'.classes) (hname : c.name = c'.name) {method : String} {k : UInt32}
    (hk : c.method? method = some k) :
    ∃ k' f, c'.method? method = some k' ∧ m.functions[k.toNat]? = some f ∧
      (m.functions[k.toNat]?).map (·.name) = (m'.functions[k'.toNat]?).map (·.name) := by
  have hmem := (Module.method?_eq_some (hn.members c hc)).mp hk
  have hbinding : (c.name, method, ((m.functions[k.toNat]?).map (·.name)).getD "") ∈
      methodBindings m := List.mem_flatMap.mpr ⟨c, hc, List.mem_map.mpr ⟨_, hmem, rfl⟩⟩
  obtain ⟨d, hd, hb⟩ := List.mem_flatMap.mp (hsub hbinding)
  obtain ⟨b, hb, heq⟩ := List.mem_map.mp hb
  obtain ⟨hcls, hmethod, hfunction⟩ := by simpa only [Prod.mk.injEq] using heq
  obtain rfl := List.inj_on_of_nodup_map hn'.classes hd hc' (hcls.trans hname)
  -- both functions exist, so that their names are what the bindings hold
  obtain ⟨f, hf⟩ : ∃ f, m.functions[k.toNat]? = some f :=
    ⟨_, List.getElem?_eq_getElem ((hn.members c hc).bound _ hmem)⟩
  obtain ⟨f', hf'⟩ : ∃ f', m'.functions[b.function.toNat]? = some f' :=
    ⟨_, List.getElem?_eq_getElem ((hn'.members d hd).bound _ hb)⟩
  rw [hf, hf'] at hfunction
  refine ⟨b.function, f, (Module.method?_eq_some (hn'.members d hd)).mpr ?_, hf, ?_⟩
  · rw [← hmethod]
    exact hb
  · rw [hf, hf', Option.map_some, Option.map_some]
    exact congrArg some hfunction.symm

/-- A method is found on both sides or on none, where its class is. -/
theorem findMethod (h : Paired m m' a b) {image image' : Image ν} (hm : image.module = m)
    (hm' : image'.module = m') {cls : String}
    (hcls : (m.class? cls).isSome = (m'.class? cls).isSome) (method : String) :
    Checks.Both h.twins.pairing.function (Vm.findMethod cls method image)
      (Vm.findMethod cls method image') := by
  have hn := Module.wellNamed_of_verify h.twins.left
  have hn' := Module.wellNamed_of_verify h.twins.right
  have hfound : (image.class? cls).isSome = (image'.class? cls).isSome := by
    rw [isSome_class?, isSome_class?, hm, hm', hcls]
  unfold Vm.findMethod
  cases hc : image.class? cls with
  | none =>
      rw [hc] at hfound
      rw [Option.isNone_iff_eq_none.mp (Option.isSome_eq_false_iff.mp hfound.symm)]
      exact .error _
  | some p =>
      rw [hc] at hfound
      obtain ⟨p', hc'⟩ := Option.isSome_iff_exists.mp hfound.symm
      obtain ⟨hi, hname, -⟩ := Image.class?_eq_some hc
      obtain ⟨hi', hname', -⟩ := Image.class?_eq_some hc'
      rw [hm] at hi
      rw [hm'] at hi'
      rw [hc']
      dsimp only
      have hmem := List.mem_of_getElem? hi
      have hmem' := List.mem_of_getElem? hi'
      cases hk : p.2.method? method with
      | some k =>
          obtain ⟨k', f, hk', hf, hsame⟩ := method_of_bindings hn hn' h.methods.subset hmem hmem'
            (hname.trans hname'.symm) hk
          rw [hk']
          exact .ok (h.twins.function_of_name hf hsame)
      | none =>
          cases hk' : p'.2.method? method with
          | none => exact .error _
          | some k' =>
              obtain ⟨_, _, hk'', -⟩ := method_of_bindings hn' hn h.methods.symm.subset hmem' hmem
                (hname'.trans hname.symm) hk'
              rw [hk] at hk''
              cases hk''

theorem callStatic (h : Paired m m' a b) {cls : String}
    (hcls : (m.class? cls).isSome = (m'.class? cls).isSome) (method : String) (args : List Scalar) :
    Run.Lockstep (Same (Paired m m')) (a.callStatic cls method args)
      (b.callStatic cls method args) :=
  h.callWith (fun _ _ hm hm' => h.findMethod hm hm' hcls method) args

/-! ## 4. Events -/

/-- **Machines with twin modules serve their events alike.** -/
theorem companions : Companions (Paired m m' (ν := ν)) where
  isLoaded h := by
    obtain ⟨image, image', ha, hb, -⟩ := h.images
    unfold Vm.isLoaded
    rw [ha, hb]
    rfl
  scheduler h := h.store.scheduler
  reactor h := h.store.reactor
  withScheduler h scheduler :=
    h.withStore ⟨h.store.tidy_left, h.store.tidy_right, h.store.statics, rfl, h.store.reactor⟩
  withReactor h reactor :=
    h.withStore ⟨h.store.tidy_left, h.store.tidy_right, h.store.statics, h.store.scheduler, rfl⟩
  callback h name := by
    obtain ⟨image, image', ha, hb, -, -, hm, hm'⟩ := h.images
    rw [ha, hb, Option.bind_some, Option.bind_some]
    unfold Image.functionIndex?
    rw [hm, hm']
    rcases h.functionIndex name with ⟨hi, hj⟩ | ⟨i, j, hi, hj, hij⟩
    · rw [hi, hj]
      exact .inl ⟨rfl, rfl⟩
    · rw [hi, hj]
      exact .inr ⟨(image, i), (image', j), rfl, rfl, fun args => h.callIndex ha hb hij args⟩

/-! ## 5. Static fields -/

/-- Slots of the same name are paired, and declared with the same kind. -/
theorem slots (h : Paired m m' a b) {image image' : Image ν} (hm : image.module = m)
    (hm' : image'.module = m') {cls field : String} {ci fi ci' fi' : Nat} {f f' : StaticField}
    (hs : image.slot? cls field = some (ci, fi, f))
    (hs' : image'.slot? cls field = some (ci', fi', f')) :
    h.twins.pairing.field ci fi ci' fi' ∧ f.kind? = f'.kind? := by
  obtain ⟨c, hc, hcls, hf, hname⟩ := Image.slot?_eq_some hs
  obtain ⟨c', hc', hcls', hf', hname'⟩ := Image.slot?_eq_some hs'
  rw [hm] at hc
  rw [hm'] at hc'
  refine ⟨⟨(cls, field), ?_, ?_⟩, ?_⟩
  · exact Module.fieldName?_eq_some.mpr ⟨c, f, hc, hf, by rw [hcls, hname]⟩
  · exact Module.fieldName?_eq_some.mpr ⟨c', f', hc', hf', by rw [hcls', hname']⟩
  · exact (h.twins.synonymous.kinds c (List.mem_of_getElem? hc) f (List.mem_of_getElem? hf) c'
      (List.mem_of_getElem? hc') (hcls'.trans hcls.symm) f' (List.mem_of_getElem? hf')
      (hname'.trans hname.symm)).symm

/-- A static field that both modules declare, or neither, is found on both sides or on none. -/
theorem slot (h : Paired m m' a b) {image image' : Image ν} (hm : image.module = m)
    (hm' : image'.module = m') {cls field : String}
    (hfield : (m.static? cls field).isSome = (m'.static? cls field).isSome) :
    (image.slot? cls field = none ∧ image'.slot? cls field = none) ∨
      ∃ ci fi f ci' fi' f', image.slot? cls field = some (ci, fi, f) ∧
        image'.slot? cls field = some (ci', fi', f') ∧ h.twins.pairing.field ci fi ci' fi' ∧
        f.kind? = f'.kind? := by
  have hfound : (image.slot? cls field).isSome = (image'.slot? cls field).isSome := by
    rw [← hm, ← hm', Image.static?_eq, Image.static?_eq, Option.isSome_map, Option.isSome_map]
      at hfield
    exact hfield
  cases hs : image.slot? cls field with
  | none =>
      rw [hs] at hfound
      exact .inl ⟨rfl, Option.isNone_iff_eq_none.mp (Option.isSome_eq_false_iff.mp hfound.symm)⟩
  | some p =>
      rw [hs] at hfound
      obtain ⟨p', hs'⟩ := Option.isSome_iff_exists.mp hfound.symm
      exact .inr ⟨_, _, _, _, _, _, rfl, hs', h.slots hm hm' hs hs'⟩

/-- The values of paired slots are alike. -/
theorem slotValue (h : Paired m m' a b) {ci fi ci' fi' : Nat}
    (hf : h.twins.pairing.field ci fi ci' fi') :
    (a.slotValue ci fi).Alike Handle.Any a.store.heap b.store.heap (b.slotValue ci' fi') := by
  unfold Vm.slotValue
  rcases h.twins.pairing.lookup h.store.statics hf with ⟨v, w, hv, hw, hvw⟩ | ⟨hv, hw⟩
  · rw [hv, hw]
    exact hvw
  · rw [hv, hw]
    exact .null

/-- The same, for the names a host uses. -/
theorem staticSlot (h : Paired m m' a b) {cls field : String}
    (hcls : (m.class? cls).isSome = (m'.class? cls).isSome)
    (hfield : (m.static? cls field).isSome = (m'.static? cls field).isSome) :
    Checks.Both
      (fun x y => h.twins.pairing.field x.1 x.2.1 y.1 y.2.1 ∧ x.2.2.kind? = y.2.2.kind?)
      (a.staticSlot cls field) (b.staticSlot cls field) := by
  obtain ⟨image, image', ha, hb, -, -, hm, hm'⟩ := h.images
  rcases h.slot hm hm' hfield with ⟨hs, hs'⟩ | ⟨ci, fi, f, ci', fi', f', hs, hs', hpaired⟩
  · rw [staticSlot_eq_error ha hs, staticSlot_eq_error hb hs', isSome_class?, isSome_class?, hm,
      hm', hcls]
    exact .error _
  · rw [staticSlot_eq ha hs, staticSlot_eq hb hs']
    exact .ok hpaired

/-- **A static field that both modules declare reads the same.** -/
theorem getStatic (h : Paired m m' a b) {cls field : String}
    (hcls : (m.class? cls).isSome = (m'.class? cls).isSome)
    (hfield : (m.static? cls field).isSome = (m'.static? cls field).isSome) :
    a.getStatic cls field = b.getStatic cls field := by
  have hslot := h.staticSlot hcls hfield
  unfold Vm.getStatic
  generalize a.staticSlot cls field = x at hslot ⊢
  generalize b.staticSlot cls field = y at hslot ⊢
  cases hslot with
  | error e => rfl
  | ok hpaired => exact congrArg Except.ok (h.slotValue hpaired.1).toScalar

/-- The static fields change in step, and the heaps with them. -/
theorem withStatics (h : Paired m m' a b) {heap₁ heap₂ : Heap}
    {statics₁ statics₂ : Array (Array Value)} (ht₁ : heap₁.Tidy) (ht₂ : heap₂.Tidy)
    (hs : h.twins.pairing.statics (Value.Alike Handle.Any heap₁ heap₂) statics₁ statics₂) :
    Paired m m' { a with store := { a.store with heap := heap₁, statics := statics₁ } }
      { b with store := { b.store with heap := heap₂, statics := statics₂ } } :=
  h.withStore ⟨ht₁, ht₂, hs, h.store.scheduler, h.store.reactor⟩

/-- **A static field that both modules declare is written alike.** -/
theorem setStatic (h : Paired m m' a b) {cls field : String}
    (hcls : (m.class? cls).isSome = (m'.class? cls).isSome)
    (hfield : (m.static? cls field).isSome = (m'.static? cls field).isSome) (v : Scalar) :
    Matched (Paired m m') (· = ·) ((setStatic cls field v).run a)
      ((setStatic cls field v).run b) := by
  have ht₁ := h.store.tidy_left
  have ht₂ := h.store.tidy_right
  have hs := h.twins.pairing.imp h.store.statics fun _ _ _ _ _ _ _ _ hvw =>
    hvw.keeps (Heap.keeps_ofScalar ht₁ v) (Heap.keeps_ofScalar ht₂ v)
  have hslot := h.staticSlot hcls hfield
  unfold Vm.setStatic
  refine .check_bind h hslot fun (ci, fi, f) (ci', fi', f') ⟨hpaired, hkind⟩ => ?_
  have hcheck : checkKind f v = checkKind f' v := by
    unfold checkKind
    rw [hkind]
  dsimp only
  rw [hcheck]
  refine .check_bind_eq h rfl fun _ => .ok rfl ?_
  exact h.withStatics (ht₁.ofScalar v) (ht₂.ofScalar v)
    (h.twins.pairing.store hs hpaired (.ofScalar ht₁ ht₂ v))

/-! ## 6. What the host sets up -/

theorem registerNative (h : Paired m m' a b) (name : String) (handler : ν) :
    Paired m m' (a.registerNative name handler) (b.registerNative name handler) := by
  obtain ⟨image, image', ha, hb, hl, hl', -, -⟩ := h.images
  rw [h.natives] at hl hl'
  unfold Vm.registerNative
  rw [ha, hb, h.natives]
  exact ⟨h.twins, h.methods, h.options, rfl, ⟨_, rfl, Image.link_insert hl name handler⟩,
    ⟨_, rfl, Image.link_insert hl' name handler⟩, h.store⟩

/-- Neither side loads another module. -/
theorem load (h : Paired m m' a b) (n : Module) :
    Matched (Paired m m') (· = ·) ((load n).run a) ((load n).run b) := by
  obtain ⟨image, image', ha, hb, -⟩ := h.images
  have hrefused {vm : Vm ν} {i : Image ν} (hi : vm.image = some i) :
      (Vm.load n).run vm = .error .alreadyLoaded vm := by
    unfold Vm.load isLoaded
    rw [run_check_bind, hi]
    rfl
  rw [hrefused ha, hrefused hb]
  exact .error _ h

/-- A requested collection keeps the texts of the static fields. -/
theorem collect_keeps {vm : Vm ν} (ht : vm.store.heap.Tidy) :
    ∀ fields ∈ vm.store.statics, ∀ v ∈ fields, ∀ r text, v.handle? = some r →
      vm.store.heap.get? r = some text → (vm.store.heap.collect vm.roots).1.get? r = some text := by
  intro fields hf v hv r text hr htext
  have hroot : r ∈ vm.roots := mem_handles hf hv hr
  rw [ht.get?_collect, if_pos hroot]
  exact htext

/-- A requested collection is not noticed, on either side. -/
theorem collect_left (h : Paired m m' a b) :
    Paired m m' { a with store := { a.store with heap := (a.store.heap.collect a.roots).1 } } b :=
  h.withStore (h.store.heaps (h.store.tidy_left.collect _) h.store.tidy_right
    (collect_keeps h.store.tidy_left) fun _ _ _ _ _ _ _ ht => ht)

theorem collect_right (h : Paired m m' a b) :
    Paired m m' a { b with store := { b.store with heap := (b.store.heap.collect b.roots).1 } } :=
  h.withStore (h.store.heaps h.store.tidy_left (h.store.tidy_right.collect _)
    (fun _ _ _ _ _ _ _ ht => ht) (collect_keeps h.store.tidy_right))

end Paired

end EmbeddedVm.Vm
