import EmbeddedVm.Proofs.Machine.Writes
import EmbeddedVm.Proofs.Vm.DeclaredKinds

/-!
# Static fields are a map

A host sees the static fields as a map from names to scalars. In the machine they are values in
rows, texts are handles into one heap that all fields, locals and operands share, a handle may stand
in several fields, and any allocation may sweep the heap first and reuse its slots.

`Store.HoldsAt` is what a field needs to read as a scalar: a value in its slot that stands for the
scalar and refers to something. A write brings it about for one slot and keeps it for all others; a
collection keeps it because every value in a static field is a root; and code keeps it that stores
nothing into the field (`codeInvariant_holdsAt`), whatever it allocates, calls or throws. So a field
reads as it was written until something writes that very field (`statics_are_a_map`).
-/

namespace EmbeddedVm

variable {ν : Type}

/-! ## 1. A field that holds a scalar -/

/-- A collection keeps what a root stands for. -/
theorem Heap.Holds.collect {h : Heap} {v : Value} {s : Scalar} (hv : h.Holds v s) (ht : h.Tidy)
    {roots : List Handle} (hroot : ∀ r, v.handle? = some r → r ∈ roots) :
    (h.collect roots).1.Holds v s := by
  have kept : ∀ r text, v.handle? = some r → h.get? r = some text →
      (h.collect roots).1.get? r = some text := by
    intro r text hr htext
    rw [ht.get?_collect, if_pos (hroot r hr)]
    exact htext
  refine ⟨hv.1.heaps kept kept, ?_⟩
  have hsame : v.Alike Handle.Any (h.collect roots).1 h v := hv.1.left kept
  rw [hsame.toScalar]
  exact hv.2

/-- **A slot holds a scalar**: its value stands for it, in a heap in which it refers to
    something. -/
structure Store.HoldsAt (s : Store) (ci fi : Nat) (v : Scalar) : Prop where
  tidy : s.heap.Tidy
  slot : ∃ w, s.statics[ci]?.bind (·[fi]?) = some w ∧ s.heap.Holds w v

namespace Store.HoldsAt

variable {s : Store} {ci fi : Nat} {v : Scalar}

theorem alloc (h : s.HoldsAt ci fi v) (text : String) :
    HoldsAt { s with heap := (s.heap.alloc text).1 } ci fi v := by
  obtain ⟨w, hw, hholds⟩ := h.slot
  exact ⟨h.tidy.alloc text, w, hw, hholds.keeps (Heap.keeps_alloc h.tidy text)⟩

/-- A collection that takes the static fields for roots keeps what they hold. -/
theorem collect (h : s.HoldsAt ci fi v) {roots : List Handle}
    (hroots : ∀ fields ∈ s.statics, ∀ w ∈ fields, ∀ r, w.handle? = some r → r ∈ roots) :
    HoldsAt { s with heap := (s.heap.collect roots).1 } ci fi v := by
  obtain ⟨w, hw, hholds⟩ := h.slot
  obtain ⟨fields, hfields, hfield⟩ := Option.bind_eq_some_iff.mp hw
  refine ⟨h.tidy.collect roots, w, hw, hholds.collect h.tidy fun r hr => ?_⟩
  exact hroots fields (Array.mem_of_getElem? hfields) w (Array.mem_of_getElem? hfield) r hr

/-- A write to another slot keeps it, whatever is allocated for it. -/
theorem write (h : s.HoldsAt ci fi v) {c f : Nat} (hne : ¬ (c = ci ∧ f = fi)) (other : Scalar) :
    HoldsAt { s with
      heap := (s.heap.ofScalar other).1
      statics := s.statics.modify c (·.setIfInBounds f (s.heap.ofScalar other).2) } ci fi v := by
  obtain ⟨w, hw, hholds⟩ := h.slot
  refine ⟨h.tidy.ofScalar other, w, ?_, hholds.keeps (Heap.keeps_ofScalar h.tidy other)⟩
  rw [Machine.lookup_modify, if_neg hne]
  exact hw

end Store.HoldsAt

/-- A write brings it about. -/
theorem Store.holdsAt_write {s : Store} (ht : s.heap.Tidy) {ci fi : Nat} {w : Value}
    (hw : s.statics[ci]?.bind (·[fi]?) = some w) (v : Scalar) :
    HoldsAt { s with
      heap := (s.heap.ofScalar v).1
      statics := s.statics.modify ci (·.setIfInBounds fi (s.heap.ofScalar v).2) } ci fi v := by
  refine ⟨ht.ofScalar v, (s.heap.ofScalar v).2, ?_, Heap.holds_ofScalar ht v⟩
  rw [Machine.lookup_modify, if_pos ⟨rfl, rfl⟩, hw]
  rfl

/-! ## 2. Code that spares a field -/

/-- An instruction that stores nothing into a slot. -/
def Instruction.SparesSlot (ci fi : Nat) (i : Instruction) : Prop :=
  ∀ c f, i = .storeStatic c f → ¬ (c.toNat = ci ∧ f.toNat = fi)

/-- **Code that stores nothing into a slot leaves what it holds**, whatever it allocates. -/
theorem codeInvariant_holdsAt (ci fi : Nat) (v : Scalar) :
    Machine.CodeInvariant (Instruction.SparesSlot ci fi) (Store.HoldsAt · ci fi v) where
  writes {i a b} hspares hw h := by
    obtain ⟨w, hslot, hholds⟩ := h.slot
    refine ⟨hw.heap ▸ h.tidy, w, ?_, hw.heap ▸ hholds⟩
    rcases hw.statics with hsame | ⟨c, field, x, hi, hstatics⟩
    · rw [hsame]
      exact hslot
    · rw [hstatics, Machine.lookup_modify, if_neg (hspares c field hi)]
      exact hslot
  alloc text h := h.alloc text
  collect {m} h := h.collect fun fields hfields w hw r hr =>
    Machine.mem_roots.mpr (.inl ⟨fields, hfields, w, hw, hr⟩)

/-- **A call of a function spares a field**: nothing that the call can come to stores into it. -/
def Image.Spares (image : Image ν) (cls field : String) (function : Nat) : Prop :=
  ∀ ci fi f, image.slot? cls field = some (ci, fi, f) →
    ∀ i, image.CodeOf function i → i.SparesSlot ci fi

/-- A call whose code stores no static field spares all of them. -/
theorem Image.spares_of_no_store {image : Image ν} {function : Nat}
    (h : ∀ c f, ¬ image.CodeOf function (.storeStatic c f)) (cls field : String) :
    image.Spares cls field function := by
  intro ci fi f _ i hi c g heq
  rw [heq] at hi
  exact absurd hi (h c g)

namespace Vm

variable {vm vm' : Vm ν} {image : Image ν} {cls field : String}

/-- **An operation that spares a static field of a module**: no call of it stores into the field, a
    write is to another field, and the module is not replaced. -/
def Operation.Spares (image : Image ν) (cls field : String) : Operation ν → Prop
  | .setStatic c f _ => ¬ (c = cls ∧ f = field)
  | .callEntry => image.Spares cls field image.module.entry.toNat
  | .callFunction name _ => ∀ function, findFunction name image = .ok function →
      image.Spares cls field function
  | .callStatic c method _ => ∀ function, findMethod c method image = .ok function →
      image.Spares cls field function
  | .drainCooperative _ _ | .drainReads => ∀ function, image.Spares cls field function
  | .patch _ => False
  | _ => True

/-! ## 3. Operations that spare a field -/

/-- **A machine with that module, in which the slot of the field, if it has one, holds the
    scalar.** -/
structure Keeping (image : Image ν) (cls field : String) (v : Scalar) (vm : Vm ν) : Prop where
  sound : vm.Sound
  /-- The imports may have been given other handlers. -/
  loaded : ∃ imports, vm.image = some { image with imports }
  holds : ∀ ci fi f, image.slot? cls field = some (ci, fi, f) → vm.store.HoldsAt ci fi v

variable {ci fi : Nat} {f : StaticField} {v : Scalar}

/-- In a reachable machine the slot of every field has a value that refers to something. -/
theorem Reachable.exists_value (h : Reachable vm) (hi : vm.image = some image)
    (hs : image.slot? cls field = some (ci, fi, f)) :
    ∃ w, vm.store.statics[ci]?.bind (·[fi]?) = some w ∧
      w.Alike Handle.Any vm.store.heap vm.store.heap w := by
  obtain ⟨c, hc, -, hf, -⟩ := Image.slot?_eq_some hs
  obtain ⟨w, hw, -⟩ := (h.typed image hi).exists_value (Image.static?_eq_some.mpr ⟨hc, hf⟩)
  have hvalue : vm.slotValue ci fi = w := by
    unfold slotValue
    rw [hw]
    rfl
  exact ⟨w, hw, hvalue ▸ h.alike.slotValue ci fi⟩

theorem Reachable.exists_keeping (h : Reachable vm) (hi : vm.image = some image)
    (cls field : String) : ∃ v, Keeping image cls field v vm := by
  cases hs : image.slot? cls field with
  | none => exact ⟨.null, h.sound, ⟨image.imports, hi⟩, fun ci fi f hs' => by cases hs.symm.trans hs'⟩
  | some slot =>
      obtain ⟨ci, fi, f⟩ := slot
      obtain ⟨w, hw, hlive⟩ := h.exists_value hi hs
      refine ⟨vm.store.heap.toScalar w, h.sound, ⟨image.imports, hi⟩, fun ci' fi' f' hs' => ?_⟩
      cases hs.symm.trans hs'
      exact ⟨h.alike.store.tidy_left, w, hw, hlive, rfl⟩

/-- **Machines that keep the same scalar read the same.** -/
theorem Keeping.getStatic (h : Keeping image cls field v vm) :
    vm.getStatic cls field =
      match image.slot? cls field with
      | some _ => .ok v
      | none => .error (if (image.class? cls).isSome then .fieldNotFound cls field
          else .classNotFound cls) := by
  obtain ⟨imports, hi⟩ := h.loaded
  cases hs : image.slot? cls field with
  | none =>
      unfold Vm.getStatic
      rw [staticSlot_eq_error hi (by exact hs)]
      rfl
  | some slot =>
      obtain ⟨ci, fi, f⟩ := slot
      obtain ⟨w, hw, hholds⟩ := (h.holds ci fi f hs).slot
      have hvalue : vm.slotValue ci fi = w := by
        unfold slotValue
        rw [hw]
        rfl
      rw [getStatic_eq hi (by exact hs), hvalue]
      exact congrArg Except.ok hholds.2

/-- What writing a static field comes to, by name. -/
theorem setStatic_slot (h : (setStatic cls field v).run vm = .ok () vm') :
    ∃ image ci fi f, vm.image = some image ∧ image.slot? cls field = some (ci, fi, f) ∧
      vm' = { vm with
        store := { vm.store with
          heap := (vm.store.heap.ofScalar v).1
          statics := vm.store.statics.modify ci
            (·.setIfInBounds fi (vm.store.heap.ofScalar v).2) } } := by
  obtain ⟨ci, fi, f, hslot, -, hvm'⟩ := setStatic_eq_ok h
  obtain ⟨image, hi, hslot⟩ := staticSlot_eq_ok hslot
  exact ⟨image, ci, fi, f, hi, hslot, hvm'⟩

/-- Fields of different names have different slots. -/
theorem slot_ne {c g : String} {ci' fi' : Nat} {f' : StaticField}
    (hs : image.slot? cls field = some (ci, fi, f)) (hs' : image.slot? c g = some (ci', fi', f'))
    (hne : ¬ (c = cls ∧ g = field)) : ¬ (ci' = ci ∧ fi' = fi) := by
  rintro ⟨rfl, rfl⟩
  obtain ⟨d, hd, hname, hf, hfield⟩ := Image.slot?_eq_some hs
  obtain ⟨d', hd', hname', hf', hfield'⟩ := Image.slot?_eq_some hs'
  cases hd.symm.trans hd'
  cases hf.symm.trans hf'
  exact hne ⟨hname'.symm.trans hname, hfield'.symm.trans hfield⟩

/-- **A call whose code spares the field keeps it.** -/
theorem Keeping.callIndex (h : Keeping image cls field v vm) {image' : Image ν}
    (hi' : vm.image = some image') {function : Nat} {args : List Scalar}
    {result : Except VmError Scalar} (hcode : image.Spares cls field function)
    (hcall : (vm.callIndex image' function args).Ends (result, vm')) :
    Keeping image cls field v vm' := by
  obtain ⟨o, ho, -, rfl⟩ := callIndex_ends hcall
  obtain ⟨imports, hi⟩ := h.loaded
  cases hi.symm.trans hi'
  refine ⟨h.sound.change (.call hi ho), ⟨imports, hi⟩, fun ci fi f hs => ?_⟩
  exact (codeInvariant_holdsAt ci fi v).call (h.sound.image hi) (h.sound.shapes hi)
    (hcode ci fi f hs) (h.holds ci fi f hs) ho

/-- A call by name, if what it finds spares the field. With other imports it finds the same. -/
theorem Keeping.callWith (h : Keeping image cls field v vm) {find : Image ν → Except VmError Nat}
    {args : List Scalar} {result : Except VmError Scalar}
    (hfind : ∀ imports, find { image with imports } = find image)
    (hcode : ∀ function, find image = .ok function → image.Spares cls field function)
    (hends : (vm.callWith find args).Ends (result, vm')) : Keeping image cls field v vm' := by
  rcases callWith_found hends with rfl | ⟨image', function, hi', hfound, hcall⟩
  · exact h
  · obtain ⟨imports, hi⟩ := h.loaded
    cases hi.symm.trans hi'
    rw [hfind] at hfound
    exact h.callIndex hi' (hcode function hfound) hcall

/-- Where all code spares the field, calls of any function keep it. -/
theorem keptByCalls_keeping (hcode : ∀ function, image.Spares cls field function) :
    KeptByCalls (Keeping image cls field v) :=
  fun _ _ _ function _ _ h hi hcall => h.callIndex hi (hcode function) hcall

/-- The events are of no matter to it. -/
theorem Keeping.events (h : Keeping image cls field v vm) (scheduler : Scheduler Binary64)
    (reactor : Reactor) :
    Keeping image cls field v { vm with store := { vm.store with scheduler, reactor } } :=
  ⟨h.sound.change (.events scheduler reactor), h.loaded, fun ci fi f hs =>
    ⟨(h.holds ci fi f hs).tidy, (h.holds ci fi f hs).slot⟩⟩

/-- **An operation that spares a field keeps what the field holds.** -/
theorem Keeping.perform (h : Keeping image cls field v vm) {op : Operation ν} {answer : Answer}
    (hop : op.Spares image cls field) (hends : (vm.perform op).Ends (answer, vm')) :
    Keeping image cls field v vm' := by
  obtain ⟨imports, hi⟩ := h.loaded
  unfold Vm.perform at hends
  cases op with
  | patch m => exact hop.elim
  | getStatic | gcStats =>
      cases Run.ends_done.mp hends
      exact h
  | sendRead | settleRead =>
      cases Run.ends_done.mp hends
      exact h.events vm.store.scheduler _
  | load m =>
      refine of_answering (allOrNothing_load m) h (fun _ vm₁ hload => ?_) (Run.ends_done.mp hends)
      cases hi.symm.trans (load_eq_ok hload).1
  | registerNative name handler =>
      cases Run.ends_done.mp hends
      refine ⟨h.sound.change (.registerNative name handler), ⟨imports.rebind name handler, ?_⟩,
        h.holds⟩
      unfold registerNative
      rw [hi]
      rfl
  | callEntry =>
      refine of_answer (fun _ _ hcall => h.callWith (fun _ => rfl) ?_ hcall) hends
      intro function hfound
      cases hfound
      exact hop
  | callFunction | callStatic =>
      exact of_answer (fun _ _ hcall => h.callWith (fun _ => rfl) hop hcall) hends
  | drainCooperative hint wall =>
      exact of_answer (fun _ _ hdrain => (keptByCalls_keeping hop).drainCooperative
        (fun {vm₁} scheduler h => h.events scheduler vm₁.store.reactor) h hdrain) hends
  | drainReads =>
      exact of_answer (fun _ _ hdrain => (keptByCalls_keeping hop).drainReads
        (fun {vm₁} reactor h => h.events vm₁.store.scheduler reactor) h hdrain) hends
  | setStatic c g value =>
      refine of_answering (allOrNothing_setStatic c g value) h (fun _ vm₁ hset => ?_)
        (Run.ends_done.mp hends)
      obtain ⟨image', ci', fi', f', hi', hs', rfl⟩ := setStatic_slot hset
      cases hi.symm.trans hi'
      refine ⟨h.sound.change (.setStatic hset), ⟨imports, hi⟩, fun ci fi f hs => ?_⟩
      exact (h.holds ci fi f hs).write (slot_ne hs (by exact hs') hop) value
  | collectGarbage =>
      refine of_answer (fun result vm₁ hcollect => ?_) hends
      cases hcollect with
      | pause stopped hcollect =>
          cases stopped with
          | none =>
              cases Run.ends_done.mp hcollect
              refine ⟨h.sound.change .collect, ⟨imports, hi⟩, fun ci fi f hs => ?_⟩
              exact (h.holds ci fi f hs).collect fun fields hfields w hw r hr =>
                mem_handles hfields hw hr
          | some n =>
              cases Run.ends_done.mp hcollect
              exact h

/-! ## 4. Every session -/

/-- **Operations that spare a field leave what it reads as**, one after the other. -/
theorem Reachable.getStatic_session (h : Reachable vm) (hi : vm.image = some image)
    {ops : List (Operation ν)} (hops : ∀ op ∈ ops, op.Spares image cls field)
    {answers : List Answer} (hs : (vm.session ops).Ends (answers, vm')) :
    vm'.getStatic cls field = vm.getStatic cls field := by
  obtain ⟨v, hbefore⟩ := h.exists_keeping hi cls field
  have hafter : Keeping image cls field v vm' :=
    session_induct (fun op hop _ _ _ hk hends => hk.perform (hops op hop) hends) hbefore hs
  rw [hafter.getStatic, hbefore.getStatic]

/-- **What was written is read.** -/
theorem Reachable.getStatic_setStatic (h : Reachable vm)
    (hset : (setStatic cls field v).run vm = .ok () vm') : vm'.getStatic cls field = .ok v := by
  obtain ⟨image, ci, fi, f, hi, hs, heq⟩ := setStatic_slot hset
  obtain ⟨w, hw, -⟩ := h.exists_value hi hs
  have hsound : vm'.Sound := h.sound.change (.setStatic hset)
  have hkeeping : Keeping image cls field v vm' := by
    subst heq
    refine ⟨hsound, ⟨image.imports, hi⟩, fun ci' fi' f' hs' => ?_⟩
    cases hs.symm.trans hs'
    exact Store.holdsAt_write h.alike.store.tidy_left hw v
  rw [hkeeping.getStatic, hs]

/-- **Static fields are a map.** Whatever a host did with a machine before, let it write a static
    field of the loaded module. If that is refused, every static field reads as before.

    If it is carried out, the field reads as what was written, bit for bit and character for
    character, and every other field reads as before. And so all of them stay: after any session
    whose operations spare a field, the field reads as it did right after the write. Collections
    spare every field, and so does a call unless something it can come to stores into the field;
    a write spares all fields but its own. -/
theorem statics_are_a_map (h : Reachable vm) (hi : vm.image = some image) (cls field : String)
    (v : Scalar) {answer : Answer} {vm₁ : Vm ν}
    (hset : (vm.perform (.setStatic cls field v)).Ends (answer, vm₁)) :
    (∀ e, answer = .done (.error e) → ∀ c f, vm₁.getStatic c f = vm.getStatic c f) ∧
    (answer = .done (.ok ()) → vm₁.getStatic cls field = .ok v ∧
      (∀ c f, ¬ (cls = c ∧ field = f) → vm₁.getStatic c f = vm.getStatic c f) ∧
      ∀ c f ops, (∀ op ∈ ops, op.Spares image c f) → ∀ answers vm₂,
        (vm₁.session ops).Ends (answers, vm₂) → vm₂.getStatic c f = vm₁.getStatic c f) := by
  rcases answering_cases (Run.ends_done.mp hset) with ⟨_, hresult, rfl⟩ | ⟨e, herror, rfl⟩
  · refine ⟨nofun, fun _ => ⟨h.getStatic_setStatic hresult, fun c f hne => ?_,
      fun c f ops hops answers vm₂ hs => ?_⟩⟩
    · -- a write is a session of one operation, which spares every other field
      have hspares : (Operation.setStatic cls field v : Operation ν).Spares image c f := hne
      obtain ⟨w, hbefore⟩ := h.exists_keeping hi c f
      rw [(hbefore.perform hspares hset).getStatic, hbefore.getStatic]
    · have hi₁ : vm₁.image = some image := by
        obtain ⟨ci, fi, f, -, -, rfl⟩ := setStatic_eq_ok hresult
        exact hi
      exact (h.perform hset).getStatic_session hi₁ hops hs
  · rw [allOrNothing_setStatic cls field v vm e vm₁ herror]
    exact ⟨fun _ _ _ _ => rfl, nofun⟩

/-- A board with a title and an owner. One function makes the title the owner too, so that both hold
    one text; the other allocates texts and throws them away. -/
def noticeBoard : Module where
  flags := 0
  name := "notices"
  strings := ["chaff"]
  functions := [⟨"share", 0, 0, Instruction.encodeBody
      [.loadStatic 0 0, .storeStatic 0 1, .simple .retVoid]⟩,
    ⟨"churn", 0, 0, Instruction.encodeBody
      [.pushString 0, .pushString 0, .simple .concat, .simple .pop, .simple .retVoid]⟩]
  classes := [⟨"Board", [⟨"title", .null⟩, ⟨"owner", .null⟩], []⟩]
  natives := []
  entry := 0

/-- The board with one text in both fields, in a machine that collects before every allocation. -/
def noticeBoardMachine : Vm Unit :=
  (create { gcThreshold := 1 } 0).after
    [.load noticeBoard, .setStatic "Board" "title" (.string "Ann"), .callFunction "share" []]

/-- The code of the function that allocates. -/
def churn : LinkedFunction :=
  ⟨"churn", 0, 0, #[⟨.pushString 0, 0⟩, ⟨.pushString 0, 0⟩, ⟨.simple .concat, 0⟩,
    ⟨.simple .pop, 0⟩, ⟨.simple .retVoid, 0⟩]⟩

/-- Allocating texts spares every field of the board. -/
theorem churn_spares {image : Image ν} (hg : image.functions[1]? = some churn)
    (cls field : String) : image.Spares cls field 1 := by
  have hcode : ∀ s ∈ churn.code, s.instruction ∈
      [.pushString 0, .simple .concat, .simple .pop, .simple .retVoid] := by decide
  refine Image.spares_of_no_store (fun c f hstore => ?_) cls field
  obtain ⟨s, hs, hi⟩ := hstore.of_no_call hg fun s hs callee hcall => by
    have hmem := hcode s hs
    simp [hcall] at hmem
  have hmem := hcode s hs
  simp [hi] at hmem

/-- Another title leaves the owner alone, however much is allocated and collected behind it. -/
theorem owner_outlives_the_title :
    ∃ vm₁ vm₂ answers, (noticeBoardMachine.perform
        (.setStatic "Board" "title" (.string "Bob"))).Ends (.done (.ok ()), vm₁) ∧
      (vm₁.session [.callFunction "churn" [], .collectGarbage]).Ends (answers, vm₂) ∧
      vm₂.getStatic "Board" "title" = .ok (.string "Bob") ∧
      vm₂.getStatic "Board" "owner" = noticeBoardMachine.getStatic "Board" "owner" := by
  have hreach : Reachable noticeBoardMachine := (Reachable.create _ 0).after _
  have himage : noticeBoardMachine.image.map (fun i => (i.module, i.functions[1]?)) =
      some (noticeBoard, some churn) := by decide +kernel
  obtain ⟨image, hi, heq⟩ := Option.map_eq_some_iff.mp himage
  have hmodule : image.module = noticeBoard := congrArg Prod.fst heq
  have hchurn : image.functions[1]? = some churn := congrArg Prod.snd heq
  let write : Update Unit Unit := setStatic "Board" "title" (.string "Bob")
  let vm₁ := (noticeBoardMachine.attempt write).2
  obtain ⟨_, hset⟩ := exists_run_eq_ok noticeBoardMachine write (by decide +kernel)
  have hends : (noticeBoardMachine.perform (.setStatic "Board" "title" (.string "Bob"))).Ends
      (.done (.ok ()), vm₁) := ends_answering (attempt_eq_ok.mpr hset) .done
  have hplayed : ((vm₁.session [.callFunction "churn" [], .collectGarbage]).against
      obliging ()).isSome = true := by decide +kernel
  obtain ⟨⟨⟨answers, vm₂⟩, u⟩, hagainst⟩ := Option.isSome_iff_exists.mp hplayed
  have hsession := Run.ends_of_against hagainst
  obtain ⟨-, hwritten⟩ := statics_are_a_map hreach hi "Board" "title" (.string "Bob") hends
  obtain ⟨htitle, hothers, hstays⟩ := hwritten rfl
  have hspares (field : String) : ∀ op ∈ ([.callFunction "churn" [], .collectGarbage] :
      List (Operation Unit)), op.Spares image "Board" field := by
    intro op hop
    rcases List.mem_cons.mp hop with rfl | hop
    · intro function hfound
      have hindex : image.functionIndex? "churn" = some 1 := by
        unfold Image.functionIndex?
        rw [hmodule]
        decide
      unfold findFunction at hfound
      rw [hindex] at hfound
      cases hfound
      exact churn_spares hchurn "Board" field
    · rw [List.mem_singleton.mp hop]
      trivial
  refine ⟨vm₁, vm₂, answers, hends, hsession, ?_, ?_⟩
  · rw [hstays "Board" "title" _ (hspares "title") answers vm₂ hsession]
    exact htitle
  · rw [hstays "Board" "owner" _ (hspares "owner") answers vm₂ hsession]
    exact hothers "Board" "owner" (by decide)

example : noticeBoardMachine.getStatic "Board" "owner" = .ok (.string "Ann") := by decide +kernel

end Vm

end EmbeddedVm
