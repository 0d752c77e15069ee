import EmbeddedVm.Proofs.Vm.StaticFields

/-!
# Static fields keep to their declared kinds

A static field is written at four places: it starts with its initial value, the host sets it, code
stores into it, and a replacement of the module carries it over. Each place checks the kind for
itself, against the declaration of that moment, and the declaration may change under a live value.

`Image.Typed` says what all four come to: one row for every class, one slot for every field, and in
each slot null or a value of the declared kind. Code keeps it because it stores under a check
(`storeInvariant_typed`), a change of modules because it settles only values that fit
(`typed_settled`), and so it holds of every machine that any session leads to
(`declared_kinds_hold`).
-/

namespace EmbeddedVm

variable {ν : Type}

/-! ## 1. Rows that fit -/

/-- **The static fields hold what the classes of the module declare.** -/
structure Image.Typed (image : Image ν) (statics : Array (Array Value)) : Prop where
  /-- There is one row for every class, and in it one slot for every field. -/
  shapes : image.Shapes statics
  /-- What is in a slot fits the field. -/
  fits : ∀ {ci fi : Nat} {cls : Class} {f : StaticField} {v : Value},
    image.static? ci fi = some (cls, f) → statics[ci]?.bind (·[fi]?) = some v →
      v.fits f.kind? = true

/-- A value that fits a declared kind is of that kind or null. -/
theorem Value.fits_some {v : Value} {k : Kind} (h : v.fits (some k) = true) :
    v.kind = .null ∨ v.kind = k := by
  unfold fits at h
  rcases Bool.or_eq_true_iff.mp h with hk | hn
  · exact .inr (beq_iff_eq.mp hk)
  · exact .inl (beq_iff_eq.mp hn)

/-- Whether a value fits depends on its kind. -/
theorem Value.fits_of_kind {v : Value} {k? : Option Kind}
    (h : ∀ k, k? = some k → v.kind = k ∨ v.kind = .null) : v.fits k? = true := by
  cases k? with
  | none => rfl
  | some k =>
      unfold fits
      rcases h k rfl with hk | hn
      · simp [hk]
      · simp [hn]

/-- The value of a scalar has its kind. -/
theorem Heap.kind_ofScalar (h : Heap) (s : Scalar) : (h.ofScalar s).2.kind = s.kind := by
  cases s <;> rfl

/-- A value reads as a scalar of its kind or, if its text is gone, as null. -/
theorem Heap.kind_toScalar (h : Heap) (v : Value) :
    (h.toScalar v).kind = v.kind ∨ (h.toScalar v).kind = .null := by
  cases v with
  | string r =>
      unfold toScalar
      dsimp only
      cases h.get? r with
      | none => exact .inr rfl
      | some text => exact .inl rfl
  | null | bool | int | float => exact .inl rfl

/-- The initial value of a field fits the field. -/
theorem StaticField.fits_initial (f : StaticField) (h : Heap) :
    (h.ofScalar f.initial).2.fits f.kind? = true := by
  refine Value.fits_of_kind fun k hk => .inl ?_
  rw [Heap.kind_ofScalar]
  unfold kind? at hk
  split at hk
  · cases hk
  · exact Option.some.inj hk

/-- The declaration of a static field, by indices. -/
theorem Image.static?_eq_some {image : Image ν} {ci fi : Nat} {cls : Class} {f : StaticField} :
    image.static? ci fi = some (cls, f) ↔
      image.module.classes[ci]? = some cls ∧ cls.statics[fi]? = some f := by
  unfold static?
  constructor
  · intro h
    obtain ⟨c, hc, h⟩ := Option.bind_eq_some_iff.mp h
    obtain ⟨g, hg, h⟩ := Option.bind_eq_some_iff.mp h
    cases h
    exact ⟨hc, hg⟩
  · rintro ⟨hc, hf⟩
    rw [hc, Option.bind_eq_bind, Option.bind_some, hf]
    rfl

/-- A field that is declared has a slot, and what is there fits. -/
theorem Image.Typed.exists_value {image : Image ν} {statics : Array (Array Value)}
    (h : image.Typed statics) {ci fi : Nat} {cls : Class} {f : StaticField}
    (hs : image.static? ci fi = some (cls, f)) :
    ∃ v, statics[ci]?.bind (·[fi]?) = some v ∧ v.fits f.kind? = true := by
  obtain ⟨hc, hf⟩ := Image.static?_eq_some.mp hs
  obtain ⟨v, hv⟩ := Machine.exists_slot h.shapes hc (List.getElem?_eq_some_iff.mp hf).1
  exact ⟨v, hv, h.fits hs hv⟩

/-! ## 2. Writing a field -/

/-- **Writing a value that fits keeps all in their kinds.** -/
theorem Image.Typed.modify {image : Image ν} {statics : Array (Array Value)}
    (h : image.Typed statics) {c field : Nat} {cls : Class} {f : StaticField} {v : Value}
    (hs : image.static? c field = some (cls, f)) (hv : v.fits f.kind? = true) :
    image.Typed (statics.modify c (·.setIfInBounds field v)) := by
  refine ⟨Machine.shapes_modify h.shapes c field v, fun {ci fi cls' g w} hg hw => ?_⟩
  rw [Machine.lookup_modify] at hw
  split at hw
  · -- the slot that was written
    rename_i hhere
    obtain ⟨rfl, rfl⟩ := hhere
    obtain ⟨_, -, rfl⟩ := Option.map_eq_some_iff.mp hw
    cases Option.some.inj (hs.symm.trans hg)
    exact hv
  · exact h.fits hg hw

namespace Machine

/-- **Code keeps the static fields in their kinds**, wherever it breaks off. -/
theorem storeInvariant_typed {ctx : Context ν} :
    StoreInvariant ctx fun s => ctx.image.Typed s.statics where
  heap _ _ h := h
  change _ _ hc h := by
    cases hc with
    | setStatic hs hv => exact h.modify hs hv
    | pop | push | setLocal | cancel | addTimer | addMainLoop | submit => exact h

end Machine

namespace Vm

/-! ## 3. Settling fields -/

/-- What a static field is to start with fits it. -/
inductive Inherited.Fits (f : StaticField) : Inherited → Prop where
  | kept {v : Value} (h : v.fits f.kind? = true) : Fits f (.kept v)
  | fresh : Fits f (.fresh f.initial)

/-- A replacement is admissible for a field only if what the field inherits fits it. -/
theorem inheritField_fits {vm : Vm ν} {old : Image ν} {cls : String} {f : StaticField}
    {x : Inherited} (h : vm.inheritField old cls f = .ok x) : x.Fits f := by
  unfold inheritField at h
  split at h
  · cases h
    exact .fresh
  · split at h
    · -- both declarations name a kind
      rename_i new known hnew hknown
      split at h
      · cases h
      · split at h
        · rename_i hlive
          cases h
          exact .kept (by rw [hnew]; exact hlive)
        · cases h
    · -- the kind is declared anew
      rename_i new hnew hknown
      split at h
      · rename_i hlive
        cases h
        exact .kept (by rw [hnew]; exact hlive)
      · cases h
    · -- the field takes every kind
      rename_i hnone
      cases h
      exact .kept (by rw [hnone]; rfl)

theorem inheritance_fits {vm : Vm ν} {old : Image ν} {classes : List Class}
    {l : List (List Inherited)} (h : vm.inheritance old classes = .ok l) :
    List.Forall₂ (fun c => List.Forall₂ Inherited.Fits c.statics) classes l := by
  refine (Checks.mapM_eq_ok.mp h).imp fun c fields hfields => ?_
  exact (Checks.mapM_eq_ok.mp hfields).imp fun f x hx => inheritField_fits hx

theorem freshFields_fits (classes : List Class) :
    List.Forall₂ (fun c => List.Forall₂ Inherited.Fits c.statics) classes
      (classes.map freshFields) := by
  rw [List.forall₂_map_right_iff, List.forall₂_same]
  intro c _
  unfold freshFields
  rw [List.forall₂_map_right_iff, List.forall₂_same]
  exact fun f _ => .fresh

/-- The values that the fields of a class settle to fit them. -/
theorem settleFields_fits {fields : List StaticField} {l : List Inherited}
    (h : List.Forall₂ Inherited.Fits fields l) (heap : Heap) :
    List.Forall₂ (fun f v => v.fits f.kind? = true) fields (settleFields heap l).2 := by
  induction h generalizing heap with
  | nil => exact .nil
  | cons hx hrest ih =>
      cases hx with
      | kept hv => exact .cons hv (ih heap)
      | fresh => exact .cons (StaticField.fits_initial _ heap) (ih _)

theorem settleStatics_fits {classes : List Class} {l : List (List Inherited)}
    (h : List.Forall₂ (fun c => List.Forall₂ Inherited.Fits c.statics) classes l) (heap : Heap) :
    List.Forall₂ (fun c row => List.Forall₂ (fun f v => v.fits f.kind? = true) c.statics row.toList)
      classes (settleStatics heap l).2 := by
  induction h generalizing heap with
  | nil => exact .nil
  | cons hfields _ ih => exact .cons (settleFields_fits hfields heap) (ih _)

/-- **Settled fields are in their kinds.** -/
theorem typed_settled {image : Image ν} {l : List (List Inherited)}
    (h : List.Forall₂ (fun c => List.Forall₂ Inherited.Fits c.statics) image.module.classes l)
    (heap : Heap) : image.Typed (settleStatics heap l).2.toArray := by
  have hlengths : l.map List.length = image.module.classes.map (·.statics.length) := by
    rw [← List.forall₂_eq_eq_eq, List.forall₂_map_left_iff, List.forall₂_map_right_iff]
    exact h.flip.imp fun _ _ hfields => hfields.length_eq.symm
  refine ⟨shapes_settled hlengths, fun {ci fi cls f v} hs hv => ?_⟩
  obtain ⟨hc, hf⟩ := Image.static?_eq_some.mp hs
  obtain ⟨row, hrow, hv⟩ := Option.bind_eq_some_iff.mp hv
  rw [List.getElem?_toArray] at hrow
  -- the row of the class, and in it the value of the field
  obtain ⟨cls', hc', hfields⟩ := getElem?_of_forall₂ (settleStatics_fits h heap) hrow
  have hcls : cls = cls' := Option.some.inj (hc.symm.trans hc')
  subst hcls
  rw [← Array.getElem?_toList] at hv
  obtain ⟨g, hg, hfits⟩ := getElem?_of_forall₂ hfields hv
  have hfield : f = g := Option.some.inj (hf.symm.trans hg)
  subst hfield
  exact hfits

/-! ## 4. The host's own writes -/

theorem staticSlot_eq_ok {vm : Vm ν} {cls field : String} {ci fi : Nat} {f : StaticField}
    (h : vm.staticSlot cls field = .ok (ci, fi, f)) :
    ∃ image, vm.image = some image ∧ image.slot? cls field = some (ci, fi, f) := by
  unfold staticSlot at h
  obtain ⟨image, hl, h⟩ := Checks.bind_eq_ok.mp h
  refine ⟨image, loaded_eq_ok.mp hl, ?_⟩
  unfold Image.slot?
  cases hc : image.class? cls with
  | none =>
      rw [hc] at h
      cases h
  | some found =>
      obtain ⟨i, c⟩ := found
      rw [hc] at h
      dsimp only at h
      split at h
      · cases h
      · rename_i j hj
        split at h
        · cases h
        · rename_i g hg
          cases h
          simp [hj, hg]

/-- What passes the check of its kind fits the field. -/
theorem fits_of_checkKind {f : StaticField} {v : Scalar} (h : checkKind f v = .ok ()) (heap : Heap) :
    (heap.ofScalar v).2.fits f.kind? = true := by
  refine Value.fits_of_kind fun k hk => ?_
  unfold checkKind at h
  rw [hk] at h
  have hfits := (Checks.refuse_eq_ok.mp h).1
  rw [Heap.kind_ofScalar]
  by_cases hv : v.kind = k
  · exact .inl hv
  · exact .inr (Decidable.not_not.mp fun hn => hfits ⟨hv, hn⟩)

/-- A field takes from the host only what fits it. -/
theorem setStatic_fits {vm vm' : Vm ν} {cls field : String} {v : Scalar}
    (h : (setStatic cls field v).run vm = .ok () vm') :
    ∃ image ci fi c f, vm.image = some image ∧ image.static? ci fi = some (c, f) ∧
      (vm.store.heap.ofScalar v).2.fits f.kind? = true ∧
      vm' = { vm with
        store := { vm.store with
          heap := (vm.store.heap.ofScalar v).1
          statics := vm.store.statics.modify ci
            (·.setIfInBounds fi (vm.store.heap.ofScalar v).2) } } := by
  obtain ⟨ci, fi, f, hslot, hkind, hvm'⟩ := setStatic_eq_ok h
  obtain ⟨image, hi, hslot⟩ := staticSlot_eq_ok hslot
  obtain ⟨c, hc, -, hf, -⟩ := Image.slot?_eq_some hslot
  exact ⟨image, ci, fi, c, f, hi, Image.static?_eq_some.mpr ⟨hc, hf⟩, fits_of_checkKind hkind _, hvm'⟩

/-! ## 5. Every session -/

/-- The static fields of a machine keep to the declarations of its module. -/
def Typed (vm : Vm ν) : Prop :=
  ∀ image, vm.image = some image → image.Typed vm.store.statics

/-- **Every elementary change keeps the static fields in their kinds.** -/
theorem Typed.change {vm vm' : Vm ν} (h : vm.Typed) (hsound : vm.Sound) (hc : Change vm vm') :
    vm'.Typed := by
  intro image hi
  cases hc with
  | load hload =>
      obtain ⟨-, image', hp, rfl⟩ := load_eq_ok hload
      cases hi
      have hm := (Image.link_eq_ok (prepare_eq_ok.mp hp).2).1
      exact typed_settled (by rw [hm]; exact freshFields_fits _) _
  | patch hpatch =>
      obtain ⟨old, image', inherited, -, hp, hl, -, -, rfl⟩ := patch_eq_ok hpatch
      cases hi
      have hm := (Image.link_eq_ok (prepare_eq_ok.mp hp).2).1
      exact typed_settled (by rw [hm]; exact inheritance_fits hl) _
  | registerNative name handler =>
      -- other imports leave the declarations alone
      obtain ⟨before, hb, rfl⟩ := Option.map_eq_some_iff.mp hi
      have hbefore := h before hb
      exact ⟨hbefore.shapes, hbefore.fits⟩
  | call hi' ho =>
      rw [hi'] at hi
      cases hi
      have hbefore := h _ hi'
      exact Machine.storeInvariant_typed.call (hsound.image hi') hbefore.shapes hbefore ho
  | setStatic hset =>
      obtain ⟨image', ci, fi, c, f, hi', hs, hfits, rfl⟩ := setStatic_fits hset
      rw [hi'] at hi
      cases hi
      exact (h _ hi').modify hs hfits
  | collect => exact h image hi
  | events scheduler reactor => exact h image hi

theorem Reachable.typed {vm : Vm ν} (h : Reachable vm) : vm.Typed := by
  have hboth : vm.Sound ∧ vm.Typed := by
    refine h.induct (I := fun vm => vm.Sound ∧ vm.Typed) (fun _ _ => ⟨⟨nofun, nofun⟩, nofun⟩) ?_
    intro a b ⟨hsound, htyped⟩ hc
    exact ⟨hsound.change hc, htyped.change hsound hc⟩
  exact hboth.2

/-- **Declared kinds always hold.** Whatever a host did with a machine before, its static fields are
    one row for every class of the loaded module with one slot for every field, and a field declared
    with a kind holds null or a value of that kind; so it reads as null or as a scalar of that
    kind. -/
theorem declared_kinds_hold {vm : Vm ν} (h : Reachable vm) {image : Image ν}
    (hi : vm.image = some image) :
    vm.store.statics.toList.map Array.size = image.module.classes.map (·.statics.length) ∧
    (∀ ci fi cls f, image.static? ci fi = some (cls, f) →
      ∃ v, vm.store.statics[ci]?.bind (·[fi]?) = some v ∧
        ∀ k, f.kind? = some k → v.kind = .null ∨ v.kind = k) ∧
    ∀ cls field f, image.module.static? cls field = some f →
      ∃ s, vm.getStatic cls field = .ok s ∧
        ∀ k, f.kind? = some k → s.kind = .null ∨ s.kind = k := by
  have htyped := h.typed image hi
  have hslots : ∀ ci fi cls f, image.static? ci fi = some (cls, f) →
      ∃ v, vm.store.statics[ci]?.bind (·[fi]?) = some v ∧
        ∀ k, f.kind? = some k → v.kind = .null ∨ v.kind = k := by
    intro ci fi cls f hs
    obtain ⟨v, hv, hfits⟩ := htyped.exists_value hs
    exact ⟨v, hv, fun k hk => Value.fits_some (by rw [← hk]; exact hfits)⟩
  refine ⟨htyped.shapes, hslots, ?_⟩
  intro cls field f hf
  rw [Image.static?_eq] at hf
  obtain ⟨⟨ci, fi, g⟩, hslot, rfl⟩ := Option.map_eq_some_iff.mp hf
  obtain ⟨c, hc, -, hg, -⟩ := Image.slot?_eq_some hslot
  obtain ⟨v, hv, hkind⟩ := hslots ci fi c g (Image.static?_eq_some.mpr ⟨hc, hg⟩)
  refine ⟨_, getStatic_eq hi hslot, fun k hk => ?_⟩
  have hvalue : vm.slotValue ci fi = v := by
    unfold slotValue
    rw [hv]
    rfl
  rw [hvalue]
  rcases vm.store.heap.kind_toScalar v with hs | hs
  · rw [hs]
    exact hkind k hk
  · exact .inl hs

/-- A scoreboard whose score starts with the given value, and whose entry function counts one. -/
def scoreboard (score : Scalar) : Module where
  flags := 0
  name := "scoreboard"
  strings := []
  functions := [⟨"main", 0, 0, Instruction.encodeBody
    [.loadStatic 0 0, .pushInt 1, .simple (.int .add), .storeStatic 0 0, .simple .retVoid]⟩]
  classes := [⟨"Board", [⟨"score", score⟩], []⟩]
  natives := []
  entry := 0

/-- The scoreboard after a history in which its score was declared an integer, then nothing, and
    then an integer again; while it held a text, that was refused. -/
def scoreboardMachine : Vm Unit :=
  (create {} 0).after
    [.load (scoreboard (.int 0)), .callEntry, .patch (scoreboard .null),
      .setStatic "Board" "score" (.string "ten"), .callEntry, .patch (scoreboard (.int 0)),
      .setStatic "Board" "score" (.int 9), .patch (scoreboard (.int 0)), .callEntry]

/-- The score is what it is declared to be. -/
theorem scoreboard_holds_an_integer :
    Reachable scoreboardMachine ∧ scoreboardMachine.module? = some (scoreboard (.int 0)) ∧
      ∃ s, scoreboardMachine.getStatic "Board" "score" = .ok s ∧
        (s.kind = .null ∨ s.kind = .int) := by
  have hreach : Reachable scoreboardMachine := (Reachable.create {} 0).after _
  have hmodule : scoreboardMachine.module? = some (scoreboard (.int 0)) := by decide +kernel
  obtain ⟨image, hi, hm⟩ := Option.map_eq_some_iff.mp hmodule
  have hfield : image.module.static? "Board" "score" = some ⟨"score", .int 0⟩ := by
    rw [hm]
    decide
  obtain ⟨-, -, hreads⟩ := declared_kinds_hold hreach hi
  obtain ⟨s, hs, hkind⟩ := hreads "Board" "score" _ hfield
  exact ⟨hreach, hmodule, s, hs, hkind .int rfl⟩

example : scoreboardMachine.getStatic "Board" "score" = .ok (.int 10) := by decide +kernel

end Vm

end EmbeddedVm
