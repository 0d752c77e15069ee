import EmbeddedVm.Proofs.Vm.Twins

/-!
# Replacements that change nothing

A replacement reports whether it changed anything, and it tells by comparing functions by name:
their signatures and the bytes of their bodies. The bytes say nothing of what stands in the tables
they refer to. So a module with another string in its pool can replace the loaded one, report that
nothing changed, and behave differently (`unchanged_says_otherwise`). What holds is that where the
two modules are synonymous, a replacement that reports no change cannot be noticed
(`unchanged_unobservable`): whatever the host does next, it gets the same answers as without it.
-/

namespace EmbeddedVm

/-! ## 1. What a report without a change says -/

namespace Vm

variable {ν : Type}

/-- **A report without a change**: the same functions by name, with the same signatures and bodies,
    and the same methods. -/
theorem unchanged_of_report {old new : Module} {statics : List (List Inherited)}
    (h : (report old new statics).changed = false) :
    (∀ name, old.function? name = new.function? name) ∧
      (methodBindings old).Perm (methodBindings new) := by
  unfold report at h
  simp only [Bool.or_eq_false_iff, decide_eq_false_iff_not, Nat.not_lt, Nat.le_zero_eq,
    List.countP_eq_zero, Bool.not_eq_false', List.isPerm_iff] at h
  obtain ⟨⟨⟨hadded, hremoved⟩, hchanged⟩, hmethods⟩ := h
  refine ⟨fun name => ?_, hmethods⟩
  cases hn : new.function? name with
  | some f =>
      obtain ⟨hmem, rfl⟩ := Module.mem_of_function? hn
      cases ho : old.function? f.name with
      | none => exact absurd (Option.isNone_iff_eq_none.mpr ho) (hadded f hmem)
      | some g =>
          have hsame := hchanged f hmem
          unfold Module.function? at ho
          rw [ho] at hsame
          exact congrArg some (of_not_not fun hne => hsame (bne_iff_ne.mpr hne))
  | none =>
      cases ho : old.function? name with
      | none => rfl
      | some g =>
          obtain ⟨hmem, rfl⟩ := Module.mem_of_function? ho
          obtain ⟨i, hi⟩ := Option.ne_none_iff_exists'.mp fun hi =>
            hremoved g hmem (Option.isNone_iff_eq_none.mpr hi)
          obtain ⟨f, -, hf⟩ := Module.function?_of_index hi
          rw [hn] at hf
          cases hf

/-! ## 2. What it leaves -/

/-- **A replacement without a change by a synonymous module leaves a machine that holds the same
    under every name.** -/
theorem Reachable.paired {vm vm' : Vm ν} (h : Reachable vm) {old : Image ν}
    (ho : vm.image = some old) {m : Module} {r : PatchReport} (hp : (patch m).run vm = .ok r vm')
    (hr : r.changed = false) (hs : old.module.Synonymous m) : Paired old.module m vm vm' := by
  have hsound := h.sound
  obtain ⟨hv, hl⟩ := prepare_eq_ok.mp (hsound.prepared ho)
  obtain ⟨old', image, inherited, ho', hprepared, -, -, rfl, hvm'⟩ := patch_eq_ok hp
  rw [ho] at ho'
  cases ho'
  obtain ⟨hv', hl'⟩ := prepare_eq_ok.mp hprepared
  obtain ⟨hfunctions, hmethods⟩ := unchanged_of_report hr
  have htwins : old.module.Twins m := ⟨hv, hv', hfunctions, hs⟩
  have hself : vm'.Alike vm' := by
    have hboth := h.alike.patch m
    rw [hp] at hboth
    cases hboth with
    | ok _ hS => exact hS
  refine ⟨htwins, hmethods, by rw [hvm'], by rw [hvm'], ⟨old, ho, hl⟩, ⟨image, by rw [hvm'], ?_⟩,
    ⟨h.alike.store.tidy_left, hself.store.tidy_left, ?_, by rw [hvm'], by rw [hvm']⟩⟩
  · rw [hvm']
    exact hl'
  · intro c f c' f' n hn hn'
    obtain ⟨C, F, hC, hF, rfl⟩ := Module.fieldName?_eq_some.mp hn
    obtain ⟨C', F', hC', hF', heq⟩ := Module.fieldName?_eq_some.mp hn'
    obtain ⟨hcls, hfield⟩ := Prod.mk.inj heq
    obtain ⟨v, hv⟩ := Machine.exists_slot (hsound.shapes ho) hC (List.getElem?_eq_some_iff.mp hF).1
    obtain ⟨w, hw, hholds⟩ := slot_patched h.alike hp ho hC' hF'
    refine ⟨v, w, hv, hw, ?_⟩
    have hslot : vm.slotValue c f = v := by
      unfold slotValue
      rw [hv]
      rfl
    have hexpected : vm.expected old C'.name F' = vm.store.heap.toScalar v := by
      unfold expected
      rw [← hcls, ← hfield, Image.slot?_of_declared (hsound.wellNamed ho) hC hF]
      dsimp only
      rw [hslot]
    have hlive := h.alike.slotValue c f
    rw [hslot] at hlive
    exact .of_toScalar hlive hholds.1 (hexpected.symm.trans hholds.2.symm)

/-! ## 3. Another replacement -/

/-- Paired, or, behind another replacement, different in the heaps only. -/
def Matching (m m' : Module) (a b : Vm ν) : Prop := Paired m m' a b ∨ a.Alike b

namespace Paired

variable {m m' : Module} {a b : Vm ν}

/-- A static field of another module inherits alike, if both modules declare it or neither. -/
theorem inheritField (h : Paired m m' a b) {image image' : Image ν} (hm : image.module = m)
    (hm' : image'.module = m') {cls : String} {f : StaticField}
    (hfield : (m.static? cls f.name).isSome = (m'.static? cls f.name).isSome) :
    Checks.Both (Inherited.Alike a.store.heap b.store.heap) (a.inheritField image cls f)
      (b.inheritField image' cls f) := by
  unfold Vm.inheritField
  rw [carried?_eq, carried?_eq]
  rcases h.slot hm hm' hfield with ⟨hs, hs'⟩ | ⟨ci, fi, g, ci', fi', g', hs, hs', hpaired, hkind⟩
  · rw [hs, hs']
    exact .ok (.fresh _)
  · have hvw := h.slotValue hpaired
    rw [hs, hs', Option.map_some, Option.map_some]
    dsimp only
    rw [hkind, hvw.kind]
    split
    · split
      · exact .error _
      · rw [hvw.fits]
        split
        · exact .ok (.kept hvw)
        · exact .error _
    · rw [hvw.fits]
      split
      · exact .ok (.kept hvw)
      · exact .error _
    · exact .ok (.kept hvw)

/-- Twins have the same functions, in some order. -/
theorem functions_perm (h : m.Twins m') : m.functions.Perm m'.functions := by
  have hn := Module.wellNamed_of_verify h.left
  have hn' := Module.wellNamed_of_verify h.right
  refine (List.perm_ext_iff_of_nodup hn.functions.of_map hn'.functions.of_map).mpr fun f => ?_
  constructor
  · intro hf
    have hfind := Module.function?_eq_some hn hf
    rw [h.functions] at hfind
    exact (Module.mem_of_function? hfind).1
  · intro hf
    have hfind := Module.function?_eq_some hn' hf
    rw [← h.functions] at hfind
    exact (Module.mem_of_function? hfind).1

/-- Another module differs from both modules in the same. -/
theorem report_eq (h : Paired m m' a b) (n : Module) (statics : List (List Inherited)) :
    report m n statics = report m' n statics := by
  have hbefore : ∀ name, m.functions.find? (·.name == name) =
      m'.functions.find? (·.name == name) := h.twins.functions
  have hremoved : m.functions.countP (fun f => (n.functionIndex? f.name).isNone) =
      m'.functions.countP fun f => (n.functionIndex? f.name).isNone :=
    (functions_perm h.twins).countP_eq _
  have hmethods : (methodBindings m).isPerm (methodBindings n) =
      (methodBindings m').isPerm (methodBindings n) := by
    rw [Bool.eq_iff_iff, List.isPerm_iff, List.isPerm_iff]
    exact ⟨h.methods.symm.trans, h.methods.trans⟩
  unfold report
  simp only [hbefore, hremoved, hmethods]

/-- What both settle alike makes machines that differ in the heaps only. -/
theorem settled (h : Paired m m' a b) {l₁ l₂ : List (List Inherited)}
    (hl : List.Forall₂ (List.Forall₂ (Inherited.Alike a.store.heap b.store.heap)) l₁ l₂)
    (image : Image ν) :
    Alike
      { a with
        image := some image
        store := { a.store with
          heap := (settleStatics a.store.heap l₁).1
          statics := (settleStatics a.store.heap l₁).2.toArray } }
      { b with
        image := some image
        store := { b.store with
          heap := (settleStatics b.store.heap l₂).1
          statics := (settleStatics b.store.heap l₂).2.toArray } } := by
  obtain ⟨t₁, t₂, -, -, hrel⟩ := settleStatics_alike h.store.tidy_left h.store.tidy_right hl
  exact ⟨by dsimp only; rw [h.options], h.natives, rfl,
    ⟨t₁, t₂, Abreast.of_forall₂ hrel, h.store.scheduler, h.store.reactor⟩⟩

/-- **Another module replaces both alike**, with the same report or the same refusal, if it declares
    no static field that only one of them has. What is left differs in the heaps only. -/
theorem patch (h : Paired m m' a b) {n : Module}
    (hn : ∀ c ∈ n.classes, ∀ f ∈ c.statics,
      (m.static? c.name f.name).isSome = (m'.static? c.name f.name).isSome) :
    Matched (Matching m m') (· = ·) ((patch n).run a) ((patch n).run b) := by
  obtain ⟨image, image', ha, hb, -, -, hm, hm'⟩ := h.images
  have hpending : a.pendingCallbacks = b.pendingCallbacks := by
    unfold Vm.pendingCallbacks
    rw [h.store.scheduler, h.store.reactor]
  have hinherit : Checks.Both
      (List.Forall₂ (List.Forall₂ (Inherited.Alike a.store.heap b.store.heap)))
      (a.inheritance image n.classes) (b.inheritance image' n.classes) :=
    .mapM fun c hc => .mapM fun f hf => h.inheritField hm hm' (hn c hc f hf)
  have hloaded : Checks.Both (fun x y => x = image ∧ y = image') a.loaded b.loaded := by
    rw [loaded_eq_ok.mpr ha, loaded_eq_ok.mpr hb]
    exact .ok ⟨rfl, rfl⟩
  have hab : Matching m m' a b := .inl h
  unfold Vm.patch
  refine .check_bind_eq hab (by rw [h.options]) fun _ => .check_bind hab hloaded ?_
  rintro _ _ ⟨rfl, rfl⟩
  refine .check_bind_eq hab (by rw [h.natives]) fun _ => ?_
  rw [inheritStatics_eq, inheritStatics_eq]
  refine .check_bind hab (hinherit.mapError _) fun l₁ l₂ hl => ?_
  refine .check_bind_eq hab (by dsimp only; rw [hpending]) fun _ => ?_
  refine .ok ?_ (.inr (h.settled hl _))
  rw [hm, hm', h.report_eq]
  exact report_eq_of_alike hl _ _

end Paired

/-! ## 4. Sessions -/

/-- **An operation that two modules know alike**: it names no class and no static field that only
    one of them has. Functions need no mention, nor does what happens to events. -/
def Operation.Common (m m' : Module) : Operation ν → Prop
  | .callStatic cls _ _ => (m.class? cls).isSome = (m'.class? cls).isSome
  | .getStatic cls field | .setStatic cls field _ =>
    (m.class? cls).isSome = (m'.class? cls).isSome ∧
      (m.static? cls field).isSome = (m'.static? cls field).isSome
  | .patch n => ∀ c ∈ n.classes, ∀ f ∈ c.statics,
    (m.static? c.name f.name).isSome = (m'.static? c.name f.name).isSome
  | .load _ | .registerNative _ _ | .callEntry | .callFunction _ _ | .drainCooperative _ _
  | .sendRead _ _ | .settleRead | .drainReads | .collectGarbage | .gcStats _ => True

/-- **An operation that both modules know alike goes in lockstep.** -/
theorem Paired.perform {m m' : Module} {a b : Vm ν} (h : Paired m m' a b) {op : Operation ν}
    (hop : op.Common m m') :
    Run.Lockstep (Agreeing (Matching m m')) (a.perform op) (b.perform op) := by
  -- all operations but another replacement leave the machines paired
  have still {x y : Run ν (Answer × Vm ν)} (hxy : Run.Lockstep (Agreeing (Paired m m')) x y) :
      Run.Lockstep (Agreeing (Matching m m')) x y := hxy.imp fun _ _ h => ⟨h.1, .inl h.2⟩
  cases op with
  | load n => exact still (.done (agreeing_answering (h.load n) .done))
  | registerNative name handler => exact still (.done ⟨.same _, h.registerNative name handler⟩)
  | callEntry => exact still (answer_lockstep h.callEntry .value)
  | callFunction name args => exact still (answer_lockstep (h.callFunction name args) .value)
  | callStatic cls method args =>
      exact still (answer_lockstep (h.callStatic hop method args) .value)
  | getStatic cls field =>
      unfold Vm.perform
      dsimp only
      rw [h.getStatic hop.1 hop.2]
      exact still (.done ⟨.same _, h⟩)
  | setStatic cls field v =>
      exact still (.done (agreeing_answering (h.setStatic hop.1 hop.2 v) .done))
  | drainCooperative hint wall =>
      exact still (answer_lockstep (companions.drainCooperative h hint wall) .ran)
  | sendRead id result =>
      unfold Vm.perform
      dsimp only
      rw [h.store.reactor]
      exact still (.done ⟨.same _, companions.withReactor h _⟩)
  | settleRead =>
      unfold Vm.perform
      dsimp only
      rw [h.store.reactor]
      exact still (.done ⟨.same _, companions.withReactor h _⟩)
  | drainReads => exact still (answer_lockstep (companions.drainReads h) .ran)
  | patch n => exact .done (agreeing_answering (h.patch hop) .patched)
  | collectGarbage =>
      exact still ((collectGarbage_lockstep h (fun _ _ h => h.collect_left)
        fun _ _ h => h.collect_right).bind fun _ _ hxy => .done ⟨.collected hxy.1.1 hxy.1.2, hxy.2⟩)
  | gcStats stalledPauses => exact still (.done ⟨.figures _ _, h⟩)

theorem Matching.session {m m' : Module} {a b : Vm ν} (h : Matching m m' a b)
    {ops : List (Operation ν)} (hops : ∀ op ∈ ops, op.Common m m') :
    Run.Lockstep (fun x y => List.Forall₂ Answer.Agree x.1 y.1 ∧ Matching m m' x.2 y.2)
      (a.session ops) (b.session ops) := by
  refine session_lockstep (fun op hop a b h => ?_) h
  rcases h with h | h
  · exact h.perform (hops op hop)
  · exact (h.perform op).imp fun _ _ h => ⟨h.1, .inr h.2⟩

/-- **What a host can tell apart after a session**: the answers it got, what the static fields of
    both modules read, and what is scheduled or read in the background. -/
structure Indistinguishable (m m' : Module) (x y : List Answer × Vm ν) : Prop where
  answers : List.Forall₂ Answer.Agree x.1 y.1
  statics : ∀ cls field, (m.static? cls field).isSome = true →
    (m'.static? cls field).isSome = true → x.2.getStatic cls field = y.2.getStatic cls field
  scheduler : x.2.store.scheduler = y.2.store.scheduler
  reactor : x.2.store.reactor = y.2.store.reactor

/-- A declared static field is one of a class. -/
theorem isSome_class?_of_static? {m : Module} {cls field : String}
    (h : (m.static? cls field).isSome = true) : (m.class? cls).isSome = true := by
  obtain ⟨f, hf⟩ := Option.isSome_iff_exists.mp h
  obtain ⟨c, hc, -⟩ := Option.bind_eq_some_iff.mp hf
  exact Option.isSome_iff_exists.mpr ⟨c, hc⟩

theorem Matching.indistinguishable {m m' : Module} {x y : List Answer × Vm ν}
    (hanswers : List.Forall₂ Answer.Agree x.1 y.1) (h : Matching m m' x.2 y.2) :
    Indistinguishable m m' x y := by
  rcases h with h | h
  · refine ⟨hanswers, fun cls field hs hs' => ?_, h.store.scheduler, h.store.reactor⟩
    exact h.getStatic ((isSome_class?_of_static? hs).trans (isSome_class?_of_static? hs').symm)
      (hs.trans hs'.symm)
  · exact ⟨hanswers, fun cls field _ _ => h.getStatic cls field, h.store.scheduler, h.store.reactor⟩

/-! ## 5. Main statements -/

/-- A module whose entry function answers with a text. -/
def greeter (text : String) : Module where
  flags := 0
  name := "greeter"
  strings := [text]
  functions := [⟨"main", 0, 0, Instruction.encodeBody [.pushString 0, .simple .ret]⟩]
  classes := []
  natives := []
  entry := 0

/-- The greeter, loaded. -/
def greeterMachine : Vm Unit := (create {} 0).after [.load (greeter "old")]

/-- **A replacement that reports no change can change what a function answers.** The body of the
    function pushes the first string of the pool, and only the pool differs. -/
theorem unchanged_says_otherwise :
    ∃ vm vm' : Vm Unit, Reachable vm ∧ vm.module? = some (greeter "old") ∧
      ∃ r, (patch (greeter "new")).run vm = .ok r vm' ∧ r.changed = false ∧
        (∃ after, (vm.callFunction "main" []).Ends (.ok (.string "old"), after)) ∧
        ∃ after, (vm'.callFunction "main" []).Ends (.ok (.string "new"), after) := by
  have hbefore : ((greeterMachine.callFunction "main" []).against obliging ()).map (·.1.1) =
      some (.ok (.string "old")) := by decide +kernel
  have hreport : (greeterMachine.attempt (patch (greeter "new"))).1.toOption.map (·.changed) =
      some false := by decide +kernel
  have hafter : (((greeterMachine.attempt (patch (greeter "new"))).2.callFunction "main" []).against
      obliging ()).map (·.1.1) = some (.ok (.string "new")) := by decide +kernel
  obtain ⟨r, hp⟩ := exists_run_eq_ok greeterMachine (patch (greeter "new")) (by decide +kernel)
  have hr : r.changed = false := by
    rw [attempt_eq_ok.mpr hp] at hreport
    exact Option.some.inj hreport
  obtain ⟨⟨⟨answer, before⟩, _⟩, hbefore, rfl⟩ := Option.map_eq_some_iff.mp hbefore
  obtain ⟨⟨⟨answer, after⟩, _⟩, hafter, rfl⟩ := Option.map_eq_some_iff.mp hafter
  exact ⟨greeterMachine, _, (Reachable.create {} 0).after _, by decide +kernel, r, hp, hr,
    ⟨before, Run.ends_of_against hbefore⟩, ⟨after, Run.ends_of_against hafter⟩⟩

/-- Twins have methods in the same classes, so that asking for a method names nothing that only one
    of them has. -/
theorem Paired.common_method {m m' : Module} {a b : Vm ν} (h : Paired m m' a b) {c : Class}
    (hc : c ∈ m'.classes) {method : Method} (hmethod : method ∈ c.methods) (args : List Scalar) :
    (Operation.callStatic c.name method.name args : Operation ν).Common m m' := by
  have hbinding : (c.name, method.name,
      ((m'.functions[method.function.toNat]?).map (·.name)).getD "") ∈ methodBindings m' :=
    List.mem_flatMap.mpr ⟨c, hc, List.mem_map.mpr ⟨method, hmethod, rfl⟩⟩
  obtain ⟨d, hd, hb⟩ := List.mem_flatMap.mp (h.methods.symm.subset hbinding)
  obtain ⟨_, -, heq⟩ := List.mem_map.mp hb
  have hfound {n : Module} {e : Class} (he : e ∈ n.classes) (hname : e.name = c.name) :
      (n.class? c.name).isSome = true :=
    List.find?_isSome.mpr ⟨e, he, beq_iff_eq.mpr hname⟩
  exact (hfound hd (Prod.mk.inj heq).1).trans (hfound hc rfl).symm

/-- **A replacement by a synonymous module that reports no change is unobservable.** The module
    keeps its entry function, and every method of it is known to both modules. Against hosts whose
    functions behave alike, every session of operations that both modules know alike goes the same
    with the replacement as without it: neither ends or both do, having called the same host
    functions, and the answers, the static fields of both modules and what is scheduled are
    indistinguishable. -/
theorem unchanged_unobservable {σ ρ₁ ρ₂ : Type}
    (native : ν → List Scalar → σ → Except String Scalar × σ) (threads₁ : σ → ρ₁ → Option Nat × ρ₁)
    (threads₂ : σ → ρ₂ → Option Nat × ρ₂) {vm vm' : Vm ν} (h : Reachable vm) {old : Image ν}
    (ho : vm.image = some old) {m : Module} {r : PatchReport} (hp : (patch m).run vm = .ok r vm')
    (hr : r.changed = false) (hs : old.module.Synonymous m) :
    (∃ f, old.module.entryFunction? = some f ∧ m.entryFunction? = some f) ∧
    (∀ c ∈ m.classes, ∀ method ∈ c.methods, ∀ args,
      (Operation.callStatic c.name method.name args : Operation ν).Common old.module m) ∧
    ∀ ops : List (Operation ν), (∀ op ∈ ops, op.Common old.module m) → ∀ s p₁ p₂,
      Option.Rel (fun x y => Indistinguishable old.module m x.1 y.1 ∧ x.2.1 = y.2.1)
        ((vm.session ops).against (.paused native threads₁) (s, p₁))
        ((vm'.session ops).against (.paused native threads₂) (s, p₂)) := by
  have hpaired := h.paired ho hp hr hs
  refine ⟨?_, fun c hc method hmethod args => hpaired.common_method hc hmethod args,
    fun ops hops s p₁ p₂ => ?_⟩
  · obtain ⟨f, hf⟩ := Paired.exists_entry hpaired.twins.left
    obtain ⟨g, hg, hg'⟩ := hpaired.twins.function_of_name hf hs.entry
    exact ⟨g, hg, hg'⟩
  · have hlockstep : Run.Lockstep (Indistinguishable old.module m) (vm.session ops)
        (vm'.session ops) :=
      (Matching.session (.inl hpaired) hops).imp
        fun _ _ hxy => Matching.indistinguishable hxy.1 hxy.2
    exact hlockstep.against native threads₁ threads₂ s p₁ p₂

/-- A board that counts the frames it draws. -/
def countingBoard : Module where
  flags := 0
  name := "board"
  strings := ["ready"]
  functions := [
    ⟨"title", 0, 0, Instruction.encodeBody [.pushString 0, .simple .ret]⟩,
    ⟨"main", 0, 0, Instruction.encodeBody [.call 0, .storeStatic 0 0, .simple .retVoid]⟩,
    ⟨"frame", 0, 0, Instruction.encodeBody [.loadStatic 0 1, .pushInt 1, .simple (.int .add),
      .storeStatic 0 1, .simple .retVoid]⟩]
  classes := [⟨"Board", [⟨"title", .string ""⟩, ⟨"frames", .int 0⟩], [⟨"title", 0⟩, ⟨"draw", 2⟩]⟩]
  natives := []
  entry := 1

/-- The same board with more strings and static fields, and with its functions in another order. -/
def renumberedBoard : Module where
  flags := 0
  name := "board"
  strings := ["ready", "paused"]
  functions := [
    ⟨"title", 0, 0, Instruction.encodeBody [.pushString 0, .simple .ret]⟩,
    ⟨"frame", 0, 0, Instruction.encodeBody [.loadStatic 0 1, .pushInt 1, .simple (.int .add),
      .storeStatic 0 1, .simple .retVoid]⟩,
    ⟨"main", 0, 0, Instruction.encodeBody [.call 0, .storeStatic 0 0, .simple .retVoid]⟩]
  classes := [
    ⟨"Board", [⟨"title", .string ""⟩, ⟨"frames", .int 0⟩, ⟨"paused", .bool false⟩],
      [⟨"draw", 1⟩, ⟨"title", 0⟩]⟩,
    ⟨"Theme", [⟨"dark", .bool true⟩], []⟩]
  natives := []
  entry := 2

/-- The counting board, when it has drawn a frame. -/
def countingMachine : Vm Unit :=
  (create {} 0).after [.load countingBoard, .callEntry, .callStatic "Board" "draw" []]

/-- Counts another frame, and reads how many there were. -/
def nextFrame : List (Operation Unit) :=
  [.callEntry, .callStatic "Board" "draw" [], .getStatic "Board" "frames"]

/-- Renumbering the board goes unnoticed. -/
theorem renumbered_board_unnoticed :
    ∃ (vm vm' : Vm Unit) (old : Image Unit) (r : PatchReport), Reachable vm ∧
      vm.image = some old ∧ (patch renumberedBoard).run vm = .ok r vm' ∧ r.changed = false ∧
      old.module.Synonymous renumberedBoard ∧
      Option.Rel (fun x y => Indistinguishable old.module renumberedBoard x.1 y.1 ∧ x.2.1 = y.2.1)
        ((vm.session nextFrame).against
          (.paused (fun _ _ s => (.ok .null, s)) fun _ p => (none, p)) ((), ()))
        ((vm'.session nextFrame).against
          (.paused (fun _ _ s => (.ok .null, s)) fun _ p => (none, p)) ((), ())) := by
  have hm : countingMachine.module? = some countingBoard := by decide +kernel
  obtain ⟨old, ho, hmodule⟩ := Option.map_eq_some_iff.mp hm
  have hs : countingBoard.Synonymous renumberedBoard :=
    ⟨by decide +kernel, by decide +kernel, by decide +kernel⟩
  rw [← hmodule] at hs
  have hreach : Reachable countingMachine := (Reachable.create {} 0).after _
  obtain ⟨r, hp⟩ := exists_run_eq_ok countingMachine (patch renumberedBoard) (by decide +kernel)
  have hr : r.changed = false := by
    have hreport : (countingMachine.attempt (patch renumberedBoard)).1.toOption.map (·.changed) =
        some false := by decide +kernel
    rw [attempt_eq_ok.mpr hp] at hreport
    exact Option.some.inj hreport
  have hcls : (countingBoard.class? "Board").isSome =
      (renumberedBoard.class? "Board").isSome := by decide +kernel
  have hfield : (countingBoard.static? "Board" "frames").isSome =
      (renumberedBoard.static? "Board" "frames").isSome := by decide +kernel
  refine ⟨countingMachine, _, old, r, hreach, ho, hp, hr, hs, ?_⟩
  refine (unchanged_unobservable _ _ _ hreach ho hp hr hs).2.2 _ ?_ () () ()
  rw [hmodule]
  exact List.forall_mem_cons.mpr ⟨trivial, List.forall_mem_cons.mpr ⟨hcls,
    List.forall_mem_singleton.mpr ⟨hcls, hfield⟩⟩⟩

end Vm

end EmbeddedVm
