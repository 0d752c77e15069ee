import EmbeddedVm.Proofs.Events.Reactor
import EmbeddedVm.Proofs.Events.Scheduler
import EmbeddedVm.Proofs.Vm.Soundness

/-!
# Scheduled callbacks stay callable

A callback is registered by code that the verifier has checked: its function takes what will be
handed over. From then on it is a name, and the module behind the name may be replaced. Replacing
checks that each name is still there, but not what its function takes
(`callback_outlives_its_arity`); and it does not look at timers that are cancelled and still kept.

If the host replaces modules only by ones that support what is scheduled, everything stays callable
(`callbacks_stay_callable`): timers, callbacks of every sweep and outstanding reads name functions
of the loaded module that take what they will be given, so a drain passes nothing over, and a
callback that does not return throws.
-/

namespace EmbeddedVm

variable {ν : Type}

/-! ## 1. What a name takes -/

/-- The module has a function of that name, and it takes so many arguments. -/
def Module.takes (m : Module) (arity : Nat) (name : String) : Bool :=
  match m.function? name with
  | some f => f.paramCount.toNat == arity
  | none => false

/-- The name of a linked function takes what the function takes. -/
theorem Image.takes_of_function {natives : NativeTable ν} {image : Image ν}
    (hn : image.module.WellNamed) (hl : link natives image.module = .ok image) {i : Nat}
    {g : LinkedFunction} (hg : image.functions[i]? = some g) :
    image.module.takes g.params g.name = true := by
  obtain ⟨f, hf, hlink⟩ := linkFunction_of_link hl hg
  obtain ⟨_, _, -, -, rfl⟩ := linkFunction_eq_ok hlink
  unfold Module.takes
  rw [Module.function?_eq_some hn (List.mem_of_getElem? hf)]
  exact beq_self_eq_true _

/-- A name that takes so many arguments leads to a linked function that does. -/
theorem Image.exists_of_takes {natives : NativeTable ν} {image : Image ν}
    (hl : link natives image.module = .ok image) {arity : Nat} {name : String}
    (h : image.module.takes arity name = true) :
    ∃ i g, image.functionIndex? name = some i ∧ image.functions[i]? = some g ∧
      g.params = arity := by
  unfold Module.takes at h
  split at h
  · rename_i f hf
    unfold Module.function? at hf
    rw [List.find?_eq_bind_findIdx?_getElem?] at hf
    obtain ⟨i, hi, hf⟩ := Option.bind_eq_some_iff.mp hf
    obtain ⟨g, hg⟩ := exists_functions_of_link hl (List.getElem?_eq_some_iff.mp hf).1
    obtain ⟨f', hf', hlink⟩ := linkFunction_of_link hl hg
    rw [hf] at hf'
    cases hf'
    obtain ⟨_, _, -, -, rfl⟩ := linkFunction_eq_ok hlink
    exact ⟨i, _, hi, hg, beq_iff_eq.mp h⟩
  · cases h

namespace Vm

/-- The loaded module has a function of that name, and it takes so many arguments. -/
def takes (vm : Vm ν) (arity : Nat) (name : String) : Bool :=
  match vm.image with
  | some image => image.module.takes arity name
  | none => false

theorem takes_eq {vm : Vm ν} {image : Image ν} (hi : vm.image = some image) (arity : Nat)
    (name : String) : vm.takes arity name = image.module.takes arity name := by
  unfold takes
  rw [hi]

/-! ## 2. What is scheduled is served -/

/-- Everything scheduled in a store has a name of which `p` says, for what it will be given, that it
    can be called so; `taken` are the completions in the hands of a drain. -/
structure Served (p : Nat → String → Bool) (taken : List ReadCompletion) (s : Store) : Prop where
  /-- Timers, cancelled ones too, and callbacks of every sweep are given nothing. -/
  scheduler : s.scheduler.Within (p 0 · = true)
  /-- Reads are given what was read. -/
  reads : ∀ e ∈ s.reactor.outstanding, p 1 e.2 = true
  account : s.reactor.Accounted taken

theorem Served.mono {p q : Nat → String → Bool} {taken : List ReadCompletion} {s : Store}
    (h : Served p taken s) (hpq : ∀ arity name, p arity name = true → q arity name = true) :
    Served q taken s :=
  ⟨h.scheduler.mono (hpq 0), fun e he => hpq 1 _ (h.reads e he), h.account⟩

/-- **Verified code schedules only what can be called**, so no call breaks the property. -/
theorem storeInvariant_served {natives : NativeTable ν} {ctx : Context ν}
    (hn : ctx.image.module.WellNamed) (hl : Image.link natives ctx.image.module = .ok ctx.image)
    (taken : List ReadCompletion) :
    Machine.StoreInvariant ctx (Served ctx.image.module.takes taken) where
  heap _ _ h := ⟨h.scheduler, h.reads, h.account⟩
  change _ _ hc h := by
    have named {i : Nat} {g : LinkedFunction} (hg : ctx.image.functions[i]? = some g) {arity : Nat}
        (ha : g.params = arity) : ctx.image.module.takes arity g.name = true :=
      ha ▸ Image.takes_of_function hn hl hg
    cases hc with
    | pop | push | setLocal | setStatic => exact ⟨h.scheduler, h.reads, h.account⟩
    | cancel id => exact ⟨h.scheduler.cancel id, h.reads, h.account⟩
    | addTimer hf hp delay repeats =>
        exact ⟨h.scheduler.addTimer (named hf hp) delay repeats, h.reads, h.account⟩
    | addMainLoop hf hp => exact ⟨h.scheduler.addMainLoop (named hf hp), h.reads, h.account⟩
    | submit hf hp path =>
        refine ⟨h.scheduler, fun e he => ?_, h.account.submit path _⟩
        rcases List.mem_append.mp he with he | he
        · exact h.reads e he
        · rw [List.mem_singleton.mp he]
          exact named hf hp

/-- **A sound machine in which everything scheduled can be called.** -/
structure Attended (vm : Vm ν) (taken : List ReadCompletion) : Prop where
  sound : vm.Sound
  served : Served vm.takes taken vm.store

theorem attended_create (options : VmOptions) (wall : Nat) :
    Attended (create options wall : Vm ν) [] where
  sound := ⟨nofun, nofun⟩
  served := ⟨Scheduler.within_empty wall, fun _ he => absurd he List.not_mem_nil,
    Reactor.accounted_empty⟩

/-- A call changes the store only, and leaves everything callable. -/
theorem Attended.call {vm : Vm ν} {taken : List ReadCompletion} (h : vm.Attended taken)
    {image : Image ν} (hi : vm.image = some image) {function : Nat} {args : List Scalar}
    {o : Machine.Outcome}
    (ho : (Machine.call ⟨image, vm.options.maxCallDepth⟩ vm.store function args).Ends o) :
    Attended { vm with store := o.store } taken := by
  refine ⟨h.sound.change (.call hi ho), ?_⟩
  have hsame {vm' : Vm ν} (hi' : vm'.image = some image) : vm'.takes = image.module.takes :=
    funext fun arity => funext fun name => takes_eq hi' arity name
  have hserved := h.served
  rw [hsame hi] at hserved
  obtain ⟨-, hl⟩ := prepare_eq_ok.mp (h.sound.prepared hi)
  show Served (takes { vm with store := o.store }) taken o.store
  rw [hsame (by exact hi)]
  have hinvariant : Machine.StoreInvariant ⟨image, vm.options.maxCallDepth⟩
      (Served image.module.takes taken) := storeInvariant_served (h.sound.wellNamed hi) hl taken
  exact hinvariant.call (h.sound.image hi) (h.sound.shapes hi) hserved ho

/-- The events change, and everything stays callable. -/
theorem Attended.events {vm : Vm ν} {taken taken' : List ReadCompletion} (h : vm.Attended taken)
    {scheduler : Scheduler Binary64} {reactor : Reactor}
    (hs : scheduler.Within (vm.takes 0 · = true))
    (hr : ∀ e ∈ reactor.outstanding, vm.takes 1 e.2 = true) (ha : reactor.Accounted taken') :
    Attended { vm with store := { vm.store with scheduler, reactor } } taken' :=
  ⟨h.sound.change (.events scheduler reactor), hs, hr, ha⟩

/-! ## 3. Drains -/

/-- What a drain ends with when it passes nothing over: the number of callbacks there were, or the
    exception of one that threw. -/
def Drained (total : Nat) : Except VmError Nat → Prop
  | .ok n => n = total
  | .error e => ∃ fault trace, e = .exception fault trace ∧ fault.IsDynamic

/-- **A callback that takes what it is given is found and called**, and if it does not return it
    throws. -/
theorem Attended.callback {vm : Vm ν} {taken : List ReadCompletion} (h : vm.Attended taken)
    {name : String} {args : List Scalar} (hname : vm.takes args.length name = true) :
    ∃ image function,
      (vm.image.bind fun image => (image.functionIndex? name).map (image, ·)) =
        some (image, function) ∧
      ∀ result vm', (vm.callIndex image function args).Ends (result, vm') →
        vm'.Attended taken ∧ vm'.image = vm.image ∧
        ∀ e, result = .error e → ∃ fault trace, e = .exception fault trace ∧ fault.IsDynamic := by
  cases hi : vm.image with
  | none =>
      unfold takes at hname
      rw [hi] at hname
      cases hname
  | some image =>
      rw [takes_eq hi] at hname
      obtain ⟨-, hl⟩ := prepare_eq_ok.mp (h.sound.prepared hi)
      obtain ⟨function, g, hfunction, hg, hparams⟩ := Image.exists_of_takes hl hname
      refine ⟨image, function, by rw [Option.bind_some, hfunction]; rfl, fun result vm' hcall => ?_⟩
      obtain ⟨o, ho, rfl, rfl⟩ := callIndex_ends hcall
      refine ⟨h.call hi ho, hi, fun e he => ?_⟩
      have hregular : o.Regular image := Machine.call_regular (by exact h.sound.image hi)
        (h.sound.shapes hi) hg hparams.symm ho
      unfold Machine.Outcome.Regular at hregular
      rw [he] at hregular
      obtain ⟨fault, trace, hexception, hdynamic, -⟩ := hregular
      exact ⟨fault, trace, hexception, hdynamic⟩

/-- What is looked up stays what it is while the loaded module stays. -/
theorem takes_of_image {vm vm' : Vm ν} (h : vm'.image = vm.image) : vm'.takes = vm.takes := by
  unfold takes
  rw [h]

theorem Attended.runDue {due : List DueCallback} {ran : Nat} {vm vm' : Vm ν}
    {result : Except VmError Nat} (h : vm.Attended [])
    (hdue : Scheduler.AllDue (vm.takes 0 · = true) due)
    (hr : (vm.runDue due ran).Ends (result, vm')) :
    vm'.Attended [] ∧ Drained (ran + due.length) result := by
  induction due generalizing ran vm with
  | nil =>
      cases Run.ends_done.mp hr
      exact ⟨h, rfl⟩
  | cons c rest ih =>
      have hname : vm.takes ([] : List Scalar).length c.callback = true := hdue c List.mem_cons_self
      obtain ⟨image, function, hfound, hcalled⟩ := h.callback hname
      unfold Vm.runDue at hr
      rw [hfound] at hr
      obtain ⟨⟨called, vm₁⟩, hcall, hr⟩ := Run.ends_bind.mp hr
      obtain ⟨h₁, himage, hthrown⟩ := hcalled _ _ hcall
      have hrest : Scheduler.AllDue (vm₁.takes 0 · = true) rest := by
        rw [takes_of_image himage]
        exact hdue.tail
      cases called with
      | ok v =>
          obtain ⟨h', hdrained⟩ := ih h₁ hrest hr
          refine ⟨h', ?_⟩
          rwa [List.length_cons, Nat.add_comm rest.length, ← Nat.add_assoc]
      | error e =>
          cases Run.ends_done.mp hr
          exact ⟨h₁.events (h₁.served.scheduler.defer hrest) h₁.served.reads h₁.served.account,
            hthrown e rfl⟩

theorem Attended.runReads {ready : List ReadCompletion} {ran : Nat} {vm vm' : Vm ν}
    {result : Except VmError Nat} (h : vm.Attended ready)
    (hr : (vm.runReads ready ran).Ends (result, vm')) :
    vm'.Attended [] ∧ Drained (ran + ready.length) result := by
  induction ready generalizing ran vm with
  | nil =>
      cases Run.ends_done.mp hr
      exact ⟨h, rfl⟩
  | cons c rest ih =>
      -- while the completion is in hand its callback is in the table
      have hname (argument : Scalar) : vm.takes [argument].length c.callback = true :=
        h.served.reads _ (h.served.account.mem_outstanding List.mem_cons_self)
      have hd := h.events h.served.scheduler
        (fun e he => h.served.reads e (List.mem_filter.mp he).1) h.served.account.dispatched
      unfold Vm.runReads at hr
      dsimp only at hr
      obtain ⟨image, function, hfound, hcalled⟩ := hd.callback (hname _)
      rw [hfound] at hr
      obtain ⟨⟨called, vm₁⟩, hcall, hr⟩ := Run.ends_bind.mp hr
      obtain ⟨h₁, -, hthrown⟩ := hcalled _ _ hcall
      cases called with
      | ok v =>
          obtain ⟨h', hdrained⟩ := ih h₁ hr
          refine ⟨h', ?_⟩
          rwa [List.length_cons, Nat.add_comm rest.length, ← Nat.add_assoc]
      | error e =>
          cases Run.ends_done.mp hr
          exact ⟨h₁.events h₁.served.scheduler h₁.served.reads h₁.served.account.defer,
            hthrown e rfl⟩

/-! ## 4. Sessions -/

/-- **A module that supports what is scheduled**: for every timer that is kept, every callback of
    every sweep and every outstanding read it has a function that takes what it will be given. -/
def Supports (m : Module) (s : Store) : Prop :=
  s.scheduler.Within (m.takes 0 · = true) ∧ ∀ e ∈ s.reactor.outstanding, m.takes 1 e.2 = true

/-- **The machines of sessions in which the loaded module is replaced only by ones that support what
    is scheduled.** -/
inductive Tended : Vm ν → Prop where
  | create (options : VmOptions) (wall : Nat) : Tended (.create options wall)
  | perform {vm vm' : Vm ν} {op : Operation ν} {answer : Answer} (h : Tended vm)
      (hop : (vm.perform op).Ends (answer, vm'))
      (hpatch : ∀ m report, op = .patch m → answer = .patched (.ok report) →
        Supports m vm.store) : Tended vm'

theorem Attended.callWith {vm vm' : Vm ν} {taken : List ReadCompletion} (h : vm.Attended taken)
    {find : Image ν → Except VmError Nat} {args : List Scalar} {result : Except VmError Scalar}
    (hr : (vm.callWith find args).Ends (result, vm')) : vm'.Attended taken := by
  rcases callWith_cases hr with rfl | ⟨image, function, hi, hcall⟩
  · exact h
  · obtain ⟨o, ho, -, rfl⟩ := callIndex_ends hcall
    exact h.call hi ho

/-- Where nothing is loaded, no name takes anything. -/
theorem not_takes_of_not_isLoaded {vm : Vm ν} (h : ¬ vm.isLoaded = true) (arity : Nat)
    (name : String) : ¬ vm.takes arity name = true := by
  unfold isLoaded at h
  unfold takes
  rw [Option.not_isSome_iff_eq_none.mp h]
  exact Bool.false_ne_true

/-- **A sweep passes nothing over.** -/
theorem Attended.drainCooperative {vm vm' : Vm ν} (h : vm.Attended []) {hint : Option Binary64}
    {wall : Nat} {result : Except VmError Nat}
    (hr : (vm.drainCooperative hint wall).Ends (result, vm')) :
    vm'.Attended [] ∧
      Drained (vm.store.scheduler.advance hint wall).takeDue.2.length result := by
  obtain ⟨hs, hdue⟩ := Scheduler.within_takeDue (h.served.scheduler.advance hint wall)
  unfold Vm.drainCooperative at hr
  split at hr
  · obtain ⟨h', hdrained⟩ := (h.events hs h.served.reads h.served.account).runDue hdue hr
    rw [Nat.zero_add] at hdrained
    exact ⟨h', hdrained⟩
  · rename_i hl
    cases Run.ends_done.mp hr
    have hnothing : (vm.store.scheduler.advance hint wall).takeDue.2 = [] :=
      List.eq_nil_iff_forall_not_mem.mpr fun c hc =>
        not_takes_of_not_isLoaded hl 0 c.callback (hdue c hc)
    rw [hnothing]
    exact ⟨h, rfl⟩

/-- A finished read takes what was read. -/
theorem Attended.takes_ready {vm : Vm ν} (h : vm.Attended []) {c : ReadCompletion}
    (hc : c ∈ vm.store.reactor.takeReady.2) : vm.takes 1 c.callback = true :=
  h.served.reads _ (h.served.account.takeReady.mem_outstanding hc)

/-- **A drain of reads passes nothing over.** -/
theorem Attended.drainReads {vm vm' : Vm ν} (h : vm.Attended []) {result : Except VmError Nat}
    (hr : vm.drainReads.Ends (result, vm')) :
    vm'.Attended [] ∧ Drained vm.store.reactor.takeReady.2.length result := by
  unfold Vm.drainReads at hr
  split at hr
  · have hreads : ∀ e ∈ vm.store.reactor.takeReady.1.outstanding, vm.takes 1 e.2 = true :=
      h.served.reads
    obtain ⟨h', hdrained⟩ := (h.events h.served.scheduler hreads
      h.served.account.takeReady).runReads hr
    rw [Nat.zero_add] at hdrained
    exact ⟨h', hdrained⟩
  · rename_i hl
    cases Run.ends_done.mp hr
    have hnothing : vm.store.reactor.takeReady.2 = [] :=
      List.eq_nil_iff_forall_not_mem.mpr fun c hc =>
        not_takes_of_not_isLoaded hl 1 c.callback (h.takes_ready hc)
    rw [hnothing]
    exact ⟨h, rfl⟩

/-- Where nothing is loaded nothing is scheduled, so a first module supports it. -/
theorem Attended.load {vm vm' : Vm ν} (h : vm.Attended []) {m : Module}
    (hload : (Vm.load m).run vm = .ok () vm') : vm'.Attended [] := by
  have hsound : vm'.Sound := h.sound.change (.load hload)
  obtain ⟨hi, image, hp, rfl⟩ := load_eq_ok hload
  have hl : ¬ vm.isLoaded = true := by
    unfold isLoaded
    rw [hi]
    exact Bool.false_ne_true
  have hserved : Served image.module.takes [] vm.store :=
    h.served.mono fun arity name ht => absurd ht (not_takes_of_not_isLoaded hl arity name)
  exact ⟨hsound, hserved.scheduler, hserved.reads, hserved.account⟩

/-- A module that supports what is scheduled takes the place of another. -/
theorem Attended.patch {vm vm' : Vm ν} (h : vm.Attended []) {m : Module} {report : PatchReport}
    (hp : (Vm.patch m).run vm = .ok report vm') (hm : Supports m vm.store) : vm'.Attended [] := by
  have hsound : vm'.Sound := h.sound.change (.patch hp)
  obtain ⟨hscheduler, hreads⟩ := hm
  obtain ⟨old, image, inherited, -, hprepared, -, -, -, rfl⟩ := patch_eq_ok hp
  have hmodule : image.module = m := (Image.link_eq_ok (prepare_eq_ok.mp hprepared).2).1
  rw [← hmodule] at hscheduler hreads
  exact ⟨hsound, hscheduler, hreads, h.served.account⟩

theorem Attended.registerNative {vm : Vm ν} (h : vm.Attended []) (name : String) (handler : ν) :
    (vm.registerNative name handler).Attended [] := by
  have htakes : (vm.registerNative name handler).takes = vm.takes := by
    unfold takes Vm.registerNative
    cases vm.image with
    | none => rfl
    | some image => rfl
  refine ⟨h.sound.change (.registerNative name handler), ?_⟩
  rw [htakes]
  exact h.served

theorem Attended.setStatic {vm vm' : Vm ν} (h : vm.Attended []) {cls field : String} {v : Scalar}
    (hset : (Vm.setStatic cls field v).run vm = .ok () vm') : vm'.Attended [] := by
  have hsound : vm'.Sound := h.sound.change (.setStatic hset)
  obtain ⟨ci, fi, f, -, -, rfl⟩ := setStatic_eq_ok hset
  exact ⟨hsound, h.served.scheduler, h.served.reads, h.served.account⟩

theorem Attended.sendRead {vm : Vm ν} (h : vm.Attended []) (id : Nat)
    (result : Except String String) :
    (vm.withReactor (vm.store.reactor.send id result)).Attended [] := by
  refine h.events h.served.scheduler (fun e he => h.served.reads e ?_)
    (h.served.account.send id result)
  unfold Reactor.send at he
  split at he
  · exact he
  · exact he

theorem Attended.collectGarbage {vm vm' : Vm ν} (h : vm.Attended []) {result : Except VmError Unit}
    (hr : vm.collectGarbage.Ends (result, vm')) : vm'.Attended [] := by
  unfold Vm.collectGarbage at hr
  cases hr with
  | pause stopped hr =>
      cases stopped with
      | none =>
          cases Run.ends_done.mp hr
          exact ⟨h.sound.change .collect, h.served.scheduler, h.served.reads, h.served.account⟩
      | some n =>
          cases Run.ends_done.mp hr
          exact h

/-- **Every operation leaves everything callable**, if a module that replaces another supports what
    is scheduled. -/
theorem Attended.perform {vm vm' : Vm ν} (h : vm.Attended []) {op : Operation ν} {answer : Answer}
    (hop : (vm.perform op).Ends (answer, vm'))
    (hpatch : ∀ m report, op = .patch m → answer = .patched (.ok report) → Supports m vm.store) :
    vm'.Attended [] := by
  unfold Vm.perform at hop
  cases op with
  | load m =>
      exact of_answering (allOrNothing_load m) h (fun _ _ => h.load) (Run.ends_done.mp hop)
  | registerNative name handler =>
      cases Run.ends_done.mp hop
      exact h.registerNative name handler
  | callEntry | callFunction | callStatic => exact of_answer (fun _ _ => h.callWith) hop
  | getStatic cls field =>
      cases Run.ends_done.mp hop
      exact h
  | setStatic cls field v =>
      exact of_answering (allOrNothing_setStatic cls field v) h (fun _ _ => h.setStatic)
        (Run.ends_done.mp hop)
  | drainCooperative hint wall => exact of_answer (fun _ _ hr => (h.drainCooperative hr).1) hop
  | sendRead id result =>
      cases Run.ends_done.mp hop
      exact h.sendRead id result
  | settleRead =>
      cases Run.ends_done.mp hop
      exact h.events h.served.scheduler h.served.reads h.served.account.settle
  | drainReads => exact of_answer (fun _ _ hr => (h.drainReads hr).1) hop
  | patch m =>
      rcases answering_cases (Run.ends_done.mp hop) with ⟨report, hp, rfl⟩ | ⟨e, herror, -⟩
      · exact h.patch hp (hpatch m report rfl rfl)
      · rw [allOrNothing_patch m vm e vm' herror]
        exact h
  | collectGarbage => exact of_answer (fun _ _ => h.collectGarbage) hop
  | gcStats stalledPauses =>
      cases Run.ends_done.mp hop
      exact h

theorem Tended.attended {vm : Vm ν} (h : Tended vm) : vm.Attended [] := by
  induction h with
  | create options wall => exact attended_create options wall
  | perform _ hop hpatch ih => exact ih.perform hop hpatch

/-- Operations that replace no module tend a machine. -/
theorem Tended.after {vm : Vm ν} (h : Tended vm) {ops : List (Operation ν)}
    (hops : ∀ op ∈ ops, ∀ m, op ≠ .patch m) : Tended (vm.after ops) :=
  after_induct (fun op hop _ _ _ h hperform =>
    h.perform hperform fun m _ hpatch _ => absurd hpatch (hops op hop m)) h

/-! ## 5. Main statements -/

/-- A module that has a callback run on every sweep. -/
def ticker : Module where
  flags := 0
  name := "ticker"
  strings := []
  functions := [
    ⟨"main", 0, 0, Instruction.encodeBody [.callback .mainLoop 1, .simple .retVoid]⟩,
    ⟨"tick", 0, 0, Instruction.encodeBody [.simple .retVoid]⟩]
  classes := []
  natives := []
  entry := 0

/-- A module that registers nothing and has a function of the callback's name. -/
def successor (params : UInt16) : Module where
  flags := 0
  name := "ticker"
  strings := []
  functions := [
    ⟨"main", 0, 0, Instruction.encodeBody [.simple .retVoid]⟩,
    ⟨"tick", params, params, Instruction.encodeBody [.simple .nop, .simple .retVoid]⟩]
  classes := []
  natives := []
  entry := 0

/-- **A callback can outlive the number of arguments it takes.** A replacement is accepted whose
    function of the callback's name takes an argument, and the next sweep fails on it. -/
theorem callback_outlives_its_arity :
    ∃ vm : Vm Unit, Reachable vm ∧ vm.module? = some (successor 1) ∧
      vm.store.scheduler.mainLoop = ["tick"] ∧ vm.takes 0 "tick" = false ∧
      ∃ vm', (vm.drainCooperative none 0).Ends (.error (.arityMismatch "tick" 1 0), vm') := by
  refine ⟨(create {} 0).after [.load ticker, .callEntry, .patch (successor 1)],
    (Reachable.create {} 0).after _, by decide +kernel, by decide +kernel, by decide +kernel, ?_⟩
  have hdrain : ((((create {} 0 : Vm Unit).after
      [.load ticker, .callEntry, .patch (successor 1)]).drainCooperative none 0).against
        obliging ()).map (·.1.1) = some (.error (.arityMismatch "tick" 1 0)) := by decide +kernel
  obtain ⟨⟨⟨result, vm'⟩, s⟩, hagainst, hresult⟩ := Option.map_eq_some_iff.mp hdrain
  cases hresult
  exact ⟨vm', Run.ends_of_against hagainst⟩

/-- **Scheduled callbacks stay callable** as long as the loaded module is replaced only by ones that
    support what is scheduled. Every timer that will fire and every callback of every sweep names a
    function of the loaded module without parameters, every read that is not dispatched, wherever it
    is, one with a single parameter. What a drain takes can be called, so none is passed over, and a
    drain ends with the number of callbacks there were or with the exception of one that threw. -/
theorem callbacks_stay_callable {vm : Vm ν} (h : Tended vm) :
    (∀ t ∈ vm.store.scheduler.pending, vm.takes 0 t.callback = true) ∧
    (∀ name ∈ vm.store.scheduler.mainLoop, vm.takes 0 name = true) ∧
    (∀ e ∈ vm.store.reactor.held [], vm.takes 1 e.2 = true) ∧
    (∀ hint wall,
      (∀ c ∈ (vm.store.scheduler.advance hint wall).takeDue.2, vm.takes 0 c.callback = true) ∧
      ∀ result vm', (vm.drainCooperative hint wall).Ends (result, vm') →
        Drained (vm.store.scheduler.advance hint wall).takeDue.2.length result) ∧
    (∀ c ∈ vm.store.reactor.takeReady.2, vm.takes 1 c.callback = true) ∧
    ∀ result vm', vm.drainReads.Ends (result, vm') →
      Drained vm.store.reactor.takeReady.2.length result := by
  have ha := h.attended
  have hscheduler := ha.served.scheduler
  refine ⟨fun t ht => hscheduler.timers t (List.mem_filter.mp ht).1, hscheduler.mainLoop,
    fun e he => ha.served.reads e (ha.served.account.table.mem_iff.mp he),
    fun hint wall => ⟨(Scheduler.within_takeDue (hscheduler.advance hint wall)).2,
      fun result vm' hr => (ha.drainCooperative hr).2⟩,
    fun c hc => ha.takes_ready hc, fun result vm' hr => (ha.drainReads hr).2⟩

/-- The ticker, when it has run its entry function. -/
def tickerMachine : Vm Unit := (create {} 0).after [.load ticker, .callEntry]

/-- The ticker runs on under a successor whose callback takes nothing. -/
theorem ticker_stays_callable :
    ∃ vm : Vm Unit, Tended vm ∧ vm.module? = some (successor 0) ∧
      vm.store.scheduler.mainLoop = ["tick"] ∧ vm.takes 0 "tick" = true ∧
      ∀ result vm', (vm.drainCooperative none 0).Ends (result, vm') → Drained 1 result := by
  have hstart : Tended tickerMachine := (Tended.create {} 0).after (by simp)
  have hsupports : Supports (successor 0) tickerMachine.store :=
    ⟨⟨by decide +kernel, by decide +kernel⟩, by decide +kernel⟩
  obtain ⟨report, hp⟩ := exists_run_eq_ok tickerMachine (Vm.patch (successor 0)) (by decide +kernel)
  have hends : (tickerMachine.perform (.patch (successor 0))).Ends (.patched (.ok report), _) :=
    ends_answering (attempt_eq_ok.mpr hp) .patched
  generalize (tickerMachine.attempt (Vm.patch (successor 0))).2 = vm at hp hends
  have hend : Tended vm := hstart.perform hends fun m r hm _ => by
    cases hm
    exact hsupports
  obtain ⟨-, hnames, -, hdrain, -⟩ := callbacks_stay_callable hend
  obtain ⟨old, image, inherited, -, hprepared, -, -, -, rfl⟩ := patch_eq_ok hp
  have hm : image.module = successor 0 := (Image.link_eq_ok (prepare_eq_ok.mp hprepared).2).1
  have htick : tickerMachine.store.scheduler.mainLoop = ["tick"] := by decide +kernel
  have hone : (tickerMachine.store.scheduler.advance none 0).takeDue.2.length = 1 := by
    decide +kernel
  refine ⟨_, hend, by rw [← hm]; rfl, htick, hnames "tick" ?_, fun result vm' hr => ?_⟩
  · show "tick" ∈ tickerMachine.store.scheduler.mainLoop
    rw [htick]
    exact List.mem_singleton_self _
  · rw [← hone]
    exact (hdrain none 0).2 result vm' hr

end Vm

end EmbeddedVm
