import EmbeddedVm.Proofs.Machine.CallChain
import EmbeddedVm.Proofs.Vm.Drains

/-!
# The moments of a session

An operation of the host says what it ends with; what code does meanwhile it does not say. Here a
session is cut into moments. Between two calls there is the machine, and what the drain under way
has still in hand; during a call there is besides the machine that carries it out, before its next
instruction. `Goes` leads from a moment to the next one.

Everything that an operation comes to, it comes to by way of such moments (`Reachable.moment`), and
so does every machine in every call (`Reachable.moment_of_call`). The logbook follows them
(`Later.steps`), so what its steps keep holds at every moment.
-/

namespace EmbeddedVm

variable {ν : Type}

namespace Machine

variable {ctx : Context ν} {store : Store} {function : Nat} {args : List Scalar} {m : Machine}

/-- A function is entered with its arguments. -/
def Enters (ctx : Context ν) (store : Store) (function : Nat) (args : List Scalar)
    (m : Machine) : Prop :=
  ∃ m₀, (pushScalars { store } args : Run ν Machine).Ends m₀ ∧
    (enter ctx function).run m₀ = .ok () m

/-- Arguments leave the scheduler alone, -/
theorem scheduler_of_pushScalars : ∀ {args : List Scalar} {m m' : Machine},
    (m.pushScalars args : Run ν Machine).Ends m' → m'.store.scheduler = m.store.scheduler
  | [], m, m', h => by rw [Run.ends_done.mp h]
  | v :: rest, m, m', h => by
      obtain ⟨m₁, hv, h⟩ := Run.ends_bind.mp h
      obtain ⟨heap, w, rfl⟩ := pushScalar_ends hv
      have hrest := scheduler_of_pushScalars h
      exact hrest

/-- and so does a function that is entered, or is not. -/
theorem Enters.scheduler_eq (h : Enters ctx store function args m) :
    m.store.scheduler = store.scheduler := by
  obtain ⟨m₀, hp, he⟩ := h
  obtain ⟨g, hg⟩ := Reached.exists_function ⟨m₀, m, hp, he, .refl⟩
  obtain ⟨rfl, -, -⟩ := (after_enter m₀ hg).ok he
  exact scheduler_of_pushScalars hp

theorem eq_of_enter_error {g : LinkedFunction} (hg : ctx.image.functions[function]? = some g)
    {m' : Machine} {e : VmError} (h : (enter ctx function).run m = .error e m') : m' = m := by
  rw [run_enter m hg] at h
  split at h
  · cases h
    rfl
  · split at h
    · cases h
      rfl
    · cases h

end Machine

namespace Vm

open Logbook Machine

/-! ## 1. Moments -/

/-- **A moment of a session.** -/
structure Moment (ν : Type) where
  /-- The virtual machine; during a call, as it was when the call began. -/
  vm : Vm ν
  /-- What has become of the timers so far, and what the drain under way has in hand. -/
  log : Logbook Binary64
  /-- The machine that carries out a call. -/
  running : Option Machine := none

/-- What does not change during a call. -/
def context (vm : Vm ν) (image : Image ν) : Context ν := ⟨image, vm.options.maxCallDepth⟩

namespace Moment

/-- The scheduler, which belongs to the call if there is one. -/
def scheduler (μ : Moment ν) : Scheduler Binary64 :=
  match μ.running with
  | none => μ.vm.store.scheduler
  | some m => m.store.scheduler

/-- **What comes next.** -/
inductive Goes (μ : Moment ν) : Moment ν → Prop where
  /-- The host does something that leaves the scheduler alone. -/
  | host {vm' : Vm ν} (hidle : μ.running = none) (hhand : μ.log.inHand = [])
      (hc : Change μ.vm vm') (hs : vm'.store.scheduler = μ.vm.store.scheduler) :
    Goes μ ⟨vm', μ.log, none⟩
  /-- The host has a function called. -/
  | call {image : Image ν} {function : Nat} {args : List Scalar} {m : Machine}
      (hidle : μ.running = none) (hhand : μ.log.inHand = []) (hi : μ.vm.image = some image)
      (he : Enters (μ.vm.context image) μ.vm.store function args m) :
    Goes μ ⟨μ.vm, μ.log, some m⟩
  /-- A drain moves the clock and takes what is due. -/
  | take (hidle : μ.running = none) (hhand : μ.log.inHand = []) (hint : Option Binary64)
      (wall : Nat) :
    Goes μ ⟨μ.vm.withScheduler (μ.log.take hint wall).scheduler, μ.log.take hint wall, none⟩
  /-- The drain passes over a callback that the module does not serve, -/
  | pass {c : DueCallback} {rest : List DueCallback} (hidle : μ.running = none)
      (hhand : μ.log.inHand = c :: rest) (hmissing : μ.vm.serves c = false) :
    Goes μ ⟨μ.vm, μ.log.pass c rest, none⟩
  /-- or calls it, -/
  | callback {c : DueCallback} {rest : List DueCallback} {image : Image ν} {function : Nat}
      {m : Machine} (hidle : μ.running = none) (hhand : μ.log.inHand = c :: rest)
      (hi : μ.vm.image = some image) (hf : image.functionIndex? c.callback = some function)
      (he : Enters (μ.vm.context image) μ.vm.store function [] m) :
    Goes μ ⟨μ.vm, μ.log.call c rest, some m⟩
  /-- or cannot even enter it. -/
  | refused {c : DueCallback} {rest : List DueCallback} {image : Image ν} {function : Nat}
      {e : VmError} {store : Store} (hidle : μ.running = none) (hhand : μ.log.inHand = c :: rest)
      (hi : μ.vm.image = some image) (hf : image.functionIndex? c.callback = some function)
      (ho : (Machine.call (μ.vm.context image) μ.vm.store function []).Ends ⟨.error e, store⟩)
      (hs : store.scheduler = μ.vm.store.scheduler) :
    Goes μ ⟨({ μ.vm with store } : Vm ν).withScheduler (μ.log.call c rest).putBack.scheduler,
      (μ.log.call c rest).putBack, none⟩
  /-- Code carries out an instruction. -/
  | turn {image : Image ν} {m m' : Machine} {d : Logbook Binary64} (hrun : μ.running = some m)
      (hi : μ.vm.image = some image) (ht : Machine.Turn (μ.vm.context image) m m')
      (huses : Uses μ.log d) (hd : d.scheduler = m'.store.scheduler) : Goes μ ⟨μ.vm, d, some m'⟩
  /-- Its call returns, -/
  | returns {image : Image ν} {m : Machine} {v : Scalar} {store : Store} {d : Logbook Binary64}
      (hrun : μ.running = some m) (hi : μ.vm.image = some image)
      (hc : Closes (μ.vm.context image) m ⟨.ok v, store⟩) (huses : Uses μ.log d)
      (hd : d.scheduler = store.scheduler) : Goes μ ⟨{ μ.vm with store }, d, none⟩
  /-- or fails, and what the drain under way has still in hand is put back. -/
  | throws {image : Image ν} {m : Machine} {e : VmError} {store : Store} {d : Logbook Binary64}
      (hrun : μ.running = some m) (hi : μ.vm.image = some image)
      (hc : Closes (μ.vm.context image) m ⟨.error e, store⟩) (huses : Uses μ.log d)
      (hd : d.scheduler = store.scheduler) :
    Goes μ ⟨({ μ.vm with store } : Vm ν).withScheduler d.putBack.scheduler, d.putBack, none⟩

/-- What comes later. -/
def Later : Moment ν → Moment ν → Prop := Relation.ReflTransGen Goes

theorem Goes.single {μ μ' : Moment ν} (h : Goes μ μ') : Later μ μ' := Relation.ReflTransGen.single h

theorem Later.trans {μ₁ μ₂ μ₃ : Moment ν} (h : Later μ₁ μ₂) (h' : Later μ₂ μ₃) : Later μ₁ μ₃ :=
  Relation.ReflTransGen.trans h h'

/-- A machine that was just made. -/
def start (options : VmOptions) (wall : Nat) : Moment ν :=
  ⟨create options wall, opened (.empty wall), none⟩

/-- **The moments of all sessions.** -/
def Reached (μ : Moment ν) : Prop := ∃ options wall, Later (start options wall) μ

theorem Reached.later {μ μ' : Moment ν} (h : Reached μ) (h' : Later μ μ') : Reached μ' := by
  obtain ⟨options, wall, hstart⟩ := h
  exact ⟨options, wall, hstart.trans h'⟩

/-! ## 2. The logbook follows -/

/-- The logbook has the scheduler. -/
def Kept (μ : Moment ν) : Prop := μ.log.scheduler = μ.scheduler

/-- **From moment to moment the logbook makes steps**, and has the scheduler again. -/
theorem Goes.steps {μ μ' : Moment ν} (h : Goes μ μ') (hk : μ.Kept) :
    Steps μ.log μ'.log ∧ μ'.Kept := by
  unfold Kept scheduler at hk
  cases h with
  | host hidle hhand hc hs =>
      rw [hidle] at hk
      exact ⟨.refl, hk.trans hs.symm⟩
  | call hidle hhand hi he =>
      rw [hidle] at hk
      exact ⟨.refl, hk.trans he.scheduler_eq.symm⟩
  | take hidle hhand hint wall => exact ⟨(Step.take hhand hint wall).single, rfl⟩
  | pass hidle hhand hmissing =>
      rw [hidle] at hk
      exact ⟨(Step.pass hhand).single, hk⟩
  | callback hidle hhand hi hf he =>
      rw [hidle] at hk
      exact ⟨(Step.call hhand).single, hk.trans he.scheduler_eq.symm⟩
  | refused hidle hhand hi hf ho hs =>
      exact ⟨(Step.call hhand).single.trans Step.putBack.single, rfl⟩
  | turn hrun hi ht huses hd => exact ⟨huses.steps, hd⟩
  | returns hrun hi hc huses hd => exact ⟨huses.steps, hd⟩
  | throws hrun hi hc huses hd => exact ⟨huses.steps.trans Step.putBack.single, rfl⟩

theorem Later.steps {μ μ' : Moment ν} (h : Later μ μ') (hk : μ.Kept) :
    Steps μ.log μ'.log ∧ μ'.Kept := by
  induction h with
  | refl => exact ⟨.refl, hk⟩
  | tail _ hgoes ih =>
      obtain ⟨hsteps, hkept⟩ := hgoes.steps ih.2
      exact ⟨ih.1.trans hsteps, hkept⟩

/-- At every moment of a session, the logbook has come from an empty one and has the scheduler. -/
theorem Reached.steps {μ : Moment ν} (h : Reached μ) :
    (∃ wall, Steps (opened (.empty wall)) μ.log) ∧ μ.Kept := by
  obtain ⟨options, wall, hlater⟩ := h
  obtain ⟨hsteps, hkept⟩ := hlater.steps rfl
  exact ⟨⟨wall, hsteps⟩, hkept⟩

end Moment

/-! ## 3. Calls -/

open Moment

section

variable {vm vm' : Vm ν} {d : Logbook Binary64} {image : Image ν} {function : Nat}
  {args : List Scalar}

/-- **Every machine in a call is one of the moments after its function was entered.** -/
theorem Sound.later_reached (h : vm.Sound) (hi : vm.image = some image)
    (hd : d.scheduler = vm.store.scheduler) {m : Machine}
    (hm : Machine.Reached (vm.context image) vm.store function args m) :
    ∃ m₁ d', Enters (vm.context image) vm.store function args m₁ ∧
      Later ⟨vm, d, some m₁⟩ ⟨vm, d', some m⟩ ∧ Uses d d' ∧ d'.scheduler = m.store.scheduler := by
  obtain ⟨g, hg⟩ := hm.exists_function
  obtain ⟨m₀, m₁, hp, he, hturns⟩ := hm
  have henters : Enters (vm.context image) vm.store function args m₁ := ⟨m₀, hp, he⟩
  refine ⟨m₁, ?_⟩
  induction hturns with
  | refl => exact ⟨d, henters, .refl, .refl, hd.trans henters.scheduler_eq.symm⟩
  | tail hturns ht ih =>
      obtain ⟨d', -, hlater, huses, hd'⟩ := ih
      have hwf := Machine.Reached.wellFormed (h.image hi) (h.shapes hi) hg
        ⟨m₀, m₁, hp, he, hturns⟩
      obtain ⟨d'', huses', hd''⟩ :=
        (storeInvariant_uses _ d').turn (h.image hi) hwf ⟨d', .refl, hd'⟩ ht
      exact ⟨d'', henters, hlater.tail (.turn rfl hi ht huses' hd''), huses.trans huses', hd''⟩

/-- How a call ends: it did not begin and leaves the scheduler alone, or some moment of it is its
    last. -/
theorem Sound.call_cases (h : vm.Sound) (hi : vm.image = some image)
    (hd : d.scheduler = vm.store.scheduler) {o : Outcome}
    (ho : (Machine.call (vm.context image) vm.store function args).Ends o) :
    ((∃ e, o.result = .error e) ∧ o.store.scheduler = vm.store.scheduler) ∨
      ∃ m₁ m d₁ d₂, Enters (vm.context image) vm.store function args m₁ ∧
        Later ⟨vm, d, some m₁⟩ ⟨vm, d₁, some m⟩ ∧ Closes (vm.context image) m o ∧ Uses d₁ d₂ ∧
        d₂.scheduler = o.store.scheduler ∧ d₂.inHand = d.inHand := by
  cases over_of_ends ho with
  | missing _ | arity _ _ => exact .inl ⟨⟨_, rfl⟩, rfl⟩
  | refused hg hargs hp he =>
      rw [eq_of_enter_error hg he]
      exact .inl ⟨⟨_, rfl⟩, scheduler_of_pushScalars hp⟩
  | closed hg hm hc =>
      obtain ⟨m₁, d₁, henters, hlater, huses, hd₁⟩ := h.later_reached hi hd hm
      have hwf := hm.wellFormed (h.image hi) (h.shapes hi) hg
      obtain ⟨d₂, huses', hd₂⟩ :=
        (storeInvariant_uses _ d₁).closes (h.image hi) hwf ⟨d₁, .refl, hd₁⟩ hc
      exact .inr ⟨m₁, _, d₁, d₂, henters, hlater, hc, huses', hd₂,
        huses'.left.inHand.trans huses.left.inHand⟩

end

/-! ## 4. Operations -/

/-- A machine between two operations, and its logbook. -/
structure AtRest (vm : Vm ν) (d : Logbook Binary64) : Prop where
  inHand : d.inHand = []
  scheduler : d.scheduler = vm.store.scheduler

/-- A session comes from a machine to another. -/
def Comes (vm : Vm ν) (d : Logbook Binary64) (vm' : Vm ν) : Prop :=
  ∃ d', Later ⟨vm, d, none⟩ ⟨vm', d', none⟩ ∧ AtRest vm' d'

section

variable {vm vm' : Vm ν} {d : Logbook Binary64} {image : Image ν} {function : Nat}
  {args : List Scalar}

theorem Comes.refl (h : AtRest vm d) : Comes vm d vm := ⟨d, .refl, h⟩

theorem Comes.trans {vm₁ : Vm ν} (h : Comes vm d vm₁)
    (h' : ∀ d₁, AtRest vm₁ d₁ → Comes vm₁ d₁ vm') : Comes vm d vm' := by
  obtain ⟨d₁, hlater, hrest⟩ := h
  obtain ⟨d', hlater', hrest'⟩ := h' d₁ hrest
  exact ⟨d', hlater.trans hlater', hrest'⟩

/-- The host does something that leaves the scheduler alone. -/
theorem AtRest.comes (h : AtRest vm d) (hc : Change vm vm')
    (hs : vm'.store.scheduler = vm.store.scheduler) : Comes vm d vm' :=
  ⟨d, (Goes.host rfl h.inHand hc hs).single, h.inHand, h.scheduler.trans hs.symm⟩

/-- Where nothing is in hand, nothing is put back. -/
theorem putBack_of_none (h : d.inHand = []) : d.putBack.scheduler = d.scheduler := by
  show d.scheduler.defer d.inHand = d.scheduler
  rw [h]
  rfl

/-- **A call that the host asks for.** -/
theorem AtRest.comes_callIndex (h : AtRest vm d) (hs : vm.Sound) (hi : vm.image = some image)
    {result : Except VmError Scalar} (hr : (vm.callIndex image function args).Ends (result, vm')) :
    Comes vm d vm' := by
  obtain ⟨o, ho, -, rfl⟩ := callIndex_ends hr
  rcases hs.call_cases hi h.scheduler ho with
    ⟨-, hsame⟩ | ⟨m₁, m, d₁, d₂, henters, hlater, hcloses, huses, hd₂, hhand⟩
  · exact h.comes (.call hi ho) hsame
  · have hlater := (Goes.call (μ := ⟨vm, d, none⟩) rfl h.inHand hi henters).single.trans hlater
    obtain ⟨result, store⟩ := o
    cases result with
    | ok v =>
        exact ⟨d₂, hlater.tail (.returns rfl hi hcloses huses hd₂), hhand.trans h.inHand, hd₂⟩
    | error e =>
        have hback := putBack_of_none (hhand.trans h.inHand)
        have hend := hlater.tail (.throws rfl hi hcloses huses hd₂)
        rw [hback.trans hd₂] at hend
        exact ⟨d₂.putBack, hend, rfl, hback.trans hd₂⟩

theorem AtRest.comes_callWith (h : AtRest vm d) (hs : vm.Sound)
    {find : Image ν → Except VmError Nat} {result : Except VmError Scalar}
    (hr : (vm.callWith find args).Ends (result, vm')) : Comes vm d vm' := by
  rcases callWith_cases hr with rfl | ⟨image, function, hi, hcall⟩
  · exact .refl h
  · exact h.comes_callIndex hs hi hcall

/-- Reads are handed over by calls like any other. -/
theorem AtRest.comes_runReads {ready : List ReadCompletion} {ran : Nat}
    {result : Except VmError Nat} (h : AtRest vm d) (hs : vm.Sound)
    (hr : (vm.runReads ready ran).Ends (result, vm')) : Comes vm d vm' := by
  induction ready generalizing ran vm d with
  | nil =>
      cases Run.ends_done.mp hr
      exact .refl h
  | cons c rest ih =>
      unfold runReads at hr
      dsimp only at hr
      have hchange : Change vm { vm with store := { vm.store with
          reactor := vm.store.reactor.dispatched c.id } } :=
        .events vm.store.scheduler _
      refine (h.comes hchange rfl).trans fun d₁ h₁ => ?_
      split at hr
      · exact ih h₁ (hs.change hchange) hr
      · rename_i image function hc
        obtain ⟨⟨called, vm₁⟩, hcall, hr⟩ := Run.ends_bind.mp hr
        have hi := (callback_eq_some hc).1
        have hsound₁ := ((hs.change hchange).uses_callIndex hi hcall h₁.scheduler).1
        refine (h₁.comes_callIndex (hs.change hchange) hi hcall).trans fun d₂ h₂ => ?_
        cases called with
        | ok v => exact ih h₂ hsound₁ hr
        | error e =>
            cases Run.ends_done.mp hr
            exact h₂.comes (.events vm₁.store.scheduler _) rfl

theorem AtRest.comes_drainReads (h : AtRest vm d) (hs : vm.Sound) {result : Except VmError Nat}
    (hr : vm.drainReads.Ends (result, vm')) : Comes vm d vm' := by
  unfold drainReads at hr
  split at hr
  · have hchange : Change vm { vm with store := { vm.store with
        reactor := vm.store.reactor.takeReady.1 } } := .events vm.store.scheduler _
    exact (h.comes hchange rfl).trans fun d₁ h₁ => h₁.comes_runReads (hs.change hchange) hr
  · cases Run.ends_done.mp hr
    exact .refl h

/-- **A drain goes through what it has in hand.** -/
theorem comes_runDue {due : List DueCallback} {ran : Nat} {result : Except VmError Nat}
    (hs : vm.Sound) (hd : d.scheduler = vm.store.scheduler) (hhand : d.inHand = due)
    (hr : (vm.runDue due ran).Ends (result, vm')) : Comes vm d vm' := by
  induction due generalizing ran vm d with
  | nil =>
      cases Run.ends_done.mp hr
      exact .refl ⟨hhand, hd⟩
  | cons c rest ih =>
      unfold runDue at hr
      split at hr
      · rename_i hc
        obtain ⟨d', hlater, hrest⟩ := ih (d := d.pass c rest) hs hd rfl hr
        have hpass : Goes ⟨vm, d, none⟩ ⟨vm, d.pass c rest, none⟩ :=
          .pass rfl hhand (callback_eq_none.mp hc)
        exact ⟨d', hpass.single.trans hlater, hrest⟩
      · rename_i image function hc
        obtain ⟨hi, hf⟩ := callback_eq_some hc
        obtain ⟨⟨called, vm₁⟩, hcall, hr⟩ := Run.ends_bind.mp hr
        have hsound₁ := (hs.uses_callIndex hi hcall hd).1
        obtain ⟨o, ho, hresult, rfl⟩ := callIndex_ends hcall
        obtain ⟨oresult, store⟩ := o
        cases hresult
        rcases hs.call_cases (d := d.call c rest) hi hd ho with
          ⟨⟨e, he⟩, hsame⟩ | ⟨m₁, m, d₁, d₂, henters, hlater, hcloses, huses, hd₂, hhand₂⟩
        · cases he
          cases Run.ends_done.mp hr
          have hback : (d.call c rest).putBack.scheduler = store.scheduler.defer rest := by
            show d.scheduler.defer rest = _
            rw [hd, ← hsame]
          have hgoes : Goes ⟨vm, d, none⟩ _ := .refused rfl hhand hi hf ho hsame
          rw [hback] at hgoes
          exact ⟨_, hgoes.single, rfl, hback⟩
        · have hcallback : Goes ⟨vm, d, none⟩ _ := .callback rfl hhand hi hf henters
          have hlater := hcallback.single.trans hlater
          cases oresult with
          | ok v =>
              obtain ⟨d', hlater', hrest⟩ := ih hsound₁ hd₂ hhand₂ hr
              have hreturns := hlater.tail (.returns rfl hi hcloses huses hd₂)
              exact ⟨d', hreturns.trans hlater', hrest⟩
          | error e =>
              cases Run.ends_done.mp hr
              have hback : d₂.putBack.scheduler = store.scheduler.defer rest := by
                show d₂.scheduler.defer d₂.inHand = _
                rw [hd₂, hhand₂]
                rfl
              have hthrows := hlater.tail (.throws rfl hi hcloses huses hd₂)
              rw [hback] at hthrows
              exact ⟨_, hthrows, rfl, hback⟩

theorem AtRest.comes_drainCooperative (h : AtRest vm d) (hs : vm.Sound) {hint : Option Binary64}
    {wall : Nat} {result : Except VmError Nat}
    (hr : (vm.drainCooperative hint wall).Ends (result, vm')) : Comes vm d vm' := by
  unfold drainCooperative at hr
  split at hr
  · have htake : Goes ⟨vm, d, none⟩ _ := .take rfl h.inHand hint wall
    have hr : (runDue (d.take hint wall).inHand 0
        (vm.withScheduler (d.take hint wall).scheduler)).Ends (result, vm') := by
      unfold Logbook.take
      rw [h.scheduler]
      exact hr
    have hsound : (vm.withScheduler (d.take hint wall).scheduler).Sound :=
      hs.change (.events _ vm.store.reactor)
    obtain ⟨d', hlater, hrest⟩ := comes_runDue hsound rfl rfl hr
    exact ⟨d', htake.single.trans hlater, hrest⟩
  · cases Run.ends_done.mp hr
    exact .refl h

/-- **Every operation is a run of moments.** -/
theorem AtRest.comes_perform (h : AtRest vm d) (hs : vm.Sound) {op : Operation ν} {answer : Answer}
    (hop : (vm.perform op).Ends (answer, vm')) : Comes vm d vm' := by
  unfold perform at hop
  cases op with
  | load m =>
      refine of_answering (allOrNothing_load m) (Comes.refl h)
        (fun _ vm' hload => h.comes (.load hload) ?_) (Run.ends_done.mp hop)
      obtain ⟨-, image, -, rfl⟩ := load_eq_ok hload
      rfl
  | registerNative name handler =>
      cases Run.ends_done.mp hop
      exact h.comes (.registerNative name handler) rfl
  | callEntry | callFunction | callStatic =>
      exact of_answer (fun _ _ => h.comes_callWith hs) hop
  | getStatic | gcStats =>
      cases Run.ends_done.mp hop
      exact .refl h
  | setStatic cls field v =>
      refine of_answering (allOrNothing_setStatic cls field v) (Comes.refl h)
        (fun _ vm' hset => h.comes (.setStatic hset) ?_) (Run.ends_done.mp hop)
      obtain ⟨ci, fi, f, -, -, rfl⟩ := setStatic_eq_ok hset
      rfl
  | drainCooperative hint wall =>
      exact of_answer (fun _ _ => h.comes_drainCooperative hs) hop
  | sendRead | settleRead =>
      cases Run.ends_done.mp hop
      exact h.comes (.events vm.store.scheduler _) rfl
  | drainReads => exact of_answer (fun _ _ => h.comes_drainReads hs) hop
  | patch m =>
      refine of_answering (allOrNothing_patch m) (Comes.refl h)
        (fun _ vm' hp => h.comes (.patch hp) ?_) (Run.ends_done.mp hop)
      obtain ⟨old, image, inherited, -, -, -, -, -, rfl⟩ := patch_eq_ok hp
      rfl
  | collectGarbage =>
      refine of_answer (fun result vm' hr => ?_) hop
      unfold collectGarbage at hr
      cases hr with
      | pause stopped hr =>
          cases stopped with
          | none =>
              cases Run.ends_done.mp hr
              exact h.comes .collect rfl
          | some n =>
              cases Run.ends_done.mp hr
              exact .refl h

end

/-- **Every reachable machine is at some moment of a session**, -/
theorem Reachable.moment {vm : Vm ν} (h : Reachable vm) :
    ∃ d, Moment.Reached ⟨vm, d, none⟩ ∧ AtRest vm d := by
  induction h with
  | create options wall =>
      exact ⟨opened (.empty wall), ⟨options, wall, .refl⟩, rfl, rfl⟩
  | perform h hop ih =>
      obtain ⟨d, hreached, hrest⟩ := ih
      obtain ⟨d', hlater, hrest'⟩ := hrest.comes_perform h.sound hop
      exact ⟨d', hreached.later hlater, hrest'⟩

/-- **and so is every machine in a call of it.** -/
theorem Reachable.moment_of_call {vm : Vm ν} (h : Reachable vm) {image : Image ν}
    (hi : vm.image = some image) {function : Nat} {args : List Scalar} {m : Machine}
    (hm : Machine.Reached (vm.context image) vm.store function args m) :
    ∃ d, Moment.Reached ⟨vm, d, some m⟩ := by
  obtain ⟨d, hreached, hrest⟩ := h.moment
  obtain ⟨m₁, d', henters, hlater, -⟩ := h.sound.later_reached hi hrest.scheduler hm
  have hcall : Goes ⟨vm, d, none⟩ ⟨vm, d, some m₁⟩ := .call rfl hrest.inHand hi henters
  exact ⟨d', hreached.later (hcall.single.trans hlater)⟩

end Vm

end EmbeddedVm
