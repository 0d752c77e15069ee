import EmbeddedVm.Instance.Guards
import EmbeddedVm.Proofs.Instance.StageKeeping
import EmbeddedVm.Proofs.Instance.StartStop
import EmbeddedVm.Proofs.Vm.Soundness

/-!
# The stage and the machine agree

How far an instance has come is kept in its core, and the machine in a place of its own. Operations
of several regions change one and then the other, and return early where something fails; in between
the two do not fit. Between operations they do: there is a machine from initialization to
destruction, and a module in it once one is loaded.

The operations come one after the other, from any threads. The host sees to that with a `Docket`: an
operation begins when no other is under way, and its end is written down with the stage before and
after it. A thread with an operation under way knows the stage and the place of the machine exactly,
because nothing but the background reads runs beside it, and these change neither. So the protocol
is one of exact knowledge, and what is checked of an operation is its own code, branch by branch.
-/

namespace EmbeddedVm

variable {η ρ σ α β : Type}

/-- The place of the machine that goes with a stage. -/
def LifecycleState.slot : LifecycleState → Slot
  | uninitialized | destroyed => .empty
  | created | initialized => .unloaded
  | moduleLoaded | entryRan => .loaded

/-- **The stage of an instance agrees with its machine.** -/
structure Instance.Agrees (i : Instance η ρ) : Prop where
  empty : i.core.state = .uninitialized ∨ i.core.state = .destroyed ↔ i.runtime = .free none
  unloaded : i.core.state = .created ∨ i.core.state = .initialized ↔
    ∃ vm, i.runtime = .free (some vm) ∧ vm.isLoaded = false
  loaded : i.core.state = .moduleLoaded ∨ i.core.state = .entryRan ↔
    ∃ vm, i.runtime = .free (some vm) ∧ vm.isLoaded = true

namespace Instance.Sequence

open Staging

/-! ## 1. Operations one after the other -/

/-- What a thread asks of the instance. -/
inductive Request (η : Type) where
  | init (arguments : List String)
  | loadFile (path : String)
  | loadMemory (bytes : Bytes)
  | callEntry
  | setMode (mode : IntegrationMode)
  | enableHotReload (enable : Bool)
  | callFunction (name : String) (args : List Scalar)
  | callStatic (cls method : String) (args : List Scalar)
  | getStatic (cls field : String)
  | setStatic (cls field : String) (value : Scalar)
  | update (delta : Binary64)
  | process (asked : EventKind)
  | reloadFile (path : String)
  | reloadMemory (bytes : Bytes)
  | reloadCurrent
  | checkReload
  | registerNative (name : String) (handler : η)
  | collectGarbage
  | workerRegister
  | workerUnregister
  | destroy

/-- The operation a thread asks for. -/
def operation (host : Host η ρ σ) (me : ThreadId) : Request η → Operation η ρ σ Unit
  | .init arguments => init me arguments
  | .loadFile path => loadFile me path
  | .loadMemory bytes => loadMemory me bytes
  | .callEntry => callEntry host me
  | .setMode mode => setMode mode
  | .enableHotReload enable => enableHotReload enable
  | .callFunction name args => discard (callFunction host me name args)
  | .callStatic cls method args => discard (callStatic host me cls method args)
  | .getStatic cls field => discard (getStatic me cls field)
  | .setStatic cls field value => setStatic me cls field value
  | .update delta => update host me delta
  | .process asked => discard (process host me asked)
  | .reloadFile path => discard (reloadFile host me path)
  | .reloadMemory bytes => discard (reloadMemory host me bytes)
  | .reloadCurrent => discard (reloadCurrent host me)
  | .checkReload => discard (checkReload host me)
  | .registerNative name handler => registerNative me name handler
  | .collectGarbage => discard (collectGarbage host me)
  | .workerRegister => discard (workerRegister me)
  | .workerUnregister => discard (workerUnregister me)
  | .destroy => destroy me

/-- The stage after a load. A module that cannot be linked has been accepted. -/
def afterLoad (before : LifecycleState) : Except InstanceError Unit → LifecycleState
  | .ok _ => .moduleLoaded
  | .error (.moduleLoadFailed _) => .initialized
  | .error _ => before

/-- **The stage after an operation**, given how it ends. What fails leaves the stage, but for a
    module that is accepted and cannot be linked; and a destruction destroys, however it ends. -/
def Request.next (before : LifecycleState) :
    Request η → Except InstanceError Unit → LifecycleState
  | .init _, .ok _ => .created
  | .loadFile _, result | .loadMemory _, result => afterLoad before result
  | .callEntry, .ok _ => .entryRan
  | .destroy, _ => .destroyed
  | _, _ => before

/-- An operation that has ended, with the stages around it. -/
structure Entry (η : Type) where
  request : Request η
  before : LifecycleState
  result : Except InstanceError Unit
  after : LifecycleState

/-- How the host keeps operations apart. -/
structure Docket (η σ : Type) where
  /-- The thread whose operation is under way. -/
  active : Option ThreadId := none
  /-- The operations that have ended, the last one first. -/
  ended : List (Entry η) := []
  /-- Whatever else the host keeps. -/
  other : σ

/-- Waits until no operation is under way, and begins one; the stage it finds. -/
def enter (me : ThreadId) : Act η ρ (Docket η σ) LifecycleState :=
  Task.await fun w =>
    if w.session.active = none then
      some (w.stage, { w with session := { w.session with active := some me } })
    else none

/-- Ends an operation. -/
def leave (request : Request η) (before : LifecycleState) (result : Except InstanceError Unit) :
    Act η ρ (Docket η σ) Unit :=
  Task.change fun w => { w with
    session := { w.session with
      active := none
      ended := ⟨request, before, result, w.stage⟩ :: w.session.ended } }

/-- An operation in its turn. -/
def inTurn (host : Host η ρ (Docket η σ)) (me : ThreadId) (request : Request η) :
    Act η ρ (Docket η σ) Unit := do
  let before ← enter me
  let result ← (operation host me request).run
  leave request before result

/-- A change beside an operation: it leaves the core, the place of the machine and who is
    registered. -/
structure Beside (w w' : World η ρ (Docket η σ)) : Prop where
  core : w'.inst.core = w.inst.core
  slot : w'.slot = w.slot
  registered : ∀ t, w'.inst.threads.isRegistered t = w.inst.threads.isRegistered t
  session : w'.session = w.session

/-- **What a thread may start**: operations in their turn, background reads, and any code that
    concerns neither the core nor the machine. -/
inductive Starts (host : Host η ρ (Docket η σ)) (me : ThreadId) :
    Program (Work η) (World η ρ (Docket η σ)) → Prop where
  | request (r : Request η) : Starts host me (inTurn host me r).toProgram
  | reads : Starts host me (finishReads : Act η ρ (Docket η σ) Unit).toProgram
  | beside {t : Act η ρ (Docket η σ) Unit} (h : t.Keeps Beside) : Starts host me t.toProgram

/-- **Code of the host that does not call back**: it leaves the stage, the machine and the docket,
    and a source of events leaves the module in the machine it is given. -/
structure Detached (host : Host η ρ (Docket η σ)) : Prop where
  native : ∀ me handler args, (host.native me handler args).Keeps World.Steady
  reloaded : ∀ me label done, (host.reloaded me label done).Keeps World.Steady
  drain : ∀ me label vm hint, vm.isLoaded = true →
    ((host.source label).drain me vm hint).Yields World.Steady fun outcome =>
      outcome.2.isLoaded = true

/-! ## 2. The protocol -/

/-- How far a thread is with an operation. -/
inductive Phase where
  | outside
  /-- Its operation is under way and finds this stage and this place of the machine; `granted` if it
      knows that it may touch the machine. -/
  | inside (stage : LifecycleState) (slot : Slot) (granted : Bool)

/-- The stage and the place of the machine agree. -/
abbrev Phase.settled (stage : LifecycleState) : Phase := inside stage stage.slot false

/-- The stage and the place of the machine agree, at a stage. -/
def Phase.At (stage : LifecycleState) (φ : Phase) : Prop :=
  ∃ granted, φ = inside stage stage.slot granted

variable {w w' : World η ρ (Docket η σ)} {me : ThreadId} {host : Host η ρ (Docket η σ)}
  {s : LifecycleState} {slot : Slot} {granted : Bool}

/-- What a thread knows. -/
def Phase.Knows (me : ThreadId) : Phase → World η ρ (Docket η σ) → Prop
  | outside, w => w.session.active ≠ some me
  | inside stage slot granted, w =>
    w.session.active = some me ∧ w.stage = stage ∧ w.slot = slot ∧
      (granted = true → w.inst.checkAffinity me = .ok ())

/-- **What holds at any time.** -/
structure Orderly (w : World η ρ (Docket η σ)) : Prop where
  agrees : w.session.active = none → w.slot = w.stage.slot
  entries : ∀ e ∈ w.session.ended, e.after = e.request.next e.before e.result

/-- **The protocol of operations one after the other.** A thread may do what no other thread's
    knowledge speaks against. -/
def sequence : Protocol (Work η) (World η ρ (Docket η σ)) where
  Phase := Phase
  rest := .outside
  holds me φ w := Orderly w ∧ φ.Knows me w
  allowed me _ ψ w w' := (Orderly w' ∧ ψ.Knows me w') ∧
    ∀ (u : ThreadId) (χ : Phase), u ≠ me → χ.Knows u w → χ.Knows u w'
  posting _ _ := True
  own h := h.1
  others h _ _ hu hk := ⟨h.1.1, h.2 _ _ hu hk.2⟩

/-- While the operation of a thread is under way, no other thread knows more than that it is
    outside. -/
theorem knows_others (hactive : w.session.active = some me)
    (hactive' : w'.session.active = some me ∨ w'.session.active = none) (u : ThreadId) (χ : Phase)
    (hu : u ≠ me) (h : χ.Knows u w) : χ.Knows u w' := by
  cases χ with
  | outside =>
      change w'.session.active ≠ some u
      rcases hactive' with heq | heq
      · rw [heq]
        exact fun hme => hu (Option.some.inj hme).symm
      · rw [heq]
        exact nofun
  | inside stage slot granted =>
      have hme : some me = some u := hactive.symm.trans h.1
      exact absurd (Option.some.inj hme).symm hu

/-- A region of an operation, and what its thread knows after it. -/
theorem enters_inside (s' : LifecycleState) (slot' : Slot) (granted' : Bool) {Q : Phase → Prop}
    (hw : sequence.holds me (.inside s slot granted) w) (hsession : w'.session = w.session)
    (hstage : w'.stage = s') (hslot : w'.slot = slot')
    (hgranted : granted' = true → w'.inst.checkAffinity me = .ok ())
    (hq : Q (.inside s' slot' granted')) :
    sequence.Enters me (.inside s slot granted) w w' Q := by
  obtain ⟨horderly, hactive, -⟩ := hw
  have hactive' : w'.session.active = some me := by rw [hsession, hactive]
  refine ⟨.inside s' slot' granted', ⟨⟨⟨fun hnone => ?_, ?_⟩, ?_⟩, ?_⟩, hq⟩
  · cases hactive'.symm.trans hnone
  · rw [hsession]
    exact horderly.entries
  · exact ⟨hactive', hstage, hslot, hgranted⟩
  · exact knows_others hactive (.inl hactive')

/-- What leaves the stage and the machine leaves its thread in its phase. -/
theorem stays {t : Act η ρ (Docket η σ) α} {Q : α → Prop} (h : t.Yields World.Steady Q) :
    sequence.Leads me (.inside s slot false) t fun a ψ => ψ = .inside s slot false ∧ Q a := by
  refine h sequence me _ (fun w w' hw hsteady => ?_) fun _ => trivial
  obtain ⟨_, hallowed, rfl⟩ := enters_inside s slot false
    (Q := fun ψ => ψ = .inside s slot false) hw hsteady.session
    (hsteady.stage.trans hw.2.2.1) (hsteady.slot.trans hw.2.2.2.1) nofun rfl
  exact hallowed

theorem keeps {t : Act η ρ (Docket η σ) α} (h : t.Keeps World.Steady) :
    sequence.Leads me (.inside s slot false) t fun _ ψ => ψ = .inside s slot false :=
  (stays h.yields).mono fun _ _ hψ => hψ.1

/-- Looking at the instance, and what is known from it. -/
theorem look_leads {f : Instance η ρ → α} {Q : α → Phase → Prop}
    (h : ∀ w : World η ρ (Docket η σ), sequence.holds me (.inside s slot granted) w →
      ∃ granted', (granted' = true → w.inst.checkAffinity me = .ok ()) ∧
        Q (f w.inst) (.inside s slot granted')) :
    sequence.Leads me (.inside s slot granted) (look f : Act η ρ (Docket η σ) α) Q := by
  refine Protocol.leads_read fun w hw => ?_
  obtain ⟨granted', hgranted, hq⟩ := h w hw
  exact enters_inside s slot granted' hw rfl hw.2.2.1 hw.2.2.2.1 hgranted hq

/-- Setting the stage. -/
theorem setStage_leads (s' : LifecycleState) {f : Instance η ρ → Instance η ρ}
    (hstate : ∀ i, (f i).core.state = s') (hruntime : ∀ i, (f i).runtime = i.runtime)
    (haffinity : granted = true → ∀ i, (f i).checkAffinity me = i.checkAffinity me) :
    sequence.Leads me (.inside s slot granted) (change f : Act η ρ (Docket η σ) Unit)
      fun _ ψ => ψ = .inside s' slot granted := by
  refine leads_change fun w hw => ?_
  refine enters_inside s' slot granted hw rfl (hstate w.inst) ?_ (fun hg => ?_) rfl
  · exact (congrArg Exclusive.slot (hruntime w.inst)).trans hw.2.2.2.1
  · exact (haffinity hg w.inst).trans (hw.2.2.2.2 hg)

/-- An operation whose failure is recorded ends at the stage at which it ended before. -/
theorem tracked_at {op : Operation η ρ (Docket η σ) α} {φ : Phase}
    {f : Except InstanceError α → LifecycleState}
    (h : sequence.Leads me φ op.run fun result ψ => ψ.At (f result)) :
    sequence.Leads me φ (tracked op).run fun result ψ => ψ.At (f result) := by
  refine h.tryCatch (fun _ _ hψ => hψ) fun e ψ hψ => ?_
  obtain ⟨granted, rfl⟩ := hψ
  have hrecord : sequence.Leads me (.inside (f (.error e)) (f (.error e)).slot granted)
      (record e : Act η ρ (Docket η σ) Unit) fun _ χ => χ = .settled (f (.error e)) :=
    leads_change fun w hw => enters_inside _ _ false hw rfl hw.2.2.1 hw.2.2.2.1 nofun rfl
  refine hrecord.bindLift ?_
  rintro _ _ rfl
  exact Protocol.leads_pure ⟨false, rfl⟩

/-! ## 3. Operations that settle where they began -/

/-- An operation that leaves stage and machine as it finds them, however it ends. -/
def Settles (me : ThreadId) (s : LifecycleState) (op : Operation η ρ (Docket η σ) α) : Prop :=
  sequence.Leads me (.settled s) op.run fun _ ψ => ψ = .settled s

theorem settles_of_keeps {op : Operation η ρ (Docket η σ) α} (h : op.run.Keeps World.Steady) :
    Settles me s op := keeps h

theorem settles_throw (e : InstanceError) :
    Settles me s (throw e : Operation η ρ (Docket η σ) α) := Protocol.leads_pure rfl

theorem settles_pure (a : α) : Settles me s (pure a : Operation η ρ (Docket η σ) α) :=
  Protocol.leads_pure rfl

theorem Settles.bind {op : Operation η ρ (Docket η σ) α} {f : α → Operation η ρ (Docket η σ) β}
    (h : Settles me s op) (hf : ∀ a, Settles me s (f a)) : Settles me s (op >>= f) := by
  refine Protocol.Leads.bindOk h ?_ fun _ _ hψ => hψ
  rintro a _ rfl
  exact hf a

theorem Settles.discard {op : Operation η ρ (Docket η σ) α} (h : Settles me s op) :
    Settles me s (discard op) := h.bind fun _ => settles_pure ()

theorem Settles.tracked {op : Operation η ρ (Docket η σ) α} (h : Settles me s op) :
    Settles me s (tracked op) := by
  refine h.tryCatch (fun _ _ hψ => hψ) ?_
  rintro e _ rfl
  exact (settles_of_keeps (keeps_steady_change (fun _ => by rfl) fun _ => by rfl).lift).bind
    fun _ => settles_throw e

theorem settles_look (f : Instance η ρ → α) :
    Settles me s (lift (look f) : Operation η ρ (Docket η σ) α) :=
  settles_of_keeps (keeps_steady_look f).lift

theorem settles_check (f : Instance η ρ → Except InstanceError α) :
    Settles me s (.mk (look f) : Operation η ρ (Docket η σ) α) :=
  settles_of_keeps (keeps_steady_look f)

/-! ## 4. Using the machine -/

/-- A live instance has a machine. -/
theorem slot_of_isLive (h : s.isLive = true) : s.slot = .ofLoaded s.hasModule := by
  cases s with
  | uninitialized | destroyed => cases h
  | _ => rfl

/-- A machine in its place. -/
theorem eq_free_of_slot {runtime : Exclusive (Option (Vm η))} {loaded : Bool}
    (h : runtime.slot = .ofLoaded loaded) :
    ∃ vm, runtime = .free (some vm) ∧ vm.isLoaded = loaded := by
  cases runtime with
  | taken => cases loaded <;> cases h
  | free vm =>
      cases vm with
      | none => cases loaded <;> cases h
      | some vm =>
          refine ⟨vm, rfl, ?_⟩
          change Slot.ofLoaded vm.isLoaded = .ofLoaded loaded at h
          cases hv : vm.isLoaded <;> cases loaded <;> first | rfl | (rw [hv] at h; cases h)

theorem requireLive_eq_ok {core : Core} : requireLive core = .ok () ↔ core.state.isLive = true := by
  unfold requireLive
  cases core.state <;> simp [LifecycleState.isLive]

/-- **Who is let in finds a live instance**; and a live instance lets in whoever may touch the
    machine. -/
theorem requireAccess_leads :
    sequence.Leads me (.inside s slot granted)
      (requireAccess me : Operation η ρ (Docket η σ) Unit).run fun result ψ =>
        ψ = .inside s slot false ∧ match result with
          | .ok _ => s.isLive = true
          | .error _ => granted = true → s.isLive = false := by
  unfold requireAccess
  rw [ExceptT.run_mk]
  refine look_leads fun w hw => ?_
  refine ⟨false, nofun, rfl, ?_⟩
  have hstage : w.inst.core.state = s := hw.2.2.1
  cases hlive : requireLive w.inst.core with
  | ok _ =>
      have hs : s.isLive = true := hstage ▸ requireLive_eq_ok.mp hlive
      cases haffinity : w.inst.checkAffinity me with
      | ok _ => exact hs
      | error e =>
          refine fun hg => ?_
          cases haffinity.symm.trans (hw.2.2.2.2 hg)
  | error e =>
      refine fun _ => Bool.eq_false_iff.mpr fun hs => ?_
      rw [← hstage] at hs
      cases hlive.symm.trans (requireLive_eq_ok.mpr hs)

/-- **Nobody else has the machine**, so it is taken at once. -/
theorem acquire_leads (hlive : s.isLive = true) :
    sequence.Leads me (.settled s) (acquire me : Operation η ρ (Docket η σ) (Option (Vm η))).run
      fun result ψ => ψ = .inside s .taken false ∧
        ∃ vm, result = .ok (some vm) ∧ vm.isLoaded = s.hasModule := by
  have htake : sequence.Leads me (.settled s)
      (tryTake : Act η ρ (Docket η σ) (Exclusive (Option (Vm η)))) fun found ψ =>
        ψ = .inside s .taken false ∧ ∃ vm, found = .free (some vm) ∧ vm.isLoaded = s.hasModule := by
    refine leads_region fun w hw => ?_
    obtain ⟨vm, hvm, hloaded⟩ := eq_free_of_slot (hw.2.2.2.1.trans (slot_of_isLive hlive))
    rw [hvm]
    exact enters_inside s .taken false hw rfl hw.2.2.1 rfl nofun ⟨rfl, vm, rfl, hloaded⟩
  refine htake.bindLift ?_
  rintro _ _ ⟨rfl, vm, rfl, hloaded⟩
  exact Protocol.leads_pure ⟨rfl, vm, rfl, hloaded⟩

theorem putBack_leads (vm : Vm η) :
    sequence.Leads me (.inside s slot granted) (putBack (some vm) : Act η ρ (Docket η σ) Unit)
      fun _ ψ => ψ = .inside s (.ofLoaded vm.isLoaded) false :=
  leads_change fun _ hw => enters_inside s _ false hw rfl hw.2.2.1 rfl nofun rfl

theorem release_leads (vm : Vm η) :
    sequence.Leads me (.inside s slot granted) (release vm : Act η ρ (Docket η σ) Unit)
      fun _ ψ => ψ = .inside s (.ofLoaded vm.isLoaded) false := by
  refine (putBack_leads vm).bind ?_
  rintro _ _ rfl
  split
  · exact Protocol.leads_post trivial rfl
  · exact Protocol.leads_pure rfl

/-- **What becomes of the machine is what `f` makes of it.** -/
theorem withVm_leads {f : Vm η → Act η ρ (Docket η σ) (Except InstanceError α × Vm η)}
    {Q : Except InstanceError α → Bool → Prop}
    (hf : ∀ vm, vm.isLoaded = s.hasModule →
      (f vm).Yields World.Steady fun outcome => Q outcome.1 outcome.2.isLoaded) :
    sequence.Leads me (.inside s s.slot granted) (withVm me f).run fun result ψ =>
      (ψ = .settled s ∧ (∃ e, result = .error e) ∧ (granted = true → s.isLive = false)) ∨
      (s.isLive = true ∧ ∃ loaded, Q result loaded ∧ ψ = .inside s (.ofLoaded loaded) false) := by
  refine requireAccess_leads.bindOk ?_ ?_
  · rintro _ _ ⟨rfl, hlive⟩
    refine (acquire_leads hlive).bindOk ?_ ?_
    · rintro _ _ ⟨rfl, vm, hfound, hloaded⟩
      cases hfound
      refine (keeps (keeps_steady_change (fun _ => by rfl) fun _ => by rfl)).bindLift ?_
      rintro _ _ rfl
      refine (stays (hf vm hloaded)).bindLift ?_
      rintro ⟨result, vm'⟩ _ ⟨rfl, hq⟩
      refine (keeps (keeps_steady_change (fun _ => by rfl) fun _ => by rfl)).bindLift ?_
      rintro _ _ rfl
      refine (release_leads vm').bindLift ?_
      rintro _ _ rfl
      exact Protocol.leads_pure (.inr ⟨hlive, _, hq, rfl⟩)
    · rintro _ _ ⟨-, vm, hfound, -⟩
      cases hfound
  · rintro e _ ⟨rfl, hrefused⟩
    exact .inl ⟨rfl, ⟨e, rfl⟩, hrefused⟩

/-- What leaves the module in the machine settles. -/
theorem settles_withVm {f : Vm η → Act η ρ (Docket η σ) (Except InstanceError α × Vm η)}
    (hf : ∀ vm, vm.isLoaded = s.hasModule →
      (f vm).Yields World.Steady fun outcome => outcome.2.isLoaded = s.hasModule) :
    Settles me s (withVm me f) := by
  refine (withVm_leads (Q := fun _ loaded => loaded = s.hasModule) hf).mono ?_
  rintro _ _ (⟨rfl, -⟩ | ⟨hlive, _, rfl, rfl⟩)
  · rfl
  · rw [← slot_of_isLive hlive]

theorem settles_withLoadedVm {f : Vm η → Act η ρ (Docket η σ) (Except InstanceError α × Vm η)}
    (hf : ∀ vm, vm.isLoaded = true →
      (f vm).Yields World.Steady fun outcome => outcome.2.isLoaded = true) :
    Settles me s (withLoadedVm me f) := by
  have hlook : sequence.Leads me (.settled s)
      (look fun i => i.core.state.hasModule : Act η ρ (Docket η σ) Bool)
      fun hasModule ψ => ψ = .settled s ∧ hasModule = s.hasModule :=
    look_leads fun w hw => ⟨false, nofun, rfl, congrArg _ hw.2.2.1⟩
  refine hlook.bindLift ?_
  rintro _ _ ⟨rfl, rfl⟩
  split
  · exact settles_throw _
  · rename_i hloaded
    have hs : s.hasModule = true := by simpa using hloaded
    exact settles_withVm (by rwa [hs])

/-! ## 5. Operations on a loaded module -/

section Operations

variable (hd : Detached host)

include hd

/-- Byte code leaves the module in the machine. -/
theorem yields_run {run : Vm η → Run η (Except VmError α × Vm η)} {vm : Vm η}
    (hrun : ∀ result vm', (run vm).Ends (result, vm') → Vm.Changes vm vm')
    (hl : vm.isLoaded = true) :
    (runVm host me run vm).Yields World.Steady fun outcome => outcome.2.isLoaded = true :=
  (yields_runVm steadyAdmits (hd.native me) run vm).mono
    fun _ ⟨result, hends⟩ => (hrun result _ hends).isLoaded hl

theorem settles_run {run : Vm η → Run η (Except VmError α × Vm η)}
    (hrun : ∀ vm result vm', (run vm).Ends (result, vm') → Vm.Changes vm vm') :
    Settles me s (withLoadedVm me (runVm host me run)) :=
  settles_withLoadedVm fun vm hl => yields_run hd (hrun vm) hl

theorem yields_drainSource (source : Source η) {vm : Vm η} (hl : vm.isLoaded = true)
    (hint : Option Binary64) :
    ((source.resolve host).drain me vm hint).Yields World.Steady fun outcome =>
      outcome.2.isLoaded = true := by
  have hplay {run : Run η (Except VmError Nat × Vm η)}
      (hrun : ∀ result vm', run.Ends (result, vm') → Vm.Changes vm vm') :
      (play host me run).Yields World.Steady fun outcome => outcome.2.isLoaded = true :=
    (yields_play steadyAdmits (hd.native me) run).mono fun _ hends => (hrun _ _ hends).isLoaded hl
  cases source with
  | asyncIo => exact hplay fun _ _ => Vm.changes_drainReads
  | cooperative =>
      exact Task.keeps_now.yields.bind fun _ _ => hplay fun _ _ => Vm.changes_drainCooperative
  | host label => exact hd.drain me label vm hint hl

theorem yields_drainSources (asked : EventKind) (hint : Option Binary64) (sources : List (Source η))
    (total : Nat) {vm : Vm η} (hl : vm.isLoaded = true) :
    (drainSources host me asked hint sources total vm).Yields World.Steady fun outcome =>
      outcome.2.isLoaded = true := by
  induction sources generalizing total vm with
  | nil => exact Task.yields_pure hl
  | cons source rest ih =>
      refine (keeps_steady_read _).yields.bind fun isPresent _ => ?_
      split
      · refine (yields_drainSource hd source hl hint).bind fun (result, vm) hl => ?_
        cases result with
        | ok ran => exact ih _ hl
        | error e => exact Task.yields_pure hl
      · exact ih total hl

/-- A round of events passes over a machine without a module. -/
theorem settles_pump (asked : EventKind) (hint : Option Binary64) :
    Settles me s (pump host me asked hint) := by
  refine settles_withVm fun vm hvm => ?_
  split
  · rename_i hl
    rw [← hvm, hl]
    refine (keeps_await fun w a i hi => ?_).yields.bind fun sources _ => ?_
    · split at hi
      · cases hi
      · cases hi
        exact ⟨rfl, rfl, rfl⟩
    · refine (yields_drainSources hd asked hint sources 0 hl).bind fun outcome hl => ?_
      exact (keeps_steady_change (fun _ => by rfl) fun _ => by rfl).yields.bind
        fun _ _ => Task.yields_pure hl
  · exact Task.yields_pure hvm

theorem settles_update (delta : Binary64) : Settles me s (update host me delta) := by
  refine Settles.tracked ?_
  split
  · exact settles_throw _
  · exact (settles_pump hd _ _).discard

omit hd in
theorem settles_tryReload {source : Operation η ρ (Docket η σ) (Bytes × Option String)}
    (h : Settles me s source) : Settles me s (tryReload me source) := by
  refine (settles_check _).bind fun _ => (settles_look _).bind fun mode => ?_
  split
  · exact settles_throw _
  refine h.bind fun read => ?_
  obtain ⟨bytes, path⟩ := read
  dsimp only
  cases Module.load bytes with
  | error e => exact settles_throw _
  | ok m =>
      refine (settles_withLoadedVm fun vm hl => Task.yields_pure ?_).bind fun report => ?_
      · -- a replacement leaves a module in the machine, a refused one the module that was there
        exact Vm.of_attempt (Vm.allOrNothing_patch m) hl fun _ _ hp => (Vm.Change.patch hp).isLoaded hl
      cases path with
      | none => exact settles_pure _
      | some path =>
          refine (settles_of_keeps (keeps_steady_read _).lift).bind fun signature => ?_
          exact (settles_of_keeps
            (keeps_steady_change (fun _ => by rfl) fun _ => by rfl).lift).bind fun _ => settles_pure _

theorem settles_reloadWith {source : Operation η ρ (Docket η σ) (Bytes × Option String)}
    (h : Settles me s source) : Settles me s (reloadWith host me source) := by
  refine Settles.tracked ((settles_look _).bind fun live => ?_)
  split
  · exact settles_throw _
  refine Protocol.Leads.bindLift (settles_tryReload h) ?_
  rintro outcome _ rfl
  refine (settles_look _).bind fun listener => ?_
  cases listener with
  | none => exact Protocol.leads_pure rfl
  | some label =>
      exact (settles_of_keeps (hd.reloaded me label _).lift).bind fun _ => Protocol.leads_pure rfl

theorem settles_reloadFile (path : String) : Settles me s (reloadFile host me path) :=
  settles_reloadWith hd ((settles_of_keeps (keeps_steady_read _)).bind fun _ => settles_pure _)

theorem settles_reloadCurrent : Settles me s (reloadCurrent host me) := by
  refine (settles_look _).bind fun file => ?_
  cases file with
  | none => exact (settles_throw _).tracked
  | some path => exact settles_reloadFile hd path

theorem settles_checkReload : Settles me s (checkReload host me) := by
  refine (settles_look _).bind fun watched => ?_
  cases watched with
  | none => exact settles_pure _
  | some entry =>
      obtain ⟨path, previous⟩ := entry
      refine (settles_of_keeps (keeps_steady_read _).lift).bind fun current => ?_
      split
      · exact settles_pure _
      refine (settles_of_keeps
        (keeps_steady_change (fun _ => by rfl) fun _ => by rfl).lift).bind fun _ => ?_
      exact (settles_reloadFile hd path).discard.bind fun _ => settles_pure _

theorem settles_collectGarbage : Settles me s (collectGarbage host me) := by
  refine Settles.tracked (settles_withVm fun vm hvm => ?_)
  refine (yields_runVm steadyAdmits (hd.native me) _ vm).bind fun outcome hends => ?_
  obtain ⟨result, vm'⟩ := outcome
  obtain ⟨_, hends⟩ := hends
  have hvm' : vm'.isLoaded = s.hasModule := (Vm.isLoaded_collectGarbage hends).trans hvm
  cases result with
  | error e => exact Task.yields_pure hvm'
  | ok _ =>
      exact ((keeps_steady_read _).bind fun _ => Task.keeps_pure _).yields.bind
        fun _ _ => Task.yields_pure hvm'

end Operations

/-! ## 6. Operations that go on to another stage -/

theorem init_at (arguments : List String) :
    sequence.Leads me (.settled s) (init me arguments : Operation η ρ (Docket η σ) Unit).run
      fun result ψ => ψ.At ((Request.init arguments : Request η).next s result) := by
  refine tracked_at ((keeps Task.keeps_now).bindLift ?_)
  rintro wall _ rfl
  rw [ExceptT.run_mk]
  refine leads_region fun w hw => ?_
  have hstage : w.inst.core.state = s := hw.2.2.1
  have hsame (e : InstanceError) : sequence.Enters me (.settled s) w w
      (Phase.At ((Request.init arguments : Request η).next s (.error e))) :=
    enters_inside s s.slot false hw rfl hstage hw.2.2.2.1 nofun ⟨false, rfl⟩
  unfold initRegion
  split
  · split
    · exact hsame _
    · exact enters_inside .created .unloaded false hw rfl rfl rfl nofun ⟨false, rfl⟩
  · exact hsame _
  · exact hsame _

theorem requireLive_eq_error {core : Core} {e : InstanceError} (h : requireLive core = .error e) :
    ∃ reason, e = .notInitialized reason := by
  unfold requireLive at h
  split at h
  · cases h
    exact ⟨_, rfl⟩
  · cases h
    exact ⟨_, rfl⟩
  · cases h

theorem checkAffinity_eq_error {i : Instance η ρ} {e : InstanceError}
    (h : i.checkAffinity me = .error e) : ∃ reason, e = .wrongThread reason := by
  unfold checkAffinity at h
  dsimp only at h
  split at h
  · split at h
    · cases h
    · cases h
      exact ⟨_, rfl⟩
  · split at h
    · cases h
      exact ⟨_, rfl⟩
    · split at h
      · cases h
      · cases h
        exact ⟨_, rfl⟩

/-- **Who may load knows that it will be let in to the machine.** -/
theorem admitLoad_leads :
    sequence.Leads me (.settled s) (admitLoad me : Operation η ρ (Docket η σ) Unit).run
      fun result ψ => match result with
        | .ok _ => ψ = .inside s .unloaded true ∧ s.slot = .unloaded
        | .error e => ψ = .settled s ∧ afterLoad s (.error e) = s := by
  unfold admitLoad
  rw [ExceptT.run_mk]
  refine look_leads fun w hw => ?_
  have hstage : w.inst.core.state = s := hw.2.2.1
  cases hlive : requireLive w.inst.core with
  | error e =>
      obtain ⟨reason, rfl⟩ := requireLive_eq_error hlive
      exact ⟨false, nofun, rfl, rfl⟩
  | ok _ =>
      have hs := requireLive_eq_ok.mp hlive
      rw [hstage] at hs
      rw [hstage]
      cases s with
      | uninitialized | destroyed => cases hs
      | created | initialized =>
          cases haffinity : w.inst.checkAffinity me with
          | ok _ => exact ⟨true, fun _ => rfl, rfl, rfl⟩
          | error e =>
              obtain ⟨reason, rfl⟩ := checkAffinity_eq_error haffinity
              exact ⟨false, nofun, rfl, rfl⟩
      | moduleLoaded | entryRan => exact ⟨false, nofun, rfl, rfl⟩

theorem accept_leads :
    sequence.Leads me (.inside s .unloaded true)
      (change fun i => { i with core := { i.core with state := .initialized } } :
        Act η ρ (Docket η σ) Unit)
      fun _ ψ => ψ = .inside .initialized .unloaded true :=
  setStage_leads .initialized (fun _ => rfl) (fun _ => rfl) fun _ _ => rfl

theorem loaded_leads (path : Option String) (signature : Option (Nat × Nat)) :
    sequence.Leads me (.inside .initialized .loaded false)
      (change fun i => { i with
        core := { i.core with state := .moduleLoaded, loadedFile := path, signature } } :
        Act η ρ (Docket η σ) Unit)
      fun _ ψ => ψ = .settled .moduleLoaded :=
  setStage_leads .moduleLoaded (fun _ => rfl) (fun _ => rfl) nofun

theorem entered_leads :
    sequence.Leads me (.settled .moduleLoaded)
      (change fun i => { i with core := { i.core with state := .entryRan } } :
        Act η ρ (Docket η σ) Unit)
      fun _ ψ => ψ = .settled .entryRan :=
  setStage_leads .entryRan (fun _ => rfl) (fun _ => rfl) nofun

/-- What becomes of a machine that a module is loaded into. -/
def Linked (result : Except InstanceError Unit) (loaded : Bool) : Prop :=
  (result = .ok () ∧ loaded = true) ∨
    ∃ reason, result = .error (.moduleLoadFailed reason) ∧ loaded = false

theorem yields_link (m : Module) {vm : Vm η} (hl : vm.isLoaded = false) :
    (updateVm (fun e => .moduleLoadFailed e.message) (Vm.load m) vm :
      Act η ρ (Docket η σ) (Except InstanceError Unit × Vm η)).Yields World.Steady
      fun outcome => Linked outcome.1 outcome.2.isLoaded := by
  refine Task.yields_pure ?_
  show Linked ((vm.attempt (Vm.load m)).1.mapError _) (vm.attempt (Vm.load m)).2.isLoaded
  unfold Vm.attempt
  cases hload : (Vm.load m).run vm with
  | ok _ vm' =>
      obtain ⟨-, image, -, rfl⟩ := Vm.load_eq_ok hload
      exact .inl ⟨rfl, rfl⟩
  | error e vm' =>
      rw [Vm.allOrNothing_load m vm e vm' hload]
      exact .inr ⟨_, rfl, hl⟩

/-- **A load accepts a module, links it, and says so in that order.** -/
theorem loadBytes_at (bytes : Bytes) (path : Option String) :
    sequence.Leads me (.settled s) (loadBytes me bytes path : Operation η ρ (Docket η σ) Unit).run
      fun result ψ => ψ.At (afterLoad s result) := by
  refine admitLoad_leads.bindOk ?_ ?_
  · rintro _ _ ⟨rfl, hslot⟩
    cases Module.load bytes with
    | error e => exact Protocol.leads_pure ⟨true, hslot ▸ rfl⟩
    | ok m =>
        refine accept_leads.bindLift ?_
        rintro _ _ rfl
        refine (withVm_leads (s := .initialized) fun _ hl => yields_link m hl).bindOk ?_ ?_
        · rintro _ _ (⟨-, ⟨_, herror⟩, -⟩ | ⟨-, _, ⟨-, rfl⟩ | ⟨_, herror, -⟩, rfl⟩)
          · cases herror
          · refine (keeps (keeps_steady_read _)).bindLift ?_
            rintro signature _ rfl
            refine (loaded_leads path signature).bind ?_
            rintro _ _ rfl
            exact Protocol.leads_pure ⟨false, rfl⟩
          · cases herror
        · rintro e _ (⟨-, -, hrefused⟩ | ⟨-, _, ⟨hok, -⟩ | ⟨_, herror, rfl⟩, rfl⟩)
          · cases hrefused rfl
          · cases hok
          · cases herror
            exact ⟨false, rfl⟩
  · rintro e _ ⟨rfl, hsame⟩
    exact ⟨false, by rw [hsame]⟩

theorem loadFile_at (path : String) :
    sequence.Leads me (.settled s) (loadFile me path : Operation η ρ (Docket η σ) Unit).run
      fun result ψ => ψ.At (afterLoad s result) := by
  refine tracked_at ?_
  have hread : sequence.Leads me (.settled s)
      (readFile path : Operation η ρ (Docket η σ) Bytes).run fun result ψ =>
        ψ = .settled s ∧ ∀ e, result = .error e → afterLoad s (.error e) = s := by
    refine Protocol.leads_read fun w hw => ?_
    refine enters_inside s s.slot false hw rfl hw.2.2.1 hw.2.2.2.1 nofun ⟨rfl, fun e he => ?_⟩
    cases hfile : w.files.read path with
    | ok bytes =>
        rw [hfile] at he
        cases he
    | error problem =>
        rw [hfile] at he
        cases he
        rfl
  refine hread.bindOk ?_ ?_
  · rintro bytes _ ⟨rfl, -⟩
    exact loadBytes_at bytes (some path)
  · rintro e _ ⟨rfl, hsame⟩
    exact ⟨false, by rw [hsame e rfl]⟩

theorem admitEntry_leads :
    sequence.Leads me (.settled s) (admitEntry me : Operation η ρ (Docket η σ) Unit).run
      fun result ψ => ψ = .settled s ∧ (result.isOk = true → s = .moduleLoaded) := by
  unfold admitEntry
  rw [ExceptT.run_mk]
  refine look_leads fun w hw => ⟨false, nofun, rfl, fun hok => ?_⟩
  have hstage : w.inst.core.state = s := hw.2.2.1
  unfold requireLive at hok
  rw [hstage] at hok
  cases s with
  | moduleLoaded => rfl
  | _ => cases hok

theorem callEntry_at (hd : Detached host) :
    sequence.Leads me (.settled s) (callEntry host me).run
      fun result ψ => ψ.At ((Request.callEntry : Request η).next s result) := by
  refine tracked_at (admitEntry_leads.bindOk ?_ ?_)
  · rintro _ _ ⟨rfl, hloaded⟩
    obtain rfl : s = .moduleLoaded := hloaded rfl
    have hrun : Settles me .moduleLoaded
        (discard (withVm me (runVm host me (·.callEntry))) : Operation η ρ (Docket η σ) Unit) :=
      Settles.discard (settles_withVm fun _ hl => yields_run hd (fun _ _ => Vm.changes_callWith) hl)
    refine hrun.bindOk ?_ fun _ _ hψ => ⟨false, hψ⟩
    rintro _ _ rfl
    refine entered_leads.bind ?_
    rintro _ _ rfl
    exact Protocol.leads_pure ⟨false, rfl⟩
  · rintro _ _ ⟨rfl, -⟩
    exact ⟨false, rfl⟩

theorem dropVm_leads :
    sequence.Leads me (.settled s) (dropVm : Act η ρ (Docket η σ) Bool)
      fun _ ψ => ψ = .inside s .empty false := by
  refine leads_region fun w hw => ?_
  have hslot : w.inst.runtime.slot = s.slot := hw.2.2.2.1
  split
  · exact enters_inside s .empty false hw rfl hw.2.2.1 rfl nofun rfl
  · rename_i htaken
    rw [htaken] at hslot
    cases s <;> cases hslot

theorem destroy_at :
    sequence.Leads me (.settled s) (destroy me : Operation η ρ (Docket η σ) Unit).run
      fun _ ψ => ψ.At .destroyed := by
  have hreport (problems : List String) : sequence.Leads me (.settled .destroyed)
      (if !problems.isEmpty then throw (.destroyFailed ("; ".intercalate problems)) else pure () :
        Operation η ρ (Docket η σ) Unit).run fun _ ψ => ψ.At .destroyed := by
    have hat : Phase.At .destroyed (.settled .destroyed) := ⟨false, rfl⟩
    split
    · exact Protocol.leads_pure hat
    · exact Protocol.leads_pure hat
  refine tracked_at ?_
  have hstate : sequence.Leads me (.settled s) (state : Act η ρ (Docket η σ) LifecycleState)
      fun state ψ => ψ = .settled s ∧ state = s := by
    unfold state
    exact look_leads fun w hw => ⟨false, nofun, rfl, hw.2.2.1⟩
  refine hstate.bindLift ?_
  rintro found _ ⟨rfl, hfound⟩
  split
  · rename_i hend
    obtain rfl : s = .destroyed := hfound.symm.trans hend
    exact Protocol.leads_pure ⟨false, rfl⟩
  refine Protocol.Leads.bindLift (settles_of_keeps keeps_steady_shutdown) ?_
  rintro stopped _ rfl
  refine dropVm_leads.bindLift ?_
  rintro dropped _ rfl
  have hend : sequence.Leads me (.inside s .empty false)
      (change (destroyRegion me) : Act η ρ (Docket η σ) Unit) fun _ ψ => ψ = .settled .destroyed :=
    setStage_leads .destroyed (fun _ => rfl) (fun _ => rfl) nofun
  refine hend.bindLift ?_
  rintro _ _ rfl
  exact hreport _

/-! ## 7. Every operation -/

/-- What settles leaves the stage, however it ends. -/
theorem Settles.at {op : Operation η ρ (Docket η σ) Unit} {r : Request η} (h : Settles me s op)
    (hr : ∀ result, r.next s result = s) :
    sequence.Leads me (.settled s) op.run fun result ψ => ψ.At (r.next s result) :=
  h.mono fun result _ hψ => ⟨false, by rw [hr, hψ]⟩

/-- **Every operation ends at the stage that goes with its end, and stage and machine agree.** -/
theorem operation_at (hd : Detached host) (r : Request η) :
    sequence.Leads me (.settled s) (operation host me r).run
      fun result ψ => ψ.At (r.next s result) := by
  cases r with
  | init arguments => exact init_at arguments
  | loadFile path => exact loadFile_at path
  | loadMemory bytes => exact tracked_at (loadBytes_at bytes none)
  | callEntry => exact callEntry_at hd
  | setMode mode => exact (settles_of_keeps (keeps_setMode mode)).at fun _ => rfl
  | enableHotReload enable =>
      exact (settles_of_keeps (keeps_steady_enableHotReload enable)).at fun _ => rfl
  | callFunction name args =>
      exact (settles_run hd fun _ _ _ => Vm.changes_callWith).tracked.discard.at fun _ => rfl
  | callStatic cls method args =>
      exact (settles_run hd fun _ _ _ => Vm.changes_callWith).tracked.discard.at fun _ => rfl
  | getStatic cls field =>
      exact (settles_withLoadedVm fun _ hl => Task.yields_pure hl).tracked.discard.at fun _ => rfl
  | setStatic cls field value =>
      refine (settles_withLoadedVm fun vm hl => Task.yields_pure ?_).tracked.at fun _ => rfl
      exact Vm.of_attempt (Vm.allOrNothing_setStatic cls field value) hl
        fun _ _ hset => (Vm.Change.setStatic hset).isLoaded hl
  | update delta => exact (settles_update hd delta).at fun _ => rfl
  | process asked => exact (settles_pump hd asked none).tracked.discard.at fun _ => rfl
  | reloadFile path => exact (settles_reloadFile hd path).discard.at fun _ => rfl
  | reloadMemory bytes =>
      exact (settles_reloadWith hd (settles_pure _)).discard.at fun _ => rfl
  | reloadCurrent => exact (settles_reloadCurrent hd).discard.at fun _ => rfl
  | checkReload => exact (settles_checkReload hd).discard.at fun _ => rfl
  | registerNative name handler =>
      refine (settles_withVm fun vm hvm => Task.yields_pure ?_).tracked.at fun _ => rfl
      exact Option.isSome_map.trans hvm
  | collectGarbage => exact (settles_collectGarbage hd).discard.at fun _ => rfl
  | workerRegister =>
      refine Settles.at (Settles.discard (Settles.tracked ?_)) fun _ => rfl
      exact (settles_check _).bind fun _ => settles_of_keeps steadyAdmits.keeps_register.lift
  | workerUnregister =>
      refine Settles.at (Settles.discard (Settles.tracked (settles_of_keeps ?_))) fun _ => rfl
      exact steadyAdmits.keeps_unregister.bind fun _ => Task.keeps_pure _
  | destroy => exact destroy_at

/-- An operation begins when no other is under way, and finds that stage and machine agree. -/
theorem enter_leads :
    sequence.Leads me .outside (enter me : Act η ρ (Docket η σ) LifecycleState)
      fun before ψ => ψ = .settled before := by
  refine Protocol.leads_await fun w before w' hw he => ?_
  split at he
  · rename_i hnone
    cases he
    refine ⟨.settled w.stage, ⟨⟨⟨nofun, hw.1.entries⟩, rfl, rfl, hw.1.agrees hnone, nofun⟩,
      fun u χ hu hχ => ?_⟩, rfl⟩
    cases χ with
    | outside => exact fun hme => hu (Option.some.inj hme).symm
    | inside stage slot granted => cases hnone.symm.trans hχ.1
  · cases he

/-- It is written down with the stage at which it ends. -/
theorem leave_leads {r : Request η} {before : LifecycleState} {result : Except InstanceError Unit}
    {φ : Phase} (hφ : φ.At (r.next before result)) :
    sequence.Leads me φ (leave r before result : Act η ρ (Docket η σ) Unit)
      fun _ ψ => ψ = .outside := by
  obtain ⟨granted, rfl⟩ := hφ
  unfold leave Task.change
  refine Protocol.leads_atomically fun w hw => ?_
  obtain ⟨horderly, hactive, hstage, hslot, -⟩ := hw
  refine ⟨Phase.outside, ⟨⟨⟨fun _ => ?_, fun e he => ?_⟩, nofun⟩, ?_⟩, rfl⟩
  · exact hslot.trans (congrArg LifecycleState.slot hstage).symm
  · rcases List.mem_cons.mp he with rfl | he
    · exact hstage
    · exact horderly.entries e he
  · exact knows_others hactive (.inr rfl)

theorem inTurn_leads (hd : Detached host) (r : Request η) :
    sequence.Leads me .outside (inTurn host me r) fun _ ψ => ψ = .outside := by
  refine enter_leads.bind ?_
  rintro before _ rfl
  exact (operation_at hd r).bind fun result ψ hψ => leave_leads hψ

/-! ## 8. Beside an operation -/

theorem Beside.checkAffinity (h : Beside w w') (t : ThreadId) :
    w'.inst.checkAffinity t = w.inst.checkAffinity t := by
  unfold Instance.checkAffinity
  rw [h.core, h.registered]

theorem Beside.knows (h : Beside w w') {u : ThreadId} {χ : Phase} (hχ : χ.Knows u w) :
    χ.Knows u w' := by
  cases χ with
  | outside =>
      change w'.session.active ≠ some u
      rw [h.session]
      exact hχ
  | inside stage slot granted =>
      obtain ⟨hactive, hstage, hslot, hgranted⟩ := hχ
      refine ⟨h.session ▸ hactive, ?_, h.slot.trans hslot, fun hg => ?_⟩
      · exact (congrArg Core.state h.core).trans hstage
      · rw [h.checkAffinity]
        exact hgranted hg

/-- What runs beside operations tells its thread nothing and takes nothing from the others. -/
theorem beside_leads {t : Act η ρ (Docket η σ) α} (h : t.Keeps Beside) :
    sequence.Leads me .outside t fun _ ψ => ψ = .outside := by
  refine h sequence me .outside (fun w w' hw hb => ?_) fun _ => trivial
  have hstage : w'.stage = w.stage := congrArg Core.state hb.core
  refine ⟨⟨⟨fun hnone => ?_, ?_⟩, hb.knows hw.2⟩, fun u χ _ hχ => hb.knows hχ⟩
  · rw [hb.slot, hstage]
    exact hw.1.agrees (hb.session ▸ hnone)
  · rw [hb.session]
    exact hw.1.entries

/-- Background reads are a matter of the machine's reactor. -/
theorem keeps_finishReads_beside :
    (finishReads : Act η ρ (Docket η σ) Unit).Keeps Beside := by
  refine Task.keeps_await fun w _ w' henter => ?_
  split at henter
  · rename_i vm hvm
    cases henter
    exact ⟨rfl, (congrArg Exclusive.slot hvm).symm, fun _ => rfl, rfl⟩
  · cases henter
    exact ⟨rfl, rfl, fun _ => rfl, rfl⟩
  · cases henter

/-- **Whatever a thread starts follows the protocol.** -/
theorem Starts.follows (hd : Detached host) {p : Program (Work η) (World η ρ (Docket η σ))}
    (h : Starts host me p) : sequence.Follows me .outside p := by
  have hhalt {t : Act η ρ (Docket η σ) Unit}
      (ht : sequence.Leads me .outside t fun _ ψ => ψ = .outside) :
      sequence.Follows me .outside t.toProgram := ht _ fun _ _ hψ => hψ ▸ .halt
  cases h with
  | request r => exact hhalt (inTurn_leads hd r)
  | reads => exact hhalt (beside_leads keeps_finishReads_beside)
  | beside h => exact hhalt (beside_leads h)

/-! ## 9. Main statements -/

theorem slot_eq_empty {runtime : Exclusive (Option (Vm η))} :
    runtime.slot = .empty ↔ runtime = .free none := by
  cases runtime with
  | taken => exact ⟨nofun, nofun⟩
  | free vm =>
      cases vm with
      | none => exact ⟨fun _ => rfl, fun _ => rfl⟩
      | some vm =>
          refine ⟨fun h => ?_, nofun⟩
          change Slot.ofLoaded vm.isLoaded = .empty at h
          cases hl : vm.isLoaded <;> rw [hl] at h <;> cases h

theorem slot_eq_ofLoaded {runtime : Exclusive (Option (Vm η))} {loaded : Bool} :
    runtime.slot = .ofLoaded loaded ↔ ∃ vm, runtime = .free (some vm) ∧ vm.isLoaded = loaded := by
  refine ⟨eq_free_of_slot, ?_⟩
  rintro ⟨vm, rfl, rfl⟩
  rfl

/-- Agreement is that of the stage with the place of the machine. -/
theorem agrees_of_slot {i : Instance η ρ} (h : i.runtime.slot = i.core.state.slot) : i.Agrees where
  empty := by
    rw [← slot_eq_empty, h]
    cases i.core.state <;> decide
  unloaded := by
    rw [← slot_eq_ofLoaded, h]
    cases i.core.state <;> decide
  loaded := by
    rw [← slot_eq_ofLoaded, h]
    cases i.core.state <;> decide

/-- A world with an instance as it is created. -/
def freshWorld (settings : Settings) (claimed : Bool) (files : Files) (other : σ) :
    World η ρ (Docket η σ) :=
  { inst := .create settings, claimed, files, session := { other } }

/-- **Between operations the stage agrees with the machine, and every operation that ended left the
    stage that goes with its end**: from the creation of an instance on, whatever is asked of it, in
    whatever order and from whatever threads, one operation after the other. -/
theorem stage_agrees (hd : Detached host) {settings : Settings} {claimed : Bool} {files : Files}
    {other : σ} {c : Crew (Work η) (World η ρ (Docket η σ))}
    (h : Crew.Reached (Starts host) (freshWorld settings claimed files other) c) :
    (c.state.session.active = none → c.state.inst.Agrees) ∧
    ∀ e ∈ c.state.session.ended, e.after = e.request.next e.before e.result := by
  have hfresh : Orderly (freshWorld settings claimed files other : World η ρ (Docket η σ)) :=
    ⟨fun _ => rfl, fun _ he => absurd he List.not_mem_nil⟩
  have hidle (t : ThreadId) : Phase.outside.Knows t
      (freshWorld settings claimed files other : World η ρ (Docket η σ)) := fun hactive => by
    cases hactive
  have hkept : sequence.Kept c :=
    Protocol.kept_of_reached (fun t => ⟨hfresh, hidle t⟩) (fun _ _ hp => hp.follows hd) h
  obtain ⟨_, -, horderly, -⟩ := hkept .main
  exact ⟨fun hnone => agrees_of_slot (horderly.agrees hnone), horderly.entries⟩

theorem silent_detached : Detached (Driving.silentHost (Docket Empty Unit)) where
  native _ handler _ := handler.elim
  reloaded _ label _ := label.elim
  drain _ label _ _ := label.elim

section Runs

variable {starts : ThreadId → Program (Work η) (World η ρ (Docket η σ)) → Prop}
  {w₀ w w' : World η ρ (Docket η σ)}

/-- An operation in its turn, when no other is under way. -/
theorem inTurn_passes (me : ThreadId) (r : Request η) {result : Except InstanceError Unit}
    (hnone : w.session.active = none)
    (h : (operation host me r).run.Passes starts w₀ me
      { w with session := { w.session with active := some me } } result w') :
    (inTurn host me r).Passes starts w₀ me w ()
      { w' with
        session := { w'.session with
          active := none, ended := ⟨r, w.stage, result, w'.stage⟩ :: w'.session.ended } } := by
  have henter : (enter me : Act η ρ (Docket η σ) LifecycleState).Passes starts w₀ me w w.stage
      { w with session := { w.session with active := some me } } :=
    Task.passes_await (if_pos hnone)
  exact henter.bind (h.bind (Task.passes_change _))

theorem init_passes {arguments : List String} (wall : Nat) {i : Instance η ρ}
    (h : initRegion me arguments wall w.inst = (.ok (), i)) :
    (init me arguments : Operation η ρ (Docket η σ) Unit).run.Passes starts w₀ me w (.ok ())
      { w with inst := i } :=
  .tryCatch ((Task.passes_now wall).lift.bindOk (region_passes h))

/-- A module is loaded into an instance that has a machine and no module. -/
theorem loadMemory_passes {bytes : Bytes} {m : Module} {vm vm' : Vm η}
    (hstage : w.inst.core.state = .created) (haffinity : w.inst.checkAffinity me = .ok ())
    (hplace : w.inst.runtime = .free (some vm)) (hload : Module.load bytes = .ok m)
    (hlink : (Vm.load m).run vm = .ok () vm') (hidle : vm'.store.reactor.running.isEmpty = true) :
    (loadMemory me bytes : Operation η ρ (Docket η σ) Unit).run.Passes starts w₀ me w (.ok ())
      { w with
        inst := { w.inst with
          runtime := .free (some vm')
          owner := none
          core := { w.inst.core with
            state := .moduleLoaded, loadedFile := none, signature := none } } } := by
  have hadmitted : (admitLoad me : Operation η ρ (Docket η σ) Unit).run.Passes starts w₀ me w
      (.ok ()) w := by
    unfold admitLoad requireLive
    rw [ExceptT.run_mk]
    refine look_passes ?_
    rw [hstage]
    exact haffinity
  have hupdate (w : World η ρ (Docket η σ)) :
      (updateVm (fun e => .moduleLoadFailed e.message) (Vm.load m) vm :
        Act η ρ (Docket η σ) (Except InstanceError Unit × Vm η)).Passes starts w₀ me w
        (.ok (), vm') w := by
    unfold updateVm
    rw [Vm.attempt_eq_ok.mpr hlink]
    exact Task.passes_pure _
  refine Task.Passes.tryCatch (hadmitted.bindOk ?_)
  rw [hload]
  refine Task.Passes.bindOk (Task.passes_pure _) ((Task.passes_change _).lift.bindOk ?_)
  refine Task.Passes.bindOk (withVm_passes rfl (by exact haffinity) hplace (hupdate _) hidle) ?_
  refine (Task.passes_read rfl).lift.bindOk ?_
  exact (Task.passes_change _).lift

end Runs

/-- The world of an instance that the first thread has initialized and loaded a module into. -/
def loadedWorld : World Empty Unit (Docket Empty Unit) :=
  let i := (initRegion .main [] 0 (Instance.create {})).2
  { inst := { i with
      runtime := .free (some ((Vm.create {} 0).attempt (Vm.load Driving.idleModule)).2)
      core := { i.core with state := .moduleLoaded } }
    claimed := true
    session := {
      ended := [⟨.loadMemory Driving.idleModule.encode, .created, .ok (), .moduleLoaded⟩,
        ⟨.init [], .uninitialized, .ok (), .created⟩]
      other := () } }

theorem reached_loadedWorld :
    Crew.Reached (Starts (Driving.silentHost (Docket Empty Unit))) (freshWorld {} true {} ())
      ⟨loadedWorld, fun _ => .halt⟩ := by
  obtain ⟨_, hlink⟩ := Vm.exists_run_eq_ok (Vm.create {} 0 : Vm Empty)
    (Vm.load Driving.idleModule) (by decide +kernel)
  have hidle : ((Vm.create {} 0 : Vm Empty).attempt
      (Vm.load Driving.idleModule)).2.store.reactor.running.isEmpty = true := by decide +kernel
  have h : Crew.Reached (Starts (Driving.silentHost (Docket Empty Unit)))
      (freshWorld {} true {} ()) _ := .begin
  have h := (inTurn_passes .main (.init []) rfl (init_passes 0 rfl)).reached h (.request _)
  exact (inTurn_passes .main (.loadMemory Driving.idleModule.encode) rfl
    (loadMemory_passes rfl rfl rfl Driving.load_idleModule hlink hidle)).reached h (.request _)

/-- An instance is initialized, loads a module, refuses another one, runs the entry function, and is
    destroyed by a second thread. -/
theorem lifetime_agrees :
    ∃ c, Crew.Reached (Starts (Driving.silentHost (Docket Empty Unit)))
        (freshWorld {} true {} ()) c ∧
      c.state.session.ended.map (fun e => (e.result.isOk, e.before, e.after)) =
        [(true, .entryRan, .destroyed), (true, .moduleLoaded, .entryRan),
          (false, .moduleLoaded, .moduleLoaded), (true, .created, .moduleLoaded),
          (true, .uninitialized, .created)] ∧
      c.state.inst.Agrees := by
  have h := reached_loadedWorld
  have h := h.move (.start (t := .main) rfl (.request (.loadMemory [])))
  have h := h.move (.region (t := .main) rfl rfl)
  have h := h.move (.region (t := .main) rfl rfl)
  have h := h.move (.region (t := .main) rfl rfl)
  have h := h.move (.region (t := .main) rfl rfl)
  have h := h.move (.start (t := .main) rfl (.request .callEntry))
  have h := h.move (.region (t := .main) rfl rfl)
  have h := h.move (.region (t := .main) rfl rfl)
  have h := h.move (.region (t := .main) rfl rfl)
  have h := h.move (.region (t := .main) rfl rfl)
  have h := h.move (.region (t := .main) rfl rfl)
  have h := h.move (.region (t := .main) rfl rfl)
  have h := h.move (.region (t := .main) rfl rfl)
  have h := h.move (.region (t := .main) rfl rfl)
  have h := h.move (.region (t := .main) rfl rfl)
  have h := h.move (.start (t := .host 1) rfl (.request .destroy))
  have h := h.move (.region (t := .host 1) rfl rfl)
  have h := h.move (.region (t := .host 1) rfl rfl)
  have h := h.move (.region (t := .host 1) rfl rfl)
  have h := h.move (.region (t := .host 1) rfl rfl)
  have h := h.move (.region (t := .host 1) rfl rfl)
  have h := h.move (.region (t := .host 1) rfl rfl)
  have h := h.move (.region (t := .host 1) rfl rfl)
  exact ⟨_, h, rfl, (stage_agrees silent_detached h).1 rfl⟩

end Instance.Sequence

end EmbeddedVm
