import EmbeddedVm.Proofs.Threads.Counters
import EmbeddedVm.Proofs.Threads.Keeping
import EmbeddedVm.Proofs.Threads.StopTheWorld

/-!
# Pauses inside pauses

The closure of a pause may ask for a pause again: the registry refuses a pause only to a thread that
is not its collector. Nothing happens then, since all others are quiet already, and so the closure
of the inner pause runs under the outer one. But whoever comes back from a closure gives the pause
back, and the registry does not count how many there are. From then on the outer closure runs with
no pause at all, and its own return may take another thread's.

So a pause is as good as its name up to the first return of an inner closure
(`nested_pauses_hold`), and not beyond (`inner_return_ends_pause`). The state has, beside the
registry, how deep each thread is in closures and whether an inner closure has returned; both are
written at the beginning and at the end of a closure and are read by nobody. A thread's phase is that
of the protocol of a single pause with its depth, and it is `lost` once an inner closure of its own
has returned.
-/

namespace EmbeddedVm.Threads.Nested

open ThreadRegistry (PauseStart)
open PausePhase (free announced established)

variable {κ α : Type} {me : ThreadId}

/-! ## 1. What threads do -/

/-- The registry, and what has become of closures. -/
structure World where
  registry : ThreadRegistry
  /-- How many closures a thread is in, one inside the other. -/
  depth : ThreadId → Nat := fun _ => 0
  /-- An inner closure has returned. -/
  torn : Bool := false

instance : HasThreads World where
  threads w := w.registry
  setThreads w registry := { w with registry }

/-- A closure of the thread `me` begins. -/
def World.enter (me : ThreadId) (w : World) : World :=
  { w with depth := fun t => if t = me then w.depth t + 1 else w.depth t }

/-- A closure of the thread `me` returns. -/
def World.leave (me : ThreadId) (w : World) : World :=
  { w with
    depth := fun t => if t = me then w.depth t - 1 else w.depth t
    torn := w.torn || decide (1 < w.depth me) }

/-- An operation, called by the thread `me`. -/
def call (me : ThreadId) : (op : Operation) → Task κ World op.Answer
  | .register => register me
  | .unregister => unregister me
  | .blockingBegin id => blockingBegin id
  | .blockingEnd id => blockingEnd id
  | .hold id => hold id
  | .release id => release id
  | .poll => poll me

/-- Code that calls operations and pauses, each with the results of those before it at hand. -/
inductive Code where
  | done
  | call (op : Operation) (next : op.Answer → Code)
  /-- Runs the closure while all other threads are paused. -/
  | stopTheWorld (closure : Code) (next : RegistryResult Unit → Code)

/-- The code, run by the thread `me`. -/
def Code.task (me : ThreadId) : Code → Task κ World Unit
  | done => pure ()
  | call op next => do
    let a ← Nested.call me op
    (next a).task me
  | stopTheWorld closure next => do
    let result ← paused me do
      Task.change (World.enter me)
      closure.task me
      Task.change (World.leave me)
    (next result).task me

/-- A thread with nothing left to do may start any code. -/
inductive Starts (me : ThreadId) : Program Empty World → Prop where
  | code (code : Code) : Starts me (code.task me fun _ => .halt)

/-! ## 2. The protocol -/

/-- How far a thread is with its pauses. -/
inductive Phase where
  /-- So many closures deep, and that far with a pause. -/
  | intact (depth : Nat) (pause : PausePhase)
  /-- A closure inside one of its closures has returned. -/
  | lost

/-- What a thread knows as long as no inner closure has returned. -/
def Phase.Holds (me : ThreadId) : Phase → World → Prop
  | intact depth pause, w =>
      w.depth me = depth ∧ pause.Holds me w.registry ∧ (0 < depth → pause = established)
  | lost, _ => False

/-- **What a thread knows**: the counters are right, and unless an inner closure has returned it is
    where its phase says. -/
def Phase.Knows (me : ThreadId) (φ : Phase) (w : World) : Prop :=
  w.registry.Accounted ∧ (w.torn = false → φ.Holds me w)

open Phase (intact lost)

/-- **The protocol of pauses inside pauses.** -/
def nested : Protocol Empty World where
  Phase := Phase
  rest := intact 0 free
  holds me φ w := φ.Knows me w
  allowed me _ ψ w w' := ψ.Knows me w' ∧ ∀ {u χ}, u ≠ me → Phase.Knows u χ w → Phase.Knows u χ w'
  posting _ _ := True
  own h := h.1
  others h := h.2

variable {w w' : World} {φ ψ : Phase} {p q : PausePhase} {n : Nat}

/-- What the protocol of one pause allows is allowed while no inner closure has returned. -/
theorem allowed_intact {r : ThreadRegistry} (hw : (intact n p).Knows me w) (hr : r.Accounted)
    (hinside : (0 < n → p = established) → 0 < n → q = established)
    (h : p.Holds me w.registry → Allowed me p q w.registry r) :
    nested.allowed me (intact n p) (intact n q) w { w with registry := r } := by
  refine ⟨⟨hr, fun htorn => ?_⟩, fun {u χ} hne hu => ⟨hr, fun htorn => ?_⟩⟩
  · obtain ⟨hdepth, hp, hclosure⟩ := hw.2 htorn
    exact ⟨hdepth, (h hp).own, hinside hclosure⟩
  · obtain ⟨-, hp, -⟩ := hw.2 htorn
    cases χ with
    | intact m pause =>
        obtain ⟨hdepth, hpause, hclosure⟩ := hu.2 htorn
        exact ⟨hdepth, (h hp).others hne hpause, hclosure⟩
    | lost => exact hu.2 htorn

/-- A thread whose pause is lost may do anything: nobody relies on a pause any more. -/
theorem allowed_lost (hw : lost.Knows me w) (hacc : w'.registry.Accounted)
    (htorn : w.torn = true → w'.torn = true) : nested.allowed me lost ψ w w' := by
  have hlost : w'.torn = true := htorn (by
    cases h : w.torn with
    | true => rfl
    | false => exact (hw.2 h).elim)
  have hall (u : ThreadId) (χ : Phase) : χ.Knows u w' :=
    ⟨hacc, fun hno => absurd (hlost.symm.trans hno) (by decide)⟩
  exact ⟨hall me ψ, fun _ _ => hall _ _⟩

/-! ## 3. Operations -/

/-- **A change by an operation**: it leaves a pause alone and the counters right, and closures have
    no part in it. -/
structure Calm (w w' : World) : Prop where
  steady : w.registry.Steady w'.registry
  accounted : w.registry.Accounted → w'.registry.Accounted
  depth : w'.depth = w.depth
  torn : w'.torn = w.torn

/-- It is allowed in every phase. -/
theorem Calm.allowed (h : Calm w w') (hw : φ.Knows me w) : nested.allowed me φ φ w w' := by
  have hacc := h.accounted hw.1
  cases φ with
  | lost => exact allowed_lost hw hacc h.torn.trans
  | intact n p =>
      obtain ⟨hsteady, -, hdepth, htorn⟩ := h
      obtain ⟨r', depth, torn⟩ := w'
      cases hdepth
      cases htorn
      exact allowed_intact hw hacc id fun hp => .of_steady hp hsteady

theorem calm_region {f : ThreadRegistry → α × ThreadRegistry}
    (hs : ∀ r : ThreadRegistry, r.Steady (f r).2)
    (ha : ∀ r : ThreadRegistry, r.Accounted → (f r).2.Accounted) :
    (region f : Task κ World α).Keeps Calm :=
  Task.keeps_atomically fun w => ⟨hs w.registry, ha w.registry, rfl, rfl⟩

theorem calm_admitted {f : ThreadRegistry → Option (α × ThreadRegistry)}
    (hs : ∀ {r r' : ThreadRegistry} {a}, f r = some (a, r') → r.Steady r')
    (ha : ∀ {r r' : ThreadRegistry} {a}, r.Accounted → f r = some (a, r') → r'.Accounted) :
    (Task.await fun w => admitted w f : Task κ World α).Keeps Calm := by
  refine Task.keeps_await fun w a w' he => ?_
  obtain ⟨⟨b, r⟩, hf, heq⟩ := Option.map_eq_some_iff.mp he
  cases heq
  exact ⟨hs hf, fun hacc => ha hacc hf, rfl, rfl⟩

theorem calm_look (f : ThreadRegistry → α) : (look f : Task κ World α).Keeps Calm := by
  unfold look Task.read
  exact Task.keeps_atomically fun _ => ⟨.refl, id, rfl, rfl⟩

theorem calm_poll : (poll me : Task κ World Unit).Keeps Calm := by
  refine (calm_look _).bind fun pending => ?_
  split
  · refine (calm_region (fun _ => ThreadRegistry.park_steady) fun _ h => h.park me).bind
      fun parked => ?_
    split
    · refine calm_admitted (fun {r r' _} he => ?_) fun {r r' _} hr he => ?_
      · obtain ⟨r'', hr'', heq⟩ := Option.map_eq_some_iff.mp he
        cases heq
        exact ThreadRegistry.unpark?_steady hr''
      · obtain ⟨r'', hr'', heq⟩ := Option.map_eq_some_iff.mp he
        cases heq
        exact hr.unpark? hr''
    · exact Task.keeps_pure _
  · exact Task.keeps_pure _

/-- **Every operation is calm.** -/
theorem calm_call (op : Operation) : (call me op : Task κ World op.Answer).Keeps Calm := by
  cases op with
  | register =>
      exact calm_admitted ThreadRegistry.register?_steady fun h => h.register?
  | unregister =>
      exact calm_region (fun _ => ThreadRegistry.unregister_steady) fun _ h => h.unregister me
  | blockingBegin id =>
      exact calm_region (fun _ => ThreadRegistry.blockingBegin_steady) fun _ h => h.blockingBegin id
  | blockingEnd id =>
      exact calm_admitted ThreadRegistry.blockingEnd?_steady fun h => h.blockingEnd?
  | hold id => exact calm_region (fun _ => ThreadRegistry.hold_steady) fun _ h => h.hold id
  | release id => exact calm_admitted ThreadRegistry.release?_steady fun h => h.release?
  | poll => exact calm_poll

/-- A calm task leaves its thread in its phase. -/
theorem leads_of_calm {t : Task Empty World α} (h : t.Keeps Calm) (φ : Phase) :
    nested.Leads me φ t fun _ ψ => ψ = φ :=
  h nested me φ (fun _ _ hw hc => hc.allowed hw) fun _ => trivial

/-! ## 4. Pauses -/

/-- The phases behind the regions of a pause, and what these regions have to allow. -/
structure Pausing (me : ThreadId) (φ : Phase) (begun : PauseStart → Phase)
    (after : RegistryResult Unit → Phase) : Prop where
  begin : ∀ w : World, φ.Knows me w → nested.allowed me φ (begun (w.registry.beginPause me).1) w
    { w with registry := (w.registry.beginPause me).2 }
  /-- A pause that is announced is established as soon as all others are quiet, -/
  establish : ∀ w : World, (begun .announced).Knows me w → w.registry.unresponsive me = 0 →
    nested.allowed me (begun .announced) (after (.ok ())) w w
  /-- or given up. -/
  abandon : ∀ w : World, (begun .announced).Knows me w → nested.allowed me (begun .announced)
    (after (w.registry.abandonPause me).1) w
    { w with registry := (w.registry.abandonPause me).2 }
  refused : begun .refused = φ
  established : begun .established = after (.ok ())
  failed : ∀ e, after (.error e) = φ

variable {begun : PauseStart → Phase} {after : RegistryResult Unit → Phase}

/-- The wait for the other threads. -/
theorem Pausing.awaitOthers (h : Pausing me φ begun after) (deadline : Nat) :
    nested.Leads me (begun .announced)
      (Task.awaitUntil (some deadline)
        (fun s => admitted s fun r => if r.unresponsive me = 0 then some (.ok (), r) else none)
        (fun s =>
          let (result, r) := (HasThreads.threads s).abandonPause me
          (result, HasThreads.setThreads s r)))
      fun result ψ => ψ = after result := by
  refine Protocol.leads_awaitUntil (fun w result w' hw he => ?_) fun w hw =>
    ⟨_, h.abandon w hw, rfl⟩
  obtain ⟨⟨b, r⟩, hf, heq⟩ := Option.map_eq_some_iff.mp he
  dsimp only at hf
  split at hf
  · rename_i hzero
    cases hf
    cases heq
    exact ⟨_, h.establish w hw hzero, rfl⟩
  · cases hf

/-- The wait for the pause of another thread. -/
theorem Pausing.awaitTurn (h : Pausing me φ begun after) (deadline : Nat) :
    nested.Leads me φ
      (Task.awaitUntil (some deadline)
        (fun s => admitted s fun r => match r.beginPause me with
          | (.refused, _) => none
          | (begun, r) => some (begun, r))
        (fun s =>
          let r := (HasThreads.threads s).refusePause.2
          (.refused, HasThreads.setThreads s r)))
      fun start ψ => ψ = begun start := by
  refine Protocol.leads_awaitUntil (fun w start w' hw he => ?_) fun w hw => ?_
  · obtain ⟨⟨b, r⟩, hf, heq⟩ := Option.map_eq_some_iff.mp he
    have hallowed := h.begin w hw
    dsimp only at hf
    split at hf
    · cases hf
    · rename_i hne hr
      cases hf
      cases heq
      rw [show w.registry.beginPause me = _ from hr] at hallowed
      exact ⟨_, hallowed, rfl⟩
  · have hcalm : Calm w { w with registry := w.registry.refusePause.2 } :=
      ⟨ThreadRegistry.refusePause_steady, fun h => h.refusePause, rfl, rfl⟩
    exact ⟨φ, hcalm.allowed hw, h.refused.symm⟩

/-- **A pause leads from phase to phase as its regions do.** -/
theorem Pausing.leads (h : Pausing me φ begun after) :
    nested.Leads me φ (pause me) fun result ψ => ψ = after result := by
  unfold pause
  refine Protocol.Leads.bind (P := nested) (Q := fun _ ψ => ψ = φ)
    (Protocol.leads_now fun _ => rfl) ?_
  rintro start _ rfl
  refine (leads_of_calm (calm_look _) _).bind ?_
  rintro timeout _ rfl
  refine Protocol.Leads.bind (P := nested) (Q := fun start ψ => ψ = begun start)
    (Protocol.leads_atomically fun w hw => ⟨_, h.begin w hw, rfl⟩) ?_
  rintro first _ rfl
  cases first with
  | established => exact Protocol.leads_pure h.established
  | announced => exact h.awaitOthers _
  | refused =>
      refine Protocol.Leads.bind (P := nested) (Q := fun start ψ => ψ = begun start)
        (h.refused.symm ▸ h.awaitTurn _) ?_
      rintro second _ rfl
      cases second with
      | established => exact Protocol.leads_pure h.established
      | announced => exact h.awaitOthers _
      | refused => exact Protocol.leads_pure (h.refused.trans (h.failed _).symm)

/-! ### A first pause, one inside an intact one, and one inside a lost one -/

/-- A first pause. -/
theorem pausing_free : Pausing me (intact 0 free)
    (fun start => intact 0 (phaseOf start)) (fun result => intact 0 (phaseAfter result)) where
  begin w hw := by
    refine allowed_intact hw (hw.1.beginPause me) (fun _ => nofun) fun hp => ?_
    obtain ⟨ψ, hallowed, rfl⟩ := beginPause_enters hp
    exact hallowed
  establish w hw hzero := allowed_intact hw hw.1 (fun _ => nofun) fun hp => .establish hp hzero
  abandon w hw := by
    refine allowed_intact hw (hw.1.abandonPause me) (fun _ => nofun) fun hp => ?_
    unfold ThreadRegistry.abandonPause
    split
    · rename_i hzero
      exact .establish hp hzero
    · exact .finish hp rfl rfl
  refused := rfl
  established := rfl
  failed _ := rfl

/-- **A thread that has its pause is given another one at once**, and nothing changes. -/
theorem beginPause_of_established {r : ThreadRegistry} (hr : r.Accounted)
    (h : established.Holds me r) : r.beginPause me = (.established, r) := by
  have hpending : r.pausePending = true := by rw [hr.pending, h.1]; rfl
  have hblocks : r.blocks me = false := by
    unfold ThreadRegistry.blocks
    rw [h.1]
    exact bne_self_eq_false me
  obtain ⟨pauseTimeout, threads, collector, pausePending, outstanding, stalled⟩ := r
  cases hpending
  cases h.1
  unfold ThreadRegistry.beginPause
  rw [hblocks, if_neg Bool.false_ne_true]
  exact congrArg (·, _) (if_pos h.2)

/-- A pause inside an intact one. -/
theorem pausing_established : Pausing me (intact n established)
    (fun _ => intact n established) (fun _ => intact n established) where
  begin w hw := allowed_intact hw (hw.1.beginPause me) id fun hp => by
    rw [beginPause_of_established hw.1 hp]
    exact .of_steady hp .refl
  establish w hw _ := allowed_intact hw hw.1 id fun hp => .of_steady hp .refl
  abandon w hw := allowed_intact hw (hw.1.abandonPause me) id fun hp => by
    unfold ThreadRegistry.abandonPause
    rw [hp.2]
    exact .of_steady hp .refl
  refused := rfl
  established := rfl
  failed _ := rfl

/-- A pause inside a lost one. -/
theorem pausing_lost : Pausing me lost (fun _ => lost) (fun _ => lost) where
  begin _ hw := allowed_lost hw (hw.1.beginPause me) id
  establish _ hw _ := allowed_lost hw hw.1 id
  abandon _ hw := allowed_lost hw (hw.1.abandonPause me) id
  refused := rfl
  established := rfl
  failed _ := rfl

/-! ## 5. Closures -/

/-- What happens to the closures of one thread is of no matter to the others. -/
theorem knows_others (w w' : World) (hreg : w'.registry = w.registry)
    (hdepth : ∀ u, u ≠ me → w'.depth u = w.depth u) (htorn : w'.torn = false → w.torn = false)
    {u : ThreadId} {χ : Phase} (hne : u ≠ me) (hu : χ.Knows u w) : χ.Knows u w' := by
  refine ⟨hreg ▸ hu.1, fun h => ?_⟩
  have hχ := hu.2 (htorn h)
  cases χ with
  | intact m pause => exact ⟨(hdepth u hne).trans hχ.1, hreg ▸ hχ.2.1, hχ.2.2⟩
  | lost => exact hχ

theorem allowed_enter (hw : (intact n established).Knows me w) :
    nested.allowed me (intact n established) (intact (n + 1) established) w (w.enter me) := by
  refine ⟨⟨hw.1, fun htorn => ?_⟩, fun hne hu =>
    knows_others w (w.enter me) rfl (fun _ h => if_neg h) id hne hu⟩
  obtain ⟨hdepth, hp, -⟩ := hw.2 htorn
  exact ⟨(if_pos rfl).trans (congrArg (· + 1) hdepth), hp, fun _ => rfl⟩

theorem torn_of_leave (h : (w.leave me).torn = false) : w.torn = false :=
  (Bool.or_eq_false_iff.mp h).1

/-- The outermost closure returns, and its pause is still there. -/
theorem allowed_leave_last (hw : (intact 1 established).Knows me w) :
    nested.allowed me (intact 1 established) (intact 0 established) w (w.leave me) := by
  refine ⟨⟨hw.1, fun htorn => ?_⟩, fun hne hu =>
    knows_others w (w.leave me) rfl (fun _ h => if_neg h) torn_of_leave hne hu⟩
  obtain ⟨hdepth, hp, -⟩ := hw.2 (torn_of_leave htorn)
  exact ⟨(if_pos rfl).trans (congrArg (· - 1) hdepth), hp, nofun⟩

/-- **An inner closure returns**, and from then on nothing is relied upon. -/
theorem allowed_leave_inner (hw : (intact (n + 2) established).Knows me w) :
    nested.allowed me (intact (n + 2) established) lost w (w.leave me) := by
  refine ⟨⟨hw.1, fun htorn => ?_⟩, fun hne hu =>
    knows_others w (w.leave me) rfl (fun _ h => if_neg h) torn_of_leave hne hu⟩
  have hdepth := (Bool.or_eq_false_iff.mp htorn).2
  rw [(hw.2 (torn_of_leave htorn)).1] at hdepth
  exact of_decide_eq_false hdepth (Nat.le_add_left 2 n)

theorem torn_leave (h : w.torn = true) : (w.leave me).torn = true := by
  unfold World.leave
  rw [h]
  rfl

/-- The pause is given back. -/
theorem allowed_resume (hw : (intact 0 established).Knows me w) :
    nested.allowed me (intact 0 established) (intact 0 free) w
      { w with registry := w.registry.endPause } :=
  allowed_intact hw hw.1.endPause (fun _ => nofun) fun hp => .finish hp.1 rfl rfl

/-- A region that changes the state in a way that is allowed. -/
theorem leads_change {f : World → World} (h : ∀ w, φ.Knows me w → nested.allowed me φ ψ w (f w)) :
    nested.Leads me φ (Task.change f) fun _ χ => χ = ψ :=
  Protocol.leads_atomically fun w hw => ⟨ψ, h w hw, rfl⟩

/-- The pause is given back, if there is one. -/
theorem leads_resume (h : ∀ w, φ.Knows me w →
    nested.allowed me φ ψ w { w with registry := w.registry.endPause }) :
    nested.Leads me φ resume fun _ χ => χ = ψ := by
  unfold resume region
  exact Protocol.leads_atomically fun w hw => ⟨ψ, h w hw, rfl⟩

/-- The phases in which code runs. -/
inductive Phase.Runs : Phase → Prop where
  | free : Runs (intact 0 free)
  | inside (n : Nat) : Runs (intact (n + 1) established)
  | lost : Runs lost

/-- Where code ends that runs in a phase: there, or without the pause that it had. -/
inductive Phase.Ends : Phase → Phase → Prop where
  | same (φ : Phase) : Ends φ φ
  | torn (n : Nat) : Ends (intact (n + 1) established) lost

theorem Phase.Ends.runs (h : φ.Ends ψ) (hφ : φ.Runs) : ψ.Runs := by
  cases h with
  | same => exact hφ
  | torn => exact .lost

theorem Phase.Ends.trans {χ : Phase} (h : φ.Ends ψ) (h' : ψ.Ends χ) : φ.Ends χ := by
  cases h with
  | same => exact h'
  | torn n => cases h'; exact .torn n

/-- Something that is done under a pause. -/
theorem paused_leads {body : Task Empty World α} {Q R : Phase → Prop} (h : Pausing me φ begun after)
    (hbody : nested.Leads me (after (.ok ())) body fun _ ψ => Q ψ)
    (hresume : ∀ ψ, Q ψ → nested.Leads me ψ resume fun _ χ => R χ) (hfail : R φ) :
    nested.Leads me φ (paused me body) fun _ χ => R χ := by
  unfold paused
  refine h.leads.bind ?_
  rintro result _ rfl
  cases result with
  | error e => exact Protocol.leads_pure ((h.failed e).symm ▸ hfail)
  | ok _ =>
      refine hbody.bind fun a ψ hψ => ?_
      exact (hresume ψ hψ).bind fun _ χ hχ => Protocol.leads_pure hχ

/-- **A pause with a closure**, wherever it is asked for: a first one leaves its thread with no pause,
    and one inside another leaves it without the other. -/
theorem stopTheWorld_leads_back {closure : Task Empty World Unit}
    (hclosure : ∀ φ : Phase, φ.Runs → nested.Leads me φ closure fun _ ψ => φ.Ends ψ)
    (hφ : φ.Runs) :
    nested.Leads me φ (paused me do
      Task.change (World.enter me)
      closure
      Task.change (World.leave me)) fun _ ψ => φ.Ends ψ := by
  -- a thread that has lost its pause keeps its peace in every region
  have hleave : nested.Leads me lost (Task.change (World.leave me)) fun _ χ => χ = lost :=
    leads_change fun w hw => allowed_lost hw hw.1 torn_leave
  have hresume (ψ : Phase) : nested.Leads me lost resume fun _ χ => χ = ψ :=
    leads_resume fun w hw => allowed_lost hw hw.1.endPause id
  cases hφ with
  | free =>
      refine paused_leads (Q := fun ψ => ψ = intact 0 established ∨ ψ = lost) pausing_free ?_ ?_
        (.same _)
      · refine (leads_change fun w hw => allowed_enter hw).bind ?_
        rintro _ _ rfl
        refine (hclosure _ (.inside 0)).bind fun _ ψ hψ => ?_
        cases hψ with
        | same => exact (leads_change fun w hw => allowed_leave_last hw).mono fun _ _ => .inl
        | torn => exact hleave.mono fun _ _ => .inr
      · rintro ψ (rfl | rfl)
        · exact (leads_resume fun w hw => allowed_resume hw).mono fun _ _ h => h ▸ .same _
        · exact (hresume _).mono fun _ _ h => h ▸ .same _
  | inside n =>
      refine paused_leads (Q := fun ψ => ψ = lost) pausing_established ?_ ?_ (.same _)
      · refine (leads_change fun w hw => allowed_enter hw).bind ?_
        rintro _ _ rfl
        refine (hclosure _ (.inside (n + 1))).bind fun _ ψ hψ => ?_
        cases hψ with
        | same => exact leads_change fun w hw => allowed_leave_inner hw
        | torn => exact hleave
      · rintro _ rfl
        exact (hresume lost).mono fun _ _ h => h ▸ .torn n
  | lost =>
      have henter : nested.Leads me lost (Task.change (World.enter me)) fun _ χ => χ = lost :=
        leads_change fun w hw => allowed_lost hw hw.1 id
      refine paused_leads (Q := fun ψ => ψ = lost) pausing_lost ?_ ?_ (.same _)
      · refine henter.bind ?_
        rintro _ _ rfl
        refine (hclosure _ .lost).bind fun _ ψ hψ => ?_
        cases hψ
        exact hleave
      · rintro _ rfl
        exact (hresume lost).mono fun _ _ h => h ▸ .same _

/-- **Code ends in the phase it runs in**, or without the pause that it had. -/
theorem Code.leads (code : Code) :
    ∀ φ : Phase, φ.Runs → nested.Leads me φ (code.task me) fun _ ψ => φ.Ends ψ := by
  induction code with
  | done => exact fun φ _ => Protocol.leads_pure (.same φ)
  | call op next ih =>
      intro φ hφ
      refine (leads_of_calm (calm_call op) φ).bind ?_
      rintro a _ rfl
      exact ih a _ hφ
  | stopTheWorld closure next ih ih' =>
      intro φ hφ
      refine (stopTheWorld_leads_back ih hφ).bind fun result ψ hψ => ?_
      exact (ih' result ψ (hψ.runs hφ)).mono fun _ _ => hψ.trans

theorem Starts.follows {program : Program Empty World} (h : Starts me program) :
    nested.Follows me (intact 0 free) program := by
  cases h with
  | code code =>
      refine code.leads _ .free _ fun _ ψ hψ => ?_
      cases hψ
      exact .halt

/-! ## 6. Every interleaving -/

/-- **Pauses inside pauses hold** as long as no inner closure has returned. In any interleaving of
    any number of threads that run any code: a thread that is in a closure, however deep, is the
    collector, safepoints are told so, every other registered thread is parked, held or in a blocking
    bracket, and another pause is given to the thread at once and changes nothing. -/
theorem nested_pauses_hold {pauseTimeout : Nat} {c : Crew Empty World} {t : ThreadId}
    (h : Crew.Reached Starts { registry := { pauseTimeout } } c) (htorn : c.state.torn = false)
    (ht : 0 < c.state.depth t) :
    c.state.registry.collector = some t ∧ c.state.registry.pausePending = true ∧
      (∀ u slot, (u, slot) ∈ c.state.registry.threads → u ≠ t →
        slot.parked = true ∨ slot.held = true ∨ 0 < slot.blockingDepth) ∧
      c.state.registry.beginPause t = (.established, c.state.registry) := by
  have hstart (u : ThreadId) : nested.holds u nested.rest { registry := { pauseTimeout } } :=
    ⟨ThreadRegistry.accounted_start pauseTimeout, fun _ => ⟨rfl, nofun, nofun⟩⟩
  obtain ⟨φ, -, hacc, hφ⟩ := Protocol.kept_of_reached hstart (fun _ _ => Starts.follows) h t
  -- the thread is inside a closure, so in the phase it is in its pause is established
  cases φ with
  | lost => exact (hφ htorn).elim
  | intact n pause =>
      obtain ⟨hdepth, hpause, hinside⟩ := hφ htorn
      obtain rfl := hinside (hdepth ▸ ht)
      refine ⟨hpause.1, by rw [hacc.pending, hpause.1]; rfl, fun u slot hslot hne => ?_,
        beginPause_of_established hacc hpause⟩
      exact ThreadRegistry.isQuiet_iff.mp
        (ThreadRegistry.unresponsive_eq_zero.mp hpause.2 u slot hslot hne)

/-- **A run**: a thread registers and is held, and the host's first thread pauses it and in its
    closure pauses it again. It comes first to the inner closure; then that has returned, and the
    other thread is released. -/
theorem inner_pause_run : ∃ inner outer : Crew Empty World,
    Crew.Reached Starts { registry := { pauseTimeout := 5 } } inner ∧
      inner.state.depth .main = 2 ∧ inner.state.torn = false ∧
      inner.state.registry.threads = [(.host 1, { registrations := 1, held := true })] ∧
    Crew.Reached Starts { registry := { pauseTimeout := 5 } } outer ∧
      outer.state.depth .main = 1 ∧ outer.state.registry.collector = none ∧
      outer.state.registry.pausePending = false ∧
      outer.state.registry.threads = [(.host 1, { registrations := 1 })] := by
  let twice : Code := .stopTheWorld (.stopTheWorld .done fun _ => .done) fun _ => .done
  let held : Code := .call .register fun _ => .call (.hold (.host 1)) fun _ => .done
  let released : Code := .call (.release (.host 1)) fun _ => .done
  have h : Crew.Reached Starts { registry := { pauseTimeout := 5 } } _ := .begin
  have h := h.move (.start (t := .host 1) rfl (.code held))
  have h := h.move (.region (t := .host 1) rfl rfl)
  have h := h.move (.region (t := .host 1) rfl rfl)
  have h := h.move (.start (t := .main) rfl (.code twice))
  -- the first pause, and its closure begins
  have h := h.move (.clock (t := .main) rfl 0)
  have h := h.move (.region (t := .main) rfl rfl)
  have h := h.move (.region (t := .main) rfl rfl)
  have h := h.move (.region (t := .main) rfl rfl)
  -- the second, and its closure begins
  have h := h.move (.clock (t := .main) rfl 0)
  have h := h.move (.region (t := .main) rfl rfl)
  have h := h.move (.region (t := .main) rfl rfl)
  have h := h.move (.region (t := .main) rfl rfl)
  have hinner := h
  -- the inner closure returns and its pause is given back
  have h := h.move (.region (t := .main) rfl rfl)
  have h := h.move (.region (t := .main) rfl rfl)
  have h := h.move (.start (t := .host 1) rfl (.code released))
  have h := h.move (.region (t := .host 1) rfl rfl)
  exact ⟨_, _, hinner, rfl, rfl, rfl, h, rfl, rfl, rfl, rfl⟩

/-- In the inner closure both pauses are in force. -/
theorem inner_pause_holds : ∃ c : Crew Empty World,
    Crew.Reached Starts { registry := { pauseTimeout := 5 } } c ∧ c.state.torn = false ∧
      c.state.depth .main = 2 ∧ c.state.registry.isRegistered (.host 1) = true ∧
      c.state.registry.collector = some .main ∧ c.state.registry.pausePending = true := by
  obtain ⟨c, -, h, hdepth, htorn, hthreads, -⟩ := inner_pause_run
  have hholds := nested_pauses_hold h htorn (t := .main) (hdepth ▸ Nat.zero_lt_two)
  refine ⟨c, h, htorn, hdepth, ?_, hholds.1, hholds.2.1⟩
  unfold ThreadRegistry.isRegistered ThreadRegistry.slot?
  rw [hthreads]
  rfl

/-- **The end of an inner closure ends the pause of the outer one**: the host's first thread is
    still in its outer closure, no pause is under way, and the other thread has been released and
    is free to run. -/
theorem inner_return_ends_pause : ∃ c : Crew Empty World,
    Crew.Reached Starts { registry := { pauseTimeout := 5 } } c ∧ c.state.depth .main = 1 ∧
      c.state.registry.collector = none ∧ c.state.registry.pausePending = false ∧
      c.state.registry.threads = [(.host 1, { registrations := 1 })] := by
  obtain ⟨-, c, -, -, -, -, h⟩ := inner_pause_run
  exact ⟨c, h⟩

end EmbeddedVm.Threads.Nested
