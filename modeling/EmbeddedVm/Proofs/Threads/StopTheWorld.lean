import EmbeddedVm.Proofs.Threads.Interleaving
import EmbeddedVm.Proofs.Threads.Quiet

/-!
# Stopping the world

Any number of threads share a registry and call its operations in any order, and each of them may
run a *closure* while it has all others paused. A closure may call every operation but a pause of
its own. From the moment a thread starts its closure until it gives its pause back, no other thread
is in a closure, all other registered threads are quiet and none is registered anew
(`stop_the_world_safe`).

The protocol has three phases. A thread is `free`; or it has `announced` its pause and waits for the
others; or the pause is `established`, and then all others are quiet. Operations are steady, so they
leave every thread in its phase and keep true what it knows of the registry; only `pause` and
`resume` lead from phase to phase. Interleavings are looked at once, in `Watch.Kept.step`.
-/

namespace EmbeddedVm.Threads

/-- The registry alone is a state that has a registry in it. -/
instance : HasThreads ThreadRegistry where
  threads r := r
  setThreads _ r := r

variable {κ α : Type} {r r' : ThreadRegistry} {me : ThreadId}

/-! ## 1. What threads do -/

/-- What a thread posts for the watch to see. -/
inductive Milestone where
  /-- The thread starts its closure. -/
  | closureBegins

/-- An operation that a thread calls, for itself or for another. -/
inductive Operation where
  | register
  | unregister
  | blockingBegin (id : ThreadId)
  | blockingEnd (id : ThreadId)
  | hold (id : ThreadId)
  | release (id : ThreadId)
  | poll

/-- The result of an operation. -/
def Operation.Answer : Operation → Type
  | register => Nat
  | unregister | blockingBegin _ | blockingEnd _ => RegistryResult Nat
  | hold _ | release _ => RegistryResult Unit
  | poll => Unit

/-- The operation, called by the thread `me`. -/
def Operation.task (me : ThreadId) : (op : Operation) → Task κ ThreadRegistry op.Answer
  | register => Threads.register me
  | unregister => Threads.unregister me
  | blockingBegin id => Threads.blockingBegin id
  | blockingEnd id => Threads.blockingEnd id
  | hold id => Threads.hold id
  | release id => Threads.release id
  | poll => Threads.poll me

/-- Code that calls operations, each with the results of those before it at hand. -/
inductive Routine where
  | done
  | call (op : Operation) (next : op.Answer → Routine)

/-- The code, run by the thread `me`. -/
def Routine.task (me : ThreadId) : Routine → Task κ ThreadRegistry Unit
  | done => pure ()
  | call op next => do
    let a ← op.task me
    (next a).task me

/-- Pauses all other threads and runs the closure. -/
def stopTheWorld (me : ThreadId) (closure : Routine) :
    Task Milestone ThreadRegistry (RegistryResult Unit) :=
  paused me do
    Task.post me .closureBegins
    closure.task me

/-- What a thread may start when it has nothing left to do. -/
inductive Starts (me : ThreadId) : Program Milestone ThreadRegistry → Prop where
  | routine (code : Routine) : Starts me (code.task me fun _ => .halt)
  | stopTheWorld (closure : Routine) : Starts me (stopTheWorld me closure fun _ => .halt)

/-! ## 2. The protocol -/

/-- How far a thread is with a pause. -/
inductive PausePhase where
  /-- It has no pause. -/
  | free
  /-- It has announced one and waits for the others. -/
  | announced
  /-- It has one. -/
  | established

/-- What a thread knows of the registry. -/
def PausePhase.Holds (me : ThreadId) : PausePhase → ThreadRegistry → Prop
  | free, r => r.collector ≠ some me
  | announced, r => r.collector = some me
  | established, r => r.collector = some me ∧ r.unresponsive me = 0

open PausePhase (free announced established)
open ThreadRegistry (PauseStart)

/-- What a thread may do to the registry. -/
structure Allowed (me : ThreadId) (φ ψ : PausePhase) (r r' : ThreadRegistry) : Prop where
  own : ψ.Holds me r'
  others : ∀ {u χ}, u ≠ me → PausePhase.Holds u χ r → PausePhase.Holds u χ r'
  /-- While a pause is under way no other thread is registered anew. -/
  registered : ∀ c, r.collector = some c → ∀ u, u ≠ c → r'.isRegistered u → r.isRegistered u
  /-- An established pause lasts until it is given back. -/
  lasts : φ = established → ψ = established ∨ r'.collector = none

/-- **The protocol of a pause**: a closure starts only when the pause is established. -/
def pauses : Protocol Milestone ThreadRegistry where
  Phase := PausePhase
  rest := free
  holds me φ r := φ.Holds me r
  allowed := Allowed
  posting φ _ := φ = established
  own h := h.own
  others h := h.others

/-- A steady operation takes from no thread what it knows, -/
theorem PausePhase.Holds.steady {φ : PausePhase} (h : φ.Holds me r) (hs : r.Steady r') :
    φ.Holds me r' := by
  cases φ with
  | free => exact fun hme => h (hs.collector.symm.trans hme)
  | announced => exact hs.collector.trans h
  | established => exact ⟨hs.collector.trans h.1, hs.quiet me h.1 h.2⟩

/-- and is allowed in every phase. -/
theorem Allowed.of_steady {φ : PausePhase} (h : φ.Holds me r) (hs : r.Steady r') :
    Allowed me φ φ r r' :=
  ⟨h.steady hs, fun _ hu => hu.steady hs, hs.registered, .inl⟩

/-- A pause begins where none is under way, -/
theorem Allowed.begin {ψ : PausePhase} (hc : r.collector = none) (hown : ψ.Holds me r')
    (hc' : r'.collector = some me) : Allowed me free ψ r r' := by
  refine ⟨hown, fun {u χ} hne hu => ?_, fun c h => ?_, nofun⟩
  · cases χ with
    | free => exact fun h => hne (Option.some.inj (h.symm.trans hc'))
    | announced => exact nomatch hc.symm.trans hu
    | established => exact nomatch hc.symm.trans hu.1
  · exact nomatch hc.symm.trans h

/-- it is established as soon as all others are quiet, -/
theorem Allowed.establish (hc : r.collector = some me) (hr : r.unresponsive me = 0) :
    Allowed me announced established r r :=
  ⟨⟨hc, hr⟩, fun _ hu => hu, fun _ _ _ _ h => h, nofun⟩

/-- and whoever has it may end it. -/
theorem Allowed.finish {φ : PausePhase} (hc : r.collector = some me) (ht : r'.threads = r.threads)
    (hc' : r'.collector = none) : Allowed me φ free r r' := by
  have hfree {u : ThreadId} : free.Holds u r' := fun h => nomatch hc'.symm.trans h
  refine ⟨hfree, fun {u χ} hne hu => ?_, fun c _ v _ hv => ?_, fun _ => .inr hc'⟩
  · cases χ with
    | free => exact hfree
    | announced => exact absurd (Option.some.inj (hu.symm.trans hc)) hne
    | established => exact absurd (Option.some.inj (hu.1.symm.trans hc)) hne
  · unfold ThreadRegistry.isRegistered ThreadRegistry.slot? at hv ⊢
    rwa [ht] at hv

/-! ## 3. Every operation follows it -/

theorem leads_region {φ : PausePhase} {f : ThreadRegistry → α × ThreadRegistry}
    {Q : α → PausePhase → Prop}
    (h : ∀ r, φ.Holds me r → pauses.Enters me φ r (f r).2 (Q (f r).1)) :
    pauses.Leads me φ (region f) Q := Protocol.leads_atomically h

/-- A task that leaves its thread in its phase. -/
def Stays (me : ThreadId) (t : Task Milestone ThreadRegistry α) : Prop :=
  ∀ φ : PausePhase, pauses.Leads me φ t fun _ ψ => ψ = φ

theorem Stays.bind {β : Type} {t : Task Milestone ThreadRegistry α}
    {f : α → Task Milestone ThreadRegistry β} (h : Stays me t) (hf : ∀ a, Stays me (f a)) :
    Stays me (t >>= f) := by
  intro φ
  refine (h φ).bind ?_
  rintro a _ rfl
  exact hf a _

theorem stays_pure (a : α) : Stays me (pure a) := fun _ => Protocol.leads_pure rfl

theorem stays_region {f : ThreadRegistry → α × ThreadRegistry}
    (h : ∀ r : ThreadRegistry, r.Steady (f r).2) : Stays me (region f) :=
  fun φ => leads_region fun r hr => ⟨φ, .of_steady hr (h r), rfl⟩

theorem stays_look (f : ThreadRegistry → α) : Stays me (look f) :=
  fun φ => Protocol.leads_read fun _ hr => ⟨φ, .of_steady hr .refl, rfl⟩

/-- Here the registry is the whole state. -/
theorem admitted_eq (f : ThreadRegistry → Option (α × ThreadRegistry)) : admitted r f = f r :=
  Option.map_id_apply'

theorem stays_admitted {f : ThreadRegistry → Option (α × ThreadRegistry)}
    (h : ∀ {r r' : ThreadRegistry} {a}, f r = some (a, r') → r.Steady r') :
    Stays me (Task.await fun s => admitted s f) := by
  refine fun φ => Protocol.leads_await fun r a r' hr he => ⟨φ, .of_steady hr ?_, rfl⟩
  rw [admitted_eq] at he
  exact h he

theorem poll_stays : Stays me (poll me) := by
  refine (stays_look _).bind fun pending => ?_
  split
  · refine (stays_region fun _ => ThreadRegistry.park_steady).bind fun parked => ?_
    split
    · refine stays_admitted fun {r r' _} he => ?_
      obtain ⟨r'', hr'', heq⟩ := Option.map_eq_some_iff.mp he
      cases heq
      exact ThreadRegistry.unpark?_steady hr''
    · exact stays_pure _
  · exact stays_pure _

/-- **No operation leads from phase to phase.** -/
theorem Operation.stays (op : Operation) : Stays me (op.task me) := by
  cases op with
  | register => exact stays_admitted ThreadRegistry.register?_steady
  | unregister => exact stays_region fun _ => ThreadRegistry.unregister_steady
  | blockingBegin id => exact stays_region fun _ => ThreadRegistry.blockingBegin_steady
  | blockingEnd id => exact stays_admitted ThreadRegistry.blockingEnd?_steady
  | hold id => exact stays_region fun _ => ThreadRegistry.hold_steady
  | release id => exact stays_admitted ThreadRegistry.release?_steady
  | poll => exact poll_stays

theorem Routine.stays (code : Routine) : Stays me (code.task me) := by
  induction code with
  | done => exact stays_pure _
  | call op next ih => exact op.stays.bind ih

/-- Where a thread is after the beginning of a pause, -/
def phaseOf : PauseStart → PausePhase
  | .established => established
  | .announced => announced
  | .refused => free

/-- and where it is when the pause is established or given up. -/
def phaseAfter : RegistryResult Unit → PausePhase
  | .ok () => established
  | .error _ => free

theorem beginPause_enters (hr : free.Holds me r) :
    pauses.Enters me free r (r.beginPause me).2 (· = phaseOf (r.beginPause me).1) := by
  unfold ThreadRegistry.beginPause
  split
  · exact ⟨free, .of_steady hr .refl, rfl⟩
  · rename_i hb
    have hc : r.collector = none := by
      cases hc : r.collector with
      | none => rfl
      | some c =>
          refine absurd (ThreadRegistry.blocks_eq_true.mpr ⟨c, hc, ?_⟩) hb
          rintro rfl
          exact hr hc
    dsimp only
    split
    · rename_i hzero
      exact ⟨established, .begin hc ⟨rfl, hzero⟩ rfl, rfl⟩
    · exact ⟨announced, .begin hc rfl rfl, rfl⟩

/-- A pause that was announced is established in time, or given up if it is not established when
    the wait is over. -/
theorem awaitOthers_leads {deadline : Nat} : pauses.Leads me announced
    (Task.awaitUntil (some deadline)
      (fun s => admitted s fun r => if r.unresponsive me = 0 then some (.ok (), r) else none)
      (fun s =>
        let (result, r) := (HasThreads.threads s).abandonPause me
        (result, HasThreads.setThreads s r)))
    fun result ψ => ψ = phaseAfter result := by
  refine Protocol.leads_awaitUntil (fun r result r' hr he => ?_) fun r hr => ?_
  · rw [admitted_eq] at he
    split at he
    · rename_i hzero
      cases he
      exact ⟨established, .establish hr hzero, rfl⟩
    · cases he
  · show pauses.Enters me announced r (r.abandonPause me).2 (· = phaseAfter (r.abandonPause me).1)
    unfold ThreadRegistry.abandonPause
    split
    · rename_i hzero
      exact ⟨established, .establish hr hzero, rfl⟩
    · exact ⟨free, .finish hr rfl rfl, rfl⟩

/-- **A pause succeeds only when it is established**, whichever of its waits ended it. -/
theorem pause_leads : pauses.Leads me free (pause me) fun result ψ => ψ = phaseAfter result := by
  unfold pause
  refine Protocol.Leads.bind (P := pauses) (Q := fun _ ψ => ψ = free)
    (Protocol.leads_now fun _ => rfl) ?_
  rintro start _ rfl
  refine (stays_look _ _).bind ?_
  rintro timeout _ rfl
  refine Protocol.Leads.bind (P := pauses) (Q := fun begun ψ => ψ = phaseOf begun)
    (leads_region fun r hr => beginPause_enters hr) ?_
  rintro begun _ rfl
  cases begun with
  | established => exact Protocol.leads_pure rfl
  | announced => exact awaitOthers_leads
  | refused =>
      refine Protocol.Leads.bind (P := pauses) (Q := fun begun ψ => ψ = phaseOf begun) ?_ ?_
      · refine Protocol.leads_awaitUntil (fun r begun r' hr he => ?_) fun r hr => ?_
        · rw [admitted_eq] at he
          have henters := beginPause_enters hr
          split at he
          · cases he
          · rename_i heq
            cases he
            rwa [heq] at henters
        · exact ⟨free, .of_steady hr ThreadRegistry.refusePause_steady, rfl⟩
      · rintro begun _ rfl
        cases begun with
        | established => exact Protocol.leads_pure rfl
        | announced => exact awaitOthers_leads
        | refused => exact Protocol.leads_pure rfl

theorem resume_leads : pauses.Leads me established resume fun _ ψ => ψ = free :=
  leads_region fun _ hr => ⟨free, .finish hr.1 rfl rfl, rfl⟩

/-- A closure starts and ends with the pause established, and its thread has none before or
    after. -/
theorem stopTheWorld_leads (closure : Routine) :
    pauses.Leads me free (stopTheWorld me closure) fun _ ψ => ψ = free := by
  unfold stopTheWorld paused
  refine pause_leads.bind ?_
  rintro result _ rfl
  cases result with
  | error e => exact Protocol.leads_pure rfl
  | ok _ =>
      refine Protocol.Leads.bind (P := pauses) (Q := fun _ ψ => ψ = established) ?_ ?_
      · refine Protocol.Leads.bind (P := pauses) (Q := fun _ ψ => ψ = established)
          (Protocol.leads_post rfl rfl) ?_
        rintro _ _ rfl
        exact closure.stays _
      · rintro _ _ rfl
        refine resume_leads.bind ?_
        rintro _ _ rfl
        exact Protocol.leads_pure rfl

/-- **Whatever a thread starts follows the protocol.** -/
theorem Starts.follows {p : Program Milestone ThreadRegistry} (h : Starts me p) :
    pauses.Follows me free p := by
  cases h with
  | routine code => exact code.stays free _ fun _ _ hψ => hψ ▸ .halt
  | stopTheWorld closure => exact stopTheWorld_leads closure _ fun _ _ hψ => hψ ▸ .halt

/-! ## 4. Every interleaving -/

/-- Threads, and which of them are between the start of their closure and the end of its pause. -/
structure Watch where
  crew : Crew Milestone ThreadRegistry
  inside : ThreadId → Prop

namespace Watch

/-- The registry. -/
def registry (w : Watch) : ThreadRegistry := w.crew.state

/-- A new registry, and threads that have not done anything. -/
def start (pauseTimeout : Nat) : Watch := ⟨⟨{ pauseTimeout }, fun _ => .halt⟩, fun _ => False⟩

/-- **One move of a thread, watched.** -/
inductive Step (w : Watch) (me : ThreadId) : Watch → Prop where
  /-- It starts its closure. -/
  | enters {crew : Crew Milestone ThreadRegistry}
      (h : w.crew.Moves Starts me (some .closureBegins) crew) :
    Step w me ⟨crew, fun u => u = me ∨ w.inside u⟩
  /-- After its move no thread has a pause. -/
  | leaves {crew : Crew Milestone ThreadRegistry} (h : w.crew.Moves Starts me none crew)
      (hc : crew.state.collector = none) : Step w me ⟨crew, fun u => u ≠ me ∧ w.inside u⟩
  /-- After its move some thread has. -/
  | goes {crew : Crew Milestone ThreadRegistry} (h : w.crew.Moves Starts me none crew)
      (hc : crew.state.collector ≠ none) : Step w me ⟨crew, w.inside⟩

/-- What threads can come to, in any order and for any time. -/
inductive Reached (pauseTimeout : Nat) : Watch → Prop where
  | start : Reached pauseTimeout (start pauseTimeout)
  | step {w w' : Watch} {me : ThreadId} (h : Reached pauseTimeout w) (hs : w.Step me w') :
    Reached pauseTimeout w'

/-- A thread follows the protocol, and inside its closure its pause is established. -/
structure Follows (w : Watch) (t : ThreadId) (φ : PausePhase) : Prop where
  program : pauses.Follows t φ (w.crew.current t)
  holds : φ.Holds t w.registry
  inside : w.inside t → φ = established

/-- **The invariant**: every thread follows the protocol, in some phase. -/
def Kept (w : Watch) : Prop := ∀ t, ∃ φ, w.Follows t φ

variable {w w' : Watch} {crew : Crew Milestone ThreadRegistry} {posted : Option Milestone}

theorem kept_start (pauseTimeout : Nat) : (start pauseTimeout).Kept :=
  fun _ => ⟨free, .halt, nofun, nofun⟩

/-- A thread that moves advances in the protocol. -/
theorem Kept.advance (hk : w.Kept) (hm : w.crew.Moves Starts me posted crew) :
    ∃ φ ψ, w.Follows me φ ∧ pauses.Advance me φ ψ w.crew crew posted := by
  obtain ⟨φ, hφ⟩ := hk me
  obtain ⟨ψ, hψ⟩ := hφ.program.move (fun _ => Starts.follows) hφ.holds hm
  exact ⟨φ, ψ, hφ, hψ⟩

/-- One move keeps the invariant if the thread that makes it is inside only with its pause
    established, and no other comes inside. -/
theorem Kept.moved {inside : ThreadId → Prop} (hk : w.Kept)
    (hm : w.crew.Moves Starts me posted crew)
    (hme : ∀ φ ψ, w.Follows me φ → pauses.Advance me φ ψ w.crew crew posted → inside me →
      ψ = established)
    (hothers : ∀ u, u ≠ me → inside u → w.inside u) : Kept ⟨crew, inside⟩ := by
  obtain ⟨φ, ψ, hφ, hψ⟩ := hk.advance hm
  intro u
  by_cases hu : u = me
  · subst hu
    exact ⟨ψ, hψ.follows, hψ.holds, hme φ ψ hφ hψ⟩
  · obtain ⟨χ, hχ⟩ := hk u
    refine ⟨χ, ?_, ?_, fun hin => hχ.inside (hothers u hu hin)⟩
    · show pauses.Follows u χ (crew.current u)
      rw [hm.current_of_ne hu]
      exact hχ.program
    · show χ.Holds u crew.state
      rcases hψ.change with ⟨hs, -⟩ | hallowed
      · rw [hs]
        exact hχ.holds
      · exact hallowed.others hu hχ.holds

/-- **Every move keeps the invariant.** -/
theorem Kept.step (hk : w.Kept) (hs : w.Step me w') : w'.Kept := by
  cases hs with
  | enters hm =>
      refine hk.moved hm (fun φ ψ _ hψ _ => ?_) fun u hu hin => hin.resolve_left hu
      obtain ⟨hφ, heq⟩ := hψ.posting _ rfl
      exact heq.trans hφ
  | leaves hm _ =>
      exact hk.moved hm (fun _ _ _ _ hin => absurd rfl hin.1) fun _ _ hin => hin.2
  | goes hm hc =>
      refine hk.moved hm (fun φ ψ hφ hψ hin => ?_) fun _ _ hin => hin
      have hest := hφ.inside hin
      rcases hψ.change with ⟨-, heq⟩ | hallowed
      · exact heq.trans hest
      · exact (hallowed.lasts hest).resolve_right hc

theorem Reached.kept {pauseTimeout : Nat} (h : Reached pauseTimeout w) : w.Kept := by
  induction h with
  | start => exact kept_start pauseTimeout
  | step _ hs ih => exact ih.step hs

theorem Step.moves (h : w.Step me w') : ∃ posted, w.crew.Moves Starts me posted w'.crew := by
  cases h with
  | enters h => exact ⟨_, h⟩
  | leaves h _ => exact ⟨_, h⟩
  | goes h _ => exact ⟨_, h⟩

/-- While a thread has a pause, or waits for one, no other thread is registered anew. -/
theorem Kept.registered (hk : w.Kept) (hs : w.Step me w') {c u : ThreadId}
    (hc : w.registry.collector = some c) (hu : u ≠ c) (h : w'.registry.isRegistered u = true) :
    w.registry.isRegistered u = true := by
  obtain ⟨posted, hm⟩ := hs.moves
  obtain ⟨φ, ψ, -, hψ⟩ := hk.advance hm
  rcases hψ.change with ⟨heq, -⟩ | hallowed
  · rwa [show w'.registry = w.registry from heq] at h
  · exact hallowed.registered c hc u hu h

end Watch

/-- **A world that is stopped stays stopped.** From the moment a thread starts its closure until it
    gives its pause back, in any interleaving of any number of threads: the pause is its own, no
    other thread is inside a closure, every other registered thread is parked, held or in a
    blocking bracket, and whatever moves next, no other thread is registered anew. -/
theorem stop_the_world_safe {pauseTimeout : Nat} {w : Watch} {t : ThreadId}
    (h : w.Reached pauseTimeout) (ht : w.inside t) :
    w.registry.collector = some t ∧ (∀ u, w.inside u → u = t) ∧
      (∀ u slot, (u, slot) ∈ w.registry.threads → u ≠ t →
        slot.parked = true ∨ slot.held = true ∨ 0 < slot.blockingDepth) ∧
      ∀ me w', w.Step me w' → ∀ u, u ≠ t →
        w'.registry.isRegistered u = true → w.registry.isRegistered u = true := by
  have hk := h.kept
  -- whoever is inside has its pause established
  have hest {u : ThreadId} (hu : w.inside u) : established.Holds u w.registry := by
    obtain ⟨φ, hφ⟩ := hk u
    rw [← hφ.inside hu]
    exact hφ.holds
  have hc := (hest ht).1
  refine ⟨hc, fun u hu => ?_, fun u slot hmem hne => ?_, fun me w' hs u hne => ?_⟩
  · exact Option.some.inj ((hest hu).1.symm.trans hc)
  · exact ThreadRegistry.isQuiet_iff.mp
      (ThreadRegistry.unresponsive_eq_zero.mp (hest ht).2 u slot hmem hne)
  · exact hk.registered hs hc hne

/-- A thread registers and holds itself; then the host's first thread stops the world. -/
theorem held_world_safe : ∃ w : Watch, w.Reached 5 ∧ w.inside .main ∧
    w.registry.threads = [(.host 1, { registrations := 1, held := true })] ∧
    ∀ me w', w.Step me w' → w'.registry.isRegistered (.host 2) = true →
      w.registry.isRegistered (.host 2) = true := by
  let code : Routine := .call .register fun _ => .call (.hold (.host 1)) fun _ => .done
  have step {w : Watch} {me : ThreadId} {crew} (h : w.Reached 5)
      (hm : w.crew.Moves Starts me none crew) (hc : crew.state.collector = none) :
      Watch.Reached 5 ⟨crew, fun u => u ≠ me ∧ w.inside u⟩ := h.step (.leaves hm hc)
  have h : Watch.Reached 5 _ := .start
  have h := step h (.start (t := .host 1) rfl (.routine code)) rfl
  have h := step h (.region (t := .host 1) rfl rfl) rfl
  have h := step h (.region (t := .host 1) rfl rfl) rfl
  have h := step h (.start (t := .main) rfl (.stopTheWorld .done)) rfl
  have h := step h (.clock (t := .main) rfl 0) rfl
  have h := step h (.region (t := .main) rfl rfl) rfl
  -- the pause begins, and with it the closure
  have h := h.step (.goes (.region (t := .main) rfl rfl) nofun)
  have h := h.step (.enters (.post (t := .main) rfl))
  exact ⟨_, h, .inl rfl, rfl, fun me w' hs =>
    (stop_the_world_safe h (.inl rfl)).2.2.2 me w' hs (.host 2) (by decide)⟩

end EmbeddedVm.Threads
