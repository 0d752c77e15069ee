import EmbeddedVm.Proofs.Checks
import EmbeddedVm.Proofs.Instance.Ownership

/-!
# Starts and stops of many threads

Any number of threads start and stop the instance's own thread. A start is one region. A stop is
many: it asks the thread to end, waits for that, and then takes back in three regions what the start
set up: the status, the driver, and the hold on the thread that initialized the instance. From the
first of them on the instance counts as stopped and may be started again, so a start that comes
before the last loses its driver and its hold to the stop (`start_loses_its_driver`).

If no start is made while a stop is under way, the machine belongs at any time to whom the status
says (`ownership_kept`). The condition is kept here by a gate that the host puts before both. How
far a thread is, and what it may rely on there, is its phase in a protocol; what it relies on is
taken from it only by a start, and the gate keeps starts away from where it matters.
-/

namespace EmbeddedVm

/-! ## 1. What threads do -/

/-- A thread that a piece of work is for. -/
def Work.IsFor {η : Type} (me : ThreadId) : Work η → Prop
  | .begin generation | .serve generation _ => me = .own generation
  | .reads => me = .background
  | .host _ => ∃ n, me = .host n

namespace Instance.Driving

/-- What a thread asks of the instance's own thread. -/
inductive Request where
  | start
  | stop
deriving DecidableEq, Repr

/-- The other request. -/
def Request.other : Request → Request
  | start => stop
  | stop => start

theorem Request.other_ne (r : Request) : r.other ≠ r := by
  cases r <;> decide

theorem Request.eq_other_of_ne {r s : Request} (h : s ≠ r) : s = r.other := by
  cases r <;> cases s <;> first | rfl | exact absurd rfl h

/-- Which threads are inside a request. -/
def Gate : Type := Request → List ThreadId

namespace Gate

/-- No thread is inside any. -/
def clear : Gate := fun _ => []

/-- Lets a thread in, unless some thread is inside the other request. -/
def enter? (gate : Gate) (me : ThreadId) (r : Request) : Option Gate :=
  if (gate r.other).isEmpty then some fun s => if s = r then me :: gate s else gate s else none

/-- Lets a thread out. -/
def leave (gate : Gate) (me : ThreadId) (r : Request) : Gate :=
  fun s => if s = r then (gate s).erase me else gate s

/-- A thread is inside a request, and none is inside the other. -/
def Inside (gate : Gate) (me : ThreadId) (r : Request) : Prop := me ∈ gate r ∧ gate r.other = []

variable {gate gate' : Gate} {me u : ThreadId} {r s : Request}

theorem enter?_eq_some (h : gate.enter? me r = some gate') :
    gate r.other = [] ∧ gate' = fun s => if s = r then me :: gate s else gate s := by
  unfold enter? at h
  split at h
  · rename_i hempty
    exact ⟨List.isEmpty_iff.mp hempty, (Option.some.inj h).symm⟩
  · cases h

theorem inside_of_enter? (h : gate.enter? me r = some gate') : gate'.Inside me r := by
  obtain ⟨hempty, rfl⟩ := enter?_eq_some h
  exact ⟨by simp, by simp [r.other_ne, hempty]⟩

/-- Whoever is inside stays there when another comes, and can rely on it, -/
theorem Inside.enter? (hu : gate.Inside u s) (h : gate.enter? me r = some gate') :
    gate'.Inside u s := by
  obtain ⟨hempty, rfl⟩ := enter?_eq_some h
  obtain ⟨hmem, hnone⟩ := hu
  by_cases hs : s = r
  · subst hs
    exact ⟨by simp [hmem], by simp [s.other_ne, hnone]⟩
  · -- whoever is inside keeps the other out
    rw [Request.eq_other_of_ne hs, hempty] at hmem
    cases hmem

/-- and when another goes. -/
theorem Inside.leave (hu : gate.Inside u s) (hne : u ≠ me) : (gate.leave me r).Inside u s := by
  obtain ⟨hmem, hnone⟩ := hu
  refine ⟨?_, ?_⟩
  · unfold Gate.leave
    split
    · exact (List.mem_erase_of_ne hne).mpr hmem
    · exact hmem
  · unfold Gate.leave
    rw [hnone]
    split <;> rfl

end Gate

variable {η ρ σ α : Type}

/-- The operation a thread asks for. -/
def operation (me : ThreadId) : Request → Operation η ρ σ Unit
  | .start => start
  | .stop => stop me

/-- Asks, whatever others do. -/
def ask (me : ThreadId) (request : Request) : Act η ρ σ Unit := discard (operation me request).run

/-- Asks when the gate lets it. -/
def askInTurn (me : ThreadId) (request : Request) : Act η ρ Gate Unit := do
  Task.await fun w => (w.session.enter? me request).map fun gate => ((), { w with session := gate })
  ask me request
  Task.change fun w => { w with session := w.session.leave me request }

/-- **What a thread may start**: a request, and any work that is for it, at any time and any number
    of times. -/
inductive Starts (host : Host η ρ σ) (calls : Calls η ρ σ)
    (request : ThreadId → Request → Act η ρ σ Unit) (me : ThreadId) :
    Program (Work η) (World η ρ σ) → Prop where
  | request (r : Request) : Starts host calls request me (request me r).toProgram
  | work (w : Work η) (h : w.IsFor me) : Starts host calls request me (perform host calls me w)

/-! ## 2. The protocol -/

/-- A change that is nothing to starts and stops. -/
structure SameDriver (w w' : World η ρ Gate) : Prop where
  inst : w.inst.SameOwner w'.inst
  session : w'.session = w.session

/-- How far a thread is with a request, or with its own end. -/
inductive Phase where
  /-- It has nothing to do with either. -/
  | outside
  /-- It is inside a request and has done nothing yet, or cannot do any more. -/
  | inside (r : Request)
  /-- It stops a start, and has asked its thread to end. -/
  | asked (generation : Nat)
  /-- It stops a start, and has seen the end of its thread. -/
  | seen (generation : Nat)
  /-- It is inside a stop, and the status is what the stop is to leave behind. -/
  | idle
  /-- It is the thread of a start and was told to end. -/
  | dismissed (generation : Nat)

/-- What a thread knows of the world. -/
def Phase.Knows (me : ThreadId) : Phase → World η ρ Gate → Prop
  | outside, _ => True
  | inside r, w => w.session.Inside me r
  | asked g, w => w.session.Inside me .stop ∧ w.inst.Asked g
  | seen g, w => w.session.Inside me .stop ∧ w.inst.Asked g ∧ (w.inst.queue g).exited = true
  | idle, w => w.session.Inside me .stop ∧ w.inst.engine.status = .stopped
  | dismissed g, w => (w.inst.queue g).stopping = true

/-- **A change that a thread `u` can live with.** -/
structure Spares (u : ThreadId) (w w' : World η ρ Gate) : Prop where
  inside : ∀ r, w.session.Inside u r → w'.session.Inside u r
  asked : w.session.Inside u .stop → ∀ g, w.inst.Asked g → w'.inst.Asked g
  idle : w.session.Inside u .stop → w.inst.engine.status = .stopped →
    w'.inst.engine.status = .stopped
  exited : ∀ g, (w.inst.queue g).exited = true → (w'.inst.queue g).exited = true
  stopping : ∀ g, (w.inst.queue g).stopping = true → (w'.inst.queue g).stopping = true

variable {w w' : World η ρ Gate} {me u : ThreadId} {φ ψ : Phase}

theorem Phase.Knows.spared (h : φ.Knows u w) (hs : Spares u w w') : φ.Knows u w' := by
  cases φ with
  | outside => trivial
  | inside r => exact hs.inside r h
  | asked g => exact ⟨hs.inside _ h.1, hs.asked h.1 g h.2⟩
  | seen g => exact ⟨hs.inside _ h.1, hs.asked h.1 g h.2.1, hs.exited g h.2.2⟩
  | idle => exact ⟨hs.inside _ h.1, hs.idle h.1 h.2⟩
  | dismissed g => exact hs.stopping g h

/-- What a thread may do to the world. -/
structure Allowed (me : ThreadId) (φ ψ : Phase) (w w' : World η ρ Gate) : Prop where
  tenure : w'.inst.Tenure
  own : ψ.Knows me w'
  others : ∀ u, u ≠ me → Spares u w w'

/-- **The protocol of starts and stops.** -/
def driving : Protocol (Work η) (World η ρ Gate) where
  Phase := Phase
  rest := .outside
  holds me φ w := w.inst.Tenure ∧ φ.Knows me w
  allowed := Allowed
  posting _ _ := True
  own h := ⟨h.tenure, h.own⟩
  others h _ _ hne hu := ⟨h.tenure, hu.2.spared (h.others _ hne)⟩

/-! ## 3. What others can live with -/

theorem spares_of_sameDriver (h : SameDriver w w') : Spares u w w' where
  inside r hr := by rwa [h.session]
  asked _ g hg := by rwa [Asked, h.inst.engine]
  idle _ hs := by rwa [h.inst.engine]
  exited g hg := by rwa [h.inst.exited]
  stopping g hg := by rwa [h.inst.stopping]

/-- A region that is nothing to starts and stops is allowed everywhere. -/
theorem allowed_of_sameDriver (hw : w.inst.Tenure ∧ φ.Knows me w) (h : SameDriver w w') :
    Allowed me φ φ w w' :=
  ⟨h.inst.tenure hw.1, hw.2.spared (spares_of_sameDriver h), fun _ _ => spares_of_sameDriver h⟩

theorem sameDriver_refl : SameDriver w w := ⟨⟨rfl, rfl, rfl, rfl, fun _ => rfl, fun _ => rfl, id⟩, rfl⟩

/-- Coming and going through the gate. -/
theorem spares_of_gate {gate : Gate} (h : ∀ r, w.session.Inside u r → gate.Inside u r) :
    Spares u w { w with session := gate } :=
  ⟨h, fun _ _ h => h, fun _ h => h, fun _ h => h, fun _ h => h⟩

/-- **A start takes from a stop what that relies on**, so the gate has to keep them apart. -/
theorem spares_started {i : Instance η ρ} (hme : w.session.Inside me .start)
    (h : w.inst.Started i) : Spares u w { w with inst := i } where
  inside _ hr := hr
  asked hu := nomatch hme.2 ▸ hu.1
  idle hu := nomatch hme.2 ▸ hu.1
  exited g hg := by rwa [h.queue]
  stopping g hg := by rwa [h.queue]

theorem spares_ending (hs : w.inst.engine.status ≠ .stopped) :
    Spares u w { w with inst := w.inst.ending } where
  inside _ hr := hr
  asked _ _ hg := ⟨hg.1, nofun⟩
  idle _ hs' := absurd hs' hs
  exited _ hg := hg
  stopping _ hg := hg

/-- A stop that goes on takes nothing from another. -/
theorem spares_of_queues {i : Instance η ρ} (hgeneration : i.engine.generation = w.inst.engine.generation)
    (hstatus : w.inst.engine.status ≠ .running → i.engine.status ≠ .running)
    (hstopped : w.inst.engine.status = .stopped → i.engine.status = .stopped)
    (hexited : ∀ g, (w.inst.queue g).exited = true → (i.queue g).exited = true)
    (hstopping : ∀ g, (w.inst.queue g).stopping = true → (i.queue g).stopping = true) :
    Spares u w { w with inst := i } :=
  ⟨fun _ hr => hr, fun _ _ hg => ⟨hgeneration.trans hg.1, hstatus hg.2⟩, fun _ => hstopped, hexited,
    hstopping⟩

/-! ## 4. Requests follow it -/

/-- A task that is nothing to starts and stops leaves its thread in its phase. -/
theorem stays {t : Act η ρ Gate α} (h : t.Keeps SameDriver) :
    driving.Leads me φ t fun _ ψ => ψ = φ :=
  h driving me φ (fun _ _ => allowed_of_sameDriver) fun _ => trivial

theorem keeps_sameDriver_look (f : Instance η ρ → α) : (look f : Act η ρ Gate α).Keeps SameDriver :=
  Task.keeps_atomically (f := fun w : World η ρ Gate => (f w.inst, w)) fun _ => sameDriver_refl

theorem record_stays (e : InstanceError) (φ : Phase) :
    driving.Leads me φ (record e : Act η ρ Gate Unit) fun _ ψ => ψ = φ :=
  stays (keeps_change fun _ => ⟨⟨rfl, rfl, rfl, rfl, fun _ => rfl, fun _ => rfl, id⟩, rfl⟩)

theorem startRegion_leads :
    driving.Leads me (.inside .start)
      (region startRegion : Act η ρ Gate (Except InstanceError Nat)) fun _ ψ => ψ = .inside .start := by
  refine leads_region fun w ⟨ht, hme⟩ => ⟨.inside .start, ?_, rfl⟩
  rcases startRegion_cases (i := w.inst) with ⟨e, he⟩ | ⟨-, hstarted⟩
  · rw [he]
    exact allowed_of_sameDriver ⟨ht, hme⟩ sameDriver_refl
  · exact ⟨hstarted.tenure ht, hme, fun u _ => spares_started hme hstarted⟩

theorem start_leads :
    driving.Leads me (.inside .start) (start : Operation η ρ Gate Unit).run
      fun _ ψ => ψ = .inside .start := by
  refine tracked_leads (Protocol.Leads.bindOk startRegion_leads ?_ fun _ _ h => h) record_stays
  rintro g _ rfl
  exact stays (Task.keeps_post _ _).lift

/-- What a stop knows after it asked: nothing if the thread was stopped. -/
def phaseOfAsked : Option Nat → Phase
  | none => .inside .stop
  | some g => .asked g

theorem beginShutdown_leads :
    driving.Leads me (.inside .stop) (beginShutdown : Act η ρ Gate (Option Nat))
      fun asked ψ => ψ = phaseOfAsked asked := by
  refine leads_region fun w ⟨ht, hme⟩ => ?_
  split
  · exact ⟨.inside .stop, allowed_of_sameDriver ⟨ht, hme⟩ sameDriver_refl, rfl⟩
  · rename_i hs
    exact ⟨.asked w.inst.engine.generation,
      ⟨tenure_ending ht, ⟨hme, rfl, nofun⟩, fun _ _ => spares_ending hs⟩, rfl⟩

theorem askQueue_leads (g : Nat) :
    driving.Leads me (.asked g)
      (change fun i => i.setQueue g (i.queue g).stop : Act η ρ Gate Unit)
      fun _ ψ => ψ = .asked g := by
  refine leads_change fun w ⟨ht, hme⟩ => ⟨.asked g, ⟨tenure_stopQueue ht hme.2, hme, fun u _ => ?_⟩, rfl⟩
  exact spares_of_queues rfl id id (fun _ => flag_setQueue (f := CallQueue.exited) id)
    fun _ => flag_setQueue (f := CallQueue.stopping) fun _ => rfl

/-- What a stop knows after it waited. -/
def phaseOfExit (g : Nat) : Bool → Phase
  | true => .seen g
  | false => .asked g

theorem awaitExit_leads (limit : Option Nat) (g : Nat) :
    driving.Leads me (.asked g)
      (awaitUntil limit (fun i => if (i.queue g).exited then some (true, i) else none)
        (fun i => ((i.queue g).exited, i)) : Act η ρ Gate Bool)
      fun exited ψ => ψ = phaseOfExit g exited := by
  -- whether the wait ends in time or late, it has looked at the same flag
  have hlook (w : World η ρ Gate) (hw : w.inst.Tenure ∧ (Phase.asked g).Knows me w) :
      driving.Enters me (.asked g) w w (· = phaseOfExit g (w.inst.queue g).exited) := by
    refine ⟨_, ?_, rfl⟩
    have hsame := allowed_of_sameDriver hw (sameDriver_refl (w := w))
    cases he : (w.inst.queue g).exited with
    | false => exact hsame
    | true => exact ⟨hw.1, ⟨hw.2.1, hw.2.2, he⟩, hsame.others⟩
  refine leads_awaitUntil (fun w exited i hw henter => ?_) hlook
  split at henter
  · rename_i he
    cases henter
    exact he ▸ hlook w hw
  · cases henter

theorem settle_leads (g : Nat) :
    driving.Leads me (.seen g)
      (region fun i => (i.engine.hostHold,
        { i with engine := { i.engine with status := .stopped, hostHold := none } }) :
        Act η ρ Gate (Option ThreadId)) fun _ ψ => ψ = .idle :=
  leads_region fun _ ⟨ht, hme⟩ => ⟨.idle, ⟨tenure_stopped ht hme.2.1 hme.2.2, ⟨hme.1, rfl⟩,
    fun _ _ => spares_of_queues rfl (fun _ => nofun) (fun _ => rfl) (fun _ => id) fun _ => id⟩, rfl⟩

/-- What a stop does once the status is settled is of no matter, since no start has come. -/
theorem allowed_idle {i : Instance η ρ} (hw : w.inst.Tenure ∧ Phase.idle.Knows me w)
    (hinit : i.core.initThread = w.inst.core.initThread) (hengine : i.engine = w.inst.engine)
    (hqueues : i.queues = w.inst.queues) : Allowed me .idle .idle w { w with inst := i } := by
  refine ⟨tenure_idle hw.1 hw.2.2 hinit hengine hqueues, ⟨hw.2.1, by rw [hengine]; exact hw.2.2⟩,
    fun u _ => spares_of_queues (by rw [hengine]) (by rw [hengine]; exact id)
      (by rw [hengine]; exact id) (fun g => ?_) fun g => ?_⟩
  all_goals
    unfold queue
    rw [hqueues]
    exact id

theorem dropDriver_leads :
    driving.Leads me .idle
      (change fun i => { i with core := { i.core with vmThread := none } } : Act η ρ Gate Unit)
      fun _ ψ => ψ = .idle :=
  leads_change fun _ hw => ⟨.idle, allowed_idle hw rfl rfl rfl, rfl⟩

theorem release_leads (host : ThreadId) :
    driving.Leads me .idle (Threads.release host : Act η ρ Gate (RegistryResult Unit))
      fun _ ψ => ψ = .idle := by
  refine Protocol.leads_await fun w result w' hw henter => ⟨.idle, ?_, rfl⟩
  obtain ⟨⟨_, r⟩, -, heq⟩ := Option.map_eq_some_iff.mp henter
  cases heq
  exact allowed_idle hw rfl rfl rfl

theorem shutdown_leads :
    driving.Leads me (.inside .stop) (shutdown me : Operation η ρ Gate Unit).run
      fun _ _ => True := by
  refine (stays (keeps_sameDriver_look _)).bindLift ?_
  rintro vmThread _ rfl
  refine beginShutdown_leads.bindLift ?_
  rintro (_ | g) _ rfl
  · exact Protocol.leads_pure trivial
  refine (askQueue_leads g).bindLift ?_
  rintro _ _ rfl
  split
  · exact Protocol.leads_pure trivial
  refine (stays (keeps_sameDriver_look _)).bindLift ?_
  rintro bound _ rfl
  refine (stays (Task.keeps_now.bind fun _ => Task.keeps_pure _)).bindLift ?_
  rintro limit _ rfl
  refine (awaitExit_leads limit g).bindLift ?_
  rintro (_ | _) _ rfl
  · exact Protocol.leads_pure trivial
  refine (settle_leads g).bindLift ?_
  rintro hold _ rfl
  refine dropDriver_leads.bindLift ?_
  rintro _ _ rfl
  cases hold with
  | none => exact Protocol.leads_pure trivial
  | some host =>
      refine Protocol.Leads.bind (P := driving) (release_leads host) ?_
      rintro result _ rfl
      exact Protocol.leads_pure trivial

theorem ask_leads (request : Request) :
    driving.Leads me (.inside request) (ask me request : Act η ρ Gate Unit) fun _ _ => True := by
  cases request with
  | start => exact start_leads.bind fun _ _ _ => Protocol.leads_pure trivial
  | stop => exact (tracked_leads shutdown_leads record_stays).bind fun _ _ h => Protocol.leads_pure h

/-- **A request in turn leads out of the gate again.** -/
theorem askInTurn_leads (request : Request) :
    driving.Leads me .outside (askInTurn me request : Act η ρ Gate Unit)
      fun _ ψ => ψ = .outside := by
  refine Protocol.Leads.bind (P := driving) (Q := fun _ ψ => ψ = .inside request) ?_ ?_
  · refine Protocol.leads_await fun w _ w' hw henter => ⟨.inside request, ?_, rfl⟩
    obtain ⟨gate, hgate, heq⟩ := Option.map_eq_some_iff.mp henter
    cases heq
    exact ⟨hw.1, Gate.inside_of_enter? hgate,
      fun u _ => spares_of_gate fun r hr => hr.enter? hgate⟩
  rintro _ _ rfl
  refine (ask_leads request).bind fun _ φ _ => ?_
  refine Protocol.leads_atomically
    (f := fun w : World η ρ Gate => ((), { w with session := w.session.leave me request }))
    fun w hw => ⟨.outside, ⟨hw.1, trivial, fun u hne => ?_⟩, rfl⟩
  exact spares_of_gate fun r hr => hr.leave hne

/-! ## 5. The instance's own thread follows it -/

/-- **Code of the host that leaves starts and stops alone**, wherever it runs. -/
structure Discreet (host : Host η ρ Gate) (calls : Calls η ρ Gate) : Prop where
  native : ∀ me handler args, (host.native me handler args).Keeps SameDriver
  drain : ∀ me label vm hint, ((host.source label).drain me vm hint).Keeps SameDriver
  call : ∀ me label, (calls.call me label).Keeps SameDriver
  complete : ∀ me label outcome, (calls.complete me label outcome).Keeps SameDriver
  work : ∀ me label, (calls.work me label).Keeps SameDriver

/-- A change by a thread that is nothing to starts and stops, unless the thread initialized the
    instance. -/
def Yields (me : ThreadId) (w w' : World η ρ Gate) : Prop :=
  w.inst.core.initThread ≠ some me → SameDriver w w'

variable {host : Host η ρ Gate} {calls : Calls η ρ Gate} {g : Nat}

theorem yields_of_aside (h : w.Aside me w') : Yields me w w' := by
  intro hinit
  have hqueue (g : Nat) : w'.inst.queue g = w.inst.queue g := by
    unfold queue
    rw [h.queues]
  refine ⟨⟨by rw [h.core], by rw [h.core], h.engine, by rw [h.queues], fun g => by rw [hqueue],
    fun g => by rw [hqueue], ?_⟩, h.session⟩
  refine hostHeld_congr (by rw [h.core]) fun u hu => h.slots u ?_
  rintro rfl
  exact hinit hu

theorem Discreet.admits (hd : Discreet host calls) : host.Admits me (Yields me) where
  aside _ _ := yields_of_aside
  native handler args := (hd.native me handler args).mono fun _ _ h _ => h
  drain label vm hint := (hd.drain me label vm hint).mono fun _ _ h _ => h

theorem Discreet.keep (hd : Discreet host calls) : calls.Keep me (Yields me) where
  call label := (hd.call me label).mono fun _ _ h _ => h
  complete label outcome := (hd.complete me label outcome).mono fun _ _ h _ => h

/-- Only threads of the host initialize instances, so another that yields stays in its phase. -/
theorem stays_of_yields (hme : ∀ n, me ≠ .host n) {t : Act η ρ Gate α} (h : t.Keeps (Yields me)) :
    driving.Leads me φ t fun _ ψ => ψ = φ := by
  refine h driving me φ (fun w w' hw hy => allowed_of_sameDriver hw (hy fun hinit => ?_))
    fun _ => trivial
  obtain ⟨n, hn⟩ := hw.1.host me hinit
  exact hme n hn

/-- What the thread of a start knows when it has looked into its queue. -/
def phaseOfNext (g : Nat) : CallQueue.Next η → Phase
  | .stop => .dismissed g
  | .job _ | .idle => .outside

theorem endThread_leads (hme : ∀ n, me ≠ .host n) :
    driving.Leads me (.dismissed g) (endThread me g : Act η ρ Gate Unit)
      fun _ ψ => ψ = .outside := by
  refine (stays_of_yields hme ?_).bind ?_
  · exact ((admits_of_aside fun _ _ => yields_of_aside).keeps_unregister).discard
  rintro _ _ rfl
  refine leads_change fun w ⟨ht, hme⟩ => ⟨.outside, ?_, rfl⟩
  exact ⟨tenure_ended ht hme, trivial, fun u _ =>
    spares_of_queues rfl id id (fun _ => exited_ended)
      fun _ => flag_setQueue (f := CallQueue.stopping) id⟩

theorem looked_enters {q : CallQueue η} {next : CallQueue.Next η}
    (hw : w.inst.Tenure ∧ Phase.outside.Knows me w) (h : Looked (w.inst.queue g) next q) :
    driving.Enters me .outside w { w with inst := w.inst.setQueue g q }
      (· = phaseOfNext g next) := by
  have hsame : SameDriver w { w with inst := w.inst.setQueue g q } := ⟨sameOwner_of_looked h, rfl⟩
  have hallowed := allowed_of_sameDriver hw hsame
  cases next with
  | stop =>
      refine ⟨.dismissed g, ⟨hallowed.tenure, ?_, hallowed.others⟩, rfl⟩
      exact (hsame.inst.stopping g).trans (h.asked rfl)
  | job _ => exact ⟨.outside, hallowed, rfl⟩
  | idle => exact ⟨.outside, hallowed, rfl⟩

/-- **A round of the thread of a start**: it ends only when it was told to. -/
theorem serve_leads (hd : Discreet host calls) (hme : ∀ n, me ≠ .host n) (lastPump : Nat) :
    driving.Leads me .outside (serve host calls me g lastPump) fun _ ψ => ψ = .outside := by
  have hadmits : host.Admits me (Yields me) := hd.admits
  refine (stays (keeps_sameDriver_look _)).bind ?_
  rintro tick _ rfl
  refine (stays (Task.keeps_now.bind fun _ => Task.keeps_pure _)).bind ?_
  rintro limit _ rfl
  refine Protocol.Leads.bind (P := driving) (Q := fun next ψ => ψ = phaseOfNext g next) ?_ ?_
  · refine leads_awaitUntil (fun w next i hw henter => ?_) fun w hw =>
      looked_enters hw looked_nextLate
    obtain ⟨⟨_, q⟩, hnext, heq⟩ := Option.map_eq_some_iff.mp henter
    cases heq
    exact looked_enters hw (looked_of_next? hnext)
  -- what is left of a round that does not end the thread
  have hrest (job : Act η ρ Gate Unit) (hjob : job.Keeps (Yields me)) :
      driving.Leads me .outside (do
        job
        let lastPump ← pumpIfDue host me lastPump
        Threads.poll me
        Task.post me (.serve g lastPump)) fun _ ψ => ψ = .outside := by
    refine stays_of_yields hme (hjob.bind fun _ => (keeps_pumpIfDue hadmits _).bind fun _ => ?_)
    exact (admits_of_aside hadmits.aside).keeps_poll.bind fun _ => Task.keeps_post _ _
  rintro next _ rfl
  cases next with
  | stop => exact endThread_leads hme
  | idle => exact hrest (pure ()) (Task.keeps_pure ())
  | job job => exact hrest _ (keeps_runJob hadmits hd.keep job)

/-- **Whatever a thread starts follows the protocol.** -/
theorem Starts.follows (hd : Discreet host calls) {p : Program (Work η) (World η ρ Gate)}
    (h : Starts host calls askInTurn me p) : driving.Follows me .outside p := by
  have hhalt {t : Act η ρ Gate Unit} (ht : driving.Leads me .outside t fun _ ψ => ψ = .outside) :
      driving.Follows me .outside t.toProgram := ht _ fun _ _ hψ => hψ ▸ .halt
  cases h with
  | request r => exact hhalt (askInTurn_leads r)
  | work w hw =>
      cases w with
      | begin g =>
          have hme : ∀ n, me ≠ .host n := fun n h => nomatch hw.symm.trans h
          refine hhalt (stays_of_yields hme (keeps_beginThread hd.admits g fun w _ => ?_))
          exact ⟨⟨rfl, rfl, rfl, rfl, fun _ => rfl, fun _ => rfl, id⟩, rfl⟩
      | serve g lastPump =>
          have hme : ∀ n, me ≠ .host n := fun n h => nomatch hw.symm.trans h
          exact hhalt (serve_leads hd hme lastPump)
      | reads =>
          refine hhalt (stays (Task.keeps_await fun w _ w' henter => ?_))
          split at henter
          · cases henter
            exact ⟨⟨rfl, rfl, rfl, rfl, fun _ => rfl, fun _ => rfl, id⟩, rfl⟩
          · cases henter
            exact sameDriver_refl
          · cases henter
      | host label => exact hhalt (stays (hd.work me label))

/-! ## 6. Every interleaving -/

/-- A host without code of its own. -/
def silentHost (σ : Type) : Host Empty Unit σ where
  native _ handler _ := handler.elim

/-- Calls of a host that has none. -/
def silentCalls (σ : Type) : Calls Empty Unit σ where
  call _ label := label.elim
  complete _ label _ := label.elim
  work _ label := label.elim

/-- A module whose entry function does nothing. -/
def idleModule : Module where
  flags := 0
  name := "idle"
  strings := []
  functions := [⟨"main", 0, 0, Instruction.encodeBody [.simple .retVoid]⟩]
  classes := []
  natives := []
  entry := 0

theorem load_idleModule : Module.load idleModule.encode = .ok idleModule :=
  Checks.toOption_eq_some.mp (by decide +kernel)

/-- A world whose instance was initialized by the first thread of the host, is to be driven by its
    own thread, and has run the entry function of its module. -/
def readyWorld (session : σ) : World Empty Unit σ :=
  let i := (initRegion .main [] 0 (Instance.create {})).2
  { inst := { i with
      runtime := .free (some ((Vm.create i.settings.vmOptions 0).attempt (Vm.load idleModule)).2)
      core := { i.core with mode := .threaded, state := .entryRan } }
    session }

/-- **A start that a stop does not know of loses its driver**, and its hold, to that stop. -/
theorem start_loses_its_driver :
    ∃ c : Crew (Work Empty) (World Empty Unit Unit),
      Crew.Reached (Starts (silentHost Unit) (silentCalls Unit) ask) (readyWorld ()) c ∧
      c.state.inst.core.mode = .threaded ∧ c.state.inst.core.state.hasModule = true ∧
      c.state.inst.engine.status = .running ∧ c.state.inst.core.vmThread = none ∧
      c.state.inst.Serving 1 ∧ c.state.inst.threads.isRegistered .main = true ∧
      c.state.inst.threads.isHeld .main = false := by
  have h : Crew.Reached (Starts (silentHost Unit) (silentCalls Unit) ask) (readyWorld ()) _ := .begin
  have h := h.move (.start (t := .main) rfl (.request .start))
  have h := h.move (.region (t := .main) rfl rfl)
  have h := h.move (.post (t := .main) rfl)
  -- a second thread asks the thread of the first start to end, and waits
  have h := h.move (.start (t := .host 1) rfl (.request .stop))
  have h := h.move (.region (t := .host 1) rfl rfl)
  have h := h.move (.region (t := .host 1) rfl rfl)
  have h := h.move (.region (t := .host 1) rfl rfl)
  have h := h.move (.region (t := .host 1) rfl rfl)
  have h := h.move (.clock (t := .host 1) rfl 0)
  -- the thread begins, finds that it is to end, and ends
  have h := h.move (.start (t := .own 0) rfl (.work (.begin 0) rfl))
  have h := h.move (.region (t := .own 0) rfl rfl)
  have h := h.move (.region (t := .own 0) rfl rfl)
  have h := h.move (.clock (t := .own 0) rfl 0)
  have h := h.move (.post (t := .own 0) rfl)
  have h := h.move (.start (t := .own 0) rfl (.work (.serve 0 0) rfl))
  have h := h.move (.region (t := .own 0) rfl rfl)
  have h := h.move (.clock (t := .own 0) rfl 0)
  have h := h.move (.regionUntil (t := .own 0) rfl rfl)
  have h := h.move (.region (t := .own 0) rfl rfl)
  have h := h.move (.region (t := .own 0) rfl rfl)
  -- the second thread settles the status, and the first starts again
  have h := h.move (.regionUntil (t := .host 1) rfl rfl)
  have h := h.move (.region (t := .host 1) rfl rfl)
  have h := h.move (.start (t := .main) rfl (.request .start))
  have h := h.move (.region (t := .main) rfl rfl)
  have h := h.move (.post (t := .main) rfl)
  -- the second thread goes on, and takes from the new start what the old one had
  have h := h.move (.region (t := .host 1) rfl rfl)
  have h := h.move (.region (t := .host 1) rfl rfl)
  exact ⟨_, h, rfl, rfl, rfl, rfl, ⟨by decide, rfl⟩, rfl, rfl⟩

/-- **The machine belongs to whom the status says**, at any time and in any order of threads that ask
    in turn, if the instance begins with no thread of its own. -/
theorem ownership_kept (hd : Discreet host calls) {w : World η ρ Gate}
    (hstopped : w.inst.engine.status = .stopped) (hnone : ∀ g, ¬ w.inst.Serving g)
    (hhost : ∀ u, w.inst.core.initThread = some u → ∃ n, u = .host n)
    {c : Crew (Work η) (World η ρ Gate)} (h : Crew.Reached (Starts host calls askInTurn) w c) :
    c.state.inst.Owned := by
  have htenure : w.inst.Tenure :=
    ⟨fun g hg => absurd hg (hnone g), fun hr => (nomatch hstopped.symm.trans hr),
      fun hr => (nomatch hstopped.symm.trans hr), fun _ => hnone, hhost⟩
  obtain ⟨φ, -, ht, -⟩ := Protocol.kept_of_reached (P := driving)
    (fun _ => ⟨htenure, trivial⟩) (fun _ _ => Starts.follows hd) h .main
  exact ht.owned

theorem silent_discreet : Discreet (silentHost Gate) (silentCalls Gate) where
  native _ handler _ := handler.elim
  drain _ label _ _ := label.elim
  call _ label := label.elim
  complete _ label _ := label.elim
  work _ label := label.elim

/-- A start in turn. -/
theorem ready_world_owned :
    ∃ c : Crew (Work Empty) (World Empty Unit Gate),
      Crew.Reached (Starts (silentHost Gate) (silentCalls Gate) askInTurn)
        (readyWorld Gate.clear) c ∧
      c.state.inst.engine.status = .running ∧ c.state.inst.threads.isRegistered .main = true ∧
      c.state.inst.Owned := by
  have h : Crew.Reached (Starts (silentHost Gate) (silentCalls Gate) askInTurn)
      (readyWorld Gate.clear) _ := .begin
  have h := h.move (.start (t := .main) rfl (.request .start))
  have h := h.move (.region (t := .main) rfl rfl)
  have h := h.move (.region (t := .main) rfl rfl)
  have h := h.move (.post (t := .main) rfl)
  have h := h.move (.region (t := .main) rfl rfl)
  -- the thread begins
  have h := h.move (.start (t := .own 0) rfl (.work (.begin 0) rfl))
  have h := h.move (.region (t := .own 0) rfl rfl)
  refine ⟨_, h, rfl, rfl, ownership_kept silent_discreet rfl (fun g hg => ?_) (fun u hu => ?_) h⟩
  · exact absurd hg.1 (Nat.not_lt_zero g)
  · cases hu
    exact ⟨0, rfl⟩

end Instance.Driving

end EmbeddedVm
