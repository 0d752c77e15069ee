import EmbeddedVm.Instance.Engine
import EmbeddedVm.Proofs.Host.Endings
import EmbeddedVm.Proofs.Threads.Alone
import EmbeddedVm.Proofs.Threads.Slots

/-!
# Using the machine is a matter of its own

A thread that uses the machine takes it, plays byte code, puts it back and records failures. It
touches its own slot of the registry and leaves the stage, the instance's own thread with its
queues, the files, and what the host keeps as they are (`World.Aside`). So all of it keeps every
relation that admits such changes and is kept by the host functions and sources of events that are
run meanwhile.
-/

namespace EmbeddedVm

variable {η ρ σ α β : Type} {R : World η ρ σ → World η ρ σ → Prop} {me : ThreadId}

/-- **A change by the thread `me` that is only about using the machine.** -/
structure World.Aside (me : ThreadId) (w w' : World η ρ σ) : Prop where
  core : w'.inst.core = w.inst.core
  engine : w'.inst.engine = w.inst.engine
  queues : w'.inst.queues = w.inst.queues
  files : w'.files = w.files
  session : w'.session = w.session
  slots : w.inst.threads.Tends me w'.inst.threads

/-- **A relation that admits the use of the machine** by the thread `me` of a host: it admits what is
    only about that, and the code of the host that runs meanwhile keeps it. -/
structure Host.Admits (host : Host η ρ σ) (me : ThreadId) (R : World η ρ σ → World η ρ σ → Prop) :
    Prop where
  aside : ∀ w w', w.Aside me w' → R w w'
  native : ∀ handler args, (host.native me handler args).Keeps R
  drain : ∀ label vm hint, ((host.source label).drain me vm hint).Keeps R

/-- The calls of the host, and what hears of their ends, keep a relation. -/
structure Calls.Keep (calls : Calls η ρ σ) (me : ThreadId) (R : World η ρ σ → World η ρ σ → Prop) :
    Prop where
  call : ∀ label, (calls.call me label).Keeps R
  complete : ∀ label outcome, (calls.complete me label outcome).Keeps R

namespace Instance

variable {host : Host η ρ σ}

/-! ## 1. Regions -/

section Protocols

variable {P : Protocol (Work η) (World η ρ σ)} {φ : P.Phase}

theorem leads_region {f : Instance η ρ → α × Instance η ρ} {Q : α → P.Phase → Prop}
    (h : ∀ w, P.holds me φ w → P.Enters me φ w { w with inst := (f w.inst).2 } (Q (f w.inst).1)) :
    P.Leads me φ (region f) Q :=
  Protocol.leads_atomically
    (f := fun w : World η ρ σ => ((f w.inst).1, { w with inst := (f w.inst).2 })) h

theorem leads_change {f : Instance η ρ → Instance η ρ} {Q : Unit → P.Phase → Prop}
    (h : ∀ w, P.holds me φ w → P.Enters me φ w { w with inst := f w.inst } (Q ())) :
    P.Leads me φ (change f) Q := leads_region (f := fun i => ((), f i)) h

theorem leads_awaitUntil {deadline : Option Nat} {f : Instance η ρ → Option (α × Instance η ρ)}
    {late : Instance η ρ → α × Instance η ρ} {Q : α → P.Phase → Prop}
    (h : ∀ w a i, P.holds me φ w → f w.inst = some (a, i) →
      P.Enters me φ w { w with inst := i } (Q a))
    (hl : ∀ w, P.holds me φ w →
      P.Enters me φ w { w with inst := (late w.inst).2 } (Q (late w.inst).1)) :
    P.Leads me φ (awaitUntil deadline f late) Q := by
  refine Protocol.leads_awaitAtMost (fun w a w' hw he => ?_) hl
  obtain ⟨⟨_, i⟩, hf, heq⟩ := Option.map_eq_some_iff.mp he
  cases heq
  exact h w _ i hw hf

/-- An operation whose failure is recorded ends in the phases in which it ended before, if a
    protocol has nothing against the record. -/
theorem tracked_leads {op : Operation η ρ σ α} {Q : P.Phase → Prop}
    (h : P.Leads me φ op.run fun _ ψ => Q ψ)
    (hrecord : ∀ e ψ, P.Leads me ψ (record e) fun _ χ => χ = ψ) :
    P.Leads me φ (tracked op).run fun _ ψ => Q ψ := by
  refine h.tryCatch (fun _ _ hq => hq) fun e ψ hq => (hrecord e ψ).bindLift ?_
  rintro _ _ rfl
  exact Protocol.leads_pure hq

end Protocols

theorem keeps_change {f : Instance η ρ → Instance η ρ}
    (h : ∀ w : World η ρ σ, R w { w with inst := f w.inst }) :
    (change f : Act η ρ σ Unit).Keeps R :=
  Task.keeps_atomically (f := fun w : World η ρ σ => ((), { w with inst := f w.inst })) h

theorem keeps_region {f : Instance η ρ → α × Instance η ρ}
    (h : ∀ w : World η ρ σ, R w { w with inst := (f w.inst).2 }) :
    (region f : Act η ρ σ α).Keeps R :=
  Task.keeps_atomically
    (f := fun w : World η ρ σ => ((f w.inst).1, { w with inst := (f w.inst).2 })) h

theorem keeps_await {f : Instance η ρ → Option (α × Instance η ρ)}
    (h : ∀ (w : World η ρ σ) a i, f w.inst = some (a, i) → R w { w with inst := i }) :
    (await f : Act η ρ σ α).Keeps R := by
  refine Task.keeps_await fun w a w' he => ?_
  obtain ⟨⟨_, i⟩, hf, heq⟩ := Option.map_eq_some_iff.mp he
  cases heq
  exact h w _ i hf

theorem keeps_awaitUntil {deadline : Option Nat} {f : Instance η ρ → Option (α × Instance η ρ)}
    {late : Instance η ρ → α × Instance η ρ}
    (h : ∀ (w : World η ρ σ) a i, f w.inst = some (a, i) → R w { w with inst := i })
    (hl : ∀ w : World η ρ σ, R w { w with inst := (late w.inst).2 }) :
    (awaitUntil deadline f late : Act η ρ σ α).Keeps R := by
  refine Task.keeps_awaitUntil (fun w a w' he => ?_) hl
  obtain ⟨⟨_, i⟩, hf, heq⟩ := Option.map_eq_some_iff.mp he
  cases heq
  exact h w _ i hf

section Regions

variable (hR : ∀ w w', World.Aside me w w' → R w w')

include hR

theorem admits_of_aside : Threads.Admits me R where
  refl w := hR w w ⟨rfl, rfl, rfl, rfl, rfl, .refl⟩
  tends w _ h := hR w _ ⟨rfl, rfl, rfl, rfl, rfl, h⟩

theorem keeps_look (f : Instance η ρ → α) : (look f : Act η ρ σ α).Keeps R :=
  (admits_of_aside hR).keeps_read _

theorem keeps_check (f : Instance η ρ → Except InstanceError α) :
    (ExceptT.mk (look f) : Operation η ρ σ α).run.Keeps R := keeps_look hR f

theorem keeps_record (e : InstanceError) : (record e : Act η ρ σ Unit).Keeps R :=
  keeps_change fun w => hR w _ ⟨rfl, rfl, rfl, rfl, rfl, .refl⟩

theorem keeps_tracked {op : Operation η ρ σ α} (h : op.run.Keeps R) : (tracked op).run.Keeps R :=
  h.tryCatch fun e => (keeps_record hR e).lift.bindOk fun _ => Task.keeps_throw e

/-! ## 2. Taking the machine -/

theorem keeps_putBack (vm : Option (Vm η)) : (putBack vm : Act η ρ σ Unit).Keeps R :=
  keeps_change fun w => hR w _ ⟨rfl, rfl, rfl, rfl, rfl, .refl⟩

theorem keeps_acquire : (acquire me : Operation η ρ σ (Option (Vm η))).run.Keeps R := by
  have hA := admits_of_aside hR
  refine (keeps_region fun w => hR w _ ?_).lift.bindOk fun found => ?_
  · split <;> exact ⟨rfl, rfl, rfl, rfl, rfl, .refl⟩
  cases found with
  | free vm => exact Task.keeps_ok vm
  | taken =>
      refine (keeps_look hR _).lift.bindOk fun owner => ?_
      split
      · exact Task.keeps_throw _
      · refine hA.keeps_blockingBegin.lift.bindOk fun bracket => ?_
        refine (keeps_await fun w a i hi => hR w _ ?_).lift.bindOk fun vm => ?_
        · split at hi
          · cases hi
            exact ⟨rfl, rfl, rfl, rfl, rfl, .refl⟩
          · cases hi
        split
        · refine hA.keeps_blockingEnd.lift.bindOk fun closed => ?_
          cases closed with
          | ok _ => exact Task.keeps_ok vm
          | error e =>
              exact (keeps_putBack hR vm).lift.bindOk fun _ => Task.keeps_throw _
        · exact Task.keeps_ok vm

theorem keeps_release (vm : Vm η) : (release vm : Act η ρ σ Unit).Keeps R := by
  refine (keeps_putBack hR _).bind fun _ => ?_
  split
  · exact Task.keeps_post _ _
  · exact Task.keeps_pure _

/-- **Whatever is done with the machine**, taking it and putting it back is nothing else. -/
theorem keeps_withVm {f : Vm η → Act η ρ σ (Except InstanceError α × Vm η)}
    (hf : ∀ vm, (f vm).Keeps R) : (withVm me f).run.Keeps R := by
  have haccess : (requireAccess me : Operation η ρ σ Unit).run.Keeps R := keeps_check hR _
  refine haccess.bindOk fun _ => (keeps_acquire hR).bindOk fun found => ?_
  cases found with
  | none => exact (keeps_putBack hR none).lift.bindOk fun _ => Task.keeps_throw _
  | some vm =>
      refine (keeps_change fun w => hR w _ ⟨rfl, rfl, rfl, rfl, rfl, .refl⟩).lift.bindOk fun _ => ?_
      refine (hf vm).lift.bindOk fun outcome => ?_
      refine (keeps_change fun w => hR w _ ⟨rfl, rfl, rfl, rfl, rfl, .refl⟩).lift.bindOk fun _ => ?_
      exact (keeps_release hR _).lift.bindOk fun _ => Task.keeps_pure _

theorem keeps_withLoadedVm {f : Vm η → Act η ρ σ (Except InstanceError α × Vm η)}
    (hf : ∀ vm, (f vm).Keeps R) : (withLoadedVm me f).run.Keeps R := by
  refine (keeps_look hR _).lift.bindOk fun loaded => ?_
  split
  · exact Task.keeps_throw _
  · exact keeps_withVm hR hf

end Regions

/-! ## 3. Byte code and events -/

section Play

variable (hR : Threads.Admits me R)
  (hn : ∀ handler args, (host.native me handler args).Keeps R)

include hR hn

/-- **Byte code that is played ends with one of the ends of its run.** -/
theorem yields_play (run : Run η α) : (play host me run).Yields R run.Ends := by
  induction run with
  | done a => exact Task.yields_pure (.done a)
  | invoke handler args resume ih =>
      exact (hn handler args).yields.bind fun answer _ => (ih answer).mono fun _ => .invoke answer
  | pause resume ih =>
      unfold play
      refine (hR.keeps_paused (Task.keeps_pure ())).yields.bind fun result _ => ?_
      cases result with
      | ok _ => exact (ih none).mono fun _ => .pause none
      | error e => cases e <;> exact (ih _).mono fun _ => .pause _
  | exhausted => exact Task.yields_forever

theorem yields_runVm (run : Vm η → Run η (Except VmError α × Vm η)) (vm : Vm η) :
    (runVm host me run vm : Act η ρ σ (Except InstanceError α × Vm η)).Yields R
      fun outcome => ∃ result, (run vm).Ends (result, outcome.2) :=
  (yields_play hR hn _).bind fun outcome h => Task.yields_pure ⟨outcome.1, h⟩

end Play

section Code

variable (hh : host.Admits me R)

include hh

theorem keeps_play (run : Run η α) : (play host me run).Keeps R :=
  (yields_play (admits_of_aside hh.aside) hh.native run).keeps

theorem keeps_runVm (run : Vm η → Run η (Except VmError α × Vm η)) (vm : Vm η) :
    (runVm host me run vm : Act η ρ σ (Except InstanceError α × Vm η)).Keeps R :=
  (yields_runVm (admits_of_aside hh.aside) hh.native run vm).keeps

theorem keeps_drainSource (source : Source η) (vm : Vm η) (hint : Option Binary64) :
    ((source.resolve host).drain me vm hint).Keeps R := by
  cases source with
  | asyncIo => exact keeps_play hh _
  | cooperative => exact Task.keeps_now.bind fun _ => keeps_play hh _
  | host label => exact hh.drain label vm hint

theorem keeps_drainSources (asked : EventKind) (hint : Option Binary64) (sources : List (Source η))
    (total : Nat) (vm : Vm η) : (drainSources host me asked hint sources total vm).Keeps R := by
  induction sources generalizing total vm with
  | nil => exact Task.keeps_pure _
  | cons source rest ih =>
      refine ((admits_of_aside hh.aside).keeps_read _).bind fun isPresent => ?_
      split
      · refine (keeps_drainSource hh source vm hint).bind fun (result, vm) => ?_
        cases result with
        | ok ran => exact ih _ vm
        | error e => exact Task.keeps_pure _
      · exact ih total vm

theorem keeps_pump (asked : EventKind) (hint : Option Binary64) :
    (pump host me asked hint).run.Keeps R := by
  refine keeps_withVm hh.aside fun vm => ?_
  split
  · refine (keeps_await fun w a i hi => hh.aside w _ ?_).bind fun sources => ?_
    · split at hi
      · cases hi
      · cases hi
        exact ⟨rfl, rfl, rfl, rfl, rfl, .refl⟩
    · refine (keeps_drainSources hh asked hint sources 0 vm).bind fun _ => ?_
      exact (keeps_change fun w => hh.aside w _ ⟨rfl, rfl, rfl, rfl, rfl, .refl⟩).bind fun _ =>
        Task.keeps_pure _
  · exact Task.keeps_pure _

theorem keeps_process (asked : EventKind) : (process host me asked).run.Keeps R :=
  keeps_tracked hh.aside (keeps_pump hh asked none)

/-- The entry function is run with the machine; that it ran is for the relation to admit. -/
theorem keeps_callEntry (hentered : ∀ w : World η ρ σ,
      R w { w with inst := { w.inst with core := { w.inst.core with state := .entryRan } } }) :
    (callEntry host me).run.Keeps R := by
  refine keeps_tracked hh.aside ?_
  have hadmit : (admitEntry me : Operation η ρ σ Unit).run.Keeps R := keeps_check hh.aside _
  refine hadmit.bindOk fun _ => ?_
  refine Task.Keeps.bindOk (t := discard _) ?_ fun _ => ?_
  · exact (keeps_withVm hh.aside (keeps_runVm hh _)).bindOk fun _ => Task.keeps_ok _
  · exact (keeps_change hentered).lift

/-! ## 4. The instance's own thread -/

theorem keeps_beginThread (generation : Nat) (hentered : ∀ w : World η ρ σ,
      R w { w with inst := { w.inst with core := { w.inst.core with state := .entryRan } } }) :
    (beginThread host me generation).Keeps R := by
  refine (admits_of_aside hh.aside).keeps_register.discard.bind fun _ => ?_
  refine (keeps_look hh.aside _).bind fun state => ?_
  split
  · refine (keeps_callEntry hh hentered).discard.bind fun _ => ?_
    exact Task.keeps_now.bind fun _ => Task.keeps_post _ _
  · exact Task.keeps_now.bind fun _ => Task.keeps_post _ _

theorem keeps_runJob {calls : Calls η ρ σ} (hc : calls.Keep me R) (job : Job η) :
    (runJob calls me job).Keeps R := by
  refine (hc.call job.call).bind fun outcome => ?_
  split
  · exact keeps_change fun w => hh.aside w _ ⟨rfl, rfl, rfl, rfl, rfl, .refl⟩
  · exact Task.keeps_pure _
  · exact hc.complete _ _

theorem keeps_pumpIfDue (lastPump : Nat) : (pumpIfDue host me lastPump).Keeps R := by
  refine (keeps_look hh.aside _).bind fun tick => Task.keeps_now.bind fun now => ?_
  split
  · exact Task.keeps_pure _
  · refine (keeps_look hh.aside _).bind fun state => ?_
    split
    · exact (keeps_process hh .all).discard.bind fun _ => Task.keeps_now
    · exact Task.keeps_now

end Code

/-! ## 5. One thread alone -/

section Alone

variable {starts : ThreadId → Program (Work η) (World η ρ σ) → Prop} {w₀ w w' : World η ρ σ}
  {vm vm' : Vm η}

theorem look_passes {f : Instance η ρ → α} {a : α} (h : f w.inst = a) :
    (look f : Act η ρ σ α).Passes starts w₀ me w a w := Task.passes_read h

theorem region_passes {f : Instance η ρ → α × Instance η ρ} {a : α} {i : Instance η ρ}
    (h : f w.inst = (a, i)) : (region f : Act η ρ σ α).Passes starts w₀ me w a { w with inst := i } := by
  unfold region
  refine Task.passes_atomically ?_
  rw [h]

/-- **A thread that is let in does something with the machine** when nobody else has it. -/
theorem withVm_passes {f : Vm η → Act η ρ σ (Except InstanceError α × Vm η)}
    {result : Except InstanceError α} (hlive : requireLive w.inst.core = .ok ())
    (haffinity : w.inst.checkAffinity me = .ok ()) (hplace : w.inst.runtime = .free (some vm))
    (hf : (f vm).Passes starts w₀ me
      { w with inst := { w.inst with runtime := .taken, owner := some me } } (result, vm') w')
    (hidle : vm'.store.reactor.running.isEmpty = true) :
    (withVm me f).run.Passes starts w₀ me w result
      { w' with inst := { w'.inst with runtime := .free (some vm'), owner := none } } := by
  have haccess : (requireAccess me : Operation η ρ σ Unit).run.Passes starts w₀ me w (.ok ()) w := by
    unfold requireAccess
    rw [ExceptT.run_mk]
    refine look_passes ?_
    rw [hlive]
    exact haffinity
  have htake : (tryTake : Act η ρ σ _).Passes starts w₀ me w (.free (some vm))
      { w with inst := { w.inst with runtime := .taken } } := by
    unfold tryTake
    refine region_passes ?_
    rw [hplace]
  have hacquire : (acquire me : Operation η ρ σ _).run.Passes starts w₀ me w
      (.ok (some vm)) { w with inst := { w.inst with runtime := .taken } } :=
    htake.lift.bindOk (Task.passes_pure _)
  have hrelease (w : World η ρ σ) : (release vm' : Act η ρ σ Unit).Passes starts w₀ me w ()
      { w with inst := { w.inst with runtime := .free (some vm') } } := by
    refine (Task.passes_change _).bind ?_
    rw [hidle]
    exact Task.passes_pure ()
  refine haccess.bindOk (hacquire.bindOk ?_)
  refine (Task.passes_change _).lift.bindOk (hf.lift.bindOk ?_)
  exact (Task.passes_change _).lift.bindOk ((hrelease _).lift.bindOk (Task.passes_pure _))

end Alone

end Instance

end EmbeddedVm
