import EmbeddedVm.Instance.Events
import EmbeddedVm.Proofs.Events.Forecast
import EmbeddedVm.Proofs.Vm.Delivery
import EmbeddedVm.Proofs.Vm.Moments

/-!
# A probe never hides pending work

Before an instance drains a source of events it asks the machine whether the facility is in use, and
passes the source over if not. What is in use is worked out from counters: the timers less the
cancelled identifiers, the reads in flight, the channel. So a probe is right only because of what
the other operations keep. A cancelled identifier is borne by a timer that is kept, and stands in
the list once, so a timer that is not cancelled is one more (`Sound.length_cancelled_lt`). A read
sends before it settles, so when none is in flight whatever is outstanding waits, and stays where it
is while the probe goes from the count to the channel (`Accompanied.asyncIo_seen`).

Reads finish at any moment, also while an operation is carried out. In a session (`Accompanied`) an
operation does what it does to all else, and to the reads anything is done that moments of their own
lead to; sessions in which reads finish between operations are among these (`InUse.accompanied`).
-/

namespace EmbeddedVm

open Instant

/-! ## 1. Timers that are not cancelled -/

section

variable {τ : Type} [Instant τ]

namespace Scheduler

variable {s : Scheduler τ}

/-- **Where a timer is not cancelled, more timers are kept than are cancelled.** -/
theorem Sound.length_cancelled_lt (h : s.Sound) (hpending : s.pending ≠ []) :
    s.cancelled.length < s.timers.size := by
  have hborne : s.cancelled ⊆ (s.timers.toList.filter fun t => s.isCancelled t.id).map (·.id) := by
    intro id hid
    obtain ⟨t, ht, rfl⟩ := h.borne id hid
    exact List.mem_map.mpr ⟨t, List.mem_filter.mpr ⟨ht, List.contains_iff_mem.mpr hid⟩, rfl⟩
  have hle := (List.subperm_of_subset h.cancelled hborne).length_le
  have hsplit := List.length_eq_length_filter_add (fun t : Timer τ => s.isCancelled t.id)
    (l := s.timers.toList)
  have hpositive : 0 < s.pending.length := List.length_pos_iff.mpr hpending
  unfold pending at hpositive
  rw [List.length_map] at hle
  rw [Array.length_toList] at hsplit
  omega

/-- A scheduler with a callback that will run is active. -/
theorem Sound.isActive (h : s.Sound) (hevents : s.pending ≠ [] ∨ s.mainLoop ≠ []) :
    s.isActive = true := by
  unfold Scheduler.isActive
  rw [Bool.or_eq_true, decide_eq_true_iff, Bool.not_eq_true', List.isEmpty_eq_false_iff]
  exact hevents.symm.imp id h.length_cancelled_lt

/-- A forecast that finds something finds a callback that will run. -/
theorem pending_or_mainLoop_of_hasPending {hint : Option τ} {wall : Nat}
    (h : s.hasPending hint wall = true) : s.pending ≠ [] ∨ s.mainLoop ≠ [] := by
  refine (hasPending_eq_true.mp h).symm.imp_left fun ⟨t, ht, hlive⟩ => ?_
  refine List.ne_nil_of_mem (List.mem_filter.mpr ⟨(List.mem_filter.mp ht).1, ?_⟩)
  simpa [isCancelled] using hlive

end Scheduler

namespace Logbook

variable {d d' : Logbook τ}

/-- Whatever happens to a scheduler keeps it sound, -/
theorem Step.sound (hτ : Linear τ) (h : Step d d') (hs : d.scheduler.Sound) :
    d'.scheduler.Sound := by
  cases h with
  | use huse =>
      cases huse with
      | addTimer callback delay repeats => exact hs.addTimer hτ callback delay repeats
      | addMainLoop callback => exact hs.perform hτ (.addMainLoop callback)
      | cancel id => exact hs.cancel id
  | take _ hint wall => exact ((hs.advance hτ hint wall).takeDue hτ).1
  | call _ | pass _ => exact hs
  | putBack => exact hs.defer _

/-- one thing after the other. -/
theorem Steps.sound (hτ : Linear τ) (h : Steps d d') (hs : d.scheduler.Sound) :
    d'.scheduler.Sound := by
  induction h with
  | refl => exact hs
  | tail _ hstep ih => exact hstep.sound hτ ih

end Logbook

end

namespace Vm

open Delivery

variable {ν : Type} {vm vm' : Vm ν} {d d' : Delivery}

/-- **Every operation keeps the scheduler sound.** -/
theorem Sound.scheduler_perform (h : vm.Sound) {op : Operation ν} {answer : Answer}
    (hop : (vm.perform op).Ends (answer, vm')) (hs : vm.store.scheduler.Sound) :
    vm'.store.scheduler.Sound := by
  have hrest : AtRest vm (Logbook.opened vm.store.scheduler) := ⟨rfl, rfl⟩
  obtain ⟨log, hlater, hrest'⟩ := hrest.comes_perform h hop
  rw [← hrest'.scheduler]
  exact (hlater.steps rfl).1.sound Binary64.linear hs

/-! ## 2. Sessions beside which reads finish -/

/-- **A machine of a session, and what happened to its reads.** An operation is carried out, and
    meanwhile the reads go through moments of their own: code submits them, they finish, a drain
    hands them over and is over. -/
inductive Accompanied : Vm ν → Delivery → Prop where
  | create (options : VmOptions) (wall : Nat) : Accompanied (create options wall) {}
  | perform {vm vm' : Vm ν} {d d' : Delivery} {op : Operation ν} {answer : Answer}
      (h : Accompanied vm d) (hop : (vm.perform op).Ends (answer, vm')) (hreads : Steps d d')
      (hover : d'.taken = none) : Accompanied (vm'.withReactor d'.reactor) d'

/-- What holds of a machine between two operations. -/
structure Rests (vm : Vm ν) (d : Delivery) : Prop where
  sound : vm.Sound
  scheduler : vm.store.scheduler.Sound
  reads : d.Kept
  between : d.taken = none
  reactor : d.reactor = vm.store.reactor

theorem Accompanied.rests (h : Accompanied vm d) : Rests vm d := by
  induction h with
  | create options wall =>
      exact ⟨(Reachable.create options wall).sound, Scheduler.sound_empty Binary64.linear wall,
        kept_start, rfl, rfl⟩
  | perform h hop hreads hover ih =>
      have hchanged := (changes_perform hop).induct (fun _ _ h hc => Sound.change h hc) ih.sound
      have hscheduler := ih.sound.scheduler_perform hop ih.scheduler
      exact ⟨hchanged.change (.events _ _), hscheduler, ih.reads.steps hreads, hover, rfl⟩

/-! ## 3. Sessions in which reads finish between operations -/

/-- A read settles only after it has sent: more reads are in flight than run. -/
def Operation.InOrder (vm : Vm ν) : Operation ν → Prop
  | .settleRead => vm.store.reactor.running.length < vm.store.reactor.inFlight
  | _ => True

/-- **The machines of sessions in which reads finish in order.** -/
inductive InUse : Vm ν → Prop where
  | create (options : VmOptions) (wall : Nat) : InUse (create options wall)
  | perform {vm vm' : Vm ν} {op : Operation ν} {answer : Answer} (h : InUse vm)
      (hop : (vm.perform op).Ends (answer, vm')) (horder : op.InOrder vm) : InUse vm'

/-- Moments lead to the reads of a machine, and no drain is under way. -/
def Leads (d : Delivery) (vm : Vm ν) : Prop :=
  ∃ d', Steps d d' ∧ d'.taken = none ∧ d'.reactor = vm.store.reactor

theorem leads_of_eq (hbetween : d.taken = none) (h : d.reactor = vm.store.reactor) : Leads d vm :=
  ⟨d, .refl, hbetween, h⟩

/-- A call submits reads. -/
theorem Sound.leads_callWith (h : vm.Sound) (hbetween : d.taken = none)
    (hd : d.reactor = vm.store.reactor) {find : Image ν → Except VmError Nat} {args : List Scalar}
    {result : Except VmError Scalar} (hr : (vm.callWith find args).Ends (result, vm')) :
    Leads d vm' := by
  rcases callWith_cases hr with rfl | ⟨image, function, hi, hcall⟩
  · exact leads_of_eq hbetween hd
  · obtain ⟨-, -, submitted, hsteps⟩ := h.callIndex hi hcall hd
    exact ⟨_, hsteps, hbetween, rfl⟩

/-- So does a sweep, with every callback that it calls. -/
theorem Sound.leads_runDue {due : List DueCallback} {ran : Nat} {result : Except VmError Nat}
    (h : vm.Sound) (hr : (vm.runDue due ran).Ends (result, vm')) (hbetween : d.taken = none)
    (hd : d.reactor = vm.store.reactor) : Leads d vm' := by
  induction due generalizing ran vm d with
  | nil =>
      cases Run.ends_done.mp hr
      exact leads_of_eq hbetween hd
  | cons c rest ih =>
      unfold runDue at hr
      split at hr
      · exact ih h hr hbetween hd
      · rename_i image function hc
        obtain ⟨⟨called, vm₁⟩, hcall, hr⟩ := Run.ends_bind.mp hr
        obtain ⟨hsound₁, -, submitted, hsteps⟩ := h.callIndex (callback_eq_some hc).1 hcall hd
        cases called with
        | ok v =>
            obtain ⟨d', hsteps', hbetween', hd'⟩ :=
              ih (d := { d with reactor := vm₁.store.reactor, submitted }) hsound₁ hr hbetween rfl
            exact ⟨d', hsteps.trans hsteps', hbetween', hd'⟩
        | error e =>
            cases Run.ends_done.mp hr
            exact ⟨_, hsteps, hbetween, rfl⟩

/-- A read that runs sends. -/
theorem leads_send (hbetween : d.taken = none) (hd : d.reactor = vm.store.reactor) (id : Nat)
    (result : Except String String) :
    Leads d (vm.withReactor (vm.store.reactor.send id result)) := by
  show ∃ d', Steps d d' ∧ d'.taken = none ∧ d'.reactor = vm.store.reactor.send id result
  rw [← hd]
  cases hfind : d.reactor.running.find? (·.id == id) with
  | none =>
      refine ⟨d, .refl, hbetween, ?_⟩
      unfold Reactor.send
      rw [hfind]
  | some q =>
      obtain rfl : q.id = id :=
        beq_iff_eq.mp (List.find?_some (p := fun q : ReadRequest => q.id == id) hfind)
      exact ⟨d.send q result, (Step.send (List.mem_of_find?_eq_some hfind) result).single,
        hbetween, rfl⟩

/-- A read that has sent settles. -/
theorem leads_settle (hk : d.Kept) (hbetween : d.taken = none)
    (hd : d.reactor = vm.store.reactor)
    (hsent : vm.store.reactor.running.length < vm.store.reactor.inFlight) :
    Leads d (vm.withReactor vm.store.reactor.settle) := by
  have hflight := hk.flight
  rw [hd] at hflight
  obtain ⟨id, hid⟩ := List.exists_mem_of_length_pos (l := d.settling) (by omega)
  refine ⟨d.settle id, (Step.settle hid).single, hbetween, ?_⟩
  show d.reactor.settle = vm.store.reactor.settle
  rw [hd]

/-- **What any operation does to the reads is a run of moments.** -/
theorem Rests.leads (h : Rests vm d) {op : Operation ν} {answer : Answer}
    (hop : (vm.perform op).Ends (answer, vm')) (horder : op.InOrder vm) : Leads d vm' := by
  have hsame := leads_of_eq h.between h.reactor
  unfold perform at hop
  cases op with
  | load m =>
      refine of_answering (allOrNothing_load m) hsame (fun _ vm' hload => ?_) (Run.ends_done.mp hop)
      obtain ⟨-, image, -, rfl⟩ := load_eq_ok hload
      exact leads_of_eq h.between h.reactor
  | callEntry | callFunction | callStatic =>
      exact of_answer (fun _ _ => h.sound.leads_callWith h.between h.reactor) hop
  | setStatic cls field v =>
      refine of_answering (allOrNothing_setStatic cls field v) hsame (fun _ vm' hset => ?_)
        (Run.ends_done.mp hop)
      obtain ⟨ci, fi, f, -, -, rfl⟩ := setStatic_eq_ok hset
      exact leads_of_eq h.between h.reactor
  | drainCooperative hint wall =>
      refine of_answer (fun result vm' hr => ?_) hop
      unfold drainCooperative at hr
      split at hr
      · have hsound := h.sound.change (.events
          ((vm.store.scheduler.advance hint wall).takeDue).1 vm.store.reactor)
        exact hsound.leads_runDue hr h.between h.reactor
      · cases Run.ends_done.mp hr
        exact hsame
  | sendRead id result =>
      cases Run.ends_done.mp hop
      exact leads_send h.between h.reactor id result
  | settleRead =>
      cases Run.ends_done.mp hop
      exact leads_settle h.reads h.between h.reactor horder
  | drainReads =>
      refine of_answer (fun result vm' hr => ?_) hop
      by_cases hl : vm.isLoaded = true
      · obtain ⟨d', hd', hover⟩ := drainReads_handedOver h.sound hr hl h.reactor h.between
        exact ⟨d', hover.steps, hover.between, hd'⟩
      · unfold drainReads at hr
        rw [if_neg hl] at hr
        cases Run.ends_done.mp hr
        exact hsame
  | patch m =>
      refine of_answering (allOrNothing_patch m) hsame (fun _ vm' hp => ?_) (Run.ends_done.mp hop)
      obtain ⟨old, image, inherited, -, -, -, -, -, rfl⟩ := patch_eq_ok hp
      exact leads_of_eq h.between h.reactor
  | collectGarbage =>
      refine of_answer (fun result vm' hr => ?_) hop
      unfold collectGarbage at hr
      cases hr with
      | pause stopped hr =>
          cases stopped with
          | none | some n =>
              cases Run.ends_done.mp hr
              exact leads_of_eq h.between h.reactor
  | registerNative | getStatic | gcStats =>
      cases Run.ends_done.mp hop
      exact leads_of_eq h.between h.reactor

/-- Operations that settle no read lead from machine to machine. -/
theorem InUse.after (h : InUse vm) {ops : List (Operation ν)} (hops : .settleRead ∉ ops) :
    InUse (vm.after ops) := by
  refine after_induct (fun op hop _ _ _ h hperform => h.perform hperform ?_) h
  cases op with
  | settleRead => exact absurd hop hops
  | _ => trivial

/-- **Every session in which reads finish in order is accompanied by moments of theirs.** -/
theorem InUse.accompanied (h : InUse vm) : ∃ d, Accompanied vm d := by
  induction h with
  | create options wall => exact ⟨{}, .create options wall⟩
  | perform h hop horder ih =>
      obtain ⟨d, hd⟩ := ih
      obtain ⟨d', hsteps, hbetween, hreactor⟩ := hd.rests.leads hop horder
      have hnext := hd.perform hop hsteps hbetween
      rw [hreactor] at hnext
      exact ⟨d', hnext⟩

/-! ## 4. The probe -/

/-- A read goes on finishing: one that runs sends, one that has sent settles. -/
inductive Finishes (d : Delivery) : Delivery → Prop where
  | send {q : ReadRequest} (hq : q ∈ d.reactor.running) (result : Except String String) :
    Finishes d (d.send q result)
  | settle {id : Nat} (h : id ∈ d.settling) : Finishes d (d.settle id)

/-- When no read is in flight, none goes on finishing. -/
theorem eq_of_finishes (hk : d.Kept) (hzero : d.reactor.inFlight = 0)
    (h : Relation.ReflTransGen Finishes d d') : d' = d := by
  have hflight := hk.flight
  rw [hzero] at hflight
  induction h with
  | refl => rfl
  | tail _ hstep ih =>
      subst ih
      cases hstep with
      | send hq _ =>
          have hpositive := List.length_pos_of_mem hq
          omega
      | settle hid =>
          have hpositive := List.length_pos_of_mem hid
          omega

/-- What a probe says of background reads that finds the reactor `first` when it looks how many are
    in flight, and `later` when it looks for completions. -/
def asyncIoSeen (vm : Vm ν) (first later : Reactor) : Bool :=
  ((vm.image.map Image.capabilities).getD {}).asyncIo || decide (0 < first.inFlight) ||
    later.hasReady

theorem asyncIo_eq (vm : Vm ν) :
    vm.capabilities.asyncIo = vm.asyncIoSeen vm.store.reactor vm.store.reactor := rfl

/-- **A read that is not dispatched is seen**, however many finish during the probe. -/
theorem Accompanied.asyncIo_seen (h : Accompanied vm d)
    (hopen : vm.store.reactor.outstanding ≠ []) (hf : Relation.ReflTransGen Finishes d d') :
    vm.asyncIoSeen vm.store.reactor d'.reactor = true := by
  have hrests := h.rests
  unfold asyncIoSeen
  rw [Bool.or_eq_true, Bool.or_eq_true, decide_eq_true_iff]
  rcases Nat.eq_zero_or_pos vm.store.reactor.inFlight with hzero | hpositive
  · -- all that is outstanding has been sent, and nothing takes it off the channel meanwhile
    rw [← hrests.reactor] at hzero hopen
    rw [eq_of_finishes hrests.reads hzero hf]
    exact .inr ((hrests.reads.settled hrests.between hzero).2.mpr hopen)
  · exact .inl (.inr hpositive)

/-- **A callback that will run is seen.** -/
theorem Accompanied.cooperative_seen (h : Accompanied vm d)
    (hevents : vm.store.scheduler.pending ≠ [] ∨ vm.store.scheduler.mainLoop ≠ []) :
    vm.capabilities.cooperative = true := by
  show (_ || vm.store.scheduler.isActive) = true
  rw [h.rests.scheduler.isActive hevents, Bool.or_true]

/-! ## 5. Rounds -/

/-- A source of the machine has something to come: a read that is not dispatched, a timer that is
    not cancelled or a callback of every sweep. -/
def Awaits (vm : Vm ν) : Source ν → Prop
  | .asyncIo => vm.store.reactor.outstanding ≠ []
  | .cooperative => vm.store.scheduler.pending ≠ [] ∨ vm.store.scheduler.mainLoop ≠ []
  | .host _ => False

variable {ρ σ : Type}

/-- A source that has something to come takes part. -/
theorem Accompanied.isPresent (h : Accompanied vm d) {s : Source ν} (hs : vm.Awaits s)
    (host : Host ν ρ σ) (session : σ) : (s.resolve host).isPresent vm session = true := by
  cases s with
  | asyncIo =>
      have hseen := h.asyncIo_seen hs .refl
      rw [h.rests.reactor] at hseen
      exact hseen
  | cooperative => exact h.cooperative_seen hs
  | host label => exact hs.elim

/-- A source of the machine that is ready has something to come. -/
theorem Accompanied.awaits_of_hasPending (h : Accompanied vm d) {s : Source ν}
    (hs : s = .asyncIo ∨ s = .cooperative) {host : Host ν ρ σ} {hint : Option Binary64}
    {wall : Nat} {session : σ}
    (hpending : (s.resolve host).hasPending vm hint wall session = true) : vm.Awaits s := by
  rcases hs with rfl | rfl
  · intro hnone
    have htable := h.rests.reads.accounted.table
    unfold inHand at htable
    rw [h.rests.between, h.rests.reactor, hnone] at htable
    have hheld := List.perm_nil.mp htable
    unfold Reactor.held at hheld
    simp only [List.append_eq_nil_iff, List.map_eq_nil_iff] at hheld
    obtain ⟨⟨⟨-, hchannel⟩, -⟩, hdeferred⟩ := hheld
    have hready : vm.store.reactor.hasReady = true := hpending
    unfold Reactor.hasReady at hready
    rw [hchannel, hdeferred] at hready
    cases hready
  · exact Scheduler.pending_or_mainLoop_of_hasPending hpending

end Vm

namespace Instance

variable {η ρ σ : Type}

/-- A look whose answer is known beforehand. -/
theorem read_bind {κ S α : Type} {f : S → Bool} (hf : ∀ s, f s = true) (g : Bool → Task κ S α) :
    (Task.read f >>= g) = (do
      let _ ← Task.read f
      g true) := by
  obtain rfl : f = fun _ => true := funext hf
  rfl

/-- A round that comes to a source which takes part drains it. -/
theorem drainSources_of_present {host : Host η ρ σ} {me : ThreadId} {asked : EventKind}
    {hint : Option Binary64} {s : Source η} {rest : List (Source η)} {total : Nat} {vm : Vm η}
    (hasked : asked.selects (s.resolve host).kind = true)
    (hpresent : ∀ session, (s.resolve host).isPresent vm session = true) :
    drainSources host me asked hint (s :: rest) total vm = (do
      let _ ← Task.read fun w => (s.resolve host).isPresent vm w.session
      match ← (s.resolve host).drain me vm hint with
      | (.ok ran, vm) => drainSources host me asked hint rest (total + ran) vm
      | (.error e, vm) => pure (.error (sourceFailure (s.resolve host).name e), vm)) := by
  rw [drainSources, read_bind fun w : World η ρ σ => hpresent w.session, hasked]
  rfl

end Instance

namespace Vm

/-! ## 6. Main statement -/

/-- **A probe never hides pending work.** Take a machine at any time between two operations of a
    session, whatever calls, drains and replacements came before and however its reads have gone on
    beside them. If a timer is not cancelled or a callback runs on every sweep, the scheduler is seen
    to be in use. If a read is not dispatched, background reads are seen to be in use, also when
    reads finish between the look at the count and the look for completions. So a round that comes
    to a source of the machine with something to come drains it, and a source that is ready has
    something to come. -/
theorem probes_hide_nothing {η ρ σ : Type} {vm : Vm η} {d : Delivery} (h : Accompanied vm d) :
    (vm.store.scheduler.pending ≠ [] ∨ vm.store.scheduler.mainLoop ≠ [] →
      vm.capabilities.cooperative = true) ∧
    (vm.store.reactor.outstanding ≠ [] → ∀ d', Relation.ReflTransGen Finishes d d' →
      vm.asyncIoSeen vm.store.reactor d'.reactor = true) ∧
    (∀ (host : Host η ρ σ) (me : ThreadId) (asked : EventKind) (hint : Option Binary64)
      (s : Source η) (rest : List (Source η)) (total : Nat), vm.Awaits s →
      asked.selects (s.resolve host).kind = true →
      Instance.drainSources host me asked hint (s :: rest) total vm = (do
        let _ ← Task.read fun w => (s.resolve host).isPresent vm w.session
        match ← (s.resolve host).drain me vm hint with
        | (.ok ran, vm) => Instance.drainSources host me asked hint rest (total + ran) vm
        | (.error e, vm) =>
          pure (.error (Instance.sourceFailure (s.resolve host).name e), vm))) ∧
    ∀ (host : Host η ρ σ) (hint : Option Binary64) (wall : Nat) (session : σ) (s : Source η),
      s = .asyncIo ∨ s = .cooperative →
      (s.resolve host).hasPending vm hint wall session = true → vm.Awaits s := by
  refine ⟨h.cooperative_seen, fun hopen d' hf => h.asyncIo_seen hopen hf, ?_, ?_⟩
  · intro host me asked hint s rest total hs hasked
    exact Instance.drainSources_of_present hasked (h.isPresent hs host)
  · intro host hint wall session s hs hpending
    exact h.awaits_of_hasPending hs hpending

/-- A module that schedules a timer and reads a file. -/
def busy : Module where
  flags := 0
  name := "busy"
  strings := ["a.txt"]
  functions := [
    ⟨"main", 0, 0, Instruction.encodeBody
      [.pushInt 5, .callback .timerOnce 1, .simple .pop, .pushString 0, .callback .asyncRead 2,
        .simple .retVoid]⟩,
    ⟨"tick", 0, 0, Instruction.encodeBody [.simple .retVoid]⟩,
    ⟨"take", 1, 1, Instruction.encodeBody [.simple .retVoid]⟩]
  classes := []
  natives := []
  entry := 0

/-- A module with the functions of its callbacks that schedules and reads nothing itself. -/
def idle : Module where
  flags := 0
  name := "busy"
  strings := []
  functions := [
    ⟨"main", 0, 0, Instruction.encodeBody [.simple .retVoid]⟩,
    ⟨"tick", 0, 0, Instruction.encodeBody [.simple .retVoid]⟩,
    ⟨"take", 1, 1, Instruction.encodeBody [.simple .retVoid]⟩]
  classes := []
  natives := []
  entry := 0

/-- The machine after the busy module was replaced. -/
def replaced : Vm Unit := (create {} 0).after [.load busy, .callEntry, .patch idle]

/-- What a replaced module has left is still seen. -/
theorem replaced_module_seen : ∃ d, Accompanied replaced d ∧
    (replaced.image.map Image.capabilities) = some {} ∧
    replaced.store.scheduler.pending ≠ [] ∧ replaced.capabilities.cooperative = true ∧
    replaced.store.reactor.outstanding ≠ [] ∧
    replaced.asyncIoSeen replaced.store.reactor d.reactor = true := by
  have huse : InUse replaced := (InUse.create {} 0).after (by simp)
  obtain ⟨d, hd⟩ := huse.accompanied
  have hpending : replaced.store.scheduler.pending ≠ [] := by decide +kernel
  have hopen : replaced.store.reactor.outstanding ≠ [] := by decide +kernel
  obtain ⟨hcooperative, hasync, -⟩ := probes_hide_nothing (ρ := Unit) (σ := Unit) hd
  exact ⟨d, hd, by decide +kernel, hpending, hcooperative (.inl hpending), hopen,
    hasync hopen d .refl⟩

end Vm

end EmbeddedVm
