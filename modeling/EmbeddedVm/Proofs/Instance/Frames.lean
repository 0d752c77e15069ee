import EmbeddedVm.Instance.Events
import EmbeddedVm.Proofs.Checks
import EmbeddedVm.Proofs.Instance.Ownership
import EmbeddedVm.Proofs.Vm.FrameClock

/-!
# Frames one after the other

A host that drives the machine from a loop of its own tells it how long each frame was. Within an
instance the length goes to one source of events after the other, and a source that fails ends the
round; the clock moves when the scheduler is asked, which is the second of them. `Moves` says what a
frame does to the clock, in terms of how the finished reads ahead of the scheduler were handed over.

Frames, and whatever else is done with the machine, come in their turn from any threads; each frame
is written down in a `Ledger` with the machine that it found. Background reads, and any code that
leaves the machine alone, go on beside them. In the protocol of it all a thread whose turn it is
knows the place of the machine exactly, so what is checked of a frame is its own code
(`update_leads`, `Starts.follows`).
-/

namespace EmbeddedVm

variable {η ρ σ α β : Type}

/-- **A machine while reads are carried out in the background**: it differs in what has been read. -/
def Vm.Fetches : Vm η → Vm η → Prop :=
  Relation.ReflTransGen fun vm vm' => ∃ read, vm' = vm.finishReads read

/-- What is read in the background is a matter of the reactor. -/
theorem Vm.Fetches.exists_withReactor {vm vm' : Vm η} (h : vm.Fetches vm') :
    ∃ reactor, vm' = vm.withReactor reactor := by
  induction h with
  | refl => exact ⟨vm.store.reactor, rfl⟩
  | tail _ hread ih =>
      obtain ⟨reactor, rfl⟩ := ih
      obtain ⟨read, rfl⟩ := hread
      exact ⟨reactor.finishAll read, rfl⟩

namespace Instance.Frames

/-! ## 1. Frames one after the other -/

/-- A frame that has ended. -/
structure Entry (η : Type) where
  /-- Its length in seconds. -/
  delta : Binary64
  /-- Its thread might touch the machine. -/
  admitted : Bool
  /-- The machine that it found. -/
  machine : Option (Vm η)
  result : Except InstanceError Unit
  /-- The clock of the machine that it left. -/
  clock : Option Binary64

/-- How the host keeps apart what is done with the machine. -/
structure Ledger (η σ : Type) where
  /-- The thread that does something with the machine. -/
  active : Option ThreadId := none
  /-- The frames that have ended, the last one first. -/
  ended : List (Entry η) := []
  /-- Whatever else the host keeps. -/
  other : σ

/-- Whether the thread `me` may touch the machine. -/
def admits (i : Instance η ρ) (me : ThreadId) : Bool :=
  (do requireLive i.core; i.checkAffinity me : Except InstanceError Unit).isOk

/-- The clock of the machine, unless some thread has it. -/
def clock? (i : Instance η ρ) : Option Binary64 :=
  match i.runtime with
  | .free (some vm) => some vm.clock
  | _ => none

/-- Waits until nothing is done with the machine, and begins: what it finds. -/
def enter (me : ThreadId) : Act η ρ (Ledger η σ) (Bool × Option (Vm η)) :=
  Task.await fun w => match w.session.active, w.inst.runtime with
    | none, .free vm =>
      some ((admits w.inst me, vm), { w with session := { w.session with active := some me } })
    | _, _ => none

/-- Ends a frame. -/
def leave (delta : Binary64) (found : Bool × Option (Vm η)) (result : Except InstanceError Unit) :
    Act η ρ (Ledger η σ) Unit :=
  Task.change fun w => { w with
    session := { w.session with
      active := none
      ended := ⟨delta, found.1, found.2, result, clock? w.inst⟩ :: w.session.ended } }

/-- A frame in its turn. -/
def frame (host : Host η ρ (Ledger η σ)) (me : ThreadId) (delta : Binary64) :
    Act η ρ (Ledger η σ) Unit := do
  let found ← enter me
  let result ← (update host me delta).run
  leave delta found result

/-- Something else in its turn. -/
def inTurn (me : ThreadId) (op : Operation η ρ (Ledger η σ) α) : Act η ρ (Ledger η σ) Unit := do
  let _ ← enter me
  let _ ← op.run
  Task.change fun w => { w with session := { w.session with active := none } }

/-- The place of the machine while background reads go on. -/
inductive Stays : Exclusive (Option (Vm η)) → Exclusive (Option (Vm η)) → Prop where
  | same {place : Exclusive (Option (Vm η))} : Stays place place
  | read {vm : Vm η} (read : String → Except String String) :
    Stays (.free (some vm)) (.free (some (vm.finishReads read)))

/-- **A change beside what is done with the machine**: the machine stays in its place, or away from
    it, the host registers sources of events at most, and no other thread is locked out or let
    in. -/
structure Beside (me : ThreadId) (w w' : World η ρ (Ledger η σ)) : Prop where
  place : Stays w.inst.runtime w'.inst.runtime
  sources : ∃ labels : List η, w'.inst.sources = w.inst.sources ++ labels.map .host
  admits : ∀ u, u ≠ me → admits w'.inst u = admits w.inst u
  session : w'.session = w.session

/-- Something that is done with the machine, and leaves a sound one. -/
def Careful (me : ThreadId)
    (f : Vm η → Act η ρ (Ledger η σ) (Except InstanceError α × Vm η)) : Prop :=
  ∀ vm, vm.Sound → (f vm).Yields (Beside me) fun outcome => outcome.2.Sound

/-- **What a thread may start**: frames and any other use of the machine in their turn, background
    reads, and any code beside. -/
inductive Starts (host : Host η ρ (Ledger η σ)) (me : ThreadId) :
    Program (Work η) (World η ρ (Ledger η σ)) → Prop where
  | frame (delta : Binary64) : Starts host me (frame host me delta).toProgram
  | use {α : Type} {f : Vm η → Act η ρ (Ledger η σ) (Except InstanceError α × Vm η)}
    (h : Careful me f) : Starts host me (inTurn me (tracked (withVm me f))).toProgram
  | useLoaded {α : Type} {f : Vm η → Act η ρ (Ledger η σ) (Except InstanceError α × Vm η)}
    (h : Careful me f) : Starts host me (inTurn me (tracked (withLoadedVm me f))).toProgram
  | reads : Starts host me (finishReads : Act η ρ (Ledger η σ) Unit).toProgram
  | beside {t : Act η ρ (Ledger η σ) Unit} (h : t.Keeps (Beside me)) : Starts host me t.toProgram

/-- **Code of the host that leaves the clock to the instance**: its functions do not call back, and
    a source of events leaves the clock of the machine it is given. -/
structure Punctual (host : Host η ρ (Ledger η σ)) : Prop where
  native : ∀ me handler args, (host.native me handler args).Keeps (Beside me)
  drain : ∀ me label vm hint, vm.Sound →
    ((host.source label).drain me vm hint).Yields (Beside me) fun outcome =>
      outcome.2.Sound ∧ outcome.2.clock = vm.clock

/-! ## 2. What a round does to the clock -/

/-- **What a frame does to the clock** of a machine: it moves it by the length of the frame, if the
    reads that were finished are handed over; if the callback of one throws, the frame ends with
    its failure and the clock stands. -/
inductive Moves (vm : Vm η) (delta : Binary64) : Except InstanceError α → Binary64 → Prop where
  | drained {ran : Nat} {vm' : Vm η} {result : Except InstanceError α}
    (h : vm.drainReads.Ends (.ok ran, vm')) : Moves vm delta result (vm.clock + delta)
  | thrown {failure : VmError} {vm' : Vm η} (h : vm.drainReads.Ends (.error failure, vm')) :
    Moves vm delta (.error (sourceFailure "async-io" failure)) vm.clock

/-- What a frame leaves. -/
structure Leaves (vm : Vm η) (delta : Binary64) (result : Except InstanceError α) (vm' : Vm η) :
    Prop where
  sound : vm'.Sound
  moves : vm.capabilities.cooperative = true → delta.isFinite = true → delta.lt .zero = false →
    Moves vm delta result vm'.clock

/-- How a frame that has ended is to be, in terms of the machine that it found. -/
def Entry.Right (e : Entry η) : Prop :=
  ∀ vm, e.machine = some vm → e.admitted = true → vm.isLoaded = true →
    vm.capabilities.cooperative = true → e.delta.isFinite = true → e.delta.lt .zero = false →
    ∃ vm' clock, vm.Fetches vm' ∧ e.clock = some clock ∧ Moves vm' e.delta e.result clock

variable {w w' : World η ρ (Ledger η σ)} {me : ThreadId} {host : Host η ρ (Ledger η σ)}
  {vm vm' : Vm η} {delta : Binary64}

/-- Who may touch the machine is a matter of the core and of who is registered. -/
theorem admits_congr {i i' : Instance η ρ} {u : ThreadId} (hcore : i'.core = i.core)
    (hregistered : i'.threads.isRegistered u = i.threads.isRegistered u) :
    admits i' u = admits i u := by
  unfold admits checkAffinity
  rw [hcore, hregistered]

theorem besideAdmits :
    Threads.Admits me (Beside me : World η ρ (Ledger η σ) → World η ρ (Ledger η σ) → Prop) where
  refl w := ⟨.same, ⟨[], by simp⟩, fun _ _ => rfl, rfl⟩
  tends w r h := by
    refine ⟨.same, ⟨[], by simp [HasThreads.setThreads]⟩, fun u hu => ?_, rfl⟩
    exact admits_congr rfl (ThreadRegistry.isRegistered_congr (h u hu))

/-- What is read from the world is read from some world. -/
theorem yields_read (f : World η ρ (Ledger η σ) → α) :
    (Task.read f : Act η ρ (Ledger η σ) α).Yields (Beside me) fun a => ∃ w, a = f w :=
  fun _ _ φ ha _ => Protocol.leads_read fun w hw =>
    ⟨φ, ha w w hw (besideAdmits.refl w), rfl, w, rfl⟩

/-- **A round with one source more**: it is drained or, if it is not present, passed over. -/
theorem yields_cons {s : Source η} {rest : List (Source η)} {hint : Option Binary64} {total : Nat}
    {Drained : Except VmError Nat × Vm η → Prop} {Q : Except InstanceError Nat × Vm η → Prop}
    (hdrain : ((s.resolve host).drain me vm hint).Yields (Beside me) Drained)
    (hok : ∀ ran vm', Drained (.ok ran, vm') →
      (drainSources host me .all hint rest (total + ran) vm').Yields (Beside me) Q)
    (herror : ∀ e vm', Drained (.error e, vm') →
      Q (.error (sourceFailure (s.resolve host).name e), vm'))
    (habsent : ∀ session, (s.resolve host).isPresent vm session = false →
      (drainSources host me .all hint rest total vm).Yields (Beside me) Q) :
    (drainSources host me .all hint (s :: rest) total vm).Yields (Beside me) Q := by
  refine (yields_read fun w => (s.resolve host).isPresent vm w.session).bind ?_
  rintro isPresent ⟨w, rfl⟩
  split
  · refine hdrain.bind fun (result, vm') hdrained => ?_
    cases result with
    | ok ran => exact hok ran vm' hdrained
    | error e => exact Task.yields_pure (herror e vm' hdrained)
  · rename_i habsence
    exact habsent w.session (by simpa [EventKind.selects] using habsence)

section Rounds

variable (hp : Punctual host)

include hp

theorem yields_played {run : Run η (Except VmError Nat × Vm η)} :
    (play host me run).Yields (Beside me) run.Ends :=
  yields_play besideAdmits (hp.native me) run

/-- The sources of the host leave the clock. -/
theorem yields_hostSources (labels : List η) (hint : Option Binary64) (total : Nat)
    (h : vm.Sound) :
    (drainSources host me .all hint (labels.map .host) total vm).Yields (Beside me) fun outcome =>
      outcome.2.Sound ∧ outcome.2.clock = vm.clock := by
  induction labels generalizing total vm with
  | nil => exact Task.yields_pure ⟨h, rfl⟩
  | cons label rest ih =>
      refine yields_cons (hp.drain me label vm hint h) (fun ran vm' ⟨hsound, hclock⟩ => ?_)
        (fun _ _ hdrained => hdrained) fun _ _ => ih total h
      exact hclock ▸ ih (total + ran) hsound

/-- The scheduler, and the sources of the host behind it. -/
theorem yields_cooperative (labels : List η) (total : Nat) (h : vm.Sound)
    (hl : vm.isLoaded = true) :
    (drainSources host me .all (some delta) (.cooperative :: labels.map .host) total vm).Yields
      (Beside me) fun outcome => outcome.2.Sound ∧
        (vm.capabilities.cooperative = true → delta.isFinite = true → delta.lt .zero = false →
          outcome.2.clock = vm.clock + delta) := by
  have hdrain : ((Source.resolve host .cooperative).drain me vm (some delta)).Yields (Beside me)
      fun outcome => outcome.2.Sound ∧ (delta.isFinite = true → delta.lt .zero = false →
        outcome.2.clock = vm.clock + delta) := by
    refine Task.keeps_now.yields.bind fun wall _ => (yields_played hp).mono ?_
    rintro ⟨result, vm'⟩ hends
    exact ⟨(Vm.changes_drainCooperative hends).induct (fun _ _ => Vm.Sound.change) h,
      fun hfinite hlength => (h.clock_drainCooperative hl hfinite hlength hends).2⟩
  refine yields_cons hdrain (fun ran vm' ⟨hsound, hclock⟩ => ?_)
    (fun _ _ ⟨hsound, hclock⟩ => ⟨hsound, fun _ => hclock⟩) fun session habsent => ?_
  · refine (yields_hostSources hp labels _ _ hsound).mono fun outcome ⟨hsound', hclock'⟩ => ?_
    exact ⟨hsound', fun _ hfinite hlength => hclock'.trans (hclock hfinite hlength)⟩
  · refine (yields_hostSources hp labels _ _ h).mono fun outcome ⟨hsound', _⟩ => ?_
    refine ⟨hsound', fun hpresent => ?_⟩
    cases hpresent.symm.trans habsent

/-- **A round of a frame.** -/
theorem yields_round (labels : List η) (h : vm.Sound) (hl : vm.isLoaded = true) :
    (drainSources host me .all (some delta) (.asyncIo :: .cooperative :: labels.map .host) 0
      vm).Yields (Beside me) fun outcome => Leaves vm delta outcome.1 outcome.2 := by
  refine yields_cons (yields_played hp) (fun ran vm₁ hends => ?_) (fun e vm₁ hends => ?_)
    fun session habsent => ?_
  · obtain ⟨hsound, hclock⟩ := h.clock_drainReads hends
    have hl₁ : vm₁.isLoaded = true := (congrArg Option.isSome (Vm.image_drainReads hends)).trans hl
    refine (yields_cooperative hp labels _ hsound hl₁).mono fun outcome ⟨hsound', hmoved⟩ => ?_
    refine ⟨hsound', fun hpresent hfinite hlength => ?_⟩
    rw [hmoved (h.present_drainReads hpresent hends) hfinite hlength, hclock]
    exact .drained hends
  · obtain ⟨hsound, hclock⟩ := h.clock_drainReads hends
    refine ⟨hsound, fun _ _ _ => ?_⟩
    show Moves vm delta _ vm₁.clock
    rw [hclock]
    exact .thrown hends
  · have hready : vm.store.reactor.hasReady = false := (Bool.or_eq_false_iff.mp habsent).2
    obtain ⟨vm₁, hdone⟩ := Vm.drainReads_of_not_ready hready
    have hends : vm.drainReads.Ends (.ok 0, vm₁) := hdone ▸ .done _
    refine (yields_cooperative hp labels _ h hl).mono fun outcome ⟨hsound', hmoved⟩ => ?_
    refine ⟨hsound', fun hpresent hfinite hlength => ?_⟩
    rw [hmoved hpresent hfinite hlength]
    exact .drained hends

end Rounds

/-! ## 3. The protocol -/

/-- How far a thread is. -/
inductive Phase (η : Type) where
  | outside
  /-- It has begun, and has not taken the machine yet; so it found things. -/
  | begun (admitted : Bool) (machine : Option (Vm η))
  /-- It has the machine. -/
  | holding
  /-- It has put the machine back with this clock. -/
  | settled (clock : Option Binary64)

/-- A machine is in its place, with what has been read meanwhile. -/
def InPlace (machine : Option (Vm η)) (place : Exclusive (Option (Vm η))) : Prop :=
  match machine with
  | none => place = .free none
  | some vm => ∃ vm', vm.Fetches vm' ∧ place = .free (some vm')

theorem InPlace.stays {machine : Option (Vm η)} {place place' : Exclusive (Option (Vm η))}
    (h : InPlace machine place) (hs : Stays place place') : InPlace machine place' := by
  cases hs with
  | same => exact h
  | read read =>
      cases machine with
      | none => cases h
      | some vm =>
          obtain ⟨vm', hfetches, hplace⟩ := h
          cases hplace
          exact ⟨_, hfetches.tail ⟨read, rfl⟩, rfl⟩

/-- What a thread knows. -/
def Phase.Knows (me : ThreadId) : Phase η → World η ρ (Ledger η σ) → Prop
  | outside, w => w.session.active ≠ some me
  | begun admitted machine, w => w.session.active = some me ∧ admits w.inst me = admitted ∧
      InPlace machine w.inst.runtime
  | holding, w => w.session.active = some me ∧ w.inst.runtime = .taken
  | settled clock, w => w.session.active = some me ∧ clock? w.inst = clock

/-- **What holds at any time.** -/
structure Orderly (w : World η ρ (Ledger η σ)) : Prop where
  sound : ∀ vm, w.inst.runtime = .free (some vm) → vm.Sound
  sources : ∃ labels : List η, w.inst.sources = .asyncIo :: .cooperative :: labels.map .host
  entries : ∀ e ∈ w.session.ended, e.Right

/-- **The protocol of frames.** A thread may do what no other thread's knowledge speaks against. -/
def frames (η ρ σ : Type) : Protocol (Work η) (World η ρ (Ledger η σ)) where
  Phase := Phase η
  rest := .outside
  holds me φ w := Orderly w ∧ φ.Knows me w
  allowed me _ ψ w w' := (Orderly w' ∧ ψ.Knows me w') ∧
    ∀ (u : ThreadId) (χ : Phase η), u ≠ me → χ.Knows u w → χ.Knows u w'
  posting _ _ := True
  own h := h.1
  others h _ _ hu hk := ⟨h.1.1, h.2 _ _ hu hk.2⟩

/-- The thread whose turn it is. -/
def Phase.Active (φ : Phase η) : Prop := φ ≠ outside

theorem Phase.Knows.active {φ : Phase η} (h : φ.Knows me w) (hφ : φ.Active) :
    w.session.active = some me := by
  cases φ with
  | outside => exact absurd rfl hφ
  | begun | holding | settled => exact h.1

/-- While it is the turn of one thread, no other knows more than that it is outside. -/
theorem knows_others (hactive : w.session.active = some me)
    (hactive' : w'.session.active = some me ∨ w'.session.active = none) (u : ThreadId)
    (χ : Phase η) (hu : u ≠ me) (h : χ.Knows u w) : χ.Knows u w' := by
  by_cases hχ : χ.Active
  · exact absurd (Option.some.inj ((h.active hχ).symm.trans hactive)) hu
  · obtain rfl : χ = .outside := of_not_not hχ
    change w'.session.active ≠ some u
    rcases hactive' with heq | heq
    · rw [heq]
      exact fun hme => hu (Option.some.inj hme).symm
    · rw [heq]
      exact nofun

/-- A region of the thread whose turn it is, and what it knows after it. -/
theorem enters_active {φ : Phase η} (ψ : Phase η) {Q : Phase η → Prop}
    (hw : (frames η ρ σ).holds me φ w) (hφ : φ.Active) (hsession : w'.session = w.session)
    (hsources : w'.inst.sources = w.inst.sources)
    (hsound : ∀ vm, w'.inst.runtime = .free (some vm) → vm.Sound) (hψ : ψ.Knows me w') (hq : Q ψ) :
    (frames η ρ σ).Enters me φ w w' Q := by
  obtain ⟨horderly, hknows⟩ := hw
  have hactive := hknows.active hφ
  refine ⟨ψ, ⟨⟨⟨hsound, hsources ▸ horderly.sources, hsession ▸ horderly.entries⟩, hψ⟩, ?_⟩, hq⟩
  exact knows_others hactive (.inl (by rw [hsession, hactive]))

theorem Stays.sound {place place' : Exclusive (Option (Vm η))} (hs : Stays place place')
    (h : ∀ vm, place = .free (some vm) → vm.Sound) : ∀ vm, place' = .free (some vm) → vm.Sound := by
  cases hs with
  | same => exact h
  | @read vm read =>
      rintro _ hplace
      cases hplace
      exact (h vm rfl).withReactor _

theorem Beside.orderly (h : Beside me w w') (hw : Orderly w) : Orderly w' where
  sound := h.place.sound hw.sound
  sources := by
    obtain ⟨labels, hlabels⟩ := hw.sources
    obtain ⟨more, hmore⟩ := h.sources
    exact ⟨labels ++ more, by rw [hmore, hlabels, List.map_append]; rfl⟩
  entries := h.session ▸ hw.entries

theorem clock?_stays (h : Stays w.inst.runtime w'.inst.runtime) :
    clock? w'.inst = clock? w.inst := by
  unfold clock?
  generalize w.inst.runtime = place at h
  generalize w'.inst.runtime = place' at h
  cases h <;> rfl

/-- What goes on beside takes no knowledge from the other threads. -/
theorem Beside.knows (h : Beside me w w') {u : ThreadId} {χ : Phase η} (hu : u ≠ me)
    (hχ : χ.Knows u w) : χ.Knows u w' := by
  cases χ with
  | outside =>
      change w'.session.active ≠ some u
      rw [h.session]
      exact hχ
  | begun admitted machine =>
      obtain ⟨hactive, hadmits, hplace⟩ := hχ
      exact ⟨h.session ▸ hactive, (h.admits u hu).trans hadmits, hplace.stays h.place⟩
  | holding =>
      obtain ⟨hactive, htaken⟩ := hχ
      refine ⟨h.session ▸ hactive, ?_⟩
      have hplace := h.place
      rw [htaken] at hplace
      generalize w'.inst.runtime = place' at hplace
      cases hplace
      rfl
  | settled clock => exact ⟨h.session ▸ hχ.1, (clock?_stays h.place).trans hχ.2⟩

/-- Code beside leaves a thread outside. -/
theorem beside_leads {t : Act η ρ (Ledger η σ) α} (h : t.Keeps (Beside me)) :
    (frames η ρ σ).Leads me .outside t fun _ ψ => ψ = .outside := by
  refine h (frames η ρ σ) me .outside (fun w w' hw hb => ?_) fun _ => trivial
  refine ⟨⟨hb.orderly hw.1, ?_⟩, fun u χ hu hχ => hb.knows hu hχ⟩
  change w'.session.active ≠ some me
  rw [hb.session]
  exact hw.2

/-- What is done with the machine leaves its thread with the machine. -/
theorem holds_leads {t : Act η ρ (Ledger η σ) α} {Q : α → Prop} (h : t.Yields (Beside me) Q) :
    (frames η ρ σ).Leads me .holding t fun a ψ => ψ = .holding ∧ Q a := by
  refine h (frames η ρ σ) me .holding (fun w w' hw hb => ?_) fun _ => trivial
  have htaken := hb.place
  rw [hw.2.2] at htaken
  have hknows : Phase.holding.Knows me w' := by
    refine ⟨hb.session ▸ hw.2.1, ?_⟩
    generalize w'.inst.runtime = place' at htaken
    cases htaken
    rfl
  refine ⟨⟨hb.orderly hw.1, hknows⟩, ?_⟩
  exact knows_others hw.2.1 (.inl hknows.1)

/-! ## 4. Using the machine -/

/-- A region in which the thread has the machine, and keeps it. -/
theorem holding_change {f : Instance η ρ → Instance η ρ} (hruntime : ∀ i, (f i).runtime = i.runtime)
    (hsources : ∀ i, (f i).sources = i.sources) :
    (frames η ρ σ).Leads me .holding (change f : Act η ρ (Ledger η σ) Unit)
      fun _ ψ => ψ = .holding :=
  leads_change fun w hw => by
    have htaken := (hruntime w.inst).trans hw.2.2
    refine enters_active .holding hw nofun rfl (hsources w.inst) ?_ ⟨hw.2.1, htaken⟩ rfl
    exact fun vm hplace => nomatch htaken.symm.trans hplace

theorem putBack_leads (machine : Option (Vm η)) (hsound : ∀ vm, machine = some vm → vm.Sound) :
    (frames η ρ σ).Leads me .holding (putBack machine : Act η ρ (Ledger η σ) Unit)
      fun _ ψ => ψ = .settled (machine.map Vm.clock) := by
  refine leads_change fun w hw => ?_
  refine enters_active (.settled _) hw nofun rfl rfl (fun vm hplace => ?_) ⟨hw.2.1, ?_⟩ rfl
  · cases hplace
    exact hsound vm rfl
  · cases machine <;> rfl

theorem release_leads (h : vm.Sound) :
    (frames η ρ σ).Leads me .holding (release vm : Act η ρ (Ledger η σ) Unit)
      fun _ ψ => ψ = .settled (some vm.clock) := by
  refine (putBack_leads (some vm) fun _ heq => ?_).bind ?_
  · cases heq
    exact h
  rintro _ _ rfl
  split
  · exact Protocol.leads_post trivial rfl
  · exact Protocol.leads_pure rfl

variable {admitted : Bool} {machine : Option (Vm η)}

/-- A thread is let in if it was found that it may touch the machine. -/
theorem requireAccess_leads :
    (frames η ρ σ).Leads me (.begun admitted machine)
      (requireAccess me : Operation η ρ (Ledger η σ) Unit).run fun result ψ =>
        ψ = .begun admitted machine ∧ result.isOk = admitted := by
  unfold requireAccess
  rw [ExceptT.run_mk]
  refine Protocol.leads_read fun w hw => ?_
  exact enters_active _ hw nofun rfl rfl hw.1.sound hw.2 ⟨rfl, hw.2.2.1⟩

/-- **Nobody else has the machine**, so it is taken at once. -/
theorem acquire_leads :
    (frames η ρ σ).Leads me (.begun admitted machine)
      (acquire me : Operation η ρ (Ledger η σ) (Option (Vm η))).run fun result ψ =>
        ψ = .holding ∧ match machine with
          | none => result = .ok none
          | some vm => ∃ vm', result = .ok (some vm') ∧ vm.Fetches vm' ∧ vm'.Sound := by
  have htake : (frames η ρ σ).Leads me (.begun admitted machine)
      (tryTake : Act η ρ (Ledger η σ) (Exclusive (Option (Vm η)))) fun found ψ =>
        ψ = .holding ∧ match machine with
          | none => found = .free none
          | some vm => ∃ vm', found = .free (some vm') ∧ vm.Fetches vm' ∧ vm'.Sound := by
    refine leads_region fun w hw => ?_
    have hplace := hw.2.2.2
    cases machine with
    | none =>
        have hfree : w.inst.runtime = .free none := hplace
        rw [hfree]
        exact enters_active .holding hw nofun rfl rfl nofun ⟨hw.2.1, rfl⟩ ⟨rfl, rfl⟩
    | some vm =>
        obtain ⟨vm', hfetches, hfree⟩ := hplace
        rw [hfree]
        refine enters_active .holding hw nofun rfl rfl nofun ⟨hw.2.1, rfl⟩ ⟨rfl, vm', rfl, hfetches, ?_⟩
        exact hw.1.sound vm' hfree
  refine htake.bindLift ?_
  rintro found _ ⟨rfl, hfound⟩
  cases machine with
  | none =>
      obtain rfl := hfound
      exact Protocol.leads_pure ⟨rfl, rfl⟩
  | some vm =>
      obtain ⟨vm', rfl, hvm'⟩ := hfound
      exact Protocol.leads_pure ⟨rfl, vm', rfl, hvm'⟩

/-- How far a thread may be when it has used the machine: it was refused, there is none, or it has
    put back what `f` has made of it. -/
def Used (admitted : Bool) (machine : Option (Vm η)) (Q : Vm η → Except InstanceError α → Vm η → Prop)
    (result : Except InstanceError α) (ψ : Phase η) : Prop :=
  ψ.Active ∧ (admitted = true → ∀ vm, machine = some vm →
    ∃ vm' vm'', vm.Fetches vm' ∧ Q vm' result vm'' ∧ ψ = .settled (some vm''.clock))

/-- **What becomes of the machine is what `f` makes of it.** -/
theorem withVm_leads {f : Vm η → Act η ρ (Ledger η σ) (Except InstanceError α × Vm η)}
    {Q : Vm η → Except InstanceError α → Vm η → Prop} (hsound : ∀ vm r vm', Q vm r vm' → vm'.Sound)
    (hf : ∀ vm, vm.Sound → (frames η ρ σ).Leads me .holding (f vm) fun outcome ψ =>
      ψ = .holding ∧ Q vm outcome.1 outcome.2) :
    (frames η ρ σ).Leads me (.begun admitted machine) (withVm me f).run
      (Used admitted machine Q) := by
  refine requireAccess_leads.bindOk ?_ ?_
  · rintro _ _ ⟨rfl, -⟩
    refine acquire_leads.bindOk ?_ ?_
    · rintro found _ ⟨rfl, hfound⟩
      cases machine with
      | none =>
          cases hfound
          refine (putBack_leads none nofun).bindLift ?_
          rintro _ _ rfl
          exact Protocol.leads_pure ⟨nofun, nofun⟩
      | some vm =>
          obtain ⟨vm', heq, hfetches, hs⟩ := hfound
          cases heq
          refine (holding_change (fun _ => by rfl) fun _ => by rfl).bindLift ?_
          rintro _ _ rfl
          refine (hf vm' hs).bindLift ?_
          rintro ⟨result, vm''⟩ _ ⟨rfl, hq⟩
          refine (holding_change (fun _ => by rfl) fun _ => by rfl).bindLift ?_
          rintro _ _ rfl
          refine (release_leads (hsound _ _ _ hq)).bindLift ?_
          rintro _ _ rfl
          refine Protocol.leads_pure ⟨nofun, fun _ vm heq => ?_⟩
          cases heq
          exact ⟨vm', vm'', hfetches, hq, rfl⟩
    · rintro e _ ⟨rfl, hfound⟩
      cases machine with
      | none => cases hfound
      | some vm => exact nomatch hfound.choose_spec.1
  · rintro e _ ⟨rfl, hadmitted⟩
    exact ⟨nofun, fun h => nomatch hadmitted.trans h⟩

/-- The record of a failure is of no matter. -/
theorem record_leads (e : InstanceError) {ψ : Phase η} (hψ : ψ.Active) :
    (frames η ρ σ).Leads me ψ (record e : Act η ρ (Ledger η σ) Unit) fun _ χ => χ = ψ := by
  refine leads_change fun w hw => enters_active ψ hw hψ rfl rfl hw.1.sound ?_ rfl
  have hknows := hw.2
  cases ψ <;> exact hknows

theorem tracked_active {op : Operation η ρ (Ledger η σ) α} {φ : Phase η}
    {Q : Except InstanceError α → Phase η → Prop} (hQ : ∀ result ψ, Q result ψ → ψ.Active)
    (h : (frames η ρ σ).Leads me φ op.run Q) : (frames η ρ σ).Leads me φ (tracked op).run Q := by
  refine h.tryCatch (fun _ _ hq => hq) fun e ψ hq => (record_leads e (hQ _ _ hq)).bindLift ?_
  rintro _ _ rfl
  exact Protocol.leads_pure hq

/-! ## 5. Frames -/

theorem Moves.congr {result : Except InstanceError α} {result' : Except InstanceError β}
    {clock : Binary64} (h : Moves vm delta result clock)
    (hfails : ∀ e, result = .error e → result' = .error e) : Moves vm delta result' clock := by
  cases h with
  | drained hends => exact .drained hends
  | thrown hends =>
      rw [hfails _ rfl]
      exact .thrown hends

/-- What a round leaves of a machine. -/
def Round (delta : Binary64) (vm : Vm η) (result : Except InstanceError Nat) (vm' : Vm η) : Prop :=
  vm'.Sound ∧ (vm.isLoaded = true → Leaves vm delta result vm')

theorem withSources_leads {f : List (Source η) → Act η ρ (Ledger η σ) α} {Q : α → Prop}
    (hf : ∀ labels : List η,
      (f (.asyncIo :: .cooperative :: labels.map .host)).Yields (Beside me) Q) :
    (frames η ρ σ).Leads me .holding (withSources f) fun a ψ => ψ = .holding ∧ Q a := by
  have hlist : (frames η ρ σ).Leads me .holding
      (await fun i => if i.sourcesTaken then none else
        some (i.sources, { i with sourcesTaken := true }) : Act η ρ (Ledger η σ) _)
      fun sources ψ => ψ = .holding ∧
        ∃ labels : List η, sources = .asyncIo :: .cooperative :: labels.map .host := by
    refine Protocol.leads_await fun w sources w' hw he => ?_
    obtain ⟨⟨_, i⟩, hi, heq⟩ := Option.map_eq_some_iff.mp he
    cases heq
    dsimp only at hi
    split at hi
    · cases hi
    · cases hi
      refine enters_active .holding hw nofun rfl rfl ?_ hw.2 ⟨rfl, hw.1.sources⟩
      exact fun vm hplace => nomatch hw.2.2.symm.trans hplace
  refine hlist.bind ?_
  rintro _ _ ⟨rfl, labels, rfl⟩
  refine (holds_leads (hf labels)).bind ?_
  rintro a _ ⟨rfl, hq⟩
  refine (holding_change (fun _ => by rfl) fun _ => by rfl).bind ?_
  rintro _ _ rfl
  exact Protocol.leads_pure ⟨rfl, hq⟩

theorem pump_leads (hp : Punctual host) :
    (frames η ρ σ).Leads me (.begun admitted machine) (pump host me .all (some delta)).run
      (Used admitted machine (Round delta)) := by
  refine withVm_leads (fun _ _ _ hround => hround.1) fun vm hs => ?_
  split
  · rename_i hl
    refine withSources_leads fun labels => (yields_round hp labels hs hl).mono ?_
    exact fun outcome hleaves => ⟨hleaves.sound, fun _ => hleaves⟩
  · rename_i hl
    exact Protocol.leads_pure ⟨rfl, hs, fun h => absurd h hl⟩

/-- A frame may end so, from what its thread knows. -/
def Closes (delta : Binary64) (admitted : Bool) (machine : Option (Vm η))
    (result : Except InstanceError Unit) (ψ : Phase η) : Prop :=
  ψ.Active ∧ ∀ clock, (∀ c, ψ = .settled c → clock = c) →
    Entry.Right ⟨delta, admitted, machine, result, clock⟩

/-- **A frame ends as it is to.** -/
theorem update_leads (hp : Punctual host) (delta : Binary64) :
    (frames η ρ σ).Leads me (.begun admitted machine) (update host me delta).run
      (Closes delta admitted machine) := by
  refine tracked_active (fun _ _ hcloses => hcloses.1) ?_
  split
  · rename_i hrefused
    refine Protocol.leads_pure ⟨nofun, fun _ _ vm _ _ _ _ hfinite hlength => ?_⟩
    dsimp only at hfinite hlength
    rw [hfinite, hlength] at hrefused
    cases hrefused
  have hcloses {result : Except InstanceError Nat} {result' : Except InstanceError Unit}
      {ψ : Phase η} (h : Used admitted machine (Round delta) result ψ)
      (hfails : ∀ e, result = .error e → result' = .error e) :
      Closes delta admitted machine result' ψ := by
    obtain ⟨hactive, hused⟩ := h
    refine ⟨hactive, fun clock hclock vm hmachine hadmitted hl hpresent hfinite hlength => ?_⟩
    obtain ⟨vm', vm'', hfetches, ⟨-, hround⟩, hsettled⟩ := hused hadmitted vm hmachine
    obtain ⟨reactor, rfl⟩ := hfetches.exists_withReactor
    refine ⟨_, _, hfetches, hclock _ hsettled, ?_⟩
    exact ((hround hl).moves hpresent hfinite hlength).congr hfails
  refine (pump_leads hp).bindOk (fun ran ψ hused => ?_) fun e ψ hused => ?_
  · exact Protocol.leads_pure (hcloses hused nofun)
  · exact hcloses hused fun _ heq => by rw [Except.error.inj heq]

/-- It begins when nothing else is done with the machine. -/
theorem enter_leads :
    (frames η ρ σ).Leads me .outside (enter me : Act η ρ (Ledger η σ) _)
      fun found ψ => ψ = .begun found.1 found.2 := by
  refine Protocol.leads_await fun w found w' hw he => ?_
  split at he
  · rename_i vm hnone hplace
    cases he
    have hin : InPlace vm w.inst.runtime := by
      rw [hplace]
      cases vm with
      | none => rfl
      | some vm => exact ⟨vm, .refl, rfl⟩
    refine ⟨.begun (admits w.inst me) vm, ⟨⟨⟨hw.1.sound, hw.1.sources, hw.1.entries⟩, rfl, rfl, hin⟩,
      fun u χ hu hχ => ?_⟩, rfl⟩
    by_cases hactive : χ.Active
    · exact nomatch hnone.symm.trans (hχ.active hactive)
    · obtain rfl : χ = .outside := of_not_not hactive
      exact fun hme => hu (Option.some.inj hme).symm
  · cases he

/-- The turn of a thread ends. -/
theorem enters_outside {ψ : Phase η} {Q : Phase η → Prop} (hw : (frames η ρ σ).holds me ψ w)
    (hψ : ψ.Active) (hinst : w'.inst = w.inst) (hnone : w'.session.active = none)
    (hentries : ∀ e ∈ w'.session.ended, e.Right) (hq : Q .outside) :
    (frames η ρ σ).Enters me ψ w w' Q := by
  refine ⟨.outside, ⟨⟨⟨hinst ▸ hw.1.sound, hinst ▸ hw.1.sources, hentries⟩, ?_⟩, ?_⟩, hq⟩
  · change w'.session.active ≠ some me
    rw [hnone]
    exact nofun
  · exact knows_others (hw.2.active hψ) (.inr hnone)

theorem leave_leads {result : Except InstanceError Unit} {ψ : Phase η}
    (h : Closes delta admitted machine result ψ) :
    (frames η ρ σ).Leads me ψ
      (leave delta (admitted, machine) result : Act η ρ (Ledger η σ) Unit)
      fun _ χ => χ = .outside := by
  unfold leave Task.change
  refine Protocol.leads_atomically fun w hw => ?_
  refine enters_outside hw h.1 rfl rfl (fun e he => ?_) rfl
  rcases List.mem_cons.mp he with rfl | he
  · refine h.2 _ fun c hsettled => ?_
    have hknows := hw.2
    rw [hsettled] at hknows
    exact hknows.2
  · exact hw.1.entries e he

theorem frame_leads (hp : Punctual host) (delta : Binary64) :
    (frames η ρ σ).Leads me .outside (frame host me delta) fun _ ψ => ψ = .outside := by
  refine enter_leads.bind ?_
  rintro ⟨admitted, machine⟩ _ rfl
  exact (update_leads hp delta).bind fun result ψ hcloses => leave_leads hcloses

theorem inTurn_leads {op : Operation η ρ (Ledger η σ) α}
    (h : ∀ admitted machine, (frames η ρ σ).Leads me (.begun admitted machine) op.run
      fun _ ψ => ψ.Active) :
    (frames η ρ σ).Leads me .outside (inTurn me op) fun _ ψ => ψ = .outside := by
  refine enter_leads.bind ?_
  rintro ⟨admitted, machine⟩ _ rfl
  refine (h admitted machine).bind fun _ ψ hactive => ?_
  exact Protocol.leads_atomically fun w hw => enters_outside hw hactive rfl rfl hw.1.entries rfl

theorem use_active {f : Vm η → Act η ρ (Ledger η σ) (Except InstanceError α × Vm η)}
    (hf : Careful me f) : (frames η ρ σ).Leads me (.begun admitted machine) (withVm me f).run
      fun _ ψ => ψ.Active :=
  (withVm_leads (Q := fun _ _ vm' => vm'.Sound) (fun _ _ _ h => h)
    fun vm hs => holds_leads (hf vm hs)).mono fun _ _ hused => hused.1

theorem useLoaded_active {f : Vm η → Act η ρ (Ledger η σ) (Except InstanceError α × Vm η)}
    (hf : Careful me f) : (frames η ρ σ).Leads me (.begun admitted machine) (withLoadedVm me f).run
      fun _ ψ => ψ.Active := by
  have hlook : (frames η ρ σ).Leads me (.begun admitted machine)
      (look fun i => i.core.state.hasModule : Act η ρ (Ledger η σ) Bool)
      fun _ ψ => ψ = .begun admitted machine :=
    Protocol.leads_read fun w hw => enters_active _ hw nofun rfl rfl hw.1.sound hw.2 rfl
  refine hlook.bindLift ?_
  rintro hasModule _ rfl
  split
  · exact Protocol.leads_pure nofun
  · exact use_active hf

/-- Background reads leave the machine in its place. -/
theorem keeps_finishReads_beside :
    (finishReads : Act η ρ (Ledger η σ) Unit).Keeps (Beside me) := by
  refine Task.keeps_await fun w _ w' henter => ?_
  have hsources : ∃ labels : List η, w.inst.sources = w.inst.sources ++ labels.map .host :=
    ⟨[], (List.append_nil _).symm⟩
  split at henter
  · rename_i vm hplace
    cases henter
    exact ⟨hplace ▸ .read _, hsources, fun _ _ => rfl, rfl⟩
  · cases henter
    exact ⟨.same, hsources, fun _ _ => rfl, rfl⟩
  · cases henter

/-- **Whatever a thread starts follows the protocol.** -/
theorem Starts.follows (hp : Punctual host) {p : Program (Work η) (World η ρ (Ledger η σ))}
    (h : Starts host me p) : (frames η ρ σ).Follows me .outside p := by
  have hhalt {t : Act η ρ (Ledger η σ) Unit}
      (ht : (frames η ρ σ).Leads me .outside t fun _ ψ => ψ = .outside) :
      (frames η ρ σ).Follows me .outside t.toProgram := ht _ fun _ _ hψ => hψ ▸ .halt
  cases h with
  | frame delta => exact hhalt (frame_leads hp delta)
  | use hf => exact hhalt (inTurn_leads fun _ _ => tracked_active (fun _ _ h => h) (use_active hf))
  | useLoaded hf =>
      exact hhalt (inTurn_leads fun _ _ => tracked_active (fun _ _ h => h) (useLoaded_active hf))
  | reads => exact hhalt (beside_leads keeps_finishReads_beside)
  | beside ht => exact hhalt (beside_leads ht)

end Instance.Frames

end EmbeddedVm
