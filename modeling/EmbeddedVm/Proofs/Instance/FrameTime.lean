import EmbeddedVm.Proofs.Instance.Frames
import EmbeddedVm.Proofs.Instance.StartStop
import EmbeddedVm.Proofs.Threads.Alone

/-!
# The time of frames

The time of a frame is kept whatever the callbacks of the scheduler and the sources of the host do.
It is lost if the callback of a finished read throws: the scheduler is then not asked, and nothing
keeps the length of the frame for the next round (`frames_move_clock`, `frame_time_lost`).
-/

namespace EmbeddedVm

variable {η ρ σ α : Type}

/-- Without running reads nothing is read in the background. -/
theorem Vm.Fetches.eq_of_idle {vm vm' : Vm η} (h : vm.Fetches vm')
    (hidle : vm.store.reactor.running = []) : vm' = vm := by
  induction h with
  | refl => rfl
  | tail _ hread ih =>
      obtain ⟨read, rfl⟩ := hread
      rw [ih]
      unfold Vm.finishReads Reactor.finishAll
      rw [hidle, List.foldl_nil]

theorem Vm.Fetches.clock_eq {vm vm' : Vm η} (h : vm.Fetches vm') : vm'.clock = vm.clock := by
  obtain ⟨reactor, rfl⟩ := h.exists_withReactor
  rfl

/-- What a run ends with that never needs its host. -/
def Run.unaided? : Run η α → Option α
  | .done a => some a
  | _ => none

theorem Run.unaided_eq_some {run : Run η α} {a : α} (h : run.unaided? = some a) : run = .done a := by
  cases run with
  | done b => exact congrArg Run.done (Option.some.inj h)
  | invoke | pause | exhausted => cases h

namespace Instance.Frames

variable {w w' : World η ρ (Ledger η σ)} {me : ThreadId} {host : Host η ρ (Ledger η σ)}
  {vm vm' : Vm η} {delta : Binary64}

/-! ## 1. Main statements -/

/-- Every frame that has ended has ended as it is to. -/
theorem ended_right (hp : Punctual host) {labels : List η}
    (hsources : w.inst.sources = .asyncIo :: .cooperative :: labels.map .host)
    (hsound : ∀ vm, w.inst.runtime = .free (some vm) → vm.Sound) {other : σ}
    (hsession : w.session = { other }) {c : Crew (Work η) (World η ρ (Ledger η σ))}
    (h : Crew.Reached (Starts host) w c) : ∀ e ∈ c.state.session.ended, e.Right := by
  have horderly : Orderly w := by
    refine ⟨hsound, ⟨labels, hsources⟩, fun e he => ?_⟩
    rw [hsession] at he
    cases he
  have hidle (t : ThreadId) : Phase.outside.Knows t w := by
    change w.session.active ≠ some t
    rw [hsession]
    exact nofun
  have hkept : (frames η ρ σ).Kept c :=
    Protocol.kept_of_reached (fun t => ⟨horderly, hidle t⟩) (fun _ _ hs => hs.follows hp) h
  obtain ⟨_, -, hc, -⟩ := hkept .main
  exact hc.entries

/-- **The time of a frame is lost only where the callback of a finished read throws.** Threads give
    an instance frames of any lengths, one after the other, and use the machine between them; reads
    go on in the background. Then every frame that a thread gives it that may touch the machine,
    if a module is loaded and its scheduler has a part in the round, goes with the clock as follows.
    If the finished reads are handed over, the clock moves by exactly the length of the frame,
    whether the frame ends well or a callback of the scheduler or a source of the host fails. If the
    callback of one throws, the frame ends with its failure and the clock stands. -/
theorem frames_move_clock (hp : Punctual host) {labels : List η}
    (hsources : w.inst.sources = .asyncIo :: .cooperative :: labels.map .host)
    (hsound : ∀ vm, w.inst.runtime = .free (some vm) → vm.Sound) {other : σ}
    (hsession : w.session = { other }) {c : Crew (Work η) (World η ρ (Ledger η σ))}
    (h : Crew.Reached (Starts host) w c) :
    ∀ e ∈ c.state.session.ended, ∀ vm, e.machine = some vm → e.admitted = true →
      vm.isLoaded = true → vm.capabilities.cooperative = true →
      e.delta.isFinite = true → e.delta.lt .zero = false →
      ∃ vm' reads vm'', vm.Fetches vm' ∧ vm'.drainReads.Ends (reads, vm'') ∧
        (reads.isOk = true → e.clock = some (vm.clock + e.delta)) ∧
        ∀ failure, reads = .error failure →
          e.clock = some vm.clock ∧ e.result = .error (sourceFailure "async-io" failure) := by
  intro e he vm hmachine hadmitted hl hpresent hfinite hlength
  obtain ⟨vm', clock, hfetches, hclock, hmoves⟩ :=
    ended_right hp hsources hsound hsession h e he vm hmachine hadmitted hl hpresent hfinite hlength
  rw [hclock, ← hfetches.clock_eq]
  generalize e.result = result at hmoves ⊢
  cases hmoves with
  | drained hends => exact ⟨vm', _, _, hfetches, hends, fun _ => rfl, nofun⟩
  | thrown hends =>
      refine ⟨vm', _, _, hfetches, hends, nofun, fun failure heq => ⟨rfl, ?_⟩⟩
      rw [Except.error.inj heq]

/-- **While nothing is read, no time is lost**, whatever the callbacks of the scheduler do. -/
theorem quiet_frames_move_clock (hp : Punctual host) {labels : List η}
    (hsources : w.inst.sources = .asyncIo :: .cooperative :: labels.map .host)
    (hsound : ∀ vm, w.inst.runtime = .free (some vm) → vm.Sound) {other : σ}
    (hsession : w.session = { other }) {c : Crew (Work η) (World η ρ (Ledger η σ))}
    (h : Crew.Reached (Starts host) w c) {e : Entry η} (he : e ∈ c.state.session.ended) {vm : Vm η}
    (hmachine : e.machine = some vm) (hadmitted : e.admitted = true) (hl : vm.isLoaded = true)
    (hpresent : vm.capabilities.cooperative = true) (hfinite : e.delta.isFinite = true)
    (hlength : e.delta.lt .zero = false) (hrunning : vm.store.reactor.running = [])
    (hready : vm.store.reactor.hasReady = false) : e.clock = some (vm.clock + e.delta) := by
  obtain ⟨vm', clock, hfetches, hclock, hmoves⟩ :=
    ended_right hp hsources hsound hsession h e he vm hmachine hadmitted hl hpresent hfinite hlength
  obtain rfl := hfetches.eq_of_idle hrunning
  obtain ⟨vm'', hdone⟩ := Vm.drainReads_of_not_ready hready
  rw [hclock]
  generalize e.result = result at hmoves
  cases hmoves with
  | drained _ => rfl
  | thrown hends =>
      rw [hdone] at hends
      cases Run.ends_done.mp hends

/-! ## 2. What one thread gets done -/

section Runs

variable {starts : ThreadId → Program (Work η) (World η ρ (Ledger η σ)) → Prop}
  {w₀ : World η ρ (Ledger η σ)}

theorem play_passes {run : Run η α} {a : α} (h : run = .done a) :
    (play host me run).Passes starts w₀ me w a w := by
  rw [h]
  exact Task.passes_pure a

/-- The thread `me` may give frames to an instance with this machine. -/
structure Ready (me : ThreadId) (vm : Vm η) (i : Instance η ρ) : Prop where
  live : requireLive i.core = .ok ()
  affinity : i.checkAffinity me = .ok ()
  place : i.runtime = .free (some vm)
  sources : i.sources = [.asyncIo, .cooperative]
  free : i.sourcesTaken = false

/-- A source is drained if it is present. -/
theorem passes_present {s : Source η} {rest : List (Source η)} {hint : Option Binary64}
    {total : Nat} {drained : Except VmError Nat × Vm η}
    {outcome : Except InstanceError Nat × Vm η}
    (hpresent : (s.resolve host).isPresent vm w.session = true)
    (hdrain : ((s.resolve host).drain me vm hint).Passes starts w₀ me w drained w)
    (hrest : (match drained with
      | (.ok ran, vm) => drainSources host me .all hint rest (total + ran) vm
      | (.error e, vm) => pure (.error (sourceFailure (s.resolve host).name e), vm) :
        Act η ρ (Ledger η σ) _).Passes starts w₀ me w outcome w) :
    (drainSources host me .all hint (s :: rest) total vm).Passes starts w₀ me w outcome w := by
  have hread : (Task.read fun w => (s.resolve host).isPresent vm w.session :
      Act η ρ (Ledger η σ) Bool).Passes starts w₀ me w true w := Task.passes_read hpresent
  refine hread.bind ?_
  rw [if_pos (by simp [EventKind.selects])]
  exact hdrain.bind hrest

/-- A round in which the callback of a finished read throws. -/
theorem thrown_passes (hpresent : vm.capabilities.asyncIo = true) {failure : VmError}
    (hreads : vm.drainReads = .done (.error failure, vm')) :
    (drainSources host me .all (some delta) [.asyncIo, .cooperative] 0 vm).Passes starts w₀ me w
      (.error (sourceFailure "async-io" failure), vm') w :=
  passes_present hpresent (play_passes hreads) (Task.passes_pure _)

/-- A round in which finished reads are handed over and the scheduler is drained. -/
theorem drained_passes {vm₁ : Vm η} (hpresent : vm.capabilities.asyncIo = true) {taken ran : Nat}
    (hreads : vm.drainReads = .done (.ok taken, vm₁))
    (hpresent₁ : vm₁.capabilities.cooperative = true)
    (hdrain : vm₁.drainCooperative (some delta) 0 = .done (.ok ran, vm')) :
    (drainSources host me .all (some delta) [.asyncIo, .cooperative] 0 vm).Passes starts w₀ me w
      (.ok (0 + taken + ran), vm') w := by
  refine passes_present hpresent (play_passes hreads) ?_
  have hdrained : ((Source.resolve host .cooperative).drain me vm₁ (some delta)).Passes starts w₀ me
      w (.ok ran, vm') w := (Task.passes_now 0).bind (play_passes hdrain)
  exact passes_present hpresent₁ hdrained (Task.passes_pure _)

theorem withSources_passes {f : List (Source η) → Act η ρ (Ledger η σ) α} {a : α}
    {sources : List (Source η)} (hsources : w.inst.sources = sources)
    (hfree : w.inst.sourcesTaken = false)
    (hf : ∀ w : World η ρ (Ledger η σ), (f sources).Passes starts w₀ me w a w) :
    (withSources f).Passes starts w₀ me w a
      { w with inst := { w.inst with sourcesTaken := false } } := by
  have htake : (await fun i => if i.sourcesTaken then none else
      some (i.sources, { i with sourcesTaken := true }) : Act η ρ (Ledger η σ) _).Passes starts w₀
        me w sources { w with inst := { w.inst with sourcesTaken := true } } := by
    refine Task.passes_await ?_
    dsimp only
    rw [hfree, hsources]
    rfl
  exact htake.bind ((hf _).bind ((Task.passes_change _).bind (Task.passes_pure _)))

theorem enter_passes (h : Ready me vm w.inst) (hturn : w.session.active = none) :
    (enter me : Act η ρ (Ledger η σ) _).Passes starts w₀ me w (true, some vm)
      { w with session := { w.session with active := some me } } := by
  have hadmits : admits w.inst me = true := by
    unfold admits
    rw [h.live]
    exact congrArg Except.isOk h.affinity
  refine Task.passes_await ?_
  rw [hturn, h.place]
  dsimp only
  rw [hadmits]

section Round

variable {result : Except InstanceError Nat}
  (hround : ∀ w : World η ρ (Ledger η σ), (drainSources host me .all (some delta)
    [.asyncIo, .cooperative] 0 vm).Passes starts w₀ me w (result, vm') w)
  (hidle : vm'.store.reactor.running.isEmpty = true)

include hround hidle

theorem pump_passes (h : Ready me vm w.inst) (hl : vm.isLoaded = true) :
    (pump host me .all (some delta)).run.Passes starts w₀ me w result { w with
      inst := { w.inst with
        runtime := .free (some vm'), owner := none, sourcesTaken := false } } := by
  let round (vm : Vm η) : Act η ρ (Ledger η σ) (Except InstanceError Nat × Vm η) :=
    if vm.isLoaded then
      withSources fun sources => drainSources host me .all (some delta) sources 0 vm
    else pure (.ok 0, vm)
  have hrun : (round vm).Passes starts w₀ me
      { w with inst := { w.inst with runtime := .taken, owner := some me } } (result, vm')
      { w with inst := { w.inst with
        runtime := .taken, owner := some me, sourcesTaken := false } } := by
    unfold round
    rw [if_pos hl]
    exact withSources_passes h.sources h.free hround
  exact withVm_passes h.live h.affinity h.place hrun hidle

/-- The failure of a round is the failure of the frame. -/
theorem update_passes (h : Ready me vm w.inst) (hl : vm.isLoaded = true)
    (hfinite : delta.isFinite = true) (hlength : delta.lt .zero = false) :
    ∃ i, (update host me delta).run.Passes starts w₀ me w (result.map fun _ => ())
      { w with inst := i } ∧ Ready me vm' i := by
  have hguard : ¬ (!delta.isFinite || delta.lt .zero) = true := by
    rw [hfinite, hlength]
    decide
  have hpump : (pump host me .all (some delta)).run.Passes starts w₀ me w result _ :=
    pump_passes hround hidle h hl
  unfold update
  rw [if_neg hguard]
  cases result with
  | ok ran =>
      refine ⟨_, Task.Passes.tryCatch (hpump.bindOk (Task.passes_pure _)), ?_⟩
      exact ⟨h.live, h.affinity, rfl, h.sources, rfl⟩
  | error e =>
      have hrecord (w : World η ρ (Ledger η σ)) :
          (do lift (record e); throw e : Operation η ρ (Ledger η σ) Unit).run.Passes starts w₀ me w
            (.error e) { w with inst := { w.inst with error := some (e.code, e.message) } } :=
        (Task.passes_change _).lift.bindOk (Task.passes_pure _)
      refine ⟨_, Task.Passes.tryCatchError hpump.bindError (hrecord _), ?_⟩
      exact ⟨h.live, h.affinity, rfl, h.sources, rfl⟩

/-- **A frame of one thread alone**, given what its round comes to. -/
theorem frame_passes (h : Ready me vm w.inst) (hl : vm.isLoaded = true)
    (hfinite : delta.isFinite = true) (hlength : delta.lt .zero = false)
    (hturn : w.session.active = none) :
    ∃ i, (frame host me delta).Passes starts w₀ me w () { w with
        inst := i
        session := { w.session with
          active := none
          ended := ⟨delta, true, some vm, result.map fun _ => (), some vm'.clock⟩ ::
            w.session.ended } } ∧
      Ready me vm' i := by
  have hbegun : Ready me vm
      ({ w with session := { w.session with active := some me } } : World η ρ (Ledger η σ)).inst := h
  obtain ⟨i, hupdate, hready⟩ := update_passes hround hidle hbegun hl hfinite hlength
  have hclock : clock? i = some vm'.clock := by
    unfold clock?
    rw [hready.place]
  have hleave : (leave delta (true, some vm) (result.map fun _ => ()) :
      Act η ρ (Ledger η σ) Unit).Passes starts w₀ me
        { w with inst := i, session := { w.session with active := some me } } ()
        { w with
          inst := i
          session := { w.session with
            active := none
            ended := ⟨delta, true, some vm, result.map fun _ => (), some vm'.clock⟩ ::
              w.session.ended } } := by
    unfold leave Task.change
    refine Task.passes_atomically ?_
    dsimp only
    rw [hclock]
  exact ⟨i, (enter_passes h hturn).bind (hupdate.bind hleave), hready⟩

end Round

end Runs

/-- A second. -/
def second : Binary64 := ⟨0x3ff0000000000000⟩

theorem second_length : second.isFinite = true ∧ second.lt .zero = false := by decide +kernel

/-- A module that starts a timer of a second and reads a file; the callback of the read throws. -/
def flawedModule : Module where
  flags := 0
  name := "flawed"
  strings := ["level.txt", "broken"]
  functions := [
    ⟨"main", 0, 0, Instruction.encodeBody
      [.pushFloat second, .callback .timerOnce 1, .simple .pop, .pushString 0,
        .callback .asyncRead 2, .simple .retVoid]⟩,
    ⟨"tick", 0, 0, Instruction.encodeBody [.simple .retVoid]⟩,
    ⟨"take", 1, 1, Instruction.encodeBody [.pushString 1, .simple .throw]⟩]
  classes := []
  natives := []
  entry := 0

/-- The machine when its entry function has run and the file has been read. -/
def flawedMachine : Vm Empty :=
  (Vm.create {} 0).after [.load flawedModule, .callEntry, .sendRead 1 (.ok "walls"), .settleRead]

theorem flawedMachine_sound : flawedMachine.Sound :=
  ((Vm.Reachable.create {} 0).after _).sound

/-- An instance with that machine that has run its entry function. -/
def flawedWorld : World Empty Unit (Ledger Empty Unit) :=
  let w := Driving.readyWorld { other := () }
  { w with
    inst := { w.inst with
      runtime := .free (some flawedMachine)
      core := { w.inst.core with mode := .nonThreaded } } }

theorem flawedWorld_ready : Ready .main flawedMachine flawedWorld.inst :=
  ⟨rfl, rfl, rfl, rfl, rfl⟩

theorem silent_punctual : Punctual (Driving.silentHost (Ledger Empty Unit)) where
  native _ handler _ := handler.elim
  drain _ label _ _ := label.elim

theorem flawed_present : flawedMachine.isLoaded = true ∧
    flawedMachine.capabilities.cooperative = true ∧ flawedMachine.capabilities.asyncIo = true := by
  decide +kernel

/-- That machine when the callback of the read has thrown. -/
def thrownMachine : Vm Empty := (flawedMachine.drainReads.unaided?.elim flawedMachine Prod.snd)

theorem thrown_present : thrownMachine.isLoaded = true ∧
    thrownMachine.capabilities.cooperative = true ∧ thrownMachine.capabilities.asyncIo = true ∧
    thrownMachine.store.reactor.running.isEmpty = true ∧
    thrownMachine.clock = flawedMachine.clock := by
  decide +kernel

theorem exists_thrown :
    ∃ failure, flawedMachine.drainReads = .done (.error failure, thrownMachine) := by
  have hrun : (flawedMachine.drainReads.unaided?.map fun r => r.1.isOk) = some false := by
    decide +kernel
  obtain ⟨⟨reads, vm⟩, hreads, hfails⟩ := Option.map_eq_some_iff.mp hrun
  have hvm : thrownMachine = vm := congrArg (Option.elim · flawedMachine Prod.snd) hreads
  cases reads with
  | ok n => cases hfails
  | error failure => exact ⟨failure, hvm ▸ Run.unaided_eq_some hreads⟩

/-- Then nothing is left to be read, and the timer is called a second later. -/
theorem exists_drained : ∃ vm₁ vm₂, thrownMachine.drainReads = .done (.ok 0, vm₁) ∧
    vm₁.capabilities.cooperative = true ∧
    vm₁.drainCooperative (some second) 0 = .done (.ok 1, vm₂) ∧
    vm₂.store.reactor.running.isEmpty = true := by
  have hrun : (thrownMachine.drainReads.unaided?.bind fun r =>
      (r.2.drainCooperative (some second) 0).unaided?.map fun r' =>
        ((r.1.toOption, r.2.capabilities.cooperative),
          r'.1.toOption, r'.2.store.reactor.running.isEmpty)) =
      some ((some 0, true), some 1, true) := by
    decide +kernel
  obtain ⟨⟨reads, vm₁⟩, hreads, hrun⟩ := Option.bind_eq_some_iff.mp hrun
  obtain ⟨⟨ran, vm₂⟩, hran, hrun⟩ := Option.map_eq_some_iff.mp hrun
  obtain ⟨⟨hzero, hpresent⟩, hone, hidle⟩ : (reads.toOption = some 0 ∧ _ = true) ∧
      ran.toOption = some 1 ∧ _ = true := by simpa only [Prod.mk.injEq, Option.some.injEq] using hrun
  obtain rfl := Checks.toOption_eq_some.mp hzero
  obtain rfl := Checks.toOption_eq_some.mp hone
  exact ⟨vm₁, vm₂, Run.unaided_eq_some hreads, hpresent, Run.unaided_eq_some hran, hidle⟩

/-- The world after a frame in which the callback of the read has thrown. -/
def thrownWorld (failure : VmError) (i : Instance Empty Unit) :
    World Empty Unit (Ledger Empty Unit) :=
  { flawedWorld with
    inst := i
    session := {
      ended := [⟨second, true, some flawedMachine, .error (sourceFailure "async-io" failure),
        some thrownMachine.clock⟩]
      other := () } }

/-- The frame in which it throws. -/
theorem exists_thrown_frame : ∃ failure i,
    Crew.Reached (Starts (Driving.silentHost (Ledger Empty Unit))) flawedWorld
      ⟨thrownWorld failure i, fun _ => .halt⟩ ∧ Ready .main thrownMachine i := by
  obtain ⟨failure, hreads⟩ := exists_thrown
  obtain ⟨hl, -, hpresent⟩ := flawed_present
  have hidle := thrown_present.2.2.2.1
  obtain ⟨i, hframe, hready⟩ := frame_passes (fun w => thrown_passes hpresent hreads) hidle
    flawedWorld_ready hl second_length.1 second_length.2 rfl
  exact ⟨failure, i, hframe.reached .begin (.frame second), hready⟩

/-- **The time of a frame can be lost**: the callback of a finished read throws, and the clock of a
    machine whose scheduler has a part in the round stands. -/
theorem frame_time_lost :
    ∃ c, Crew.Reached (Starts (Driving.silentHost (Ledger Empty Unit))) flawedWorld c ∧
      ∃ e vm, c.state.session.ended = [e] ∧ e.machine = some vm ∧ e.admitted = true ∧
        vm.isLoaded = true ∧ vm.capabilities.cooperative = true ∧
        e.delta.isFinite = true ∧ e.delta.lt .zero = false ∧
        e.clock ≠ some (vm.clock + e.delta) := by
  obtain ⟨failure, i, hreached, -⟩ := exists_thrown_frame
  obtain ⟨hl, hpresent, -⟩ := flawed_present
  refine ⟨_, hreached, _, flawedMachine, rfl, rfl, rfl, hl, hpresent, second_length.1,
    second_length.2, ?_⟩
  have hstands : thrownMachine.clock ≠ flawedMachine.clock + second := by decide +kernel
  exact fun heq => hstands (Option.some.inj heq)

/-- The frame after it moves the clock by its own length. -/
theorem next_frame_moves_clock :
    ∃ c, Crew.Reached (Starts (Driving.silentHost (Ledger Empty Unit))) flawedWorld c ∧
      ∃ lost e vm, c.state.session.ended = [e, lost] ∧ e.machine = some vm ∧ e.result = .ok () ∧
        e.clock = some (vm.clock + e.delta) := by
  obtain ⟨failure, i, hreached, hready⟩ := exists_thrown_frame
  obtain ⟨vm₁, vm₂, hreads, hpresent₁, hrun, hidle⟩ := exists_drained
  obtain ⟨hl, hpresent, hasync, -, -⟩ := thrown_present
  obtain ⟨i', hframe, -⟩ := frame_passes (w := thrownWorld failure i)
    (fun w => drained_passes hasync hreads hpresent₁ hrun) hidle hready hl second_length.1
    second_length.2 rfl
  have hreached' := hframe.reached hreached (.frame second)
  refine ⟨_, hreached', _, _, thrownMachine, rfl, rfl, rfl, ?_⟩
  have hsound (vm : Vm Empty) (hplace : flawedWorld.inst.runtime = .free (some vm)) : vm.Sound := by
    cases hplace
    exact flawedMachine_sound
  have hsources : flawedWorld.inst.sources =
      .asyncIo :: .cooperative :: ([] : List Empty).map .host := rfl
  have hsession : flawedWorld.session = { other := () } := rfl
  obtain ⟨vm', reads, vm'', -, -, hmoves, hstands⟩ :=
    frames_move_clock silent_punctual hsources hsound hsession hreached' _
      List.mem_cons_self thrownMachine rfl rfl hl hpresent second_length.1 second_length.2
  cases reads with
  | ok taken => exact hmoves rfl
  | error e => exact nomatch (hstands e rfl).2

end Instance.Frames

end EmbeddedVm
