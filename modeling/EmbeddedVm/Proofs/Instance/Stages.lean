import EmbeddedVm.Proofs.Instance.StageKeeping
import EmbeddedVm.Proofs.Instance.StartStop
import EmbeddedVm.Proofs.Threads.History

/-!
# Stages, and threads that overtake each other

The stages of an instance are ordered, and every operation that sets the stage looks first whether
it may. For an initialization both are one region. A load and the run of the entry function look in
one region, work with the machine, and write in another without a second look. Whatever another
thread has set in between is overwritten, even the end of the stages (`destroyed_comes_back`).

Nothing else takes the stage back. A thread that does was overtaken: another has changed the stage
since it began what it is at (`overtaken_of_fall`). So the stages are in order in every run in which
no overtaken thread sets the stage (`stages_in_order`). No thread can rely on the stage here, so
its phase in the protocol says only what it took the stage to be, and the history says whether that
still holds.
-/

namespace EmbeddedVm

variable {η ρ σ α : Type}

/-! ## 1. The order of stages -/

namespace LifecycleState

variable {a b c : LifecycleState}

theorem le_refl (a : LifecycleState) : a ≤ a := Nat.le_refl a.number

theorem le_trans (hab : a ≤ b) (hbc : b ≤ c) : a ≤ c := Nat.le_trans hab hbc

theorem le_destroyed (a : LifecycleState) : a ≤ .destroyed := by
  cases a <;> decide

theorem eq_destroyed (h : .destroyed ≤ a) : a = .destroyed := by
  revert h
  cases a <;> decide

theorem le_of_eq_or_destroyed (h : b = a ∨ b = .destroyed) : a ≤ b := by
  rcases h with rfl | rfl
  · exact le_refl _
  · exact le_destroyed a

end LifecycleState

namespace Instance.Staging

/-! ## 2. What threads do -/

/-- What a thread asks of the instance. -/
inductive Request where
  | init (arguments : List String)
  | loadFile (path : String)
  | loadMemory (bytes : Bytes)
  | callEntry
  | enableHotReload (enable : Bool)
  | reloadFile (path : String)
  | reloadMemory (bytes : Bytes)
  | reloadCurrent
  | checkReload
  | start
  | stop
  | destroy

/-- The operation a thread asks for, whatever comes of it. -/
def ask (host : Host η ρ σ) (me : ThreadId) : Request → Act η ρ σ Unit
  | .init arguments => discard (init me arguments).run
  | .loadFile path => discard (loadFile me path).run
  | .loadMemory bytes => discard (loadMemory me bytes).run
  | .callEntry => discard (callEntry host me).run
  | .enableHotReload enable => discard (enableHotReload enable).run
  | .reloadFile path => discard (reloadFile host me path).run
  | .reloadMemory bytes => discard (reloadMemory host me bytes).run
  | .reloadCurrent => discard (reloadCurrent host me).run
  | .checkReload => discard (checkReload host me).run
  | .start => discard start.run
  | .stop => discard (stop me).run
  | .destroy => discard (destroy me).run

/-- **Code that sets the stage by requests only**, one after the other. -/
inductive Asks (host : Host η ρ σ) (me : ThreadId) : {α : Type} → Act η ρ σ α → Prop where
  | request (r : Request) : Asks host me (ask host me r)
  | aside {α : Type} {t : Act η ρ σ α} (h : t.Keeps OnlyEnds) : Asks host me t
  | bind {α β : Type} {t : Act η ρ σ α} {f : α → Act η ρ σ β} (ht : Asks host me t)
      (hf : ∀ a, Asks host me (f a)) : Asks host me (t >>= f)

/-- **Code of the host that leaves the stages to the instance**: what runs inside an operation can
    at most destroy the instance, and what runs by itself makes requests. -/
structure Modest (host : Host η ρ σ) (calls : Calls η ρ σ) : Prop where
  native : ∀ me handler args, (host.native me handler args).Keeps OnlyEnds
  drain : ∀ me label vm hint, ((host.source label).drain me vm hint).Keeps OnlyEnds
  reloaded : ∀ me label done, (host.reloaded me label done).Keeps OnlyEnds
  call : ∀ me label, Asks host me (calls.call me label)
  complete : ∀ me label outcome, Asks host me (calls.complete me label outcome)
  work : ∀ me label, Asks host me (calls.work me label)

/-- **What a thread may start**: code that makes requests, and any work that is for it, at any time
    and any number of times. -/
inductive Starts (host : Host η ρ σ) (calls : Calls η ρ σ) (me : ThreadId) :
    Program (Work η) (World η ρ σ) → Prop where
  | asks {t : Act η ρ σ Unit} (h : Asks host me t) : Starts host calls me t.toProgram
  | work (w : Work η) (h : w.IsFor me) : Starts host calls me (perform host calls me w)

/-! ## 3. The protocol -/

/-- How far a thread is with what sets the stage. -/
inductive Phase where
  /-- It is not about to. -/
  | outside
  /-- It was admitted to load a module. -/
  | loading
  /-- It has accepted a module file. -/
  | accepted
  /-- It was admitted to run the entry function. -/
  | entering

/-- What a thread takes the stage to be. -/
def Phase.Expects : Phase → LifecycleState → Prop
  | outside, _ => True
  | loading, s => s = .created ∨ s = .initialized
  | accepted, s => s = .initialized
  | entering, s => s = .moduleLoaded

/-- **What a thread may do to the stage**, in going from a phase to a phase. It looks only when it
    is admitted, and writes whatever it finds. -/
inductive Step : Phase → Phase → LifecycleState → LifecycleState → Prop where
  | stays (φ : Phase) (s : LifecycleState) : Step φ φ s s
  | ends (φ : Phase) (s : LifecycleState) : Step φ φ s .destroyed
  | creates : Step .outside .outside .uninitialized .created
  | admitted {φ : Phase} {s : LifecycleState} (h : φ.Expects s) : Step .outside φ s s
  | accepts (s : LifecycleState) : Step .loading .accepted s .initialized
  | loads (s : LifecycleState) : Step .accepted .outside s .moduleLoaded
  | enters (s : LifecycleState) : Step .entering .outside s .entryRan
  | givesUp (φ : Phase) (s : LifecycleState) : Step φ .outside s s

variable {φ ψ : Phase} {a b : LifecycleState}

/-- **A thread that finds what it expects takes the stage forward**, -/
theorem Step.le (h : Step φ ψ a b) (he : φ.Expects a) : a ≤ b := by
  cases h with
  | stays => exact a.le_refl
  | ends => exact a.le_destroyed
  | creates => decide
  | admitted _ => exact a.le_refl
  | accepts =>
      rcases he with rfl | rfl
      · decide
      · decide
  | loads =>
      cases he
      decide
  | enters =>
      cases he
      decide
  | givesUp => exact a.le_refl

/-- and finds what it expects when it goes on, unless it has destroyed the instance. -/
theorem Step.expects (h : Step φ ψ a b) (he : φ.Expects a) (hb : b = .destroyed → a = .destroyed) :
    ψ.Expects b := by
  cases h with
  | stays => exact he
  | ends =>
      rw [hb rfl] at he
      exact he
  | creates => trivial
  | admitted h => exact h
  | accepts => rfl
  | loads => trivial
  | enters => trivial
  | givesUp => trivial

/-- **The protocol of stages.** No thread knows anything that another could not change. -/
def staging : Protocol (Work η) (World η ρ σ) where
  Phase := Phase
  rest := .outside
  holds _ _ _ := True
  allowed _ φ ψ w w' := Step φ ψ w.stage w'.stage
  posting _ _ := True
  own _ := trivial
  others _ _ _ _ h := h

variable {host : Host η ρ σ} {calls : Calls η ρ σ} {me : ThreadId} {w w' : World η ρ σ}

theorem Modest.admits (hm : Modest host calls) : host.Admits me OnlyEnds where
  aside _ _ := onlyEnds_of_aside
  native := hm.native me
  drain := hm.drain me

/-- A task that leaves the stage leaves its thread in its phase. -/
theorem stays {t : Act η ρ σ α} (h : t.Keeps OnlyEnds) :
    staging.Leads me φ t fun _ ψ => ψ = φ := by
  refine h staging me φ (fun w w' _ hw => ?_) fun _ => trivial
  change Step φ φ w.stage w'.stage
  rcases hw with heq | hend
  · rw [heq]
    exact .stays φ _
  · rw [hend]
    exact .ends φ _

/-! ## 4. Requests follow it -/

/-- Where an operation leaves its thread if it succeeds. -/
def IfOk (ψ : Phase) (result : Except InstanceError α) (χ : Phase) : Prop :=
  result.isOk = true → χ = ψ

/-- Whatever a thread was about, it is not any more when its failure is recorded. -/
theorem tracked_leads_outside {op : Operation η ρ σ α}
    (h : staging.Leads me φ op.run (IfOk .outside)) :
    staging.Leads me φ (tracked op).run fun _ ψ => ψ = .outside := by
  refine h.tryCatch (fun _ _ hq => hq rfl) fun e ψ _ => ?_
  have hrecord : staging.Leads me ψ (record e : Act η ρ σ Unit) fun _ χ => χ = .outside :=
    leads_change fun w _ => ⟨.outside, .givesUp ψ _, rfl⟩
  refine hrecord.bindLift ?_
  rintro _ _ rfl
  exact Protocol.leads_pure rfl

/-- Looking whether the stage is as it should be. -/
theorem check_leads {f : Instance η ρ → Except InstanceError Unit}
    (h : ∀ i, f i = .ok () → φ.Expects i.core.state) :
    staging.Leads me .outside (ExceptT.mk (look f) : Operation η ρ σ Unit).run (IfOk φ) := by
  refine Protocol.leads_read fun w _ => ?_
  cases hf : f w.inst with
  | ok _ => exact ⟨φ, .admitted (h w.inst hf), fun _ => rfl⟩
  | error e => exact ⟨.outside, .stays _ _, nofun⟩

/-- Setting the stage. -/
theorem write_leads {f : Instance η ρ → Instance η ρ}
    (h : ∀ i, Step φ ψ i.core.state (f i).core.state) :
    staging.Leads me φ (change f : Act η ρ σ Unit) fun _ χ => χ = ψ :=
  leads_change fun w _ => ⟨ψ, h w.inst, rfl⟩

theorem initRegion_step (arguments : List String) (wall : Nat) (i : Instance η ρ) :
    Step .outside .outside i.core.state (initRegion me arguments wall i).2.core.state := by
  unfold initRegion
  split
  · rename_i hstate
    split
    · exact .stays _ _
    · rw [hstate]
      exact .creates
  · exact .stays _ _
  · exact .stays _ _

/-- **An initialization looks and writes in one region.** -/
theorem init_leads (arguments : List String) :
    staging.Leads me .outside (init me arguments : Operation η ρ σ Unit).run
      fun _ ψ => ψ = .outside := by
  have hregion (wall : Nat) : staging.Leads me .outside
      (region (initRegion me arguments wall) : Act η ρ σ (Except InstanceError Unit))
      (IfOk .outside) :=
    leads_region fun w _ => ⟨Phase.outside, initRegion_step arguments wall w.inst, fun _ => rfl⟩
  refine tracked_leads_outside ((stays Task.keeps_now).bindLift ?_)
  rintro wall _ rfl
  exact hregion wall

theorem admitLoad_leads :
    staging.Leads me .outside (admitLoad me : Operation η ρ σ Unit).run (IfOk .loading) := by
  refine check_leads fun i h => ?_
  unfold requireLive at h
  cases hs : i.core.state with
  | created => exact .inl rfl
  | initialized => exact .inr rfl
  | _ =>
      rw [hs] at h
      cases h

theorem accept_leads :
    staging.Leads me .loading
      (change fun i => { i with core := { i.core with state := .initialized } } : Act η ρ σ Unit)
      fun _ ψ => ψ = .accepted := write_leads fun _ => .accepts _

theorem loaded_leads (path : Option String) (signature : Option (Nat × Nat)) :
    staging.Leads me .accepted
      (change fun i => { i with
        core := { i.core with state := .moduleLoaded, loadedFile := path, signature } } :
        Act η ρ σ Unit) fun _ ψ => ψ = .outside := write_leads fun _ => .loads _

/-- **A load looks once and writes twice.** -/
theorem loadBytes_leads (bytes : Bytes) (path : Option String) :
    staging.Leads me .outside (loadBytes me bytes path : Operation η ρ σ Unit).run
      (IfOk .outside) := by
  refine admitLoad_leads.bindOk (fun _ φ hφ => ?_) fun _ _ _ => nofun
  obtain rfl : φ = .loading := hφ rfl
  cases Module.load bytes with
  | error e => exact Protocol.leads_pure nofun
  | ok m =>
      refine accept_leads.bindLift ?_
      rintro _ _ rfl
      refine (stays (keeps_stage_withVm fun _ => Task.keeps_pure _)).bindOk ?_ fun _ _ _ => nofun
      rintro _ _ rfl
      refine (stays (keeps_stage_read _)).bindLift ?_
      rintro signature _ rfl
      refine (loaded_leads path signature).bind ?_
      rintro _ _ rfl
      exact Protocol.leads_pure fun _ => rfl

theorem loadMemory_leads (bytes : Bytes) :
    staging.Leads me .outside (loadMemory me bytes : Operation η ρ σ Unit).run
      fun _ ψ => ψ = .outside := tracked_leads_outside (loadBytes_leads bytes none)

theorem loadFile_leads (path : String) :
    staging.Leads me .outside (loadFile me path : Operation η ρ σ Unit).run
      fun _ ψ => ψ = .outside := by
  refine tracked_leads_outside ((stays (keeps_readFile path)).bindOk ?_ fun _ _ _ => nofun)
  rintro bytes _ rfl
  exact loadBytes_leads bytes (some path)

theorem admitEntry_leads :
    staging.Leads me .outside (admitEntry me : Operation η ρ σ Unit).run (IfOk .entering) := by
  refine check_leads fun i h => ?_
  unfold requireLive at h
  cases hs : i.core.state with
  | moduleLoaded => rfl
  | _ =>
      rw [hs] at h
      cases h

theorem entered_leads :
    staging.Leads me .entering
      (change fun i => { i with core := { i.core with state := .entryRan } } : Act η ρ σ Unit)
      fun _ ψ => ψ = .outside := write_leads fun _ => .enters _

section Requests

variable (hm : Modest host calls)

include hm

/-- **The entry function runs between the look and the write**, and so does all that it calls. -/
theorem callEntry_leads :
    staging.Leads me .outside (callEntry host me).run fun _ ψ => ψ = .outside := by
  refine tracked_leads_outside (admitEntry_leads.bindOk (fun _ φ hφ => ?_) fun _ _ _ => nofun)
  obtain rfl : φ = .entering := hφ rfl
  have hrun : (withVm me (runVm host me (·.callEntry))).run.Keeps OnlyEnds :=
    keeps_stage_withVm (keeps_runVm hm.admits _)
  refine (stays (hrun.bindOk fun _ => Task.keeps_ok _)).bindOk ?_ fun _ _ _ => nofun
  rintro _ _ rfl
  refine entered_leads.bind ?_
  rintro _ _ rfl
  exact Protocol.leads_pure fun _ => rfl

/-- **Every request follows the protocol.** -/
theorem ask_leads (request : Request) :
    staging.Leads me .outside (ask host me request) fun _ ψ => ψ = .outside := by
  have hdiscard {α : Type} {t : Act η ρ σ α}
      (h : staging.Leads me .outside t fun _ ψ => ψ = .outside) :
      staging.Leads me .outside (discard t) fun _ ψ => ψ = .outside :=
    h.bind fun _ _ hψ => Protocol.leads_pure hψ
  cases request with
  | init arguments => exact hdiscard (init_leads arguments)
  | loadFile path => exact hdiscard (loadFile_leads path)
  | loadMemory bytes => exact hdiscard (loadMemory_leads bytes)
  | callEntry => exact hdiscard (callEntry_leads hm)
  | enableHotReload enable => exact hdiscard (stays (keeps_enableHotReload enable))
  | reloadFile path => exact hdiscard (stays (keeps_reloadFile (hm.reloaded me) path))
  | reloadMemory bytes => exact hdiscard (stays (keeps_reloadMemory (hm.reloaded me) bytes))
  | reloadCurrent => exact hdiscard (stays (keeps_reloadCurrent (hm.reloaded me)))
  | checkReload => exact hdiscard (stays (keeps_checkReload (hm.reloaded me)))
  | start => exact hdiscard (stays keeps_start)
  | stop => exact hdiscard (stays (keeps_stage_tracked keeps_shutdown))
  | destroy => exact hdiscard (stays keeps_destroy)

theorem Asks.leads {t : Act η ρ σ α} (h : Asks host me t) :
    staging.Leads me .outside t fun _ ψ => ψ = .outside := by
  induction h with
  | request r => exact ask_leads hm r
  | aside h => exact stays h
  | bind _ _ iht ihf =>
      refine iht.bind ?_
      rintro a _ rfl
      exact ihf a

end Requests

/-! ## 5. The work of threads follows it -/

theorem asks_begin (g : Nat) : Asks host me (beginThread host me g) := by
  refine .bind (.aside stageAdmits.keeps_register.discard) fun _ => ?_
  refine .bind (.aside (keeps_stage_look _)) fun s => ?_
  have hserve : Asks host me (Task.now >>= fun now => Task.post me (.serve g now)) :=
    .aside (Task.keeps_now.bind fun _ => Task.keeps_post _ _)
  split
  · exact .bind (.request .callEntry) fun _ => hserve
  · exact hserve

section Work

variable (hm : Modest host calls)

include hm

theorem asks_runJob (job : Job η) : Asks host me (runJob calls me job) := by
  refine .bind (hm.call me job.call) fun outcome => ?_
  split
  · exact .aside (keeps_stage_change fun _ => rfl)
  · exact .aside (Task.keeps_pure _)
  · exact hm.complete me _ _

theorem asks_serve (g lastPump : Nat) : Asks host me (serve host calls me g lastPump) := by
  refine .bind (.aside (keeps_stage_look _)) fun tick => ?_
  refine .bind (.aside (Task.keeps_now.bind fun _ => Task.keeps_pure _)) fun limit => ?_
  refine .bind (.aside (keeps_nextJob limit g)) fun next => ?_
  have hrest : Asks host me (do
      let lastPump ← pumpIfDue host me lastPump
      Threads.poll me
      Task.post me (.serve g lastPump)) := by
    refine .bind (.aside (keeps_pumpIfDue hm.admits lastPump)) fun lastPump => ?_
    exact .bind (.aside stageAdmits.keeps_poll) fun _ => .aside (Task.keeps_post _ _)
  cases next with
  | stop => exact .aside (keeps_endThread g)
  | idle => exact hrest
  | job job => exact .bind (asks_runJob hm job) fun _ => hrest

/-- **Whatever a thread starts follows the protocol.** -/
theorem Starts.follows {p : Program (Work η) (World η ρ σ)} (h : Starts host calls me p) :
    staging.Follows me .outside p := by
  have hhalt {t : Act η ρ σ Unit} (ht : Asks host me t) :
      staging.Follows me .outside t.toProgram := ht.leads hm _ fun _ _ hψ => hψ ▸ .halt
  cases h with
  | asks h => exact hhalt h
  | work w _ =>
      cases w with
      | begin g => exact hhalt (asks_begin g)
      | serve g lastPump => exact hhalt (asks_serve hm g lastPump)
      | reads => exact hhalt (.aside keeps_finishReads)
      | host label => exact hhalt (hm.work me label)

end Work

/-! ## 6. Overtaken threads -/

/-- **A thread was overtaken**: since it began what it is at, another thread has changed the stage,
    or it has destroyed the instance itself. -/
def Overtaken (past : List (Turn LifecycleState)) (t : ThreadId) : Prop :=
  ∃ turn ∈ Turn.since t past, turn.IsVisible ∧ (turn.thread ≠ t ∨ turn.after = .destroyed)

instance (past : List (Turn LifecycleState)) (t : ThreadId) : Decidable (Overtaken past t) :=
  inferInstanceAs (Decidable (∃ turn ∈ Turn.since t past,
    turn.IsVisible ∧ (turn.thread ≠ t ∨ turn.after = .destroyed)))

/-- **No overtaken thread sets the stage** in a history, unless it destroys the instance. -/
def InTurn : List (Turn LifecycleState) → Prop
  | [] => True
  | turn :: past =>
    (Overtaken past turn.thread → turn.after = turn.before ∨ turn.after = .destroyed) ∧ InTurn past

instance decidableInTurn : (past : List (Turn LifecycleState)) → Decidable (InTurn past)
  | [] => inferInstanceAs (Decidable True)
  | turn :: past =>
    have := decidableInTurn past
    inferInstanceAs (Decidable ((Overtaken past turn.thread →
      turn.after = turn.before ∨ turn.after = .destroyed) ∧ InTurn past))

variable {past : List (Turn LifecycleState)} {turn : Turn LifecycleState} {t : ThreadId}

theorem Overtaken.cons (h : Overtaken past t) (hb : turn.thread = t → turn.begins = false) :
    Overtaken (turn :: past) t := by
  obtain ⟨turn', hmem, hturn⟩ := h
  refine ⟨turn', ?_, hturn⟩
  rw [Turn.since_cons hb]
  exact List.mem_cons_of_mem _ hmem

/-- A move that could be seen overtakes every other thread, and one that destroys the instance
    overtakes the thread that makes it too. -/
theorem overtaken_of_visible (hb : turn.thread = t → turn.begins = false) (hv : turn.IsVisible)
    (h : turn.thread ≠ t ∨ turn.after = .destroyed) : Overtaken (turn :: past) t := by
  refine ⟨turn, ?_, hv, h⟩
  rw [Turn.since_cons hb]
  exact List.mem_cons_self

/-- The stage is what a thread took it to be, unless the thread was overtaken. -/
def Knows (past : List (Turn LifecycleState)) (t : ThreadId) (φ : Phase) (s : LifecycleState) :
    Prop := Overtaken past t ∨ φ.Expects s

/-- A thread that goes on knows what it has done, -/
theorem Knows.own (h : Knows past t φ turn.before) (hb : turn.begins = false)
    (hstep : Step φ ψ turn.before turn.after) : Knows (turn :: past) t ψ turn.after := by
  rcases h with hover | hexpects
  · exact .inl (hover.cons fun _ => hb)
  by_cases hsame : turn.after = .destroyed → turn.before = .destroyed
  · exact .inr (hstep.expects hexpects hsame)
  · -- it has destroyed the instance, and is not to set the stage any more
    obtain ⟨hend, hlive⟩ := Classical.not_imp.mp hsame
    exact .inl (overtaken_of_visible (fun _ => hb) (fun heq => hlive (heq.trans hend)) (.inr hend))

/-- and any other knows what it knew, or is overtaken. -/
theorem Knows.others (h : Knows past t φ turn.before) (hne : turn.thread ≠ t) :
    Knows (turn :: past) t φ turn.after := by
  rcases h with hover | hexpects
  · exact .inl (hover.cons fun heq => absurd heq hne)
  by_cases hsame : turn.before = turn.after
  · exact .inr (hsame ▸ hexpects)
  · exact .inl (overtaken_of_visible (fun heq => absurd heq hne) hsame (.inl hne))

/-! ## 7. Every history -/

/-- Every thread is in a phase, and knows what it should. -/
def Informed (past : List (Turn LifecycleState)) (c : Crew (Work η) (World η ρ σ)) : Prop :=
  ∀ t, ∃ φ, staging.Follows t φ (c.current t) ∧ Knows past t φ c.state.stage

section Runs

variable {c c' : Crew (Work η) (World η ρ σ)} {posted : Option (Work η)} (hm : Modest host calls)

include hm

/-- What a move does to the stage, and what the thread that makes it knew. -/
theorem Informed.step (hi : Informed past c) (h : c.Moves (Starts host calls) t posted c') :
    ∃ φ ψ, staging.Follows t φ (c.current t) ∧ staging.Follows t ψ (c'.current t) ∧
      Step φ ψ c.state.stage c'.state.stage ∧ Knows past t φ c.state.stage := by
  obtain ⟨φ, hφ, hknown⟩ := hi t
  obtain ⟨ψ, hψ⟩ := hφ.move (fun _ hp => hp.follows hm) trivial h
  refine ⟨φ, ψ, hφ, hψ.follows, ?_, hknown⟩
  rcases hψ.change with ⟨heq, rfl⟩ | hallowed
  · rw [heq]
    exact .stays _ _
  · exact hallowed

/-- One move keeps every thread informed. -/
theorem Informed.move (hi : Informed past c) (h : c.Moves (Starts host calls) t posted c') :
    Informed (⟨t, (c.current t).isHalt, c.state.stage, c'.state.stage⟩ :: past) c' := by
  intro u
  by_cases hu : u = t
  · subst hu
    obtain ⟨φ, ψ, hφ, hψ, hstep, hknown⟩ := hi.step hm h
    refine ⟨ψ, hψ, ?_⟩
    cases hb : (c.current u).isHalt with
    | false => exact hknown.own rfl hstep
    | true =>
        -- it begins something, so it has been outside and sets nothing
        have hhalt := Program.eq_halt hb
        rw [hhalt] at hφ
        obtain rfl : φ = .outside := hφ.eq_rest
        rw [h.state_of_halt hhalt] at hstep ⊢
        exact .inr (hstep.expects trivial id)
  · obtain ⟨φ, hφ, hknown⟩ := hi u
    refine ⟨φ, by rwa [h.current_of_ne hu], ?_⟩
    exact hknown.others (Ne.symm hu)

variable {w : World η ρ σ}

theorem informed_of_ran (h : Crew.Ran (Starts host calls) World.stage w past c) :
    Informed past c := by
  induction h with
  | begin => exact fun t => ⟨.outside, .halt, .inr trivial⟩
  | move _ hmove ih => exact ih.move hm hmove

/-- **A thread that takes the stage back was overtaken**, in every run. -/
theorem overtaken_of_fall (h : Crew.Ran (Starts host calls) World.stage w past c)
    (hmove : c.Moves (Starts host calls) t posted c') (hfall : ¬ c.state.stage ≤ c'.state.stage) :
    Overtaken past t := by
  obtain ⟨φ, ψ, -, -, hstep, hknown⟩ := (informed_of_ran hm h).step hm hmove
  rcases hknown with hover | hexpects
  · exact hover
  · exact absurd (hstep.le hexpects) hfall

/-- Every move takes the stage forward if no overtaken thread sets it. -/
theorem le_of_inTurn (h : Crew.Ran (Starts host calls) World.stage w past c)
    (hturn : InTurn past) : ∀ turn ∈ past, turn.before ≤ turn.after := by
  induction h with
  | begin => exact nofun
  | @move past c c' t posted hran hmove ih =>
      obtain ⟨hthis, hbefore⟩ := hturn
      intro turn hmem
      rcases List.mem_cons.mp hmem with rfl | hmem
      · by_cases hforward : c.state.stage ≤ c'.state.stage
        · exact hforward
        · have hover := overtaken_of_fall hm hran hmove hforward
          exact LifecycleState.le_of_eq_or_destroyed (hthis hover)
      · exact ih hbefore turn hmem

/-- **The stages of an instance are in order** in every run in which no overtaken thread sets the
    stage, and a destroyed instance stays destroyed. -/
theorem stages_in_order (h : Crew.Ran (Starts host calls) World.stage w past c)
    (hturn : InTurn past) :
    (Turn.values w.stage past).Pairwise (· ≤ ·) ∧
      (.destroyed ∈ Turn.values w.stage past → c.state.stage = .destroyed) := by
  obtain ⟨hpairs, hall⟩ := h.pairwise LifecycleState.le_refl LifecycleState.le_trans
    (le_of_inTurn hm h hturn)
  exact ⟨hpairs, fun hend => LifecycleState.eq_destroyed (hall _ hend)⟩

end Runs

/-! ## 8. Two threads -/

/-- A world whose instance was initialized by the first thread of the host and has loaded a
    module. -/
def loadedWorld : World Empty Unit Unit :=
  let w := Driving.readyWorld ()
  { w with inst := { w.inst with
    core := { w.inst.core with mode := .nonThreaded, state := .moduleLoaded } } }

/-- **A destroyed instance comes back.** One thread runs the entry function; another destroys the
    instance when the machine is put back, and without a problem; the first writes that the entry
    function ran. -/
theorem destroyed_comes_back :
    ∃ past c, Crew.Ran (Starts (Driving.silentHost Unit) (Driving.silentCalls Unit)) World.stage
        loadedWorld past c ∧
      .destroyed ∈ Turn.values loadedWorld.stage past ∧ c.state.stage = .entryRan ∧
      c.state.inst.error = none ∧ ¬ (Turn.values loadedWorld.stage past).Pairwise (· ≤ ·) := by
  have h : Crew.Ran (Starts (Driving.silentHost Unit) (Driving.silentCalls Unit)) World.stage
      loadedWorld [] _ := .begin
  -- the first thread is admitted, takes the machine, runs the entry function and puts it back
  have h := h.move (.start (t := .main) rfl (.asks (.request .callEntry)))
  have h := h.move (.region (t := .main) rfl rfl)
  have h := h.move (.region (t := .main) rfl rfl)
  have h := h.move (.region (t := .main) rfl rfl)
  have h := h.move (.region (t := .main) rfl rfl)
  have h := h.move (.region (t := .main) rfl rfl)
  have h := h.move (.region (t := .main) rfl rfl)
  -- the second thread destroys the instance
  have h := h.move (.start (t := .host 1) rfl (.asks (.request .destroy)))
  have h := h.move (.region (t := .host 1) rfl rfl)
  have h := h.move (.region (t := .host 1) rfl rfl)
  have h := h.move (.region (t := .host 1) rfl rfl)
  have h := h.move (.region (t := .host 1) rfl rfl)
  have h := h.move (.region (t := .host 1) rfl rfl)
  -- the first thread writes what it was about to
  have h := h.move (.region (t := .main) rfl rfl)
  exact ⟨_, _, h, by decide, rfl, rfl, by decide⟩

theorem silent_modest : Modest (Driving.silentHost Unit) (Driving.silentCalls Unit) where
  native _ handler _ := handler.elim
  drain _ label _ _ := label.elim
  reloaded _ label _ := label.elim
  call _ label := label.elim
  complete _ label _ := label.elim
  work _ label := label.elim

/-- A thread that is overtaken by the entry function goes on to destroy the instance. -/
theorem destroyed_after_entry :
    ∃ past c, Crew.Ran (Starts (Driving.silentHost Unit) (Driving.silentCalls Unit)) World.stage
        loadedWorld past c ∧
      InTurn past ∧ .entryRan ∈ Turn.values loadedWorld.stage past ∧
      .destroyed ∈ Turn.values loadedWorld.stage past ∧
      (Turn.values loadedWorld.stage past).Pairwise (· ≤ ·) ∧ c.state.stage = .destroyed := by
  have h : Crew.Ran (Starts (Driving.silentHost Unit) (Driving.silentCalls Unit)) World.stage
      loadedWorld [] _ := .begin
  have h := h.move (.start (t := .main) rfl (.asks (.request .callEntry)))
  have h := h.move (.region (t := .main) rfl rfl)
  have h := h.move (.region (t := .main) rfl rfl)
  have h := h.move (.region (t := .main) rfl rfl)
  -- the second thread finds that the instance is not destroyed
  have h := h.move (.start (t := .host 1) rfl (.asks (.request .destroy)))
  have h := h.move (.region (t := .host 1) rfl rfl)
  have h := h.move (.region (t := .host 1) rfl rfl)
  have h := h.move (.region (t := .host 1) rfl rfl)
  -- the first thread comes to its end
  have h := h.move (.region (t := .main) rfl rfl)
  have h := h.move (.region (t := .main) rfl rfl)
  have h := h.move (.region (t := .main) rfl rfl)
  have h := h.move (.region (t := .main) rfl rfl)
  -- the second goes on
  have h := h.move (.region (t := .host 1) rfl rfl)
  have h := h.move (.region (t := .host 1) rfl rfl)
  obtain ⟨hordered, hstays⟩ := stages_in_order silent_modest h (by decide)
  exact ⟨_, _, h, by decide, by decide, by decide, hordered, hstays (by decide)⟩

end Instance.Staging

end EmbeddedVm
