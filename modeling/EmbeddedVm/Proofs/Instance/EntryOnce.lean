import EmbeddedVm.Proofs.Instance.StageKeeping
import EmbeddedVm.Proofs.Instance.StartStop

/-!
# The entry function runs once, for calls that do not overlap

A call of the entry function looks in one region whether a module is loaded and its entry function
has not run, then waits for the machine and runs the function, and says in a last region that it
ran. Two calls that have both looked before either of them has written both run the function
(`entry_runs_twice`).

To say what holds in every interleaving, the host stamps the beginning and the end of each call with
a clock of its own (`Ledger`). A call that begins after another has succeeded is refused, because
what the first wrote is never taken back. So two calls that succeed have overlapped, and of calls
that do not overlap one succeeds at most (`entry_runs_once`). In the protocol a call knows of the
successes that it began after: none, once it was admitted, and that stays so, since a success that
is added later has ended later.
-/

namespace EmbeddedVm

variable {η ρ σ α : Type}

namespace Instance.Entering

/-! ## 1. Calls with their times -/

/-- A call of the entry function that has returned. -/
structure EntryCall where
  thread : ThreadId
  began : Nat
  ended : Nat
  result : Except InstanceError Unit

/-- What the host writes down of the calls. -/
structure Ledger (σ : Type) where
  /-- The next stamp. -/
  clock : Nat := 0
  /-- The calls that have returned, the last one first. -/
  finished : List EntryCall := []
  /-- Whatever else the host keeps. -/
  other : σ

/-- Two calls that do not overlap. -/
def Apart (a b : EntryCall) : Prop := a.ended < b.began ∨ b.ended < a.began

instance (a b : EntryCall) : Decidable (Apart a b) := inferInstanceAs (Decidable (_ ∨ _))

/-- Stamps the beginning of a call. -/
def stamp : Act η ρ (Ledger σ) Nat :=
  Task.atomically fun w =>
    (w.session.clock, { w with session := { w.session with clock := w.session.clock + 1 } })

/-- Writes down a call that returns. -/
def finish (me : ThreadId) (began : Nat) (result : Except InstanceError Unit) :
    Act η ρ (Ledger σ) Unit :=
  Task.change fun w => { w with
    session := { w.session with
      clock := w.session.clock + 1
      finished := ⟨me, began, w.session.clock, result⟩ :: w.session.finished } }

/-- A call of the entry function that is written down. -/
def recordedEntry (host : Host η ρ (Ledger σ)) (me : ThreadId) : Act η ρ (Ledger σ) Unit := do
  let began ← stamp
  let result ← (callEntry host me).run
  finish me began result

/-- How a call is refused whose entry function ran. -/
def alreadyRan : InstanceError := .alreadyInitialized "the entry point already ran"

/-- A change that leaves the stage and the ledger. -/
structure Leaves (w w' : World η ρ (Ledger σ)) : Prop where
  stage : w'.stage = w.stage
  clock : w'.session.clock = w.session.clock
  finished : w'.session.finished = w.session.finished

/-- **What a thread may start**: calls of the entry function, and any code that leaves the stage and
    the ledger. -/
inductive Starts (host : Host η ρ (Ledger σ)) (me : ThreadId) :
    Program (Work η) (World η ρ (Ledger σ)) → Prop where
  | entry : Starts host me (recordedEntry host me).toProgram
  | aside {t : Act η ρ (Ledger σ) Unit} (h : t.Keeps Leaves) : Starts host me t.toProgram

/-- Code of the host that leaves the stage and the ledger. -/
structure Leaving (host : Host η ρ (Ledger σ)) : Prop where
  native : ∀ me handler args, (host.native me handler args).Keeps Leaves
  drain : ∀ me label vm hint, ((host.source label).drain me vm hint).Keeps Leaves

/-! ## 2. The protocol -/

/-- How far a thread is with a call. -/
inductive Phase where
  | outside
  | calling (began : Nat)
  /-- The entry function had not run when the call looked. -/
  | admitted (began : Nat)
  | ended (began : Nat) (result : Except InstanceError Unit)

variable {w w' : World η ρ (Ledger σ)}

/-- **What a thread knows** of the calls that succeeded before its own began. -/
def Phase.Knows : Phase → World η ρ (Ledger σ) → Prop
  | outside, _ => True
  | calling began, w => began < w.session.clock
  | admitted began, w =>
    began < w.session.clock ∧ ∀ c ∈ w.session.finished, c.result = .ok () → began ≤ c.ended
  | ended began result, w =>
    began < w.session.clock ∧ (result = .ok () → w.stage = .entryRan) ∧
      ∀ c ∈ w.session.finished, c.result = .ok () → c.ended < began → result = .error alreadyRan

/-- **What holds of the ledger at any time.** -/
structure Sound (w : World η ρ (Ledger σ)) : Prop where
  /-- The stage tells of a success. -/
  entered : ∀ c ∈ w.session.finished, c.result = .ok () → w.stage = .entryRan
  stamped : ∀ c ∈ w.session.finished, c.began < w.session.clock ∧ c.ended < w.session.clock
  /-- Whoever begins after a success is refused. -/
  refused : ∀ c ∈ w.session.finished, c.result = .ok () → ∀ d ∈ w.session.finished,
    c.ended < d.began → d.result = .error alreadyRan

/-- Time goes on, what ends ends later than what has ended, and the stage is not taken back. -/
structure Advances (w w' : World η ρ (Ledger σ)) : Prop where
  clock : w.session.clock ≤ w'.session.clock
  finished : ∀ c ∈ w'.session.finished, c ∈ w.session.finished ∨ w.session.clock ≤ c.ended
  entered : w.stage = .entryRan → w'.stage = .entryRan

/-- **A thread loses nothing that it knows.** -/
theorem Phase.Knows.advance {φ : Phase} (h : φ.Knows w) (ha : Advances w w') : φ.Knows w' := by
  obtain ⟨hclock, hfinished, hentered⟩ := ha
  cases φ with
  | outside => trivial
  | calling began => exact Nat.lt_of_lt_of_le h hclock
  | admitted began =>
      refine ⟨Nat.lt_of_lt_of_le h.1 hclock, fun c hc hok => ?_⟩
      rcases hfinished c hc with hold | hnew
      · exact h.2 c hold hok
      · exact Nat.le_trans (Nat.le_of_lt h.1) hnew
  | ended began result =>
      obtain ⟨hbegan, hstage, hrefused⟩ := h
      refine ⟨Nat.lt_of_lt_of_le hbegan hclock, fun hok => hentered (hstage hok), ?_⟩
      intro c hc hok hbefore
      rcases hfinished c hc with hold | hnew
      · exact hrefused c hold hok hbefore
      · omega

/-- **The protocol of calls.** -/
def entering : Protocol (Work η) (World η ρ (Ledger σ)) where
  Phase := Phase
  rest := .outside
  holds _ φ w := Sound w ∧ φ.Knows w
  allowed _ _ ψ w w' := (Sound w' ∧ ψ.Knows w') ∧ Advances w w'
  posting _ _ := True
  own h := h.1
  others h _ _ _ hu := ⟨h.1.1, hu.2.advance h.2⟩

theorem Leaves.advances (h : Leaves w w') : Advances w w' where
  clock := Nat.le_of_eq h.clock.symm
  finished _ hc := .inl (h.finished ▸ hc)
  entered hw := h.stage.trans hw

theorem Leaves.sound (h : Leaves w w') (hs : Sound w) : Sound w' := by
  refine ⟨?_, ?_, ?_⟩
  · rw [h.finished, h.stage]
    exact hs.entered
  · rw [h.finished, h.clock]
    exact hs.stamped
  · rw [h.finished]
    exact hs.refused

theorem leaves_of_aside {me : ThreadId} (h : w.Aside me w') : Leaves w w' where
  stage := congrArg Core.state h.core
  clock := congrArg Ledger.clock h.session
  finished := congrArg Ledger.finished h.session

/-! ## 3. Calls follow it -/

variable {host : Host η ρ (Ledger σ)} {me : ThreadId} {φ : Phase}

theorem Leaving.admits (hh : Leaving host) : host.Admits me Leaves where
  aside _ _ := leaves_of_aside
  native := hh.native me
  drain := hh.drain me

/-- A task that leaves the stage and the ledger leaves its thread in its phase. -/
theorem stays {t : Act η ρ (Ledger σ) α} (h : t.Keeps Leaves) :
    entering.Leads me φ t fun _ ψ => ψ = φ :=
  h entering me φ
    (fun _ _ hw hl => ⟨⟨hl.sound hw.1, hw.2.advance hl.advances⟩, hl.advances⟩) fun _ => trivial

/-- A region that leaves the stage and the ledger and tells its thread something. -/
theorem enters_of_leaves {Q : Phase → Prop} (ψ : Phase) (hw : Sound w) (hl : Leaves w w')
    (hψ : ψ.Knows w') (hq : Q ψ) : entering.Enters me φ w w' Q :=
  ⟨ψ, ⟨⟨hl.sound hw, hψ⟩, hl.advances⟩, hq⟩

theorem stamp_leads :
    entering.Leads me .outside (stamp : Act η ρ (Ledger σ) Nat)
      fun began ψ => ψ = .calling began := by
  refine Protocol.leads_atomically fun w hw => ⟨.calling w.session.clock, ⟨⟨?_, ?_⟩, ?_⟩, rfl⟩
  · refine ⟨hw.1.entered, fun c hc => ?_, hw.1.refused⟩
    exact ⟨Nat.lt_succ_of_lt (hw.1.stamped c hc).1, Nat.lt_succ_of_lt (hw.1.stamped c hc).2⟩
  · exact Nat.lt_succ_self _
  · exact ⟨Nat.le_succ _, fun _ hc => .inl hc, id⟩

/-- **A call that is admitted began before any success ended**, and one that began after a success
    is refused. -/
theorem admitEntry_leads (began : Nat) :
    entering.Leads me (.calling began) (admitEntry me : Operation η ρ (Ledger σ) Unit).run
      fun result ψ => match result with
        | .ok _ => ψ = .admitted began
        | .error e => ψ = .ended began (.error e) := by
  refine Protocol.leads_read fun w hw => ?_
  obtain ⟨hsound, hbegan⟩ := hw
  have hsame : Leaves w w := ⟨rfl, rfl, rfl⟩
  split
  · rename_i hok
    refine enters_of_leaves (.admitted began) hsound hsame ⟨hbegan, fun c hc hsuccess => ?_⟩ rfl
    -- after a success the stage is not that of a module that waits for its entry function
    have hstage : w.inst.core.state = .entryRan := hsound.entered c hc hsuccess
    dsimp only at hok
    unfold requireLive at hok
    rw [hstage] at hok
    cases hok
  · rename_i e herror
    refine enters_of_leaves (.ended began (.error e)) hsound hsame
      ⟨hbegan, nofun, fun c hc hsuccess _ => ?_⟩ rfl
    have hstage : w.inst.core.state = .entryRan := hsound.entered c hc hsuccess
    dsimp only at herror
    unfold requireLive at herror
    rw [hstage] at herror
    cases herror
    rfl

/-- That the entry function ran is written once it has returned. -/
theorem entered_leads (began : Nat) :
    entering.Leads me (.admitted began)
      (change fun i => { i with core := { i.core with state := .entryRan } } :
        Act η ρ (Ledger σ) Unit)
      fun _ ψ => ψ = .ended began (.ok ()) := by
  refine leads_change fun w hw => ⟨.ended began (.ok ()), ⟨⟨?_, ?_⟩, ?_⟩, rfl⟩
  · exact ⟨fun _ _ _ => rfl, hw.1.stamped, hw.1.refused⟩
  · refine ⟨hw.2.1, fun _ => rfl, fun c hc hok hbefore => ?_⟩
    exact absurd (hw.2.2 c hc hok) (Nat.not_le_of_lt hbefore)
  · exact ⟨Nat.le_refl _, fun _ hc => .inl hc, fun _ => rfl⟩

/-- A failure is recorded; whoever was admitted began after no success. -/
theorem record_leads {began : Nat} {e : InstanceError}
    (hφ : φ = .admitted began ∨ φ = .ended began (.error e)) :
    entering.Leads me φ (record e : Act η ρ (Ledger σ) Unit)
      fun _ ψ => ψ = .ended began (.error e) := by
  refine leads_change fun w hw => ?_
  refine enters_of_leaves (.ended began (.error e)) hw.1 ⟨rfl, rfl, rfl⟩ ?_ rfl
  rcases hφ with rfl | rfl
  · refine ⟨hw.2.1, nofun, fun c hc hok hbefore => ?_⟩
    exact absurd (hw.2.2 c hc hok) (Nat.not_le_of_lt hbefore)
  · exact ⟨hw.2.1, nofun, hw.2.2.2⟩

/-- What returns is written down. -/
theorem finish_leads (began : Nat) (result : Except InstanceError Unit) :
    entering.Leads me (.ended began result) (finish me began result : Act η ρ (Ledger σ) Unit)
      fun _ ψ => ψ = .outside := by
  unfold finish Task.change
  refine Protocol.leads_atomically fun w hw => ⟨Phase.outside, ⟨⟨?_, trivial⟩, ?_⟩, rfl⟩
  · obtain ⟨hsound, hbegan, hstage, hrefused⟩ := hw
    refine ⟨fun c hc hok => ?_, fun c hc => ?_, fun c hc hok d hd hbefore => ?_⟩
    · rcases List.mem_cons.mp hc with rfl | hc
      · exact hstage hok
      · exact hsound.entered c hc hok
    · rcases List.mem_cons.mp hc with rfl | hc
      · exact ⟨Nat.lt_succ_of_lt hbegan, Nat.lt_succ_self _⟩
      · exact ⟨Nat.lt_succ_of_lt (hsound.stamped c hc).1,
          Nat.lt_succ_of_lt (hsound.stamped c hc).2⟩
    · rcases List.mem_cons.mp hc with rfl | hc
      · -- nothing that is written down began later than now
        rcases List.mem_cons.mp hd with rfl | hd
        · exact absurd hbefore (Nat.lt_asymm hbegan)
        · exact absurd hbefore (Nat.lt_asymm (hsound.stamped d hd).1)
      · rcases List.mem_cons.mp hd with rfl | hd
        · exact hrefused c hc hok hbefore
        · exact hsound.refused c hc hok d hd hbefore
  · refine ⟨Nat.le_succ _, fun c hc => ?_, id⟩
    rcases List.mem_cons.mp hc with rfl | hc
    · exact .inr (Nat.le_refl _)
    · exact .inl hc

theorem eq_ok_of_isOk {result : Except InstanceError Unit} (h : result.isOk = true) :
    result = .ok () :=
  (Checks.exists_eq_ok_of_isOk h).elim fun _ hok => hok

/-- Of calls that do not overlap, and of which none came before another, there is one at most. -/
theorem length_le_one {calls : List EntryCall} (hapart : calls.Pairwise Apart)
    (hnever : ∀ a ∈ calls, ∀ b ∈ calls, ¬ a.ended < b.began) : calls.length ≤ 1 := by
  match calls with
  | [] => exact Nat.zero_le _
  | [_] => exact Nat.le_refl _
  | a :: b :: rest =>
      have ha : a ∈ a :: b :: rest := List.mem_cons_self
      have hb : b ∈ a :: b :: rest := List.mem_cons_of_mem a List.mem_cons_self
      rcases (List.pairwise_cons.mp hapart).1 b List.mem_cons_self with hab | hba
      · exact absurd hab (hnever a ha b hb)
      · exact absurd hba (hnever b hb a ha)

section Calls

variable (hh : Leaving host)

include hh

/-- **A call ends knowing that it is refused** if it began after a success. -/
theorem callEntry_leads (began : Nat) :
    entering.Leads me (.calling began) (callEntry host me).run
      fun result ψ => ψ = .ended began result := by
  have hop : entering.Leads me (.calling began)
      (do
        admitEntry me
        discard <| withVm me <| runVm host me (·.callEntry)
        lift (change fun i => { i with core := { i.core with state := .entryRan } }) :
        Operation η ρ (Ledger σ) Unit).run
      fun result ψ => ψ = .ended began result ∨ ∃ e, result = .error e ∧ ψ = .admitted began := by
    refine (admitEntry_leads began).bindOk ?_ fun e ψ h => .inl h
    rintro _ _ rfl
    have hrun : (withVm me (runVm host me (·.callEntry))).run.Keeps Leaves :=
      keeps_withVm (fun _ _ => leaves_of_aside) (keeps_runVm hh.admits _)
    refine (stays (hrun.bindOk fun _ => Task.keeps_ok _)).bindOk ?_ fun e ψ h => .inr ⟨e, rfl, h⟩
    rintro _ _ rfl
    refine (entered_leads began).bind ?_
    rintro _ _ rfl
    exact Protocol.leads_pure (.inl rfl)
  refine hop.tryCatch (fun _ ψ hψ => ?_) fun e ψ hψ => ?_
  · rcases hψ with hψ | ⟨e, he, -⟩
    · exact hψ
    · cases he
  · have hbefore : ψ = .admitted began ∨ ψ = .ended began (.error e) := by
      rcases hψ with hψ | ⟨_, -, hψ⟩
      · exact .inr hψ
      · exact .inl hψ
    refine (record_leads hbefore).bindLift ?_
    rintro _ _ rfl
    exact Protocol.leads_pure rfl

theorem recordedEntry_leads :
    entering.Leads me .outside (recordedEntry host me) fun _ ψ => ψ = .outside := by
  refine stamp_leads.bind ?_
  rintro began _ rfl
  refine (callEntry_leads hh began).bind ?_
  rintro result _ rfl
  exact finish_leads began result

/-- **Whatever a thread starts follows the protocol.** -/
theorem Starts.follows {p : Program (Work η) (World η ρ (Ledger σ))} (h : Starts host me p) :
    entering.Follows me .outside p := by
  cases h with
  | entry => exact recordedEntry_leads hh _ fun _ _ hψ => hψ ▸ .halt
  | aside h => exact stays h _ fun _ _ hψ => hψ ▸ .halt

/-! ## 4. Main statements -/

/-- **A call that begins after another has succeeded is refused**, whatever the order in which
    threads move, and **of calls that do not overlap one succeeds at most**. -/
theorem entry_runs_once (hw : w.session.finished = []) {c : Crew (Work η) (World η ρ (Ledger σ))}
    (h : Crew.Reached (Starts host) w c) :
    (∀ first ∈ c.state.session.finished, first.result = .ok () →
      ∀ second ∈ c.state.session.finished, first.ended < second.began →
        second.result = .error alreadyRan) ∧
    (c.state.session.finished.Pairwise Apart →
      (c.state.session.finished.filter fun call => call.result.isOk).length ≤ 1) := by
  have hempty : Sound w := by
    refine ⟨?_, ?_, ?_⟩ <;> rw [hw]
    · exact nofun
    · exact nofun
    · exact nofun
  have hkept : entering.Kept c :=
    Protocol.kept_of_reached (fun _ => ⟨hempty, trivial⟩) (fun _ _ hp => hp.follows hh) h
  obtain ⟨_, -, hsound, -⟩ := hkept .main
  refine ⟨hsound.refused, fun hapart => ?_⟩
  refine length_le_one (hapart.filter _) fun a ha b hb hab => ?_
  obtain ⟨ha, haok⟩ := List.mem_filter.mp ha
  obtain ⟨hb, hbok⟩ := List.mem_filter.mp hb
  have hrefused := hsound.refused a ha (eq_ok_of_isOk haok) b hb hab
  cases (eq_ok_of_isOk hbok).symm.trans hrefused

end Calls

/-! ## 5. Two threads -/

/-- A world whose instance was initialized by the first thread of the host and waits for its entry
    function to run. -/
def waitingWorld : World Empty Unit (Ledger Unit) :=
  let w := Driving.readyWorld { other := () }
  { w with inst := { w.inst with
    core := { w.inst.core with mode := .nonThreaded, state := .moduleLoaded } } }

/-- A thread of the host registers. -/
theorem starts_register (me : ThreadId) :
    Starts (Driving.silentHost (Ledger Unit)) me
      (discard (Threads.register me) : Act Empty Unit (Ledger Unit) Unit).toProgram :=
  .aside (admits_of_aside fun _ _ => leaves_of_aside).keeps_register.discard

/-- **The entry function can run twice.** The first thread of the host and a registered one have
    both looked before either of them runs it, and both succeed. -/
theorem entry_runs_twice :
    ∃ c, Crew.Reached (Starts (Driving.silentHost (Ledger Unit))) waitingWorld c ∧
      c.state.inst.core.mode = .nonThreaded ∧ c.state.inst.core.initThread = some .main ∧
      c.state.inst.threads.isRegistered (.host 1) = true ∧
      c.state.session.finished.map (fun call => (call.thread, call.result)) =
        [(.host 1, .ok ()), (.main, .ok ())] := by
  have h : Crew.Reached (Starts (Driving.silentHost (Ledger Unit))) waitingWorld _ := .begin
  have h := h.move (.start (t := .host 1) rfl (starts_register _))
  have h := h.move (.region (t := .host 1) rfl rfl)
  -- both begin, look, and are admitted
  have h := h.move (.start (t := .main) rfl .entry)
  have h := h.move (.region (t := .main) rfl rfl)
  have h := h.move (.region (t := .main) rfl rfl)
  have h := h.move (.start (t := .host 1) rfl .entry)
  have h := h.move (.region (t := .host 1) rfl rfl)
  have h := h.move (.region (t := .host 1) rfl rfl)
  -- each runs the entry function and returns
  have h := h.move (.region (t := .main) rfl rfl)
  have h := h.move (.region (t := .main) rfl rfl)
  have h := h.move (.region (t := .main) rfl rfl)
  have h := h.move (.region (t := .main) rfl rfl)
  have h := h.move (.region (t := .main) rfl rfl)
  have h := h.move (.region (t := .main) rfl rfl)
  have h := h.move (.region (t := .main) rfl rfl)
  have h := h.move (.region (t := .host 1) rfl rfl)
  have h := h.move (.region (t := .host 1) rfl rfl)
  have h := h.move (.region (t := .host 1) rfl rfl)
  have h := h.move (.region (t := .host 1) rfl rfl)
  have h := h.move (.region (t := .host 1) rfl rfl)
  have h := h.move (.region (t := .host 1) rfl rfl)
  have h := h.move (.region (t := .host 1) rfl rfl)
  exact ⟨_, h, rfl, rfl, rfl, rfl⟩

theorem silent_leaving : Leaving (Driving.silentHost (Ledger Unit)) where
  native _ handler _ := handler.elim
  drain _ label _ _ := label.elim

/-- A second thread calls when the first has returned, and is refused. -/
theorem second_entry_refused :
    ∃ c, Crew.Reached (Starts (Driving.silentHost (Ledger Unit))) waitingWorld c ∧
      c.state.session.finished.map (fun call => (call.thread, call.result)) =
        [(.host 1, .error alreadyRan), (.main, .ok ())] ∧
      (c.state.session.finished.filter fun call => call.result.isOk).length ≤ 1 := by
  have h : Crew.Reached (Starts (Driving.silentHost (Ledger Unit))) waitingWorld _ := .begin
  have h := h.move (.start (t := .main) rfl .entry)
  have h := h.move (.region (t := .main) rfl rfl)
  have h := h.move (.region (t := .main) rfl rfl)
  have h := h.move (.region (t := .main) rfl rfl)
  have h := h.move (.region (t := .main) rfl rfl)
  have h := h.move (.region (t := .main) rfl rfl)
  have h := h.move (.region (t := .main) rfl rfl)
  have h := h.move (.region (t := .main) rfl rfl)
  have h := h.move (.region (t := .main) rfl rfl)
  have h := h.move (.region (t := .main) rfl rfl)
  have h := h.move (.start (t := .host 1) rfl .entry)
  have h := h.move (.region (t := .host 1) rfl rfl)
  have h := h.move (.region (t := .host 1) rfl rfl)
  have h := h.move (.region (t := .host 1) rfl rfl)
  have h := h.move (.region (t := .host 1) rfl rfl)
  have hapart := (entry_runs_once silent_leaving rfl h).2 (by decide)
  exact ⟨_, h, rfl, hapart⟩

end Instance.Entering

end EmbeddedVm
