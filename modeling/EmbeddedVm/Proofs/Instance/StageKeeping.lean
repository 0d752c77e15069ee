import EmbeddedVm.Instance.Reload
import EmbeddedVm.Proofs.Checks
import EmbeddedVm.Proofs.Instance.FileNotes
import EmbeddedVm.Proofs.Instance.Use

/-!
# What leaves the stage of an instance

Only an initialization, a load and the run of the entry function take an instance to a next stage. A
start or a stop of its thread, a replacement of its module and the rounds of that thread leave the
stage as it is. A destruction ends the stages. All this code is looked at here, with the code of the
host that runs inside it, and what it does to the stage is one relation, `OnlyEnds`.

Code that has nothing to do with the machine leaves its place alone too: that is `World.Steady`, the
stronger of the two.
-/

namespace EmbeddedVm

variable {η ρ σ α : Type}

/-- The stage of the instance. -/
def World.stage (w : World η ρ σ) : LifecycleState := w.inst.core.state

/-- What there is in the place of the machine, for one who does not look into the machine. -/
inductive Slot where
  /-- Some thread has the machine. -/
  | taken
  | empty
  /-- A machine without a module. -/
  | unloaded
  | loaded
deriving DecidableEq, Repr

/-- A machine in its place. -/
def Slot.ofLoaded (loaded : Bool) : Slot := if loaded then .loaded else .unloaded

/-- What there is in the place of the machine. -/
def Exclusive.slot : Exclusive (Option (Vm η)) → Slot
  | .taken => .taken
  | .free none => .empty
  | .free (some vm) => .ofLoaded vm.isLoaded

/-- The place of the machine. -/
def World.slot (w : World η ρ σ) : Slot := w.inst.runtime.slot

/-- **A change that leaves the stage, the place of the machine and what the host keeps.** -/
structure World.Steady (w w' : World η ρ σ) : Prop where
  stage : w'.stage = w.stage
  slot : w'.slot = w.slot
  session : w'.session = w.session

namespace Instance.Staging

/-- A change that leaves the stage, unless it is the end. -/
def OnlyEnds (w w' : World η ρ σ) : Prop := w'.stage = w.stage ∨ w'.stage = .destroyed

variable {host : Host η ρ σ} {me : ThreadId} {w w' : World η ρ σ}

/-! ## 1. Regions -/

theorem onlyEnds_of_steady (h : w.Steady w') : OnlyEnds w w' := .inl h.stage

theorem steadyAdmits : Threads.Admits me (World.Steady : World η ρ σ → World η ρ σ → Prop) where
  refl _ := ⟨rfl, rfl, rfl⟩
  tends _ _ _ := ⟨rfl, rfl, rfl⟩

theorem keeps_steady_region {f : Instance η ρ → α × Instance η ρ}
    (hstate : ∀ i, (f i).2.core.state = i.core.state) (hruntime : ∀ i, (f i).2.runtime = i.runtime) :
    (region f : Act η ρ σ α).Keeps World.Steady :=
  keeps_region fun w => ⟨hstate w.inst, congrArg Exclusive.slot (hruntime w.inst), rfl⟩

theorem keeps_steady_change {f : Instance η ρ → Instance η ρ}
    (hstate : ∀ i, (f i).core.state = i.core.state) (hruntime : ∀ i, (f i).runtime = i.runtime) :
    (change f : Act η ρ σ Unit).Keeps World.Steady :=
  keeps_steady_region (f := fun i => ((), f i)) hstate hruntime

theorem keeps_steady_look (f : Instance η ρ → α) : (look f : Act η ρ σ α).Keeps World.Steady :=
  keeps_steady_region (f := fun i => (f i, i)) (fun _ => rfl) fun _ => rfl

theorem keeps_steady_read (f : World η ρ σ → α) : (Task.read f : Act η ρ σ α).Keeps World.Steady :=
  Task.keeps_atomically (f := fun w => (f w, w)) fun _ => ⟨rfl, rfl, rfl⟩

theorem keeps_steady_tracked {op : Operation η ρ σ α} (h : op.run.Keeps World.Steady) :
    (tracked op).run.Keeps World.Steady := by
  refine h.tryCatch fun e => Task.Keeps.bindOk ?_ fun _ => Task.keeps_throw e
  exact Task.Keeps.lift (keeps_steady_change (fun _ => rfl) fun _ => rfl)

theorem keeps_coreRegion {f : Core → Except InstanceError (α × Core)}
    (h : ∀ core a core', f core = .ok (a, core') → core'.state = core.state) :
    (coreRegion f : Operation η ρ σ α).run.Keeps World.Steady := by
  unfold coreRegion
  rw [ExceptT.run_mk]
  refine keeps_steady_region (fun i => ?_) fun i => ?_
  · cases hf : f i.core with
    | ok x => exact h i.core x.1 x.2 hf
    | error e => rfl
  · cases f i.core <;> rfl

theorem onlyEnds_of_aside (h : w.Aside me w') : OnlyEnds w w' := by
  refine .inl ?_
  unfold World.stage
  rw [h.core]

theorem stageAdmits : Threads.Admits me (OnlyEnds : World η ρ σ → World η ρ σ → Prop) :=
  admits_of_aside fun _ _ => onlyEnds_of_aside

theorem keeps_stage_region {f : Instance η ρ → α × Instance η ρ}
    (h : ∀ i, (f i).2.core.state = i.core.state) : (region f : Act η ρ σ α).Keeps OnlyEnds :=
  keeps_region fun w => .inl (h w.inst)

theorem keeps_stage_change {f : Instance η ρ → Instance η ρ}
    (h : ∀ i, (f i).core.state = i.core.state) : (change f : Act η ρ σ Unit).Keeps OnlyEnds :=
  keeps_change fun w => .inl (h w.inst)

theorem keeps_stage_look (f : Instance η ρ → α) : (look f : Act η ρ σ α).Keeps OnlyEnds :=
  keeps_stage_region (f := fun i => (f i, i)) fun _ => rfl

theorem keeps_stage_read (f : World η ρ σ → α) : (Task.read f : Act η ρ σ α).Keeps OnlyEnds :=
  Task.keeps_atomically (f := fun w => (f w, w)) fun _ => .inl rfl

theorem keeps_stage_awaitUntil {deadline : Option Nat}
    {f : Instance η ρ → Option (α × Instance η ρ)} {late : Instance η ρ → α × Instance η ρ}
    (h : ∀ i a i', f i = some (a, i') → i'.core.state = i.core.state)
    (hl : ∀ i, (late i).2.core.state = i.core.state) :
    (awaitUntil deadline f late : Act η ρ σ α).Keeps OnlyEnds :=
  keeps_awaitUntil (fun w a i hi => .inl (h w.inst a i hi)) fun w => .inl (hl w.inst)

theorem keeps_stage_tracked {op : Operation η ρ σ α} (h : op.run.Keeps OnlyEnds) :
    (tracked op).run.Keeps OnlyEnds := by
  have haside (w w' : World η ρ σ) (h : w.Aside .main w') : OnlyEnds w w' := onlyEnds_of_aside h
  exact keeps_tracked haside h

theorem keeps_stage_withVm {f : Vm η → Act η ρ σ (Except InstanceError α × Vm η)}
    (hf : ∀ vm, (f vm).Keeps OnlyEnds) : (withVm me f).run.Keeps OnlyEnds :=
  keeps_withVm (fun _ _ => onlyEnds_of_aside) hf

/-! ## 2. Starts, stops and destruction -/

theorem startRegion_state (i : Instance η ρ) : (startRegion i).2.core.state = i.core.state := by
  unfold startRegion
  split
  · rfl
  split
  · rfl
  split
  · rfl
  split
  · rfl
  · rfl

theorem keeps_start : (start : Operation η ρ σ Unit).run.Keeps OnlyEnds := by
  refine keeps_stage_tracked ?_
  refine Task.Keeps.bindOk (t := .mk (region startRegion)) ?_ fun g => ?_
  · exact keeps_stage_region startRegion_state
  · exact (Task.keeps_post _ _).lift

theorem keeps_beginShutdown :
    (beginShutdown : Act η ρ σ (Option Nat)).Keeps World.Steady := by
  refine keeps_steady_region (fun i => ?_) fun i => ?_
  · split <;> rfl
  · split <;> rfl

theorem keeps_awaitExit (limit : Option Nat) (g : Nat) :
    (awaitUntil limit (fun i => if (i.queue g).exited then some (true, i) else none)
      (fun i => ((i.queue g).exited, i)) : Act η ρ σ Bool).Keeps World.Steady := by
  refine keeps_awaitUntil (fun w exited i h => ?_) fun _ => ⟨rfl, rfl, rfl⟩
  split at h
  · cases h
    exact ⟨rfl, rfl, rfl⟩
  · cases h

theorem keeps_release_host (u : ThreadId) :
    (Threads.release u : Act η ρ σ (RegistryResult Unit)).Keeps World.Steady := by
  refine Task.keeps_await fun w result w' henter => ?_
  obtain ⟨⟨_, r⟩, -, heq⟩ := Option.map_eq_some_iff.mp henter
  cases heq
  exact ⟨rfl, rfl, rfl⟩

/-- A stop has nothing to do with the machine. -/
theorem keeps_steady_shutdown :
    (shutdown me : Operation η ρ σ Unit).run.Keeps World.Steady := by
  refine (keeps_steady_look _).lift.bindOk fun vmThread => ?_
  refine keeps_beginShutdown.lift.bindOk fun asked => ?_
  cases asked with
  | none => exact Task.keeps_ok _
  | some g =>
      refine (keeps_steady_change (fun _ => by rfl) fun _ => by rfl).lift.bindOk fun _ => ?_
      split
      · exact Task.keeps_throw _
      refine (keeps_steady_look _).lift.bindOk fun bound => ?_
      refine (Task.keeps_now.bind fun _ => Task.keeps_pure _).lift.bindOk fun limit => ?_
      refine (keeps_awaitExit limit g).lift.bindOk fun exited => ?_
      split
      · exact Task.keeps_throw _
      refine (keeps_steady_region (fun _ => by rfl) fun _ => by rfl).lift.bindOk fun hold => ?_
      refine (keeps_steady_change (fun _ => by rfl) fun _ => by rfl).lift.bindOk fun _ => ?_
      cases hold with
      | none => exact Task.keeps_ok _
      | some u => exact (keeps_release_host u).bind fun _ => Task.keeps_pure _

theorem keeps_shutdown : (shutdown me : Operation η ρ σ Unit).run.Keeps OnlyEnds :=
  keeps_steady_shutdown.mono fun _ _ => onlyEnds_of_steady

theorem keeps_dropVm : (dropVm : Act η ρ σ Bool).Keeps OnlyEnds := by
  refine keeps_stage_region fun i => ?_
  split <;> rfl

/-- A destruction ends the stages and does nothing else to them. -/
theorem keeps_destroy : (destroy me : Operation η ρ σ Unit).run.Keeps OnlyEnds := by
  have hreport (problems : List String) :
      (if !problems.isEmpty then throw (.destroyFailed ("; ".intercalate problems)) else pure () :
        Operation η ρ σ Unit).run.Keeps OnlyEnds := by
    split
    · exact Task.keeps_throw _
    · exact Task.keeps_ok _
  refine keeps_stage_tracked ?_
  refine (keeps_stage_look _).lift.bindOk fun state => ?_
  split
  · exact Task.keeps_throw _
  refine keeps_shutdown.lift.bindOk fun stopped => ?_
  refine keeps_dropVm.lift.bindOk fun dropped => ?_
  exact (keeps_change fun _ => .inr (by rfl)).lift.bindOk fun _ => hreport _

/-! ## 3. Replacements -/

theorem keeps_steady_enableHotReload (enable : Bool) :
    (enableHotReload enable : Operation η ρ σ Unit).run.Keeps World.Steady := by
  refine keeps_steady_tracked ?_
  refine keeps_coreRegion fun core _ core' h => ?_
  split at h
  · cases h
  · cases h
  · cases h
    rfl

theorem keeps_setMode (mode : IntegrationMode) :
    (setMode mode : Operation η ρ σ Unit).run.Keeps World.Steady := by
  refine keeps_steady_tracked ?_
  refine keeps_coreRegion fun core _ core' h => ?_
  obtain ⟨-, h⟩ := Checks.guard_eq_ok.mp h
  obtain ⟨-, h⟩ := Checks.guard_eq_ok.mp h
  cases h
  rfl

theorem keeps_enableHotReload (enable : Bool) :
    (enableHotReload enable : Operation η ρ σ Unit).run.Keeps OnlyEnds :=
  (keeps_steady_enableHotReload enable).mono fun _ _ => onlyEnds_of_steady

theorem keeps_readFile (path : String) :
    (readFile path : Operation η ρ σ Bytes).run.Keeps OnlyEnds := keeps_stage_read _

theorem onlyEnds_reloaded (w : World η ρ σ) (path : String) (signature : Option Signature) :
    OnlyEnds w { w with
      inst := { w.inst with core := { w.inst.core with loadedFile := some path, signature } } } :=
  .inl rfl

section Reload

variable (hr : ∀ label done, (host.reloaded me label done).Keeps OnlyEnds)

include hr

/-- A replacement leaves the stage; its reading and its writing down are like other regions. -/
theorem keeps_reloadWith {source : Operation η ρ σ (Bytes × Option String)}
    (h : source.run.Keeps OnlyEnds) : (reloadWith host me source).run.Keeps OnlyEnds := by
  rw [← reloadNoted_nothing]
  exact keeps_reloadNoted (fun _ _ => onlyEnds_of_aside) onlyEnds_reloaded hr h

theorem keeps_reloadFile (path : String) :
    (reloadFile host me path).run.Keeps OnlyEnds := by
  rw [← reloadFileNoted_nothing]
  exact keeps_reloadFileNoted (fun _ _ => .inl rfl) (fun _ _ => onlyEnds_of_aside)
    onlyEnds_reloaded hr path

theorem keeps_reloadMemory (bytes : Bytes) :
    (reloadMemory host me bytes).run.Keeps OnlyEnds :=
  keeps_reloadWith hr (Task.keeps_ok _)

theorem keeps_reloadCurrent : (reloadCurrent host me).run.Keeps OnlyEnds := by
  refine (keeps_stage_look _).lift.bindOk fun file => ?_
  cases file with
  | none => exact keeps_stage_tracked (Task.keeps_throw _)
  | some path => exact keeps_reloadFile hr path

theorem keeps_checkReload : (checkReload host me).run.Keeps OnlyEnds := by
  refine (keeps_stage_look _).lift.bindOk fun watched => ?_
  cases watched with
  | none => exact Task.keeps_ok _
  | some entry =>
      obtain ⟨path, previous⟩ := entry
      refine (keeps_stage_read _).lift.bindOk fun current => ?_
      split
      · exact Task.keeps_ok _
      refine (keeps_stage_change fun _ => by rfl).lift.bindOk fun _ => ?_
      refine Task.Keeps.bindOk (t := discard (reloadFile host me path)) ?_ fun _ => Task.keeps_ok _
      exact (keeps_reloadFile hr path).bindOk fun _ => Task.keeps_ok _

end Reload

/-! ## 4. The instance's own thread -/

theorem keeps_endThread (g : Nat) : (endThread me g : Act η ρ σ Unit).Keeps OnlyEnds :=
  stageAdmits.keeps_unregister.discard.bind fun _ => keeps_stage_change fun _ => rfl

theorem keeps_nextJob (limit : Option Nat) (g : Nat) :
    (awaitUntil limit
      (fun i => (i.queue g).next?.map fun (next, q) => (next, i.setQueue g q))
      (fun i =>
        let (next, q) := (i.queue g).nextLate
        (next, i.setQueue g q)) : Act η ρ σ (CallQueue.Next η)).Keeps OnlyEnds := by
  refine keeps_stage_awaitUntil (fun i next i' h => ?_) fun _ => rfl
  obtain ⟨⟨_, q⟩, -, heq⟩ := Option.map_eq_some_iff.mp h
  cases heq
  rfl

theorem keeps_finishReads : (finishReads : Act η ρ σ Unit).Keeps OnlyEnds := by
  refine Task.keeps_await fun w _ w' henter => .inl ?_
  split at henter
  · cases henter
    rfl
  · cases henter
    rfl
  · cases henter

end Instance.Staging

end EmbeddedVm
