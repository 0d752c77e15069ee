import Mathlib
import EmbeddedVm.Proofs.Instance.FileDiary
import EmbeddedVm.Proofs.Instance.StartStop
import EmbeddedVm.Proofs.Threads.Alone
import EmbeddedVm.Proofs.Vm.Update

/-!
# What a check of the module's file does not miss

A check says that nothing changed if the file has the signature that was last written down. It is
right if that signature was met, by a load or a replacement that read the file when it had it or
since (`checks_right`); and it misses an edit that came between the reading and the taking of the
signature (`edit_missed`).

Loads and replacements keep the diary of the file right in each of their regions, whatever else goes
on. A check has to know what it compares with, and that is its phase in a protocol.
-/

namespace EmbeddedVm.Instance.Watching

variable {η ρ σ α : Type} {path : String} {w w' : World η ρ (Diary σ)} {me : ThreadId}

/-! ## 1. Loads and replacements -/

section Operations

variable {host : Host η ρ (Diary σ)}

theorem keeps_read_minds (f : World η ρ (Diary σ) → α) :
    (Task.read f : Act η ρ (Diary σ) α).Keeps (Minds path) :=
  Task.keeps_atomically (f := fun w => (f w, w)) minds_refl

theorem keeps_look_minds (f : Instance η ρ → α) :
    (look f : Act η ρ (Diary σ) α).Keeps (Minds path) := keeps_look (minds_of_aside .main) f

theorem minds_reloaded (me : ThreadId) (w : World η ρ (Diary σ)) (p : String)
    (signature : Option Signature) :
    Minds path w ((diary path).recorded me (some p) signature { w with
      inst := { w.inst with core := { w.inst.core with loadedFile := some p, signature } } }) :=
  minds_recorded me w { w.inst.core with loadedFile := some p, signature }

theorem keeps_loadBytesNoted (bytes : Bytes) (p : Option String) :
    (loadBytesNoted (diary path) me bytes p : Operation η ρ (Diary σ) Unit).run.Keeps
      (Minds path) := by
  have hadmit : (admitLoad me : Operation η ρ (Diary σ) Unit).run.Keeps (Minds path) :=
    keeps_check (minds_of_aside me) _
  refine hadmit.bindOk fun _ => ?_
  cases Module.load bytes with
  | error e => exact Task.keeps_throw _
  | ok m =>
      refine Task.Keeps.bindOk (Task.keeps_ok m) fun m => ?_
      have hbegin : ∀ w : World η ρ (Diary σ), Minds path w { w with
          inst := { w.inst with core := { w.inst.core with state := .initialized } } } :=
        fun _ => minds_of_leaves ⟨rfl, rfl, rfl, rfl⟩
      refine (keeps_change hbegin).lift.bindOk fun _ => ?_
      refine (keeps_withVm (minds_of_aside me) fun _ => Task.keeps_pure _).bindOk fun _ => ?_
      refine (keeps_read_minds _).lift.bindOk fun signature => ?_
      exact (Task.keeps_atomically fun w => minds_recorded me w
        { w.inst.core with state := .moduleLoaded, loadedFile := p, signature }).lift

variable (hl : Listening host)

include hl

theorem keeps_minds_reload {source : Operation η ρ (Diary σ) (Bytes × Option String)}
    (h : source.run.Keeps (Minds path)) :
    (reloadNoted (diary path) host me source).run.Keeps (Minds path) :=
  keeps_reloadNoted (minds_of_aside me) (minds_reloaded me)
    (fun label done => (hl me label done).mono fun _ _ => minds_of_leaves) h

theorem keeps_minds_reloadFile (p : String) :
    (reloadFileNoted (diary path) host me p).run.Keeps (Minds path) :=
  keeps_reloadFileNoted (fun w p => minds_read me p w) (minds_of_aside me) (minds_reloaded me)
    (fun label done => (hl me label done).mono fun _ _ => minds_of_leaves) p

end Operations

/-! ## 2. Checks -/

/-- How far a thread is with a check. -/
inductive Phase where
  | outside
  /-- It is to compare the signature of a file with one that was written down. -/
  | looked (p : String) (previous : Option Signature)
  /-- It has found that the signature is another. -/
  | found (p : String) (current : Option Signature)

/-- What a thread knows of the file. -/
def Phase.Knows (path : String) : Phase → World η ρ (Diary σ) → Prop
  | outside, _ => True
  | looked p previous, w => p = path → ∀ s, previous = some s → Reliable path w s
  | found p current, w => p = path → ∀ s, current = some s → s ∈ w.session.had

theorem Phase.Knows.advance {φ : Phase} (h : φ.Knows path w) (ha : Advances path w w') :
    φ.Knows path w' := by
  cases φ with
  | outside => trivial
  | looked p previous => exact fun hp s hs => ha.reliable s (h hp s hs)
  | found p current => exact fun hp s hs => ha.had s (h hp s hs)

/-- **The protocol of checks.** -/
def watching (η ρ σ : Type) (path : String) : Protocol (Work η) (World η ρ (Diary σ)) where
  Phase := Phase
  rest := .outside
  holds _ φ w := Sound path w ∧ φ.Knows path w
  allowed _ _ ψ w w' := (Sound path w' ∧ ψ.Knows path w') ∧ Advances path w w'
  posting _ _ := True
  own h := h.1
  others h _ _ _ hu := ⟨h.1.1, hu.2.advance h.2⟩

variable {φ : Phase}

/-- A task that keeps the diary right leaves its thread in its phase. -/
theorem stays {t : Act η ρ (Diary σ) α} (h : t.Keeps (Minds path)) :
    (watching η ρ σ path).Leads me φ t fun _ ψ => ψ = φ := by
  refine h (watching η ρ σ path) me φ (fun w w' hw hm => ?_) fun _ => trivial
  obtain ⟨hs, ha⟩ := hm hw.1
  exact ⟨⟨hs, hw.2.advance ha⟩, ha⟩

theorem enters_of_minds {Q : Phase → Prop} (ψ : Phase) (hw : Sound path w) (hm : Minds path w w')
    (hψ : Sound path w' → ψ.Knows path w') (hq : Q ψ) :
    (watching η ρ σ path).Enters me φ w w' Q := by
  obtain ⟨hs, ha⟩ := hm hw
  exact ⟨ψ, ⟨⟨hs, hψ hs⟩, ha⟩, hq⟩

section Requests

variable {host : Host η ρ (Diary σ)} (hl : Listening host)

include hl

/-- **A check knows what it compares with**, and what it has found. -/
theorem checkReload_leads :
    (watching η ρ σ path).Leads me .outside (checkReloadNoted (diary path) host me).run
      fun _ ψ => ψ = .outside := by
  have hlook : (watching η ρ σ path).Leads me .outside
      (look fun i => watched? i.core : Act η ρ (Diary σ) _) fun watched ψ =>
        ψ = watched.elim Phase.outside fun entry => .looked entry.1 entry.2 := by
    refine Protocol.leads_read fun w hw => ?_
    refine enters_of_minds _ hw.1 (minds_refl w) (fun hs => ?_) rfl
    dsimp only
    cases hwatched : watched? w.inst.core with
    | none => trivial
    | some entry =>
        unfold watched? at hwatched
        split at hwatched
        · obtain ⟨p, hfile, rfl⟩ := Option.map_eq_some_iff.mp hwatched
          exact fun hp s hsignature => hs.recorded (hfile.trans (congrArg some hp)) s hsignature
        · cases hwatched
  refine hlook.bindLift fun watched ψ hψ => ?_
  cases watched with
  | none => exact Protocol.leads_pure hψ
  | some entry =>
      obtain ⟨p, previous⟩ := entry
      obtain rfl := hψ
      have hcompare : (watching η ρ σ path).Leads me (.looked p previous)
          (Task.atomically fun w =>
            (w.files.signature? p, (diary path).compared me p previous w))
          fun current ψ => ψ =
            if current.isNone || current == previous then Phase.outside else .found p current := by
        refine Protocol.leads_atomically fun w hw => ?_
        refine enters_of_minds _ hw.1 (minds_compared me hw.2) (fun hs => ?_) rfl
        split
        · trivial
        · intro hp s hfile
          have hhad : s ∈ w.session.had := hw.1.had s (hp ▸ hfile)
          exact (minds_compared me hw.2 hw.1).2.had s hhad
      refine hcompare.bindLift fun current ψ hψ => ?_
      split
      · rename_i hsame
        rw [if_pos hsame] at hψ
        exact Protocol.leads_pure hψ
      · rename_i hother
        rw [if_neg hother] at hψ
        obtain rfl := hψ
        have hnotice : (watching η ρ σ path).Leads me (.found p current)
            (Task.change fun w => (diary path).noticed me p current { w with
              inst := { w.inst with core := { w.inst.core with signature := current } } })
            fun _ ψ => ψ = .outside :=
          Protocol.leads_atomically fun w hw =>
            enters_of_minds .outside hw.1 (minds_noticed me hw.2) (fun _ => trivial) rfl
        refine hnotice.bindLift ?_
        rintro _ _ rfl
        refine stays (Task.Keeps.bindOk (t := discard (reloadFileNoted (diary path) host me p))
          ?_ fun _ => Task.keeps_ok true)
        exact (keeps_minds_reloadFile hl p).bindOk fun _ => Task.keeps_ok _

/-- **Whatever a thread is asked for**, it keeps the diary right. -/
theorem performNoted_leads (r : Request) :
    (watching η ρ σ path).Leads me .outside (r.performNoted (diary path) host me)
      fun _ ψ => ψ = .outside := by
  cases r with
  | loadFile p =>
      refine stays (Task.Keeps.discard (keeps_tracked (minds_of_aside me) ?_))
      exact (keeps_readFileNoted (fun w p => minds_read me p w) p).bindOk fun bytes =>
        keeps_loadBytesNoted bytes (some p)
  | loadMemory bytes =>
      exact stays (keeps_tracked (minds_of_aside me) (keeps_loadBytesNoted bytes none)).discard
  | reloadFile p => exact stays (keeps_minds_reloadFile hl p).discard
  | reloadMemory bytes => exact stays (keeps_minds_reload hl (Task.keeps_ok (bytes, none))).discard
  | reloadCurrent =>
      refine stays (Task.Keeps.discard ((keeps_look_minds _).lift.bindOk fun file => ?_))
      cases file with
      | none => exact keeps_tracked (minds_of_aside me) (Task.keeps_throw _)
      | some p => exact keeps_minds_reloadFile hl p
  | checkReload => exact (checkReload_leads hl).bind fun _ _ hψ => Protocol.leads_pure hψ

/-- **Whatever a thread starts follows the protocol.** -/
theorem Starts.follows {p : Program (Work η) (World η ρ (Diary σ))} (h : Starts path host me p) :
    (watching η ρ σ path).Follows me .outside p := by
  cases h with
  | request r => exact performNoted_leads hl r _ fun _ _ hψ => hψ ▸ .halt
  | rewrite edit => exact stays (keeps_rewrite edit) _ fun _ _ hψ => hψ ▸ .halt
  | aside h => exact stays (h.mono fun _ _ => minds_of_leaves) _ fun _ _ hψ => hψ ▸ .halt

end Requests

/-! ## 3. What one thread gets done -/

section Runs

variable {starts : ThreadId → Program (Work η) (World η ρ (Diary σ)) → Prop}
  {w₀ : World η ρ (Diary σ)} {host : Host η ρ (Diary σ)} {vm vm' : Vm η}

/-- The thread `me` may have the module of a machine replaced, and nobody listens. -/
structure Replaceable (me : ThreadId) (vm : Vm η) (i : Instance η ρ) : Prop where
  state : i.core.state = .entryRan
  hotReload : i.core.hotReload = true
  mode : i.settings.vmOptions.mode = .jit
  affinity : i.checkAffinity me = .ok ()
  runtime : i.runtime = .free (some vm)
  listener : i.reloadListener = none

/-- An instance whose machine was put back. -/
def putting (vm : Vm η) (i : Instance η ρ) : Instance η ρ :=
  { i with runtime := .free (some vm), owner := none }

/-- The thread does something with the machine that changes nothing else. -/
theorem replaceable_passes {f : Vm η → Act η ρ (Diary σ) (Except InstanceError α × Vm η)} {a : α}
    (h : Replaceable me vm w.inst) (hf : f vm = pure (.ok a, vm'))
    (hidle : vm'.store.reactor.running.isEmpty = true) :
    (withVm me f).run.Passes starts w₀ me w (.ok a) { w with inst := putting vm' w.inst } := by
  have hlive : requireLive w.inst.core = .ok () := by
    unfold requireLive
    rw [h.state]
  have hdone (w : World η ρ (Diary σ)) : (f vm).Passes starts w₀ me w (.ok a, vm') w := by
    rw [hf]
    exact Task.passes_pure _
  have hused := withVm_passes hlive h.affinity h.runtime (hdone _) hidle
  exact hused

theorem readFile_passes {bytes : Bytes} (h : w.files.read path = .ok bytes) :
    (readFileNoted (diary path) me path : Operation η ρ (Diary σ) Bytes).run.Passes starts w₀ me w
      (.ok bytes) { w with session := w.session.read path me w.files } := by
  unfold readFileNoted
  rw [ExceptT.run_mk]
  refine Task.passes_atomically ?_
  rw [h]
  exact congrArg (Prod.mk _) (if_pos rfl)

/-- What is noted of a signature that is written down is noted in the diary. -/
theorem diary_recorded (signature : Option Signature) (w : World η ρ (Diary σ)) :
    (diary path).recorded me (some path) signature w = { w with
      session := if w.session.readAt me ≠ signature then w.session.overtake signature
        else w.session } := by
  unfold diary
  dsimp only
  by_cases h : w.session.readAt me ≠ signature
  · rw [if_pos h, if_pos ⟨rfl, h⟩]
  · rw [if_neg h, if_neg fun hp => h hp.2]

/-- The world when the machine was given a module of this file and its signature is written down. -/
def reloaded (path : String) (me : ThreadId) (vm : Vm η) (w : World η ρ (Diary σ)) :
    World η ρ (Diary σ) :=
  (diary path).recorded me (some path) (w.files.signature? path) { w with
    inst := { putting vm w.inst with
      core := { w.inst.core with
        loadedFile := some path, signature := w.files.signature? path } } }

/-- **A replacement that nobody hinders**, when the file was read. -/
theorem reloadFile_passes {bytes : Bytes} {m : Module} {report : PatchReport}
    (h : Replaceable me vm w.inst)
    (hread : (readFileNoted (diary path) me path : Operation η ρ (Diary σ) Bytes).run.Passes
      starts w₀ me w (.ok bytes) w')
    (hinst : w'.inst = w.inst) (hload : Module.load bytes = .ok m)
    (hpatch : (Vm.patch m).run vm = .ok report vm')
    (hidle : vm'.store.reactor.running.isEmpty = true) :
    (reloadFileNoted (diary path) host me path).run.Passes starts w₀ me w (.ok report)
      (reloaded path me vm' w') := by
  have hreplaceable : Replaceable me vm w'.inst := hinst ▸ h
  have htry : (tryReloadNoted (diary path) me do
        return (← readFileNoted (diary path) me path, some path) :
        Operation η ρ (Diary σ) PatchReport).run.Passes starts w₀ me w (.ok report)
      (reloaded path me vm' w') := by
    have hadmit : (admitReload : Operation η ρ (Diary σ) Unit).run.Passes starts w₀ me w
        (.ok ()) w := by
      unfold admitReload
      rw [ExceptT.run_mk]
      refine look_passes ?_
      rw [h.hotReload, h.state]
      rfl
    have hmode : (look (·.settings.vmOptions.mode) : Act η ρ (Diary σ) _).Passes starts w₀ me w
        .jit w := look_passes h.mode
    refine hadmit.bindOk (hmode.lift.bindOk ?_)
    refine Task.Passes.bindOk (hread.bindOk (Task.passes_pure _)) ?_
    dsimp only
    rw [hload]
    refine Task.Passes.bindOk (Task.passes_pure _) ?_
    have hloaded {f : Vm η → Act η ρ (Diary σ) (Except InstanceError PatchReport × Vm η)}
        (hf : f vm = pure (.ok report, vm')) :
        (withLoadedVm me f).run.Passes starts w₀ me w' (.ok report)
          { w' with inst := putting vm' w'.inst } := by
      have hmodule : (look (·.core.state.hasModule) : Act η ρ (Diary σ) _).Passes starts w₀ me w'
          true w' := by
        refine look_passes ?_
        rw [hreplaceable.state]
        rfl
      exact hmodule.lift.bindOk (replaceable_passes hreplaceable hf hidle)
    have hupdate : (updateVm patchFailure (Vm.patch m) vm :
        Act η ρ (Diary σ) (Except InstanceError PatchReport × Vm η)) = pure (.ok report, vm') := by
      unfold updateVm
      rw [Vm.attempt_eq_ok.mpr hpatch]
      rfl
    refine (hloaded hupdate).bindOk ?_
    refine (Task.passes_read rfl).lift.bindOk ?_
    exact (Task.passes_change _).lift.bindOk (Task.passes_pure _)
  have hlive : (look (·.core.state.isLive) : Act η ρ (Diary σ) _).Passes starts w₀ me w true w := by
    refine look_passes ?_
    rw [h.state]
    rfl
  have hlistener : (look (·.reloadListener) : Act η ρ (Diary σ) _).Passes starts w₀ me
      (reloaded path me vm' w') none (reloaded path me vm' w') := by
    refine look_passes ?_
    rw [reloaded, diary_recorded]
    exact hreplaceable.listener
  refine Task.Passes.tryCatch (hlive.lift.bindOk ?_)
  exact htry.lift.bindOk (hlistener.lift.bindOk (Task.passes_pure _))

/-- **A check of a file that has the signature written down** finds nothing new. -/
theorem checkReload_passes {s : Signature} (hwatched : watched? w.inst.core = some (path, some s))
    (hfile : w.files.signature? path = some s) :
    (checkReloadNoted (diary path) host me).run.Passes starts w₀ me w (.ok false)
      { w with session := w.session.answer path me s w.files } := by
  have hcompared : (diary path).compared me path (some s) w =
      { w with session := w.session.answer path me s w.files } := by
    unfold diary
    dsimp only
    rw [hfile]
    exact if_pos ⟨rfl, rfl⟩
  have hlook : (look fun i => watched? i.core : Act η ρ (Diary σ) _).Passes starts w₀ me w
      (some (path, some s)) w := look_passes hwatched
  have hcompare : (Task.atomically fun w =>
      (w.files.signature? path, (diary path).compared me path (some s) w) :
      Act η ρ (Diary σ) _).Passes starts w₀ me w (some s)
        { w with session := w.session.answer path me s w.files } :=
    Task.passes_atomically (by rw [hfile, hcompared])
  refine hlook.lift.bindOk (hcompare.lift.bindOk ?_)
  have hsame : ((some s).isNone || some s == some s) = true := by simp
  rw [if_pos hsame]
  exact Task.passes_pure _

end Runs

/-- Files with the module's file alone. -/
def disk (contents : Bytes) (changed : Nat) : Files := ⟨[(["m"], .file contents changed)]⟩

theorem read_disk (contents : Bytes) (changed : Nat) :
    (disk contents changed).read "m" = .ok contents := by cbv

theorem signature_disk (contents : Bytes) (changed : Nat) :
    (disk contents changed).signature? "m" = some (changed, contents.length) := by cbv

theorem contents_disk (contents : Bytes) (changed : Nat) :
    contents? (disk contents changed) "m" = some contents :=
  congrArg Except.toOption (read_disk contents changed)

/-- A module that does nothing either. -/
def otherModule : Module := { Driving.idleModule with name := "other" }

/-- A world whose instance has run the entry function of its module, and allows replacements; a file
    holds that module. -/
def watchedWorld : World Empty Unit (Diary Unit) :=
  let files := disk Driving.idleModule.encode 1
  let w := Driving.readyWorld (.blank files "m" ())
  { w with
    files
    inst := { w.inst with
      core := { w.inst.core with mode := .nonThreaded, hotReload := true } } }

/-- That world when the first thread has read the file. -/
def readWorld : World Empty Unit (Diary Unit) :=
  { watchedWorld with session := watchedWorld.session.read "m" .main watchedWorld.files }

/-- The first thread had the file before it as it was at first. -/
theorem readAt_readWorld :
    readWorld.session.readAt .main = some (1, Driving.idleModule.encode.length) :=
  signature_disk _ 1

theorem readWorld_passes :
    (readFileNoted (diary "m") .main "m" : Operation Empty Unit _ Bytes).run.Passes
      (Starts "m" (Driving.silentHost (Diary Unit))) watchedWorld .main watchedWorld
      (.ok Driving.idleModule.encode) readWorld :=
  readFile_passes (read_disk _ 1)

/-- The machine of that instance, and what a replacement makes of it. -/
theorem exists_replaced : ∃ vm report vm', Replaceable .main vm watchedWorld.inst ∧
    (Vm.patch Driving.idleModule).run vm = .ok report vm' ∧
    vm'.store.reactor.running.isEmpty = true := by
  let vm : Vm Empty := ((Vm.create {} 0).attempt (Vm.load Driving.idleModule)).2
  obtain ⟨report, hpatch⟩ := Vm.exists_run_eq_ok vm (Vm.patch Driving.idleModule) (by decide +kernel)
  exact ⟨vm, report, _, ⟨rfl, rfl, rfl, rfl, rfl, rfl⟩, hpatch, by decide +kernel⟩

/-- The first thread replaces the module by that of the file, whatever comes upon its reading, and
    checks the file. -/
theorem reached_check {w' : World Empty Unit (Diary Unit)} {s : Signature}
    (hread : (readFileNoted (diary "m") .main "m" : Operation Empty Unit _ Bytes).run.Passes
      (Starts "m" (Driving.silentHost (Diary Unit))) watchedWorld .main watchedWorld
      (.ok Driving.idleModule.encode) w')
    (hinst : w'.inst = watchedWorld.inst) (hfile : w'.files.signature? "m" = some s) :
    ∃ w, Crew.Reached (Starts "m" (Driving.silentHost (Diary Unit))) watchedWorld
        ⟨w, fun _ => .halt⟩ ∧
      watched? w.inst.core = some ("m", some s) ∧
      w.session = Diary.answer "m"
        (if w'.session.readAt .main ≠ some s then w'.session.overtake (some s) else w'.session)
        .main s w'.files := by
  obtain ⟨vm, report, vm', hready, hpatch, hidle⟩ := exists_replaced
  have hreload :
      (reloadFileNoted (diary "m") (Driving.silentHost (Diary Unit)) .main "m").run.Passes
        (Starts "m" (Driving.silentHost (Diary Unit))) watchedWorld .main watchedWorld (.ok report)
        (reloaded "m" .main vm' w') :=
    reloadFile_passes hready hread hinst Driving.load_idleModule hpatch hidle
  have hwatched : watched? (reloaded "m" .main vm' w').inst.core = some ("m", some s) := by
    rw [reloaded, diary_recorded, hinst, hfile]
    rfl
  have hkept : (reloaded "m" .main vm' w').files = w'.files := by
    rw [reloaded, diary_recorded]
  have hcheck : (checkReloadNoted (diary "m") (Driving.silentHost (Diary Unit)) .main).run.Passes
      (Starts "m" (Driving.silentHost (Diary Unit))) watchedWorld .main
      (reloaded "m" .main vm' w') (.ok false) { reloaded "m" .main vm' w' with
        session := (reloaded "m" .main vm' w').session.answer "m" .main s w'.files } :=
    hkept ▸ checkReload_passes hwatched (hkept ▸ hfile)
  refine ⟨_, hcheck.discard.reached (hreload.discard.reached .begin (.request (.reloadFile "m")))
    (.request .checkReload), hwatched, ?_⟩
  rw [reloaded, diary_recorded, hfile]

/-! ## 4. Main statements -/

/-- **A check that finds nothing new is right**, whatever edits of the file another process makes
    and whatever threads do to load it, to replace the module by it and to check it, in any order
    and between any two steps of each other: what was read from the file last is what it held when
    the check looked. It is so unless an edit has overtaken the signature that the check compares
    with, or a check that has noticed a change is yet to read the file. -/
theorem checks_right {host : Host η ρ (Diary σ)} (hl : Listening host)
    (hfile : w.inst.core.loadedFile ≠ some path) {other : σ}
    (hd : w.session = .blank w.files path other) {c : Crew (Work η) (World η ρ (Diary σ))}
    (h : Crew.Reached (Starts path host) w c) :
    ∀ a ∈ c.state.session.answers,
      a.overtaken = false → a.awaited = [] → a.latest = a.contents := by
  have hsound : Sound path w := by
    refine ⟨fun s hs => ?_, fun u s hs => ?_, fun hl => absurd hl hfile, fun a ha => ?_⟩
    · rw [hd]
      exact Option.mem_toList.mpr hs
    · rw [hd] at hs
      cases hs
    · rw [hd] at ha
      cases ha
  have hkept : (watching η ρ σ path).Kept c :=
    Protocol.kept_of_reached (fun _ => ⟨hsound, trivial⟩) (fun _ _ hp => hp.follows hl) h
  obtain ⟨_, -, hc, -⟩ := hkept .main
  exact hc.answers

theorem silent_listening : Listening (Driving.silentHost (Diary Unit)) :=
  fun _ label _ => label.elim

/-- A check finds nothing new after a replacement from the file, and it is right. -/
theorem unchanged_file_checked :
    ∃ c, Crew.Reached (Starts "m" (Driving.silentHost (Diary Unit))) watchedWorld c ∧
      ∃ a, c.state.session.answers = [a] ∧ a.contents = some Driving.idleModule.encode ∧
        a.overtaken = false ∧ a.awaited = [] ∧ a.latest = a.contents := by
  obtain ⟨w, hreached, -, hsession⟩ := reached_check readWorld_passes rfl (signature_disk _ 1)
  rw [if_neg (not_not_intro readAt_readWorld)] at hsession
  refine ⟨_, hreached, _, congrArg Diary.answers hsession, contents_disk _ 1, rfl, rfl, ?_⟩
  have hnone : watchedWorld.inst.core.loadedFile = none := rfl
  refine checks_right silent_listening (hnone ▸ nofun) rfl hreached _ ?_ rfl rfl
  show _ ∈ w.session.answers
  rw [hsession]
  exact List.mem_singleton_self _

/-- **An edit can be missed.** It comes when a replacement has read the file and has not taken its
    signature yet. No check has noticed anything that would have to be read, and the next one finds
    nothing new in a file that holds something else than what was read. -/
theorem edit_missed :
    ∃ c, Crew.Reached (Starts "m" (Driving.silentHost (Diary Unit))) watchedWorld c ∧
      watched? c.state.inst.core = some ("m", some (2, otherModule.encode.length)) ∧
      ∃ a, c.state.session.answers = [a] ∧ a.awaited = [] ∧
        a.contents = some otherModule.encode ∧ a.latest = some Driving.idleModule.encode ∧
        a.latest ≠ a.contents := by
  have hsignature := signature_disk otherModule.encode 2
  have hedited := readWorld_passes.meanwhile (u := .host 1) nofun
    (.rewrite fun _ => disk otherModule.encode 2)
  have hrenewed :
      Renewed "m" readWorld.session.had readWorld.files (disk otherModule.encode 2) := by
    refine .inr fun s hs => ?_
    cases hsignature.symm.trans hs
    show (2, otherModule.encode.length) ∉ ((disk Driving.idleModule.encode 1).signature? "m").toList
    rw [signature_disk]
    simp
  rw [if_pos hrenewed] at hedited
  obtain ⟨w, hreached, hwatched, hsession⟩ := reached_check hedited rfl hsignature
  have hovertaken : (rewritten "m" (disk otherModule.encode 2) readWorld).session.readAt .main ≠
      some (2, otherModule.encode.length) := by
    show readWorld.session.readAt .main ≠ _
    rw [readAt_readWorld]
    simp
  rw [if_pos hovertaken] at hsession
  have hcontents := contents_disk otherModule.encode 2
  have hlatest : readWorld.session.latest = some Driving.idleModule.encode := contents_disk _ 1
  refine ⟨_, hreached, hwatched, _, congrArg Diary.answers hsession, rfl, hcontents, hlatest, ?_⟩
  have hother : some Driving.idleModule.encode ≠ some otherModule.encode := by decide +kernel
  exact fun heq => hother (hlatest.symm.trans (heq.trans hcontents))

end EmbeddedVm.Instance.Watching
