import EmbeddedVm.Proofs.Instance.Use

/-!
# Who drives the machine

In threaded mode the machine belongs to the instance's own thread while that runs. What this means
is spread over several pieces of the state: the status of the thread, the number of its start, the
thread that counts as the driver, the queues, and the hold on the thread that initialized the
instance. `Instance.Owned` says how they agree when the status is *running* or *stopped*.

`Instance.Tenure` is what agrees at any time, and here are the regions of a start, of a stop and of
the thread itself, each with the condition under which it keeps that agreement. The conditions are
the point: they are what has to be known of the other threads.
-/

namespace EmbeddedVm

/-! ## 1. Holds -/

namespace ThreadRegistry

variable {r r' : ThreadRegistry} {id me u : ThreadId}

theorem isRegistered_congr (h : r'.slot? u = r.slot? u) : r'.isRegistered u = r.isRegistered u := by
  unfold isRegistered
  rw [h]

theorem isHeld_congr (h : r'.slot? u = r.slot? u) : r'.isHeld u = r.isHeld u := by
  unfold isHeld
  rw [h]

/-- A registered thread is held after a hold, even if that failed: it was held before. -/
theorem isHeld_hold (h : r.isRegistered id = true) : (r.hold id).2.isHeld id = true := by
  obtain ⟨slot, hslot⟩ := Option.isSome_iff_exists.mp h
  unfold hold
  rw [hslot]
  dsimp only
  split
  · rename_i hheld
    simp [isHeld, hslot, hheld]
  · simp [isHeld, slot?_setSlot_self h]

theorem isRegistered_hold : (r.hold id).2.isRegistered id = r.isRegistered id := by
  unfold hold
  cases hslot : r.slot? id with
  | none => rfl
  | some slot =>
      dsimp only
      split
      · rfl
      · have h : r.isRegistered id = true := by simp [isRegistered, hslot]
        rw [h, isRegistered, slot?_setSlot_self h]
        rfl

end ThreadRegistry

namespace Instance

variable {η ρ : Type} {i i' : Instance η ρ} {g : Nat} {q : CallQueue η}

/-! ## 2. Queues -/

theorem queue_of_length_le (h : i.queues.length ≤ g) : i.queue g = {} := by
  unfold queue
  rw [List.getD_eq_getElem?_getD, List.getElem?_eq_none h]
  rfl

theorem queue_setQueue_self (h : g < i.queues.length) : (i.setQueue g q).queue g = q := by
  unfold queue setQueue
  simp [List.getD_eq_getElem?_getD, h]

theorem queue_setQueue_of_ne {g' : Nat} (h : g' ≠ g) : (i.setQueue g q).queue g' = i.queue g' := by
  unfold queue setQueue
  simp [List.getD_eq_getElem?_getD, List.getElem?_set_ne (Ne.symm h)]

theorem setQueue_of_length_le (h : i.queues.length ≤ g) : i.setQueue g q = i := by
  unfold setQueue
  rw [List.set_eq_of_length_le h]

@[simp] theorem length_setQueue : (i.setQueue g q).queues.length = i.queues.length :=
  List.length_set

/-- What a change of a queue leaves as it was in that queue it leaves in all, -/
theorem setQueue_flags {α : Type} {f : CallQueue η → α} (h : f q = f (i.queue g)) (g' : Nat) :
    f ((i.setQueue g q).queue g') = f (i.queue g') := by
  by_cases hg : g' = g
  · subst hg
    rcases Nat.lt_or_ge g' i.queues.length with hlt | hle
    · rw [queue_setQueue_self hlt, h]
    · rw [setQueue_of_length_le hle]
  · rw [queue_setQueue_of_ne hg]

/-- and so with what it does not take back. -/
theorem flag_setQueue {f : CallQueue η → Bool} {g' : Nat} (h : f (i.queue g) = true → f q = true)
    (hf : f (i.queue g') = true) : f ((i.setQueue g q).queue g') = true := by
  by_cases hg : g' = g
  · subst hg
    rcases Nat.lt_or_ge g' i.queues.length with hlt | hle
    · rw [queue_setQueue_self hlt]
      exact h hf
    · rwa [setQueue_of_length_le hle]
  · rwa [queue_setQueue_of_ne hg]

/-- **The thread of a start serves its queue**: it was started and has not ended. -/
def Serving (i : Instance η ρ) (generation : Nat) : Prop :=
  generation < i.queues.length ∧ (i.queue generation).exited = false

/-! ## 3. Agreement -/

/-- The thread that initialized the instance is held, if it is registered. -/
def HostHeld (i : Instance η ρ) : Prop :=
  ∀ u, i.core.initThread = some u → i.threads.isRegistered u = true → i.threads.isHeld u = true

/-- **The machine belongs to whom the status says.** -/
structure Owned (i : Instance η ρ) : Prop where
  /-- While it runs, the thread of the latest start serves its queue and counts as the driver, -/
  driver : i.engine.status = .running →
    i.core.vmThread = some (.own i.engine.generation) ∧ i.Serving i.engine.generation
  /-- no other serves any, -/
  alone : i.engine.status = .running → ∀ g, i.Serving g → g = i.engine.generation
  /-- and the thread that initialized the instance is kept away. -/
  held : i.engine.status = .running → i.HostHeld
  /-- While it is stopped, none serves. -/
  stopped : i.engine.status = .stopped → ∀ g, ¬ i.Serving g

/-- **What agrees at any time.** -/
structure Tenure (i : Instance η ρ) : Prop where
  latest : ∀ g, i.Serving g → g = i.engine.generation
  driver : i.engine.status = .running → i.core.vmThread = some (.own i.engine.generation) ∧
    i.Serving i.engine.generation ∧ (i.queue i.engine.generation).stopping = false
  held : i.engine.status = .running → i.HostHeld
  stopped : i.engine.status = .stopped → ∀ g, ¬ i.Serving g
  /-- The instance was initialized by a thread of the host. -/
  host : ∀ u, i.core.initThread = some u → ∃ n, u = .host n

theorem Tenure.owned (h : i.Tenure) : i.Owned :=
  ⟨fun hr => ⟨(h.driver hr).1, (h.driver hr).2.1⟩, fun _ => h.latest, h.held, h.stopped⟩

/-- The thread of a start was asked to end, and no start has come after it. -/
def Asked (i : Instance η ρ) (generation : Nat) : Prop :=
  i.engine.generation = generation ∧ i.engine.status ≠ .running

/-- **A change that is nothing to the agreement.** -/
structure SameOwner (i i' : Instance η ρ) : Prop where
  initThread : i'.core.initThread = i.core.initThread
  vmThread : i'.core.vmThread = i.core.vmThread
  engine : i'.engine = i.engine
  started : i'.queues.length = i.queues.length
  stopping : ∀ g, (i'.queue g).stopping = (i.queue g).stopping
  exited : ∀ g, (i'.queue g).exited = (i.queue g).exited
  held : i.HostHeld → i'.HostHeld

theorem SameOwner.serving (h : i.SameOwner i') : i'.Serving g ↔ i.Serving g := by
  unfold Serving
  rw [h.started, h.exited]

theorem SameOwner.tenure (h : i.SameOwner i') (ht : i.Tenure) : i'.Tenure where
  latest g hg := by
    rw [h.engine]
    exact ht.latest g (h.serving.mp hg)
  driver hr := by
    rw [h.engine] at hr
    obtain ⟨hvm, hserving, hstopping⟩ := ht.driver hr
    rw [h.engine, h.vmThread, h.stopping]
    exact ⟨hvm, h.serving.mpr hserving, hstopping⟩
  held hr := by
    rw [h.engine] at hr
    exact h.held (ht.held hr)
  stopped hs g hg := by
    rw [h.engine] at hs
    exact ht.stopped hs g (h.serving.mp hg)
  host u hu := ht.host u (h.initThread.symm.trans hu)

theorem hostHeld_congr (hcore : i'.core.initThread = i.core.initThread)
    (hslots : ∀ u, i.core.initThread = some u → i'.threads.slot? u = i.threads.slot? u)
    (h : i.HostHeld) : i'.HostHeld := by
  intro u hu hr
  rw [hcore] at hu
  rw [ThreadRegistry.isRegistered_congr (hslots u hu)] at hr
  rw [ThreadRegistry.isHeld_congr (hslots u hu)]
  exact h u hu hr

/-! ## 4. A start -/

/-- **What a start leaves behind.** -/
structure Started (i i' : Instance η ρ) : Prop where
  stopped : i.engine.status = .stopped
  queues : i'.queues = i.queues ++ [({} : CallQueue η)]
  initThread : i'.core.initThread = i.core.initThread
  vmThread : i'.core.vmThread = some (.own i.queues.length)
  status : i'.engine.status = .running
  generation : i'.engine.generation = i.queues.length
  held : i'.HostHeld

/-- A start changes nothing, or finds the thread stopped and starts it. -/
theorem startRegion_cases :
    (∃ e, startRegion i = (.error e, i)) ∨
      ((startRegion i).1 = .ok i.queues.length ∧ i.Started (startRegion i).2) := by
  unfold startRegion
  split
  · exact .inl ⟨_, rfl⟩
  split
  · exact .inl ⟨_, rfl⟩
  split
  · exact .inl ⟨_, rfl⟩
  split
  · exact .inl ⟨_, rfl⟩
  rename_i hstatus
  refine .inr ⟨rfl, Decidable.not_not.mp hstatus, rfl, rfl, rfl, rfl, rfl, fun u hu hr => ?_⟩
  have hinit : i.core.initThread = some u := hu
  revert hr
  rw [hinit]
  dsimp only
  cases hhold : i.threads.hold u with
  | mk result threads =>
      have hkey : threads.isRegistered u = true → threads.isHeld u = true := by
        rw [show threads = (i.threads.hold u).2 by rw [hhold], ThreadRegistry.isRegistered_hold]
        exact ThreadRegistry.isHeld_hold
      cases result <;> exact hkey

theorem Started.queue (h : i.Started i') : i'.queue g = i.queue g := by
  unfold Instance.queue
  rw [h.queues, List.getD_eq_getElem?_getD, List.getD_eq_getElem?_getD]
  rcases Nat.lt_trichotomy g i.queues.length with hlt | heq | hgt
  · rw [List.getElem?_append_left hlt]
  · subst heq
    simp
  · rw [List.getElem?_eq_none (by simp; omega), List.getElem?_eq_none (by omega)]

/-- **A start keeps the agreement**: it is the only one, since none was before. -/
theorem Started.tenure (h : i.Started i') (ht : i.Tenure) : i'.Tenure where
  latest g hg := by
    obtain ⟨hlt, hexited⟩ := hg
    rw [h.generation]
    rw [h.queues, List.length_append, List.length_singleton] at hlt
    rcases Nat.lt_or_eq_of_le (Nat.le_of_lt_succ hlt) with hlt | heq
    · rw [h.queue] at hexited
      exact absurd ⟨hlt, hexited⟩ (ht.stopped h.stopped g)
    · exact heq
  driver _ := by
    rw [h.generation]
    have hnew : i'.queue i.queues.length = {} := by rw [h.queue, queue_of_length_le (Nat.le_refl _)]
    refine ⟨h.vmThread, ⟨?_, by rw [hnew]⟩, by rw [hnew]⟩
    rw [h.queues, List.length_append]
    exact Nat.lt_succ_self _
  held _ := h.held
  stopped hs := nomatch h.status.symm.trans hs
  host u hu := ht.host u (h.initThread.symm.trans hu)

/-! ## 5. A stop -/

/-- The status of a thread that was asked to end. -/
def ending (i : Instance η ρ) : Instance η ρ :=
  { i with engine := { i.engine with status := .stopping } }

theorem tenure_ending (ht : i.Tenure) : i.ending.Tenure :=
  ⟨ht.latest, nofun, nofun, nofun, ht.host⟩

/-- Whoever asked may ask the queue, too. -/
theorem tenure_stopQueue (ht : i.Tenure) (ha : i.Asked g) :
    (i.setQueue g (i.queue g).stop).Tenure := by
  have hexited (g' : Nat) :
      ((i.setQueue g (i.queue g).stop).queue g').exited = (i.queue g').exited :=
    setQueue_flags (q := (i.queue g).stop) (f := CallQueue.exited) rfl g'
  have hserving {g' : Nat} (h : (i.setQueue g (i.queue g).stop).Serving g') : i.Serving g' := by
    unfold Serving at h
    rwa [length_setQueue, hexited] at h
  exact ⟨fun g' h => ht.latest g' (hserving h), fun hr => absurd hr ha.2,
    fun hr => absurd hr ha.2, fun hs g' h => ht.stopped hs g' (hserving h), ht.host⟩

/-- **The thread may count as stopped** once the latest of all has ended. -/
theorem tenure_stopped {hold : Option ThreadId} (ht : i.Tenure) (ha : i.Asked g)
    (he : (i.queue g).exited = true) :
    ({ i with engine := { i.engine with status := .stopped, hostHold := hold } }).Tenure where
  latest := ht.latest
  driver := nofun
  held := nofun
  stopped _ g' hg' := by
    have hg : g' = g := (ht.latest g' hg').trans ha.1
    subst hg
    exact nomatch he.symm.trans hg'.2
  host := ht.host

/-- **The driver may be taken away**, and holds may be given up, while the thread is stopped. -/
theorem tenure_idle (ht : i.Tenure) (hs : i.engine.status = .stopped)
    (hinit : i'.core.initThread = i.core.initThread) (hengine : i'.engine = i.engine)
    (hqueues : i'.queues = i.queues) : i'.Tenure := by
  have hserving {g : Nat} (h : i'.Serving g) : i.Serving g := by
    unfold Serving queue at h ⊢
    rwa [hqueues] at h
  have hnot : i'.engine.status ≠ .running := by
    rw [hengine, hs]
    decide
  exact ⟨fun g hg => absurd (hserving hg) (ht.stopped hs g), fun hr => absurd hr hnot,
    fun hr => absurd hr hnot, fun _ g hg => ht.stopped hs g (hserving hg),
    fun u hu => ht.host u (hinit.symm.trans hu)⟩

/-! ## 6. The thread itself -/

/-- **What a look into a queue leaves behind**: it is asked to end, and has ended, as before, and the
    thread is told to stop only if it was asked to. -/
structure Looked (q : CallQueue η) (next : CallQueue.Next η) (q' : CallQueue η) : Prop where
  stopping : q'.stopping = q.stopping
  exited : q'.exited = q.exited
  asked : next = .stop → q.stopping = true

theorem looked_of_next? {next : CallQueue.Next η} {q' : CallQueue η}
    (h : q.next? = some (next, q')) : Looked q next q' := by
  unfold CallQueue.next? at h
  split at h
  · cases h
    exact ⟨rfl, rfl, nofun⟩
  · split at h
    · cases h
      exact ⟨rfl, rfl, fun _ => by assumption⟩
    · cases h

theorem looked_nextLate : Looked q q.nextLate.1 q.nextLate.2 := by
  unfold CallQueue.nextLate
  cases h : q.next? with
  | none => exact ⟨rfl, rfl, nofun⟩
  | some found => exact looked_of_next? h

theorem sameOwner_of_looked {next : CallQueue.Next η} (h : Looked (i.queue g) next q) :
    i.SameOwner (i.setQueue g q) where
  initThread := rfl
  vmThread := rfl
  engine := rfl
  started := length_setQueue
  stopping := setQueue_flags h.stopping
  exited := setQueue_flags h.exited
  held := id

/-- The thread of a start has ended. -/
def ended (i : Instance η ρ) (g : Nat) : Instance η ρ :=
  i.setQueue g { i.queue g with exited := true }

theorem exited_ended {g' : Nat} (h : (i.queue g').exited = true) :
    ((i.ended g).queue g').exited = true :=
  flag_setQueue (f := CallQueue.exited) (fun _ => rfl) h

theorem serving_of_ended {g' : Nat} (h : (i.ended g).Serving g') : i.Serving g' := by
  obtain ⟨hlt, hexited⟩ := h
  refine ⟨by simpa [ended] using hlt, ?_⟩
  cases he : (i.queue g').exited with
  | false => rfl
  | true =>
      rw [exited_ended he] at hexited
      cases hexited

/-- **A thread may end that was asked to**: it is not the one that runs. -/
theorem tenure_ended (ht : i.Tenure) (hs : (i.queue g).stopping = true) : (i.ended g).Tenure where
  latest g' h := ht.latest g' (serving_of_ended h)
  driver hr := by
    obtain ⟨hvm, hserving, hstopping⟩ := ht.driver hr
    have hne : i.engine.generation ≠ g := by
      rintro rfl
      exact nomatch hs.symm.trans hstopping
    refine ⟨hvm, ⟨?_, ?_⟩, ?_⟩
    · show i.engine.generation < (i.ended g).queues.length
      rw [ended, length_setQueue]
      exact hserving.1
    · show ((i.ended g).queue i.engine.generation).exited = false
      rw [ended, queue_setQueue_of_ne hne]
      exact hserving.2
    · show ((i.ended g).queue i.engine.generation).stopping = false
      rw [ended, queue_setQueue_of_ne hne]
      exact hstopping
  held := ht.held
  stopped hs g' h := ht.stopped hs g' (serving_of_ended h)
  host := ht.host

end Instance

end EmbeddedVm
