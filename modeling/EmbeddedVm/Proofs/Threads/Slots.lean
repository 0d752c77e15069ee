import EmbeddedVm.Proofs.Threads.Keeping
import EmbeddedVm.Threads.Registry

/-!
# A thread touches its own slot

What a thread does with the registry for itself leaves the slots of all other threads as they are:
registering, bracketing its waits, parking, and pausing the others, who park themselves
(`Tends`). Only holds and releases are about another thread.
-/

namespace EmbeddedVm

namespace ThreadRegistry

variable {r r' : ThreadRegistry} {id me u : ThreadId} {slot : ThreadSlot}

/-! ## 1. Slots -/

theorem lookup_cons_of_ne {i : ThreadId} {entries : List (ThreadId × ThreadSlot)} (h : u ≠ i) :
    ((i, slot) :: entries).lookup u = entries.lookup u := by
  rw [List.lookup_cons, beq_false_of_ne h]

theorem slot?_setSlot_of_ne (h : u ≠ id) : (r.setSlot id slot).slot? u = r.slot? u := by
  unfold slot? setSlot
  dsimp only
  induction r.threads with
  | nil => rfl
  | cons entry rest ih =>
      obtain ⟨i, s⟩ := entry
      rw [List.map_cons, List.lookup_cons, ih]
      by_cases hi : i = id
      · subst hi
        simp only [beq_self_eq_true, if_true, beq_false_of_ne h]
        exact (lookup_cons_of_ne h).symm
      · simp only [beq_false_of_ne hi, Bool.false_eq_true, if_false]
        exact List.lookup_cons.symm

theorem slot?_setSlot_self (h : r.isRegistered id = true) :
    (r.setSlot id slot).slot? id = some slot := by
  unfold isRegistered slot? at h
  unfold slot? setSlot
  dsimp only
  induction hr : r.threads generalizing r with
  | nil =>
      rw [hr] at h
      cases h
  | cons entry rest ih =>
      obtain ⟨i, s⟩ := entry
      rw [List.map_cons]
      by_cases hi : i = id
      · subst hi
        simp
      · rw [hr, lookup_cons_of_ne (Ne.symm hi)] at h
        simp only [beq_false_of_ne hi, Bool.false_eq_true, if_false]
        rw [lookup_cons_of_ne (Ne.symm hi)]
        exact ih (r := { r with threads := rest }) h rfl

theorem lookup_filter_of_ne (entries : List (ThreadId × ThreadSlot)) (h : u ≠ me) :
    (entries.filter (·.1 != me)).lookup u = entries.lookup u := by
  induction entries with
  | nil => rfl
  | cons entry rest ih =>
      obtain ⟨i, s⟩ := entry
      by_cases hi : i = me
      · subst hi
        rw [List.filter_cons_of_neg (by simp), ih, lookup_cons_of_ne h]
      · rw [List.filter_cons_of_pos (by simpa using hi), List.lookup_cons, List.lookup_cons, ih]

theorem lookup_append_of_ne (entries : List (ThreadId × ThreadSlot)) (h : u ≠ me) :
    (entries ++ [(me, slot)]).lookup u = entries.lookup u := by
  rw [List.lookup_append, lookup_cons_of_ne h]
  exact Option.or_none

/-! ## 2. What a thread does for itself -/

/-- **A change by the thread `me` for itself**: the slots of the others stay. -/
def Tends (me : ThreadId) (r r' : ThreadRegistry) : Prop := ∀ u, u ≠ me → r'.slot? u = r.slot? u

theorem Tends.refl : Tends me r r := fun _ _ => rfl

/-- It does not matter who is in charge of a pause, or what is counted. -/
theorem Tends.of_threads (h : r'.threads = r.threads) : Tends me r r' := by
  intro u _
  unfold slot?
  rw [h]

theorem Tends.trans {r'' : ThreadRegistry} (h : Tends me r r') (h' : Tends me r' r'') :
    Tends me r r'' := fun u hu => (h' u hu).trans (h u hu)

theorem tends_setSlot : Tends me r (r.setSlot me slot) := fun _ hu => slot?_setSlot_of_ne hu

theorem register?_tends {n : Nat} (h : r.register? me = some (n, r')) : Tends me r r' := by
  unfold register? at h
  split at h
  · cases h
    exact tends_setSlot
  · split at h
    · cases h
    · cases h
      exact fun u hu => lookup_append_of_ne _ hu

theorem unregister_tends : Tends me r (r.unregister me).2 := by
  unfold unregister
  split
  · exact .refl
  · dsimp only
    split
    · exact fun u hu => lookup_filter_of_ne _ hu
    · exact tends_setSlot

theorem blockingBegin_tends : Tends me r (r.blockingBegin me).2 := by
  unfold blockingBegin
  split
  · exact .refl
  · exact tends_setSlot.trans (.of_threads rfl)

theorem blockingEnd?_tends {a : RegistryResult Nat} (h : r.blockingEnd? me = some (a, r')) :
    Tends me r r' := by
  unfold blockingEnd? at h
  split at h
  · cases h
    exact .refl
  · split at h
    · cases h
      exact .refl
    · split at h
      · cases h
      · cases h
        exact tends_setSlot.trans (.of_threads rfl)

theorem park_tends : Tends me r (r.park me).2 := by
  unfold park
  split
  · split
    · exact tends_setSlot
    · exact .refl
  · exact .refl

theorem unpark?_tends (h : r.unpark? me = some r') : Tends me r r' := by
  unfold unpark? at h
  split at h
  · cases h
  · split at h
    · cases h
      exact tends_setSlot
    · cases h
      exact .refl

theorem beginPause_tends : Tends me r (r.beginPause id).2 := by
  unfold beginPause
  split
  · exact .refl
  · exact .of_threads rfl

theorem abandonPause_tends : Tends me r (r.abandonPause id).2 := by
  unfold abandonPause
  split
  · exact .refl
  · exact .of_threads rfl

end ThreadRegistry

/-! ## 3. Operations of threads -/

namespace Threads

open ThreadRegistry

variable {κ S α β : Type} [HasThreads S] {R : S → S → Prop} {me : ThreadId}

/-- **A relation that admits what the thread `me` does with the registry for itself**, and looking at
    the state. -/
structure Admits (me : ThreadId) (R : S → S → Prop) : Prop where
  refl : ∀ s, R s s
  tends : ∀ s r, Tends me (HasThreads.threads s) r → R s (HasThreads.setThreads s r)

namespace Admits

variable (hR : Admits me R)

include hR

theorem keeps_read (f : S → α) : (Task.read f : Task κ S α).Keeps R := Task.keeps_atomically hR.refl

theorem keeps_region {f : ThreadRegistry → α × ThreadRegistry} (h : ∀ r, Tends me r (f r).2) :
    (region f : Task κ S α).Keeps R := Task.keeps_atomically fun s => hR.tends s _ (h _)

theorem admitted {s s' : S} {a : α} {f : ThreadRegistry → Option (α × ThreadRegistry)}
    (h : ∀ {r r' : ThreadRegistry} {a}, f r = some (a, r') → Tends me r r')
    (he : Threads.admitted s f = some (a, s')) : R s s' := by
  obtain ⟨⟨b, r⟩, hf, heq⟩ := Option.map_eq_some_iff.mp he
  cases heq
  exact hR.tends s r (h hf)

theorem keeps_register : (register me : Task κ S Nat).Keeps R :=
  Task.keeps_await fun _ _ _ he => hR.admitted register?_tends he

theorem keeps_unregister : (unregister me : Task κ S (RegistryResult Nat)).Keeps R :=
  hR.keeps_region fun _ => unregister_tends

theorem keeps_blockingBegin : (blockingBegin me : Task κ S (RegistryResult Nat)).Keeps R :=
  hR.keeps_region fun _ => blockingBegin_tends

theorem keeps_blockingEnd : (blockingEnd me : Task κ S (RegistryResult Nat)).Keeps R :=
  Task.keeps_await fun _ _ _ he => hR.admitted blockingEnd?_tends he

theorem keeps_poll : (poll me : Task κ S Unit).Keeps R := by
  refine (hR.keeps_read _).bind fun pending => ?_
  split
  · refine (hR.keeps_region fun _ => park_tends).bind fun parked => ?_
    split
    · refine Task.keeps_await fun s a s' he => hR.admitted (fun {r r'} _ hf => ?_) he
      obtain ⟨r'', hr, heq⟩ := Option.map_eq_some_iff.mp hf
      cases heq
      exact unpark?_tends hr
    · exact Task.keeps_pure _
  · exact Task.keeps_pure _

/-- A pause that was announced is waited for, and given up if it is not established in time. -/
theorem keeps_awaitOthers (deadline : Nat) : (Task.awaitUntil (some deadline)
    (fun s => Threads.admitted s fun r => if r.unresponsive me = 0 then some (.ok (), r) else none)
    (fun s =>
      let (result, r) := (HasThreads.threads s).abandonPause me
      (result, HasThreads.setThreads s r)) : Task κ S (RegistryResult Unit)).Keeps R := by
  refine Task.keeps_awaitUntil (fun s a s' he => hR.admitted (fun {r r'} _ hf => ?_) he)
    fun s => hR.tends s _ abandonPause_tends
  split at hf
  · cases hf
    exact .refl
  · cases hf

theorem keeps_pause : (pause me : Task κ S (RegistryResult Unit)).Keeps R := by
  refine Task.keeps_now.bind fun start => (hR.keeps_read _).bind fun timeout => ?_
  refine (hR.keeps_region fun _ => beginPause_tends).bind fun begun => ?_
  cases begun with
  | established => exact Task.keeps_pure _
  | announced => exact hR.keeps_awaitOthers _
  | refused =>
      refine Task.Keeps.bind ?_ fun begun => ?_
      · refine Task.keeps_awaitUntil (fun s a s' he => hR.admitted (fun {r r'} _ hf => ?_) he)
          fun s => hR.tends s (HasThreads.threads s).refusePause.2 (.of_threads rfl)
        have hr : Tends me r (r.beginPause me).2 := beginPause_tends
        split at hf
        · cases hf
        · rename_i heq
          cases hf
          rwa [heq] at hr
      · cases begun with
        | established => exact Task.keeps_pure _
        | announced => exact hR.keeps_awaitOthers _
        | refused => exact Task.keeps_pure _

theorem keeps_paused {body : Task κ S α} (h : body.Keeps R) : (paused me body).Keeps R := by
  refine hR.keeps_pause.bind fun result => ?_
  cases result with
  | error e => exact Task.keeps_pure _
  | ok _ =>
      refine h.bind fun a => ?_
      exact (hR.keeps_region fun _ => .of_threads rfl).bind fun _ => Task.keeps_pure _

end Admits

end Threads

end EmbeddedVm
