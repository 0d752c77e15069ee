import EmbeddedVm.Proofs.Threads.Keeping

/-!
# One thread at a time

An example of what threads can come to is a run, and a run that is written move by move says little.
Here one thread does a whole task while the others have nothing to do (`Task.Passes`): what can be
reached with the task before the thread can be reached with the task behind it. So a run is put
together from tasks. Where another thread comes in between, it does something at once
(`Task.Passes.meanwhile`).
-/

namespace EmbeddedVm

variable {κ S α β ε : Type} {starts : ThreadId → Program κ S → Prop} {s₀ s s' s'' : S}
  {me u : ThreadId}

/-! ## 1. Threads that have nothing to do -/

/-- One thread has this left to do, and the others nothing. -/
def Crew.alone (me : ThreadId) (p : Program κ S) (s : S) : Crew κ S :=
  ⟨s, fun u => if u = me then p else .halt⟩

theorem Crew.current_alone (me : ThreadId) (p : Program κ S) (s : S) :
    (Crew.alone me p s).current me = p := if_pos rfl

theorem Crew.moved_alone (me : ThreadId) (p q : Program κ S) (s s' : S) :
    (Crew.alone me p s).moved me q s' = Crew.alone me q s' := by
  refine congrArg (Crew.mk s') (funext fun u => ?_)
  by_cases hu : u = me
  · rw [if_pos hu, if_pos hu]
  · rw [if_neg hu, if_neg hu]
    exact if_neg hu

/-- All threads have nothing to do. -/
theorem Crew.alone_halt (me : ThreadId) (s : S) :
    Crew.alone me (.halt : Program κ S) s = ⟨s, fun _ => .halt⟩ :=
  congrArg (Crew.mk s) (funext fun _ => ite_self _)

/-- A thread goes through a region while the others have nothing to do. -/
theorem Crew.Reached.region {enter : S → Option (S × Program κ S)} {p : Program κ S}
    (h : Crew.Reached starts s₀ (.alone me (.region enter) s)) (he : enter s = some (s', p)) :
    Crew.Reached starts s₀ (.alone me p s') := by
  have hmoved := h.move (.region (t := me) (Crew.current_alone me _ s) he)
  rwa [Crew.moved_alone] at hmoved

theorem Crew.Reached.start {p : Program κ S} (h : Crew.Reached starts s₀ ⟨s, fun _ => .halt⟩)
    (hp : starts me p) : Crew.Reached starts s₀ (.alone me p s) := by
  rw [← Crew.alone_halt me] at h
  have hmoved := h.move (.start (t := me) (Crew.current_alone me _ s) hp)
  rwa [Crew.moved_alone] at hmoved

/-! ## 2. Tasks -/

/-- **A task that a thread gets done** while the others have nothing to do. -/
def Task.Passes (starts : ThreadId → Program κ S → Prop) (s₀ : S) (me : ThreadId) (t : Task κ S α)
    (s : S) (a : α) (s' : S) : Prop :=
  ∀ k : α → Program κ S, Crew.Reached starts s₀ (.alone me (t k) s) →
    Crew.Reached starts s₀ (.alone me (k a) s')

namespace Task

theorem passes_pure (a : α) : (Pure.pure a : Task κ S α).Passes starts s₀ me s a s :=
  fun _ h => h

theorem Passes.bind {t : Task κ S α} {f : α → Task κ S β} {a : α} {b : β}
    (h : t.Passes starts s₀ me s a s') (hf : (f a).Passes starts s₀ me s' b s'') :
    (t >>= f).Passes starts s₀ me s b s'' :=
  fun k hk => hf k (h (fun a => f a k) hk)

theorem passes_atomically {f : S → α × S} {a : α} (h : f s = (a, s')) :
    (atomically f : Task κ S α).Passes starts s₀ me s a s' := by
  refine fun k hk => hk.region ?_
  rw [h]

theorem passes_await {enter : S → Option (α × S)} {a : α} (h : enter s = some (a, s')) :
    (await enter : Task κ S α).Passes starts s₀ me s a s' :=
  fun _ hk => hk.region (congrArg (Option.map _) h)

theorem passes_now (now : Nat) : (Task.now : Task κ S Nat).Passes starts s₀ me s now s :=
  fun k hk => by
    have hmoved := hk.move (.clock (t := me) (Crew.current_alone me _ s) now)
    rwa [Crew.moved_alone] at hmoved

theorem passes_read {f : S → α} {a : α} (h : f s = a) :
    (read f : Task κ S α).Passes starts s₀ me s a s :=
  passes_atomically (congrArg (·, s) h)

theorem passes_change (f : S → S) :
    (change f : Task κ S Unit).Passes starts s₀ me s () (f s) := passes_atomically rfl

theorem Passes.discard {t : Task κ S α} {a : α} (h : t.Passes starts s₀ me s a s') :
    (discard t).Passes starts s₀ me s () s' := h.bind (passes_pure ())

/-- Another thread does something at once when the task is done. -/
theorem Passes.meanwhile {t : Task κ S α} {a : α} {f : S → S} (h : t.Passes starts s₀ me s a s')
    (hu : u ≠ me) (hf : starts u (change f : Task κ S Unit).toProgram) :
    t.Passes starts s₀ me s a (f s') := by
  intro k hk
  have hidle : (Crew.alone me (k a) s').current u = .halt := if_neg hu
  have hbegun := (h k hk).move (.start hidle hf)
  have hdone := hbegun.move (.region (t := u) (Crew.current_moved_self _ u _ _) rfl)
  have heq : (((Crew.alone me (k a) s').moved u (change f : Task κ S Unit).toProgram s').moved u
      .halt (f s')) = .alone me (k a) (f s') := by
    refine congrArg (Crew.mk (f s')) (funext fun v => ?_)
    by_cases hv : v = u
    · rw [if_pos hv, hv]
      exact (if_neg hu).symm
    · rw [if_neg hv]
      exact if_neg hv
  exact heq ▸ hdone

/-- **A thread with nothing to do gets a task done** that it may start. -/
theorem Passes.reached {t : Task κ S Unit} (h : t.Passes starts s₀ me s () s')
    (hs : Crew.Reached starts s₀ ⟨s, fun _ => .halt⟩) (ht : starts me t.toProgram) :
    Crew.Reached starts s₀ ⟨s', fun _ => .halt⟩ :=
  Crew.alone_halt me s' ▸ h (fun _ => .halt) (hs.start ht)

/-! ## 3. Operations that fail -/

theorem Passes.bindOk {t : ExceptT ε (Task κ S) α} {f : α → ExceptT ε (Task κ S) β} {a : α}
    {b : Except ε β} (h : t.run.Passes starts s₀ me s (.ok a) s')
    (hf : (f a).run.Passes starts s₀ me s' b s'') :
    (t >>= f).run.Passes starts s₀ me s b s'' :=
  Passes.bind (t := t.run) h hf

theorem Passes.lift {t : Task κ S α} {a : α} (h : t.Passes starts s₀ me s a s') :
    (ExceptT.lift t : ExceptT ε (Task κ S) α).run.Passes starts s₀ me s (.ok a) s' :=
  h.bind (passes_pure _)

theorem Passes.tryCatch {t : ExceptT ε (Task κ S) α} {f : ε → ExceptT ε (Task κ S) α} {a : α}
    (h : t.run.Passes starts s₀ me s (.ok a) s') :
    (MonadExcept.tryCatch t f).run.Passes starts s₀ me s (.ok a) s' :=
  Passes.bind (t := t.run) h (passes_pure _)

/-- What is done about a failure is done when the task has failed. -/
theorem Passes.tryCatchError {t : ExceptT ε (Task κ S) α} {f : ε → ExceptT ε (Task κ S) α} {e : ε}
    {b : Except ε α} (h : t.run.Passes starts s₀ me s (.error e) s')
    (hf : (f e).run.Passes starts s₀ me s' b s'') :
    (MonadExcept.tryCatch t f).run.Passes starts s₀ me s b s'' :=
  Passes.bind (t := t.run) h hf

theorem Passes.bindError {t : ExceptT ε (Task κ S) α} {f : α → ExceptT ε (Task κ S) β} {e : ε}
    (h : t.run.Passes starts s₀ me s (.error e) s') :
    (t >>= f).run.Passes starts s₀ me s (.error e) s' :=
  Passes.bind (t := t.run) h (passes_pure _)

end Task

end EmbeddedVm
