import EmbeddedVm.Proofs.Threads.Interleaving

/-!
# Code that keeps a relation

Most of what a thread does is of no matter to a protocol: each of its regions changes the state in a
way that the protocol allows in every phase it can be in. `Task.Keeps` says so of a task, for a
relation `R` between the state before and after a region and for every protocol that allows changes
by `R`. So long code is looked at once, whatever it is to be part of.

With it stands the run lemma: threads that start only what follows a protocol are at any time in
some phase of it, in whatever order they move.
-/

namespace EmbeddedVm

variable {κ S α β ε : Type}

/-! ## 1. Runs -/

/-- **What threads can come to** that begin with nothing to do, in any order and for any time. -/
inductive Crew.Reached (starts : ThreadId → Program κ S → Prop) (s : S) : Crew κ S → Prop where
  | begin : Reached starts s ⟨s, fun _ => .halt⟩
  | move {c c' : Crew κ S} {t : ThreadId} {posted : Option κ} (h : Reached starts s c)
      (hm : c.Moves starts t posted c') : Reached starts s c'

namespace Protocol

variable {P : Protocol κ S}

/-- **Every thread is in a phase**: it knows what it should and goes on as it should. -/
def Kept (P : Protocol κ S) (c : Crew κ S) : Prop :=
  ∀ t, ∃ φ, P.Follows t φ (c.current t) ∧ P.holds t φ c.state

/-- One move keeps every thread in a phase: the one that moves advances, and no other loses what it
    knows. -/
theorem Kept.move {starts : ThreadId → Program κ S → Prop} {c c' : Crew κ S} {t : ThreadId}
    {posted : Option κ} (hk : P.Kept c) (hstarts : ∀ p, starts t p → P.Follows t P.rest p)
    (hm : c.Moves starts t posted c') : P.Kept c' := by
  obtain ⟨φ, hφ, hs⟩ := hk t
  obtain ⟨ψ, hψ⟩ := hφ.move hstarts hs hm
  intro u
  by_cases hu : u = t
  · subst hu
    exact ⟨ψ, hψ.follows, hψ.holds⟩
  · obtain ⟨χ, hχ, hus⟩ := hk u
    refine ⟨χ, by rwa [hm.current_of_ne hu], ?_⟩
    rcases hψ.change with ⟨heq, -⟩ | hallowed
    · rwa [heq]
    · exact P.others hallowed hu hus

/-- **Threads that start what follows a protocol follow it all the time.** -/
theorem kept_of_reached {starts : ThreadId → Program κ S → Prop} {s : S} {c : Crew κ S}
    (hs : ∀ t, P.holds t P.rest s) (hstarts : ∀ t p, starts t p → P.Follows t P.rest p)
    (h : Crew.Reached starts s c) : P.Kept c := by
  induction h with
  | begin => exact fun t => ⟨P.rest, .halt, hs t⟩
  | move _ hm ih => exact ih.move (hstarts _) hm

/-- A wait that may have a deadline. -/
theorem leads_awaitAtMost {me : ThreadId} {φ : P.Phase} {deadline : Option Nat}
    {enter : S → Option (α × S)} {late : S → α × S} {Q : α → P.Phase → Prop}
    (h : ∀ s a s', P.holds me φ s → enter s = some (a, s') → P.Enters me φ s s' (Q a))
    (hl : ∀ s, P.holds me φ s → P.Enters me φ s (late s).2 (Q (late s).1)) :
    P.Leads me φ (Task.awaitUntil deadline enter late : Task κ S α) Q := by
  cases deadline with
  | none => exact leads_await h
  | some deadline => exact leads_awaitUntil h hl

section Failing

variable {me : ThreadId} {φ : P.Phase} {t : Task κ S α} {Q : α → P.Phase → Prop}

/-- A task that cannot fail, and then an operation. -/
theorem Leads.bindLift {f : α → ExceptT ε (Task κ S) β} {R : Except ε β → P.Phase → Prop}
    (h : P.Leads me φ t Q) (hf : ∀ a ψ, Q a ψ → P.Leads me ψ (f a).run R) :
    P.Leads me φ (ExceptT.lift t >>= f).run R := fun k hk =>
  h (fun a => (f a).run k) fun a ψ hq => hf a ψ hq k hk

theorem Leads.bindOk {t : ExceptT ε (Task κ S) α} {f : α → ExceptT ε (Task κ S) β}
    {Q : Except ε α → P.Phase → Prop} {R : Except ε β → P.Phase → Prop}
    (h : P.Leads me φ t.run Q) (hf : ∀ a ψ, Q (.ok a) ψ → P.Leads me ψ (f a).run R)
    (he : ∀ e ψ, Q (.error e) ψ → R (.error e) ψ) : P.Leads me φ (t >>= f).run R := by
  refine Leads.bind (t := t.run) h fun result ψ hq => ?_
  cases result with
  | ok a => exact hf a ψ hq
  | error e => exact leads_pure (he e ψ hq)

theorem Leads.tryCatch {t : ExceptT ε (Task κ S) α} {f : ε → ExceptT ε (Task κ S) α}
    {Q R : Except ε α → P.Phase → Prop} (h : P.Leads me φ t.run Q)
    (hok : ∀ a ψ, Q (.ok a) ψ → R (.ok a) ψ)
    (hf : ∀ e ψ, Q (.error e) ψ → P.Leads me ψ (f e).run R) :
    P.Leads me φ (MonadExcept.tryCatch t f).run R := by
  refine Leads.bind (t := t.run) h fun result ψ hq => ?_
  cases result with
  | ok a => exact leads_pure (hok a ψ hq)
  | error e => exact hf e ψ hq

end Failing

end Protocol

/-! ## 2. Tasks -/

/-- **A task whose regions change the state by `R` only**: whatever the protocol, it leaves its
    thread in a phase that allows such changes. -/
def Task.Keeps (R : S → S → Prop) (t : Task κ S α) : Prop :=
  ∀ (P : Protocol κ S) (me : ThreadId) (φ : P.Phase),
    (∀ s s', P.holds me φ s → R s s' → P.allowed me φ φ s s') → (∀ work, P.posting φ work) →
    P.Leads me φ t fun _ ψ => ψ = φ

namespace Task

variable {R R' : S → S → Prop}

/-- A weaker relation is kept as well. -/
theorem Keeps.mono {t : Task κ S α} (h : t.Keeps R) (hR : ∀ s s', R s s' → R' s s') :
    t.Keeps R' :=
  fun P me φ ha hp => h P me φ (fun s s' hs hr => ha s s' hs (hR s s' hr)) hp

theorem keeps_pure (a : α) : (Pure.pure a : Task κ S α).Keeps R :=
  fun _ _ _ _ _ => Protocol.leads_pure rfl

theorem Keeps.bind {t : Task κ S α} {f : α → Task κ S β} (h : t.Keeps R)
    (hf : ∀ a, (f a).Keeps R) : (t >>= f).Keeps R := by
  intro P me φ ha hp
  refine (h P me φ ha hp).bind ?_
  rintro a ψ rfl
  exact hf a P me ψ ha hp

theorem Keeps.discard {t : Task κ S α} (h : t.Keeps R) : (discard t).Keeps R :=
  h.bind fun _ => keeps_pure ()

theorem keeps_now : (now : Task κ S Nat).Keeps R :=
  fun _ _ _ _ _ => Protocol.leads_now fun _ => rfl

theorem keeps_post (t : ThreadId) (work : κ) : (post t work : Task κ S Unit).Keeps R :=
  fun _ _ _ _ hp => Protocol.leads_post (hp work) rfl

theorem keeps_await {enter : S → Option (α × S)} (h : ∀ s a s', enter s = some (a, s') → R s s') :
    (await enter : Task κ S α).Keeps R :=
  fun _ _ _ ha _ => Protocol.leads_await fun s a s' hs he => ⟨_, ha s s' hs (h s a s' he), rfl⟩

theorem keeps_atomically {f : S → α × S} (h : ∀ s, R s (f s).2) :
    (atomically f : Task κ S α).Keeps R :=
  fun _ _ _ ha _ => Protocol.leads_atomically fun s hs => ⟨_, ha s _ hs (h s), rfl⟩

theorem keeps_awaitUntil {deadline : Option Nat} {enter : S → Option (α × S)} {late : S → α × S}
    (h : ∀ s a s', enter s = some (a, s') → R s s') (hl : ∀ s, R s (late s).2) :
    (awaitUntil deadline enter late : Task κ S α).Keeps R :=
  fun _ _ _ ha _ => Protocol.leads_awaitAtMost
    (fun s a s' hs he => ⟨_, ha s s' hs (h s a s' he), rfl⟩) fun s hs => ⟨_, ha s _ hs (hl s), rfl⟩

/-! ## 3. Operations that fail -/

theorem keeps_throw (e : ε) : (throw e : ExceptT ε (Task κ S) α).run.Keeps R := keeps_pure _

theorem keeps_ok (a : α) : (Pure.pure a : ExceptT ε (Task κ S) α).run.Keeps R := keeps_pure _

theorem Keeps.bindOk {t : ExceptT ε (Task κ S) α} {f : α → ExceptT ε (Task κ S) β}
    (h : t.run.Keeps R) (hf : ∀ a, (f a).run.Keeps R) : (t >>= f).run.Keeps R := by
  refine Keeps.bind (t := t.run) h fun result => ?_
  cases result with
  | ok a => exact hf a
  | error e => exact keeps_pure _

theorem Keeps.lift {t : Task κ S α} (h : t.Keeps R) :
    (ExceptT.lift t : ExceptT ε (Task κ S) α).run.Keeps R :=
  h.bind fun _ => keeps_pure _

theorem Keeps.tryCatch {t : ExceptT ε (Task κ S) α} {f : ε → ExceptT ε (Task κ S) α}
    (h : t.run.Keeps R) (hf : ∀ e, (f e).run.Keeps R) : (tryCatch t f).run.Keeps R := by
  refine Keeps.bind (t := t.run) h fun result => ?_
  cases result with
  | ok a => exact keeps_pure _
  | error e => exact hf e

/-! ## 4. Results -/

/-- **A task that keeps a relation and whose results have a property.** -/
def Yields (R : S → S → Prop) (Q : α → Prop) (t : Task κ S α) : Prop :=
  ∀ (P : Protocol κ S) (me : ThreadId) (φ : P.Phase),
    (∀ s s', P.holds me φ s → R s s' → P.allowed me φ φ s s') → (∀ work, P.posting φ work) →
    P.Leads me φ t fun a ψ => ψ = φ ∧ Q a

variable {Q Q' : α → Prop}

theorem Yields.keeps {t : Task κ S α} (h : t.Yields R Q) : t.Keeps R :=
  fun P me φ ha hp => (h P me φ ha hp).mono fun _ _ hψ => hψ.1

theorem Keeps.yields {t : Task κ S α} (h : t.Keeps R) : t.Yields R fun _ => True :=
  fun P me φ ha hp => (h P me φ ha hp).mono fun _ _ hψ => ⟨hψ, trivial⟩

theorem Yields.mono {t : Task κ S α} (h : t.Yields R Q) (hQ : ∀ a, Q a → Q' a) : t.Yields R Q' :=
  fun P me φ ha hp => (h P me φ ha hp).mono fun a _ hψ => ⟨hψ.1, hQ a hψ.2⟩

theorem yields_pure {a : α} (h : Q a) : (Pure.pure a : Task κ S α).Yields R Q :=
  fun _ _ _ _ _ => Protocol.leads_pure ⟨rfl, h⟩

theorem Yields.bind {t : Task κ S α} {f : α → Task κ S β} {Q : α → Prop} {Q' : β → Prop}
    (h : t.Yields R Q) (hf : ∀ a, Q a → (f a).Yields R Q') : (t >>= f).Yields R Q' := by
  intro P me φ ha hp
  refine (h P me φ ha hp).bind ?_
  rintro a ψ ⟨rfl, hq⟩
  exact hf a hq P me ψ ha hp

theorem yields_forever : (forever : Task κ S α).Yields R Q :=
  fun _ _ φ _ _ _ _ => .region (fun _ => φ) nofun nofun

end Task

end EmbeddedVm
