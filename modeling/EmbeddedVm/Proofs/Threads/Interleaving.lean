import EmbeddedVm.Threads.Program

/-!
# Threads in any order, and what they may rely on

An `Executor` runs threads in one order; here is every order. A `Crew` is a shared state and what
each thread has left to do; any thread may move next, a wait with a deadline may be over at any
moment, a thread that waits may wake up for nothing, and a thread with nothing left to do may start
anything it is allowed to start.

A `Protocol` says what a thread knows of the state in each of its phases, and what it may do to the
state so that it keeps to its phase and no other thread loses what it knows. `Follows` checks a
program against a protocol, and `Leads` a task, by the structure of the task alone: no interleaving
is looked at. What holds of every interleaving is then one lemma, `Follows.move`.
-/

namespace EmbeddedVm

variable {κ S α β : Type}

/-! ## 1. Interleavings -/

/-- Threads and the state they share. -/
structure Crew (κ S : Type) where
  state : S
  /-- What each thread has left to do. -/
  current : ThreadId → Program κ S

/-- One thread has moved on, and the state has changed. -/
def Crew.moved (c : Crew κ S) (t : ThreadId) (p : Program κ S) (s : S) : Crew κ S :=
  ⟨s, fun u => if u = t then p else c.current u⟩

@[simp] theorem Crew.current_moved_self (c : Crew κ S) (t : ThreadId) (p : Program κ S) (s : S) :
    (c.moved t p s).current t = p := if_pos rfl

theorem Crew.current_moved_of_ne (c : Crew κ S) {t u : ThreadId} (h : u ≠ t) (p : Program κ S)
    (s : S) : (c.moved t p s).current u = c.current u := if_neg h

/-- A program whose next region does not admit a state. -/
def Program.Waits : Program κ S → S → Prop
  | .region enter, s => enter s = none
  | .regionUntil _ enter _, s => enter s = none
  | _, _ => False

/-- **One move of a thread**, with the work it posts if it posts any. `starts` says which programs a
    thread may start. -/
inductive Crew.Moves (starts : ThreadId → Program κ S → Prop) (c : Crew κ S) (t : ThreadId) :
    Option κ → Crew κ S → Prop where
  | start {p : Program κ S} (h : c.current t = .halt) (hp : starts t p) :
    Moves starts c t none (c.moved t p c.state)
  | clock {next : Nat → Program κ S} (h : c.current t = .clock next) (now : Nat) :
    Moves starts c t none (c.moved t (next now) c.state)
  | post {u : ThreadId} {work : κ} {next : Program κ S} (h : c.current t = .post u work next) :
    Moves starts c t (some work) (c.moved t next c.state)
  | region {enter : S → Option (S × Program κ S)} {s : S} {p : Program κ S}
      (h : c.current t = .region enter) (he : enter c.state = some (s, p)) :
    Moves starts c t none (c.moved t p s)
  | regionUntil {deadline : Nat} {enter : S → Option (S × Program κ S)}
      {late : S → S × Program κ S} {s : S} {p : Program κ S}
      (h : c.current t = .regionUntil deadline enter late) (he : enter c.state = some (s, p)) :
    Moves starts c t none (c.moved t p s)
  /-- The wait is over, however long it was. -/
  | late {deadline : Nat} {enter : S → Option (S × Program κ S)} {late : S → S × Program κ S}
      (h : c.current t = .regionUntil deadline enter late) :
    Moves starts c t none (c.moved t (late c.state).2 (late c.state).1)
  /-- It wakes up and has to wait on. -/
  | woken (h : (c.current t).Waits c.state) : Moves starts c t none c

/-- The other threads have what they had left to do. -/
theorem Crew.Moves.current_of_ne {starts : ThreadId → Program κ S → Prop} {c c' : Crew κ S}
    {t u : ThreadId} {posted : Option κ} (h : c.Moves starts t posted c') (hu : u ≠ t) :
    c'.current u = c.current u := by
  cases h with
  | woken _ => rfl
  | _ => exact Crew.current_moved_of_ne _ hu _ _

/-! ## 2. Protocols -/

/-- **A protocol among threads.** -/
structure Protocol (κ S : Type) where
  /-- How far a thread has come in what it does to the state. -/
  Phase : Type
  /-- The phase of a thread with nothing left to do. -/
  rest : Phase
  /-- What a thread knows of the state in a phase. -/
  holds : ThreadId → Phase → S → Prop
  /-- What a thread may do to the state in going from a phase to a phase. -/
  allowed : ThreadId → Phase → Phase → S → S → Prop
  /-- What work a thread may post in a phase. -/
  posting : Phase → κ → Prop
  /-- A thread that does what is allowed knows what it should, -/
  own : ∀ {me φ ψ s s'}, allowed me φ ψ s s' → holds me ψ s'
  /-- and no other thread loses what it knows. -/
  others : ∀ {me φ ψ s s'}, allowed me φ ψ s s' → ∀ {u χ}, u ≠ me → holds u χ s → holds u χ s'

namespace Protocol

variable (P : Protocol κ S) (me : ThreadId)

/-- **A program that follows a protocol**, from a phase on. -/
inductive Follows : P.Phase → Program κ S → Prop where
  | halt : Follows P.rest .halt
  | clock {φ : P.Phase} {next : Nat → Program κ S} (h : ∀ now, Follows φ (next now)) :
    Follows φ (.clock next)
  | post {φ : P.Phase} {u : ThreadId} {work : κ} {next : Program κ S} (hw : P.posting φ work)
      (h : Follows φ next) : Follows φ (.post u work next)
  | region {φ : P.Phase} {enter : S → Option (S × Program κ S)} (ψ : S → P.Phase)
      (ha : ∀ s s' p, P.holds me φ s → enter s = some (s', p) → P.allowed me φ (ψ s) s s')
      (h : ∀ s s' p, P.holds me φ s → enter s = some (s', p) → Follows (ψ s) p) :
    Follows φ (.region enter)
  | regionUntil {φ : P.Phase} {deadline : Nat} {enter : S → Option (S × Program κ S)}
      {late : S → S × Program κ S} (ψ χ : S → P.Phase)
      (ha : ∀ s s' p, P.holds me φ s → enter s = some (s', p) → P.allowed me φ (ψ s) s s')
      (h : ∀ s s' p, P.holds me φ s → enter s = some (s', p) → Follows (ψ s) p)
      (hla : ∀ s, P.holds me φ s → P.allowed me φ (χ s) s (late s).1)
      (hl : ∀ s, P.holds me φ s → Follows (χ s) (late s).2) :
    Follows φ (.regionUntil deadline enter late)

variable {P me}

/-- What a move does to the phase of the thread that makes it. -/
structure Advance (P : Protocol κ S) (me : ThreadId) (φ ψ : P.Phase) (c c' : Crew κ S)
    (posted : Option κ) : Prop where
  follows : P.Follows me ψ (c'.current me)
  holds : P.holds me ψ c'.state
  /-- It has changed nothing and is in its phase, or has done what is allowed. -/
  change : (c'.state = c.state ∧ ψ = φ) ∨ P.allowed me φ ψ c.state c'.state
  /-- What it posted it was allowed to post, and it stays in its phase. -/
  posting : ∀ work, posted = some work → P.posting φ work ∧ ψ = φ

/-- **A thread that follows the protocol goes on following it**, whichever move it makes. -/
theorem Follows.move {φ : P.Phase} {c c' : Crew κ S} {starts : ThreadId → Program κ S → Prop}
    {posted : Option κ} (hstarts : ∀ p, starts me p → P.Follows me P.rest p)
    (h : P.Follows me φ (c.current me)) (hs : P.holds me φ c.state)
    (hm : c.Moves starts me posted c') : ∃ ψ, P.Advance me φ ψ c c' posted := by
  -- a move that posts nothing
  have key {ψ : P.Phase} {p : Program κ S} {s : S} (hp : P.Follows me ψ p)
      (hc : (s = c.state ∧ ψ = φ) ∨ P.allowed me φ ψ c.state s) :
      ∃ ψ, P.Advance me φ ψ c (c.moved me p s) none := by
    refine ⟨ψ, by rwa [Crew.current_moved_self], ?_, hc, fun _ hw => by cases hw⟩
    rcases hc with ⟨rfl, rfl⟩ | ha
    · exact hs
    · exact P.own ha
  cases hm with
  | start hidle hp =>
      rw [hidle] at h
      cases h
      exact key (hstarts _ hp) (.inl ⟨rfl, rfl⟩)
  | clock hc now =>
      rw [hc] at h
      cases h with
      | clock h => exact key (h now) (.inl ⟨rfl, rfl⟩)
  | post hc =>
      rw [hc] at h
      cases h with
      | post hw h =>
          refine ⟨φ, by rwa [Crew.current_moved_self], hs, .inl ⟨rfl, rfl⟩, fun work hwork => ?_⟩
          cases hwork
          exact ⟨hw, rfl⟩
  | region hc he =>
      rw [hc] at h
      cases h with
      | region ψ ha h => exact key (h _ _ _ hs he) (.inr (ha _ _ _ hs he))
  | regionUntil hc he =>
      rw [hc] at h
      cases h with
      | regionUntil ψ χ ha h _ _ => exact key (h _ _ _ hs he) (.inr (ha _ _ _ hs he))
  | late hc =>
      rw [hc] at h
      cases h with
      | regionUntil ψ χ _ _ hla hl => exact key (hl _ hs) (.inr (hla _ hs))
  | woken _ => exact ⟨φ, h, hs, .inl ⟨rfl, rfl⟩, fun _ hw => by cases hw⟩

/-! ## 3. Tasks -/

/-- **What a task does to the phase of its thread**: started in `φ` it follows the protocol and ends
    with a result and in a phase of which `Q` holds. -/
def Leads (P : Protocol κ S) (me : ThreadId) (φ : P.Phase) (t : Task κ S α)
    (Q : α → P.Phase → Prop) : Prop :=
  ∀ k : α → Program κ S, (∀ a ψ, Q a ψ → P.Follows me ψ (k a)) → P.Follows me φ (t k)

variable {φ : P.Phase}

theorem leads_pure {Q : α → P.Phase → Prop} {a : α} (h : Q a φ) :
    P.Leads me φ (pure a) Q := fun _ hk => hk a φ h

theorem Leads.mono {t : Task κ S α} {Q Q' : α → P.Phase → Prop} (h : P.Leads me φ t Q)
    (hQ : ∀ a ψ, Q a ψ → Q' a ψ) : P.Leads me φ t Q' :=
  fun k hk => h k fun a ψ hq => hk a ψ (hQ a ψ hq)

theorem Leads.bind {t : Task κ S α} {f : α → Task κ S β} {Q : α → P.Phase → Prop}
    {R : β → P.Phase → Prop} (h : P.Leads me φ t Q)
    (hf : ∀ a ψ, Q a ψ → P.Leads me ψ (f a) R) : P.Leads me φ (t >>= f) R :=
  fun k hk => h (fun a => f a k) fun a ψ hq => hf a ψ hq k hk

theorem leads_now {Q : Nat → P.Phase → Prop} (h : ∀ now, Q now φ) :
    P.Leads me φ (Task.now : Task κ S Nat) Q :=
  fun _ hk => .clock fun now => hk now φ (h now)

theorem leads_post {Q : Unit → P.Phase → Prop} {u : ThreadId} {work : κ} (hw : P.posting φ work)
    (h : Q () φ) : P.Leads me φ (Task.post u work : Task κ S Unit) Q :=
  fun _ hk => .post hw (hk () φ h)

/-- What a critical region does to the phase of its thread. -/
def Enters (P : Protocol κ S) (me : ThreadId) (φ : P.Phase) (s s' : S) (Q : P.Phase → Prop) :
    Prop := ∃ ψ, P.allowed me φ ψ s s' ∧ Q ψ

/-- The phase behind a region is a function of the state that the region finds. -/
theorem exists_phase {enter : S → Option (α × S)} {Q : α → P.Phase → Prop} {k : α → Program κ S}
    (hk : ∀ a ψ, Q a ψ → P.Follows me ψ (k a))
    (h : ∀ s a s', P.holds me φ s → enter s = some (a, s') → P.Enters me φ s s' (Q a)) :
    ∃ ψ : S → P.Phase, ∀ s s' p, P.holds me φ s →
      (enter s).map (fun x => (x.2, k x.1)) = some (s', p) →
      P.allowed me φ (ψ s) s s' ∧ P.Follows me (ψ s) p := by
  have each (s : S) : ∃ ψ : P.Phase, ∀ s' p, P.holds me φ s →
      (enter s).map (fun x => (x.2, k x.1)) = some (s', p) →
      P.allowed me φ ψ s s' ∧ P.Follows me ψ p := by
    by_cases hs : P.holds me φ s
    · cases he : enter s with
      | none => exact ⟨φ, fun s' p _ hp => nomatch hp⟩
      | some x =>
          obtain ⟨ψ, ha, hq⟩ := h s x.1 x.2 hs he
          refine ⟨ψ, fun s' p _ hp => ?_⟩
          cases hp
          exact ⟨ha, hk _ _ hq⟩
    · exact ⟨φ, fun _ _ hs' => absurd hs' hs⟩
  exact ⟨fun s => (each s).choose, fun s => (each s).choose_spec⟩

theorem leads_await {enter : S → Option (α × S)} {Q : α → P.Phase → Prop}
    (h : ∀ s a s', P.holds me φ s → enter s = some (a, s') → P.Enters me φ s s' (Q a)) :
    P.Leads me φ (Task.await enter : Task κ S α) Q := by
  intro k hk
  obtain ⟨ψ, hψ⟩ := exists_phase hk h
  exact .region ψ (fun s s' p hs he => (hψ s s' p hs he).1)
    fun s s' p hs he => (hψ s s' p hs he).2

/-- A region that is always admitted. -/
theorem enters_of_admitted {f : S → α × S} {Q : α → P.Phase → Prop}
    (h : ∀ s, P.holds me φ s → P.Enters me φ s (f s).2 (Q (f s).1)) (s : S) (a : α) (s' : S)
    (hs : P.holds me φ s) (he : some (f s) = some (a, s')) : P.Enters me φ s s' (Q a) := by
  obtain ⟨rfl, rfl⟩ : (f s).1 = a ∧ (f s).2 = s' := Prod.mk.inj (Option.some.inj he)
  exact h s hs

theorem leads_atomically {f : S → α × S} {Q : α → P.Phase → Prop}
    (h : ∀ s, P.holds me φ s → P.Enters me φ s (f s).2 (Q (f s).1)) :
    P.Leads me φ (Task.atomically f : Task κ S α) Q :=
  leads_await (enters_of_admitted h)

theorem leads_read {f : S → α} {Q : α → P.Phase → Prop}
    (h : ∀ s, P.holds me φ s → P.Enters me φ s s (Q (f s))) :
    P.Leads me φ (Task.read f : Task κ S α) Q := leads_atomically h

theorem leads_awaitUntil {deadline : Nat} {enter : S → Option (α × S)} {late : S → α × S}
    {Q : α → P.Phase → Prop}
    (h : ∀ s a s', P.holds me φ s → enter s = some (a, s') → P.Enters me φ s s' (Q a))
    (hl : ∀ s, P.holds me φ s → P.Enters me φ s (late s).2 (Q (late s).1)) :
    P.Leads me φ (Task.awaitUntil (some deadline) enter late : Task κ S α) Q := by
  intro k hk
  obtain ⟨ψ, hψ⟩ := exists_phase hk h
  obtain ⟨χ, hχ⟩ := exists_phase hk (enters_of_admitted hl)
  exact .regionUntil ψ χ (fun s s' p hs he => (hψ s s' p hs he).1)
    (fun s s' p hs he => (hψ s s' p hs he).2) (fun s hs => (hχ s _ _ hs rfl).1)
    fun s hs => (hχ s _ _ hs rfl).2

end Protocol

end EmbeddedVm
