import EmbeddedVm.Proofs.Threads.Counters
import EmbeddedVm.Proofs.Threads.Keeping
import EmbeddedVm.Proofs.Threads.StopTheWorld

/-!
# The accounts of any number of threads

Threads call the operations of a registry in any order, for themselves and for others, look at it,
and pause each other, with pauses inside pauses and pauses that are given up. Whatever they do and
however their moves interleave, the counters of the registry are right between any two of them, and
an operation that is refused has changed nothing, also if it had to wait and others moved meanwhile
(`accounts_right`).

The protocol has one phase: every region leaves a registry that is `Accounted` as such. What an
operation returned is told when it is over, and only reports that its code can make are told.
-/

namespace EmbeddedVm.Threads

/-! ## 1. What threads do -/

/-- The error of a result, if it is one. -/
def failure? {α : Type} : RegistryResult α → Option ThreadError
  | .ok _ => none
  | .error e => some e

/-- The error an operation returned, if it returned one. -/
def Operation.error? : (op : Operation) → op.Answer → Option ThreadError
  | .register, _ | .poll, _ => none
  | .unregister, (a : RegistryResult Nat) => failure? a
  | .blockingBegin _, (a : RegistryResult Nat) => failure? a
  | .blockingEnd _, (a : RegistryResult Nat) => failure? a
  | .hold _, (a : RegistryResult Unit) => failure? a
  | .release _, (a : RegistryResult Unit) => failure? a

/-- What a thread tells when a call is over. -/
inductive Report where
  /-- An operation returned, with an error or without. -/
  | returned (op : Operation) (error : Option ThreadError)
  /-- A pause is over, or was given up. -/
  | paused (error : Option ThreadError)

/-- An operation, and a report of what it returned. -/
def Operation.told (me : ThreadId) (op : Operation) : Task Report ThreadRegistry op.Answer := do
  let a ← op.task me
  Task.post me (.returned op (op.error? a))
  pure a

/-- Code that calls operations, looks at the registry, and runs code while all others are paused. -/
inductive Code where
  | done
  | call (op : Operation) (next : op.Answer → Code)
  | look (f : ThreadRegistry → Nat) (next : Nat → Code)
  | pause (closure : Code) (next : RegistryResult Unit → Code)

/-- The code, run by the thread `me`. -/
def Code.task (me : ThreadId) : Code → Task Report ThreadRegistry Unit
  | done => pure ()
  | call op next => do
    let a ← op.told me
    (next a).task me
  | look f next => do
    let n ← Threads.look f
    (next n).task me
  | pause closure next => do
    let a ← paused me (closure.task me)
    Task.post me (.paused (failure? a))
    (next a).task me

/-- A thread with nothing left to do may start any code. -/
def Runs (me : ThreadId) (p : Program Report ThreadRegistry) : Prop :=
  ∃ code : Code, p = code.task me fun _ => .halt

/-! ## 2. The protocol -/

/-- A pause that failed was not established in time. -/
def InTime {α : Type} (result : RegistryResult α) : Prop :=
  ∀ e, failure? result = some e → ∃ n, e = .pauseTimeout n

/-- A report that can be made. -/
inductive Report.Sound : Report → Prop where
  | returned (op : Operation) (a : op.Answer) : Sound (.returned op (op.error? a))
  | paused {error : Option ThreadError} (h : ∀ e, error = some e → ∃ n, e = .pauseTimeout n) :
    Sound (.paused error)

/-- **The protocol of the accounts**: every region leaves them right. -/
def books : Protocol Report ThreadRegistry where
  Phase := Unit
  rest := ()
  holds _ _ r := r.Accounted
  allowed _ _ _ _ r' := r'.Accounted
  posting _ report := report.Sound
  own h := h
  others h _ _ _ _ := h

variable {α β : Type} {me : ThreadId}

/-- A task that leaves the accounts right, and whose result has a property. -/
def Books (me : ThreadId) (t : Task Report ThreadRegistry α) (Q : α → Prop) : Prop :=
  books.Leads me () t fun a _ => Q a

theorem Books.bind {t : Task Report ThreadRegistry α} {f : α → Task Report ThreadRegistry β}
    {Q : α → Prop} {Q' : β → Prop} (h : Books me t Q) (hf : ∀ a, Q a → Books me (f a) Q') :
    Books me (t >>= f) Q' := Protocol.Leads.bind h fun a _ hq => hf a hq

theorem books_pure {Q : α → Prop} {a : α} (h : Q a) : Books me (pure a) Q := Protocol.leads_pure h

theorem books_region {f : ThreadRegistry → α × ThreadRegistry}
    (h : ∀ r : ThreadRegistry, r.Accounted → (f r).2.Accounted) :
    Books me (region f) fun _ => True :=
  Protocol.leads_atomically fun r hr => ⟨(), h r hr, trivial⟩

theorem books_look (f : ThreadRegistry → α) : Books me (look f) fun _ => True :=
  Protocol.leads_read fun _ hr => ⟨(), hr, trivial⟩

theorem books_admitted {f : ThreadRegistry → Option (α × ThreadRegistry)}
    (h : ∀ {r r' : ThreadRegistry} {a}, r.Accounted → f r = some (a, r') → r'.Accounted) :
    Books me (Task.await fun s => admitted s f) fun _ => True := by
  refine Protocol.leads_await fun r a r' hr he => ⟨(), ?_, trivial⟩
  rw [admitted_eq] at he
  exact h hr he

theorem books_post {report : Report} (h : report.Sound) :
    Books me (Task.post me report) fun _ => True := Protocol.leads_post h trivial

/-! ## 3. Every operation follows it -/

theorem poll_books : Books me (poll me) fun _ => True := by
  refine (books_look _).bind fun pending _ => ?_
  split
  · refine (books_region fun _ hr => hr.park me).bind fun parked _ => ?_
    split
    · refine books_admitted fun {r r' _} hr he => ?_
      obtain ⟨r'', hr'', heq⟩ := Option.map_eq_some_iff.mp he
      cases heq
      exact hr.unpark? hr''
    · exact books_pure trivial
  · exact books_pure trivial

theorem Operation.books (op : Operation) : Books me (op.task me) fun _ => True := by
  cases op with
  | register => exact books_admitted fun hr he => hr.register? he
  | unregister => exact books_region fun _ hr => hr.unregister me
  | blockingBegin id => exact books_region fun _ hr => hr.blockingBegin id
  | blockingEnd id => exact books_admitted fun hr he => hr.blockingEnd? he
  | hold id => exact books_region fun _ hr => hr.hold id
  | release id => exact books_admitted fun hr he => hr.release? he
  | poll => exact poll_books

theorem Operation.told_books (op : Operation) : Books me (op.told me) fun _ => True := by
  refine op.books.bind fun a _ => ?_
  exact (books_post (.returned op a)).bind fun _ _ => books_pure trivial

theorem inTime_ok (a : α) : InTime (.ok a) := nofun

theorem inTime_timeout (n : Nat) : InTime (.error (.pauseTimeout n) : RegistryResult α) := by
  intro e he
  cases he
  exact ⟨n, rfl⟩

/-- A pause that was announced is established, or given up in the end. -/
theorem awaitOthers_books {deadline : Nat} : Books (α := RegistryResult Unit) me
    (Task.awaitUntil (some deadline)
      (fun s => admitted s fun r => if r.unresponsive me = 0 then some (.ok (), r) else none)
      (fun s =>
        let (result, r) := (HasThreads.threads s).abandonPause me
        (result, HasThreads.setThreads s r)))
    InTime := by
  refine Protocol.leads_awaitUntil (fun r result r' hr he => ?_) fun r hr => ?_
  · rw [admitted_eq] at he
    split at he
    · cases he
      exact ⟨(), hr, inTime_ok ()⟩
    · cases he
  · refine ⟨(), hr.abandonPause me, ?_⟩
    show InTime (r.abandonPause me).1
    unfold ThreadRegistry.abandonPause
    split
    · exact inTime_ok ()
    · exact inTime_timeout _

/-- **A pause leaves the accounts right**, whichever of its waits ended it. -/
theorem pause_books : Books me (pause me) InTime := by
  unfold pause
  refine Books.bind (Q := fun _ => True) (Protocol.leads_now fun _ => trivial) fun start _ => ?_
  refine (books_look _).bind fun timeout _ => ?_
  refine (books_region fun _ hr => hr.beginPause me).bind fun begun _ => ?_
  cases begun with
  | established => exact books_pure (inTime_ok ())
  | announced => exact awaitOthers_books
  | refused =>
      refine Books.bind (Q := fun _ => True) ?_ fun begun _ => ?_
      · refine Protocol.leads_awaitUntil (fun r begun r' hr he => ⟨(), ?_, trivial⟩)
          fun r hr => ⟨(), hr.refusePause, trivial⟩
        rw [admitted_eq] at he
        have hbegun := hr.beginPause me
        split at he
        · cases he
        · rename_i heq
          cases he
          rwa [heq] at hbegun
      · cases begun with
        | established => exact books_pure (inTime_ok ())
        | announced => exact awaitOthers_books
        | refused => exact books_pure (inTime_timeout 0)

theorem paused_books {body : Task Report ThreadRegistry Unit} (h : Books me body fun _ => True) :
    Books me (paused me body) InTime := by
  refine pause_books.bind fun result hresult => ?_
  cases result with
  | error e => exact books_pure hresult
  | ok _ =>
      refine h.bind fun a _ => ?_
      exact (books_region fun _ hr => hr.endPause).bind fun _ _ => books_pure (inTime_ok a)

/-- **So does all code**: by induction on it, a closure being code as well. -/
theorem Code.books (code : Code) : Books me (code.task me) fun _ => True := by
  induction code with
  | done => exact books_pure trivial
  | call op next ih => exact op.told_books.bind fun a _ => ih a
  | look f next ih => exact (books_look f).bind fun n _ => ih n
  | pause closure next ihc ih =>
      refine (paused_books ihc).bind fun a ha => ?_
      exact (books_post (.paused ha)).bind fun _ _ => ih a

theorem Runs.follows {p : Program Report ThreadRegistry} (h : Runs me p) :
    books.Follows me () p := by
  obtain ⟨code, rfl⟩ := h
  exact code.books _ fun _ _ _ => .halt

/-! ## 4. Every interleaving -/

/-- **What happens during a call of the thread `t`** of which it has told nothing yet. Any thread
    moves; for each move of `t` itself the registry before and after is kept, the last one first. -/
inductive During (t : ThreadId) (c : Crew Report ThreadRegistry) :
    List (ThreadRegistry × ThreadRegistry) → Crew Report ThreadRegistry → Prop where
  | begin : During t c [] c
  | own {changes c' c''} (h : During t c changes c') (hm : c'.Moves Runs t none c'') :
    During t c ((c'.state, c''.state) :: changes) c''
  | other {changes c' c'' u posted} (h : During t c changes c') (hu : u ≠ t)
      (hm : c'.Moves Runs u posted c'') : During t c changes c''

variable {pauseTimeout : Nat} {c c' c'' : Crew Report ThreadRegistry}

theorem During.reached {t : ThreadId} {changes : List (ThreadRegistry × ThreadRegistry)}
    (h : During t c changes c') (hc : Crew.Reached Runs { pauseTimeout } c) :
    Crew.Reached Runs { pauseTimeout } c' := by
  induction h with
  | begin => exact hc
  | own _ hm ih => exact ih.move hm
  | other _ _ hm ih => exact ih.move hm

theorem books_of_reached (h : Crew.Reached Runs { pauseTimeout } c) : books.Kept c :=
  Protocol.kept_of_reached (fun _ => ThreadRegistry.accounted_start _) (fun _ _ => Runs.follows) h

/-- What a thread tells is sound. -/
theorem sound_of_moves {t : ThreadId} {report : Report}
    (h : Crew.Reached Runs { pauseTimeout } c) (hm : c.Moves Runs t (some report) c') :
    report.Sound := by
  obtain ⟨_, hφ, hs⟩ := books_of_reached h t
  obtain ⟨_, hψ⟩ := hφ.move (fun _ => Runs.follows) hs hm
  exact (hψ.posting report rfl).1

/-! ## 5. Refusals -/

theorem failure?_eq_some {result : RegistryResult α} {e : ThreadError}
    (h : failure? result = some e) : result = .error e := by
  cases result with
  | ok a => cases h
  | error e' =>
      cases h
      rfl

/-- **An operation is one region**, safepoints apart, and returns an error only where it finds the
    registry as it leaves it. -/
theorem Operation.one_region (t : ThreadId) (op : Operation) (hpoll : op ≠ .poll) :
    ∃ enter : ThreadRegistry → Option (op.Answer × ThreadRegistry),
      (op.task t : Task Report ThreadRegistry op.Answer) = Task.await enter ∧
        ∀ r a r' e, enter r = some (a, r') → op.error? a = some e → r' = r := by
  cases op with
  | register => exact ⟨_, rfl, nofun⟩
  | unregister =>
      refine ⟨fun r => some (r.unregister t), rfl, fun r a r' e he herr => ?_⟩
      rw [failure?_eq_some herr] at he
      exact ThreadRegistry.unregister_error (Option.some.inj he)
  | blockingBegin id =>
      refine ⟨fun r => some (r.blockingBegin id), rfl, fun r a r' e he herr => ?_⟩
      rw [failure?_eq_some herr] at he
      exact ThreadRegistry.blockingBegin_error (Option.some.inj he)
  | blockingEnd id =>
      refine ⟨_, rfl, fun r a r' e he herr => ?_⟩
      rw [admitted_eq, failure?_eq_some herr] at he
      exact ThreadRegistry.blockingEnd?_error he
  | hold id =>
      refine ⟨fun r => some (r.hold id), rfl, fun r a r' e he herr => ?_⟩
      rw [failure?_eq_some herr] at he
      exact ThreadRegistry.hold_error (Option.some.inj he)
  | release id =>
      refine ⟨_, rfl, fun r a r' e he herr => ?_⟩
      rw [admitted_eq, failure?_eq_some herr] at he
      exact ThreadRegistry.release?_error he
  | poll => exact absurd rfl hpoll

/-- The registry was left as it was found. -/
def Unchanged (changes : List (ThreadRegistry × ThreadRegistry)) : Prop :=
  ∀ change ∈ changes, change.2 = change.1

theorem Unchanged.cons {changes : List (ThreadRegistry × ThreadRegistry)} {r r' : ThreadRegistry}
    (h : Unchanged changes) (heq : r' = r) : Unchanged ((r, r') :: changes) :=
  List.forall_mem_cons.mpr ⟨heq, h⟩

/-- Where a call can be: it waits and has changed nothing, or it has its result to tell. -/
theorem During.stands {t : ThreadId} {op : Operation} (hpoll : op ≠ .poll)
    {k : op.Answer → Program Report ThreadRegistry} (hc : c.current t = op.told t k)
    {changes : List (ThreadRegistry × ThreadRegistry)} (h : During t c changes c') :
    (c'.current t = op.told t k ∧ Unchanged changes) ∨
      ∃ a, c'.current t = .post t (.returned op (op.error? a)) (k a) ∧
        ∀ e, op.error? a = some e → Unchanged changes := by
  obtain ⟨enter, htask, herror⟩ := op.one_region t hpoll
  have htold : op.told t k =
      Task.await enter fun a => .post t (.returned op (op.error? a)) (k a) :=
    congrFun htask _
  rw [htold] at hc ⊢
  induction h with
  | begin => exact .inl ⟨hc, nofun⟩
  | own _ hm ih =>
      rcases ih with ⟨hwaits, hunchanged⟩ | ⟨a, htells, -⟩
      · cases hm with
        | region hcur he =>
            cases hwaits.symm.trans hcur
            obtain ⟨⟨a, r⟩, henter, heq⟩ := Option.map_eq_some_iff.mp he
            obtain ⟨rfl, rfl⟩ := Prod.mk.inj heq
            refine .inr ⟨a, Crew.current_moved_self _ _ _ _, fun e ha => ?_⟩
            exact hunchanged.cons (herror _ a r e henter ha)
        | woken _ => exact .inl ⟨hwaits, hunchanged.cons rfl⟩
        | start hcur _ | clock hcur _ | regionUntil hcur _ | late hcur =>
            cases hwaits.symm.trans hcur
      · -- it has to tell before anything else
        cases hm with
        | woken hwaits =>
            rw [htells] at hwaits
            cases hwaits
        | start hcur _ | clock hcur _ | region hcur _ | regionUntil hcur _ | late hcur =>
            cases htells.symm.trans hcur
  | other _ hu hm ih =>
      rw [hm.current_of_ne (Ne.symm hu)]
      exact ih

/-- **A call that returned an error has changed nothing.** -/
theorem During.unchanged {t : ThreadId} {op : Operation}
    {k : op.Answer → Program Report ThreadRegistry}
    (hreached : Crew.Reached Runs { pauseTimeout } c) (hc : c.current t = op.told t k)
    {changes : List (ThreadRegistry × ThreadRegistry)} (h : During t c changes c') {e : ThreadError}
    (hm : c'.Moves Runs t (some (.returned op (some e))) c'') : Unchanged changes := by
  have hpoll : op ≠ .poll := by
    rintro rfl
    -- a safepoint returns no error
    cases sound_of_moves (h.reached hreached) hm
  rcases h.stands hpoll hc with ⟨hwaits, -⟩ | ⟨a, htells, herror⟩
  · obtain ⟨enter, htask, -⟩ := op.one_region t hpoll
    cases hm with
    | post hcur => cases (congrFun htask _).symm.trans (hwaits.symm.trans hcur)
  · cases hm with
    | post hcur =>
        obtain ⟨-, hreport, -⟩ := Program.post.inj (htells.symm.trans hcur)
        exact herror e (Report.returned.inj hreport).2

/-- **The accounts are right at any time**, whatever any number of threads call and however their
    moves interleave: the counters are those of the slots, nothing is taken from a counter that it
    does not have, an operation that returned an error has changed nothing from its first move to
    its last, and a pause fails for the time it took and for nothing else. -/
theorem accounts_right (h : Crew.Reached Runs { pauseTimeout } c) :
    c.state.Accounted ∧ c.state.Covered ∧
      (∀ t op k, c.current t = Operation.told t op k → ∀ changes c' c'' e, During t c changes c' →
        c'.Moves Runs t (some (.returned op (some e))) c'' → Unchanged changes) ∧
      ∀ t e c', c.Moves Runs t (some (.paused (some e))) c' → ∃ n, e = .pauseTimeout n := by
  obtain ⟨_, -, haccounted⟩ := books_of_reached h .main
  refine ⟨haccounted, ThreadRegistry.Accounted.covered haccounted, ?_, fun t e c' hm => ?_⟩
  · exact fun t op k hc changes c' c'' e hd hm => hd.unchanged h hc hm
  · cases sound_of_moves h hm with
    | paused hin => exact hin e rfl

/-- A thread registers and opens a bracket; another one tries to close one for a thread that is not
    registered. -/
theorem bracket_accounts : ∃ c : Crew Report ThreadRegistry,
    Crew.Reached Runs { pauseTimeout := 5 } c ∧
    c.state.threads = [(.host 1, { registrations := 1, blockingDepth := 1 })] ∧
    c.state.Accounted ∧ ∃ change c' c'', During .main c [change] c' ∧
      c'.Moves Runs .main (some (.returned (.blockingEnd (.host 2)) (some .notRegistered))) c'' ∧
      Unchanged [change] := by
  let opens : Code := .call .register fun _ => .call (.blockingBegin (.host 1)) fun _ => .done
  let closes : Code := .call (.blockingEnd (.host 2)) fun _ => .done
  have h : Crew.Reached Runs ({ pauseTimeout := 5 } : ThreadRegistry) _ := .begin
  have h := h.move (.start (t := .host 1) rfl ⟨opens, rfl⟩)
  have h := h.move (.region (t := .host 1) rfl rfl)
  have h := h.move (.post (t := .host 1) rfl)
  have h := h.move (.region (t := .host 1) rfl rfl)
  have h := h.move (.post (t := .host 1) rfl)
  have h := h.move (.start (t := .main) rfl ⟨closes, rfl⟩)
  exact ⟨_, h, rfl, (accounts_right h).1, _, _, _, .own .begin (.region rfl rfl), .post rfl,
    (accounts_right h).2.2.1 .main _ _ rfl _ _ _ _ (.own .begin (.region rfl rfl)) (.post rfl)⟩

end EmbeddedVm.Threads
