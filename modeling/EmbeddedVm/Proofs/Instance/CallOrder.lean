import EmbeddedVm.Instance.Engine
import EmbeddedVm.Proofs.Threads.Keeping

/-!
# Calls are handed out in order, and all of them before the end

A queue of calls is used in three ways: a call is put into it, it is asked to stop, and a thread
looks for what to do next, waiting if there is nothing. `Site` says where a queue is kept and what
is noted at each use, so that the uses of an instance (`Site.ofStart`) and those of a queue with a
record of all that happened to it (`Site.recorded`) are the same tasks. In a record, every answer
stands with what had been put in, handed out and asked when it was given.

Whatever threads use the queue and in whatever order they move, what was put in is what was handed
out followed by what is left, and a thread is told that there is nothing only when nothing is left
(`calls_in_order`).
-/

namespace EmbeddedVm

variable {κ S η : Type}

/-! ## 1. Uses of a queue -/

/-- Where a queue is kept, and what is noted when it is used. -/
structure Site (S η : Type) where
  queue : S → CallQueue η
  /-- A call was put in, and this is the queue now. -/
  pushed : Job η → CallQueue η → S → S
  /-- It was asked to stop. -/
  asked : CallQueue η → S → S
  /-- This was the answer to what comes next. -/
  answered : CallQueue.Next η → CallQueue η → S → S

namespace Site

/-- Puts a call in. -/
def push (site : Site S η) (job : Job η) : Task κ S Unit :=
  Task.change fun s => site.pushed job ((site.queue s).push job) s

/-- Asks the queue to stop. -/
def stop (site : Site S η) : Task κ S Unit :=
  Task.change fun s => site.asked (site.queue s).stop s

/-- Waits for what comes next, up to a deadline. -/
def next (site : Site S η) (deadline : Option Nat) : Task κ S (CallQueue.Next η) :=
  Task.awaitUntil deadline
    (fun s => (site.queue s).next?.map fun (next, q) => (next, site.answered next q s))
    fun s =>
      let (next, q) := (site.queue s).nextLate
      (next, site.answered next q s)

/-- The queue of one start of an instance. Nothing is noted. -/
def ofStart {ρ σ : Type} (generation : Nat) : Site (World η ρ σ) η where
  queue w := w.inst.queue generation
  pushed _ q w := { w with inst := w.inst.setQueue generation q }
  asked q w := { w with inst := w.inst.setQueue generation q }
  answered _ q w := { w with inst := w.inst.setQueue generation q }

end Site

namespace Instance

variable {ρ σ : Type}

/-- An instance puts its calls in, -/
theorem enqueue_eq (generation : Nat) (job : Job η) :
    (enqueue generation job : Act η ρ σ Unit) = (Site.ofStart generation).push job := rfl

/-- asks its thread to end, -/
theorem stopQueue_eq (generation : Nat) :
    (change fun i => i.setQueue generation (i.queue generation).stop : Act η ρ σ Unit) =
      (Site.ofStart generation).stop := rfl

/-- and its thread waits for what comes next. -/
theorem awaitNext_eq (generation : Nat) (limit : Option Nat) :
    (awaitUntil limit
      (fun i => (i.queue generation).next?.map fun (next, q) => (next, i.setQueue generation q))
      (fun i =>
        let (next, q) := (i.queue generation).nextLate
        (next, i.setQueue generation q)) : Act η ρ σ (CallQueue.Next η)) =
      (Site.ofStart generation).next limit := by
  unfold awaitUntil
  simp only [Option.map_map]
  rfl

end Instance

/-! ## 2. Records -/

/-- An answer, and what had been done when it was given. -/
structure CallRecord.Answer (η : Type) where
  next : CallQueue.Next η
  /-- The calls put in before. -/
  pushed : List (Job η)
  /-- The calls handed out before. -/
  returned : List (Job η)
  /-- The queue had been asked to stop. -/
  asked : Bool

/-- The call in an answer, if it is one. -/
def CallQueue.Next.job? : CallQueue.Next η → Option (Job η)
  | .job call => some call
  | .idle | .stop => none

/-- A queue, and all that happened to it. -/
structure CallRecord (η : Type) where
  queue : CallQueue η := {}
  /-- The calls put in, the first put in first. -/
  pushed : List (Job η) := []
  /-- The calls handed out, the first handed out first. -/
  returned : List (Job η) := []
  /-- It was asked to stop. -/
  asked : Bool := false
  /-- All that was answered, the first answer first. -/
  answers : List (CallRecord.Answer η) := []

/-- A queue whose uses are recorded. -/
def Site.recorded : Site (CallRecord η) η where
  queue r := r.queue
  pushed job q r := { r with queue := q, pushed := r.pushed ++ [job] }
  asked q r := { r with queue := q, asked := true }
  answered next q r :=
    { r with
      queue := q
      returned := r.returned ++ next.job?.toList
      answers := r.answers ++ [⟨next, r.pushed, r.returned, r.asked⟩] }

/-- **An answer as it should be**: a call is the first put in that was not handed out before; and
    only when every call put in was handed out there is nothing, which is the end exactly if the
    queue was asked to stop. -/
def CallRecord.Answer.Right (a : CallRecord.Answer η) : Prop :=
  match a.next with
  | .job job => a.returned ++ [job] <+: a.pushed
  | .idle => a.asked = false ∧ a.returned = a.pushed
  | .stop => a.asked = true ∧ a.returned = a.pushed

/-- **What every use of a queue keeps.** -/
structure CallRecord.Orderly (r : CallRecord η) : Prop where
  /-- What was put in was handed out or is left, in order. -/
  kept : r.pushed = r.returned ++ r.queue.jobs
  asked : r.queue.stopping = r.asked
  answers : ∀ a ∈ r.answers, a.Right ∧ a.pushed <+: r.pushed

/-! ## 3. What comes next -/

/-- What a queue answers, and what is left of it. -/
inductive CallQueue.Answers (q : CallQueue η) : CallQueue.Next η → CallQueue η → Prop where
  | job {job : Job η} {jobs : List (Job η)} (h : q.jobs = job :: jobs) :
    Answers q (.job job) { q with jobs }
  | stop (h : q.jobs = []) (hs : q.stopping = true) : Answers q .stop q
  | idle (h : q.jobs = []) (hs : q.stopping = false) : Answers q .idle q

variable {q q' : CallQueue η} {next : CallQueue.Next η} {r : CallRecord η}

theorem CallQueue.answers_of_next? (h : q.next? = some (next, q')) : q.Answers next q' := by
  unfold CallQueue.next? at h
  split at h
  · rename_i hjobs
    cases h
    exact .job hjobs
  · rename_i hjobs
    split at h
    · rename_i hstopping
      cases h
      exact .stop hjobs hstopping
    · cases h

/-- A look that finds nothing to do: no call is left, and the queue was not asked to stop. -/
theorem CallQueue.next?_eq_none : q.next? = none ↔ q.jobs = [] ∧ q.stopping = false := by
  unfold CallQueue.next?
  split
  · rename_i hjobs
    simp [hjobs]
  · rename_i hjobs
    simp [hjobs]

theorem CallQueue.answers_nextLate (q : CallQueue η) : q.Answers q.nextLate.1 q.nextLate.2 := by
  unfold CallQueue.nextLate
  cases h : q.next? with
  | none =>
      obtain ⟨hjobs, hstopping⟩ := CallQueue.next?_eq_none.mp h
      exact .idle hjobs hstopping
  | some found => exact CallQueue.answers_of_next? h

namespace CallRecord

/-! ## 4. Every use keeps the order -/

theorem Orderly.push (h : r.Orderly) (job : Job η) :
    (Site.recorded.pushed job (r.queue.push job) r).Orderly where
  kept := by
    show r.pushed ++ [job] = r.returned ++ (r.queue.jobs ++ [job])
    rw [h.kept, List.append_assoc]
  asked := h.asked
  answers a ha :=
    ⟨(h.answers a ha).1, (h.answers a ha).2.trans (List.prefix_append _ _)⟩

theorem Orderly.stop (h : r.Orderly) : (Site.recorded.asked r.queue.stop r).Orderly :=
  ⟨h.kept, rfl, h.answers⟩

/-- An answer of the queue is right at the moment it is given. -/
theorem Orderly.right (h : r.Orderly) (ha : r.queue.Answers next q') :
    Answer.Right ⟨next, r.pushed, r.returned, r.asked⟩ := by
  have hkept := h.kept
  cases ha with
  | @job job jobs hjobs =>
      rw [hjobs] at hkept
      refine ⟨jobs, ?_⟩
      rw [hkept, List.append_assoc]
      rfl
  | stop hjobs hs =>
      rw [hjobs, List.append_nil] at hkept
      exact ⟨h.asked.symm.trans hs, hkept.symm⟩
  | idle hjobs hs =>
      rw [hjobs, List.append_nil] at hkept
      exact ⟨h.asked.symm.trans hs, hkept.symm⟩

theorem Orderly.answer (h : r.Orderly) (ha : r.queue.Answers next q') :
    (Site.recorded.answered next q' r).Orderly where
  kept := by
    show r.pushed = (r.returned ++ next.job?.toList) ++ q'.jobs
    rw [h.kept, List.append_assoc]
    cases ha with
    | job hjobs => exact congrArg (r.returned ++ ·) hjobs
    | stop _ _ => rfl
    | idle _ _ => rfl
  asked := by
    refine Eq.trans ?_ h.asked
    cases ha <;> rfl
  answers a hmem := by
    rcases List.mem_append.mp hmem with hmem | hmem
    · exact h.answers a hmem
    · obtain rfl := List.mem_singleton.mp hmem
      exact ⟨h.right ha, List.prefix_rfl⟩

end CallRecord

/-! ## 5. Threads -/

/-- A thread with nothing left to do may put a call in, ask for the end, or look for what comes
    next, with a deadline or without. -/
inductive UsesQueue : Program κ (CallRecord η) → Prop where
  | push (job : Job η) : UsesQueue ((Site.recorded.push job : Task κ _ _).toProgram)
  | stop : UsesQueue ((Site.recorded.stop : Task κ _ _).toProgram)
  | next (deadline : Option Nat) :
    UsesQueue ((Site.recorded.next deadline : Task κ _ _) fun _ => .halt)

/-- Whatever a thread does, it leaves an orderly record. -/
def orderly (κ η : Type) : Protocol κ (CallRecord η) where
  Phase := Unit
  rest := ()
  holds _ _ r := r.Orderly
  allowed _ _ _ _ r' := r'.Orderly
  posting _ _ := False
  own h := h
  others h _ _ _ _ := h

theorem orderly_change {me : ThreadId} {f : CallRecord η → CallRecord η}
    (h : ∀ r : CallRecord η, r.Orderly → (f r).Orderly) :
    (orderly κ η).Leads me () (Task.change f) fun _ _ => True :=
  Protocol.leads_atomically fun r hr => ⟨(), h r hr, trivial⟩

theorem UsesQueue.follows {me : ThreadId} {p : Program κ (CallRecord η)} (h : UsesQueue p) :
    (orderly κ η).Follows me () p := by
  have key {α : Type} {t : Task κ (CallRecord η) α}
      (ht : (orderly κ η).Leads me () t fun _ _ => True) :
      (orderly κ η).Follows me () (t fun _ => .halt) := ht _ fun _ _ _ => .halt
  cases h with
  | push job => exact key (orderly_change fun _ hr => hr.push job)
  | stop => exact key (orderly_change fun _ hr => hr.stop)
  | next deadline =>
      refine key (Protocol.leads_awaitAtMost
        (fun r next r' (hr : r.Orderly) he => ?_) fun r (hr : r.Orderly) => ?_)
      · obtain ⟨⟨next, q'⟩, hnext, heq⟩ := Option.map_eq_some_iff.mp he
        cases heq
        exact ⟨(), hr.answer (CallQueue.answers_of_next? hnext), trivial⟩
      · exact ⟨(), hr.answer (CallQueue.answers_nextLate r.queue), trivial⟩

/-- **Calls are handed out in order, and all of them before the end.** Let any threads put calls into
    a queue, ask it to stop and look for what comes next, in any order, with waits that end at any
    time and threads that wake up for nothing. Then what was handed out is a beginning of what was
    put in, each call once and in its turn, and the rest is still in the queue; a thread is told to
    stop only when the queue was asked to and all that was put in was handed out, and that there is
    nothing to do only when it was not asked to and all was handed out. -/
theorem calls_in_order {c : Crew κ (CallRecord η)}
    (h : Crew.Reached (fun _ => UsesQueue) {} c) :
    c.state.returned <+: c.state.pushed ∧
      c.state.pushed = c.state.returned ++ c.state.queue.jobs ∧
      ∀ a ∈ c.state.answers, a.pushed <+: c.state.pushed ∧
        (∀ job, a.next = .job job → a.returned ++ [job] <+: a.pushed) ∧
        (a.next = .stop → a.asked = true ∧ a.returned = a.pushed) ∧
        (a.next = .idle → a.asked = false ∧ a.returned = a.pushed) := by
  have hstart : ({} : CallRecord η).Orderly := ⟨rfl, rfl, fun _ ha => absurd ha List.not_mem_nil⟩
  obtain ⟨-, -, hkept, hasked, hanswers⟩ := (orderly κ η).kept_of_reached
    (fun _ => hstart) (fun _ _ hp => hp.follows) h .main
  refine ⟨⟨_, hkept.symm⟩, hkept, fun a ha => ?_⟩
  obtain ⟨hright, hbefore⟩ := hanswers a ha
  obtain ⟨next, pushed, returned, asked⟩ := a
  refine ⟨hbefore, ?_, ?_, ?_⟩
  · rintro job rfl
    exact hright
  · rintro rfl
    exact hright
  · rintro rfl
    exact hright

/-- A call nobody waits for. -/
def silentCall (number : Nat) : Job Nat := ⟨number, .notify none⟩

/-- Nothing to do at first; then two calls are put in, and the end is asked for before the second
    is handed out. -/
theorem second_call_before_stop : ∃ c : Crew Unit (CallRecord Nat),
    Crew.Reached (fun _ => UsesQueue) {} c ∧
      c.state.answers.map (·.next) = [.idle, .job (silentCall 1), .job (silentCall 2), .stop] ∧
      ∀ a ∈ c.state.answers, a.next = .stop → a.returned = a.pushed := by
  have h : Crew.Reached (κ := Unit) (fun _ => UsesQueue) ({} : CallRecord Nat) _ := .begin
  have h := h.move (.start (t := .own 0) rfl (.next (some 5)))
  have h := h.move (.late (t := .own 0) rfl)
  have h := h.move (.start (t := .own 0) rfl (.next (some 9)))
  have h := h.move (.woken (t := .own 0) rfl)
  have h := h.move (.start (t := .host 1) rfl (.push (silentCall 1)))
  have h := h.move (.region (t := .host 1) rfl rfl)
  have h := h.move (.start (t := .host 2) rfl (.push (silentCall 2)))
  have h := h.move (.region (t := .host 2) rfl rfl)
  have h := h.move (.regionUntil (t := .own 0) rfl rfl)
  have h := h.move (.start (t := .own 0) rfl (.next none))
  have h := h.move (.start (t := .host 1) rfl .stop)
  have h := h.move (.region (t := .host 1) rfl rfl)
  have h := h.move (.region (t := .own 0) rfl rfl)
  have h := h.move (.start (t := .own 0) rfl (.next (some 9)))
  have h := h.move (.late (t := .own 0) rfl)
  exact ⟨_, h, rfl, fun a ha hstop => (((calls_in_order h).2.2 a ha).2.2.1 hstop).2⟩

end EmbeddedVm
