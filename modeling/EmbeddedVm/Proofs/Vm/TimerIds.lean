import EmbeddedVm.Proofs.Events.Identifiers
import EmbeddedVm.Proofs.Machine.Operands
import EmbeddedVm.Proofs.Vm.Moments

/-!
# Cancelling a timer by the value that was pushed for it

Code that schedules a timer is handed its identifier as an integer, and may cancel the timer with it
at any later moment. An identifier has 32 bits and an integer has a sign, and zero and below are no
identifiers to a cancellation. So the first half of all identifiers can be cancelled by the values
that were pushed, and the second half cannot (`pushed_timers_cancel`).

A cancellation takes a timer with all its turns off those that will fire, and no other. Whether it
does so for good is a question of how many turns there are: one mark drops one turn. A timer that
does not repeat has a single one. One that repeats has a second one when a drain has failed in front
of it, and then it can fire although its cancellation was acknowledged (`restless_runs_on`).
-/

namespace EmbeddedVm

variable {ν : Type}

/-- Whether the timers that an instruction schedules repeat; the others schedule none. -/
def Callback.repeats? : Callback → Option Bool
  | timerOnce => some false
  | timerEvery => some true
  | mainLoop | asyncRead => none

/-- The integer of an identifier is positive for the first half of them. -/
theorem pos_toInt32 (id : UInt32) :
    0 < id.toInt32 ↔ 0 < id.toNat ∧ id.toNat < UInt32.size / 2 := by
  have hvalue : id.toInt32.toInt = id.toBitVec.toInt := rfl
  have hnat : id.toBitVec.toNat = id.toNat := rfl
  have hid : id.toNat < UInt32.size := id.toNat_lt_size
  unfold UInt32.size at hid
  rw [Int32.lt_iff_toInt_lt, hvalue, BitVec.toInt_eq_toNat_cond, hnat]
  show (0 : Int) < _ ↔ 0 < id.toNat ∧ id.toNat < 2147483648
  split <;> omega

namespace Scheduler

variable {τ : Type} {s : Scheduler τ} {id : UInt32}

/-- **A timer that will fire can be cancelled**, and then nothing of it will fire, and all else as
    before. -/
theorem cancel_of_pending (h : ∃ t ∈ s.pending, t.id = id) :
    (s.cancel id).2 = true ∧ (s.cancel id).1.pending = s.pending.filter (·.id != id) := by
  obtain ⟨t, ht, rfl⟩ := h
  obtain ⟨hkept, hlive⟩ := List.mem_filter.mp ht
  have hfound : (s.cancel t.id).2 = true := by
    unfold cancel
    rw [if_pos]
    exact Bool.and_eq_true_iff.mpr
      ⟨Array.any_eq_true'.mpr ⟨t, Array.mem_def.mpr hkept, beq_self_eq_true _⟩, hlive⟩
  refine ⟨hfound, ?_⟩
  rw [(cancel_eq_of_true hfound).2.2]
  unfold pending
  rw [List.filter_filter]
  refine List.filter_congr fun u _ => ?_
  show (!(t.id :: s.cancelled).contains u.id) = (u.id != t.id && !s.cancelled.contains u.id)
  rw [List.contains_cons, Bool.not_or]
  rfl

/-- Where a single turn of it is kept, one timer goes off those that will fire, and the identifier
    is muted. -/
theorem muted_cancel (h : ∃ t ∈ s.pending, t.id = id) (hkept : s.borne id ≤ 1) :
    (∃ t, s.pending.Perm (t :: (s.cancel id).1.pending)) ∧ (s.cancel id).1.Muted id := by
  obtain ⟨hfound, -⟩ := cancel_of_pending h
  have hone : s.borne id = 1 := by
    obtain ⟨t, ht, hid⟩ := h
    refine Nat.le_antisymm hkept (Nat.pos_of_ne_zero fun hnone => ?_)
    exact bearers_eq_zero.mp hnone t (List.mem_filter.mp ht).1 hid
  obtain ⟨t, -, hperm⟩ := pending_cancel hfound hone
  refine ⟨⟨t, hperm⟩, ?_⟩
  rw [(cancel_eq_of_true hfound).2.2]
  exact .inr ⟨hone, List.contains_iff_mem.mpr List.mem_cons_self⟩

end Scheduler

namespace Machine

variable {ctx : Context ν} {image : Image ν} {m m' : Machine}

/-! ## 1. Two instructions -/

/-- The machine is about to carry out an instruction. -/
def AboutTo (image : Image ν) (m : Machine) (i : Instruction) : Prop :=
  ∃ f rest g s, m.frames = f :: rest ∧ image.functions[f.function]? = some g ∧
    g.code[f.ip]? = some s ∧ s.instruction = i

theorem AboutTo.run_step {i : Instruction} (h : AboutTo ctx.image m i) :
    ∃ s : Step, s.instruction = i ∧ (step ctx).run m = (execute ctx s).run m.fetched := by
  obtain ⟨f, rest, g, s, hf, hg, hs, hi⟩ := h
  exact ⟨s, hi, Machine.run_step hf hg hs⟩

/-- Fetching an instruction moves the innermost function, and nothing else. -/
theorem fetched_same (m : Machine) :
    m.fetched.stack = m.stack ∧ m.fetched.store = m.store ∧ m.fetched.floor = m.floor := by
  unfold fetched floor
  cases hf : m.frames with
  | nil =>
      dsimp only
      rw [hf]
      exact ⟨rfl, rfl, rfl⟩
  | cons f rest => exact ⟨rfl, rfl, rfl⟩

/-- Popping takes the topmost operand. -/
theorem after_pop : After (pop ctx) m (fun v m' => m.stack.back? = some v ∧
    m' = { m with stack := m.stack.pop }) fun _ _ => True := by
  unfold After
  by_cases h : m.floor < m.stack.size
  · obtain ⟨v, hv, hrun⟩ := run_pop_of_lt ctx h
    rw [hrun]
    exact ⟨hv, rfl⟩
  · rw [run_pop_of_le (Nat.not_lt.mp h)]
    trivial

theorem after_popNumber (op : Opcode) : After (popNumber ctx op) m
    (fun _ m' => m' = { m with stack := m.stack.pop }) fun _ _ => True := by
  unfold popNumber
  refine after_bind.mpr (after_pop.mono (fun v m' hv => ?_) fun _ _ _ => trivial)
  cases v with
  | int n => exact hv.2
  | float x => exact hv.2
  | null | bool b | string r => trivial

/-- What an instruction does that schedules a timer. -/
structure Schedules (m : Machine) (repeats : Bool) (name : String) (delay : Binary64)
    (m' : Machine) : Prop where
  scheduler : m'.store.scheduler = (m.store.scheduler.addTimer name delay repeats).1
  stack : m'.stack = m.stack.pop.push (.int m.store.scheduler.nextId.toInt32)

/-- **An instruction that schedules a timer pushes the next identifier**, where it does not fail. -/
theorem AboutTo.schedules {kind : Callback} {g : UInt32} {repeats : Bool}
    (h : AboutTo ctx.image m (.callback kind g)) (hk : kind.repeats? = some repeats)
    {effect : Effect ν} (hrun : (step ctx).run m = .ok effect m') :
    effect = .next ∧ ∃ name delay, Schedules m repeats name delay m' := by
  obtain ⟨s, hi, hstep⟩ := h.run_step
  have hafter : After (callback ctx kind g.toNat) m.fetched (fun effect m' =>
      effect = .next ∧ ∃ name delay, Schedules m repeats name delay m') fun _ _ => True := by
    obtain ⟨hstack, hstore, -⟩ := fetched_same m
    unfold callback
    split
    · trivial
    · rename_i f hf
      have timer (op : Opcode) : After (do
          let delay ← popNumber ctx op
          let m ← get
          let added := m.store.scheduler.addTimer f.name delay repeats
          set { m with store := { m.store with scheduler := added.1 } }
          push (.int added.2.toInt32)
          return (.next : Effect ν)) m.fetched (fun effect m' =>
            effect = .next ∧ ∃ name delay, Schedules m repeats name delay m') fun _ _ => True := by
        refine after_bind.mpr ((after_popNumber op).mono (fun delay m₁ hm₁ => ?_)
          fun _ _ _ => trivial)
        rw [hm₁]
        refine ⟨rfl, f.name, delay, ?_, ?_⟩
        · show (m.fetched.store.scheduler.addTimer f.name delay repeats).1 = _
          rw [hstore]
        · show m.fetched.stack.pop.push (.int m.fetched.store.scheduler.nextId.toInt32) = _
          rw [hstack, hstore]
      cases kind with
      | timerOnce =>
          cases hk
          exact timer _
      | timerEvery =>
          cases hk
          exact timer _
      | mainLoop | asyncRead => cases hk
  rw [hstep] at hrun
  unfold execute at hrun
  rw [hi] at hrun
  exact hafter.ok hrun

/-- The machine after a cancellation, which pushes whether there was something to cancel. -/
def cancelled (m : Machine) (n : Int32) : Machine :=
  let answer := if 0 < n then m.store.scheduler.cancel n.toUInt32 else (m.store.scheduler, false)
  { m with
    store := { m.store with scheduler := answer.1 }, stack := m.stack.pop.push (.bool answer.2) }

/-- **A cancellation always goes through** where an integer is on top. -/
theorem AboutTo.cancels (h : AboutTo ctx.image m (.simple .timerCancel))
    (hfloor : m.floor < m.stack.size) {n : Int32} (hn : m.stack.back? = some (.int n)) :
    (step ctx).run m = .ok .next (m.fetched.cancelled n) := by
  obtain ⟨s, hi, hstep⟩ := h.run_step
  obtain ⟨hstack, -, hfetched⟩ := fetched_same m
  have hroom : m.fetched.floor < m.fetched.stack.size := by
    rw [hfetched, hstack]
    exact hfloor
  obtain ⟨v, hv, hpop⟩ := run_pop_of_lt ctx hroom
  rw [hstack, hn] at hv
  cases hv
  have hpopInt : (popInt ctx (.simple .timerCancel)).run m.fetched =
      .ok n { m.fetched with stack := m.fetched.stack.pop } := by
    unfold popInt
    rw [EStateM.run_bind, hpop]
    rfl
  rw [hstep]
  unfold execute
  rw [hi]
  dsimp only
  unfold simple
  dsimp only
  rw [EStateM.run_bind, hpopInt]
  unfold cancelled
  dsimp only
  split
  · rfl
  · rfl

end Machine

namespace Logbook

open Scheduler

variable {τ : Type} [Instant τ] {d d' : Logbook τ} {name : String} {delay : τ} {repeats : Bool}
  {id : UInt32}

/-! ## 2. A timer and its identifier -/

/-- **An identifier has been handed out for a timer**, and for no other as long as identifiers do not
    begin anew. -/
structure Assigned (id : UInt32) (name : String) (repeats : Bool) (d : Logbook τ) : Prop where
  numbered : d.Numbered
  issued : id.toNat ≤ d.issued.length
  named : d.Named name id
  lone : repeats = false → d.Lone id

/-- **It stays so whatever happens.** -/
theorem Assigned.steps (h : d.Assigned id name repeats) (hs : Steps d d')
    (hfew : d'.issued.length < UInt32.size) : d'.Assigned id name repeats := by
  obtain ⟨hnumbered, hissued, hnamed, hlone⟩ := h
  refine ⟨hnumbered.steps hs, Nat.le_trans hissued hs.issued_le, ?_, fun hrepeats => ?_⟩
  · exact Steps.carry (fun hs hnew hI => Named.step hI hs hnew) hnumbered hissued hs hfew hnamed
  · exact Steps.carry (fun hs hnew hI => Lone.step hI hs hnew) hnumbered hissued hs hfew
      (hlone hrepeats)

/-- A timer that was scheduled counts, and so does its identifier. -/
theorem Numbered.scheduled (hn : d.Numbered) (hn' : d'.Numbered)
    (hle : d.issued.length ≤ d'.issued.length)
    (hs : d'.scheduler = (d.scheduler.addTimer name delay repeats).1) :
    d.issued.length + 1 ≤ d'.issued.length ∧
      d.scheduler.nextId.toNat ≤ d'.issued.length ∧ 0 < d.scheduler.nextId.toNat := by
  have hnext : d'.scheduler.nextId = succId d.scheduler.nextId := by
    rw [hs]
    rfl
  have hsucc := toNat_succId d.scheduler.nextId
  unfold Numbered at hn hn'
  rw [hnext] at hn'
  unfold UInt32.size at hsucc hn hn'
  have hmore : d.issued.length ≠ d'.issued.length := by
    intro heq
    rw [← heq] at hn'
    omega
  refine ⟨by omega, by omega, by omega⟩

/-- **The next identifier is that of the new timer alone.** -/
theorem Ordered.assigned (h : d.Ordered) (hsteps : Steps d d')
    (hfew : d.issued.length + 1 < UInt32.size)
    (hs : d'.scheduler = (d.scheduler.addTimer name delay repeats).1)
    (hhand : d'.inHand = d.inHand) : d'.Assigned d.scheduler.nextId name repeats := by
  obtain ⟨hborne, hfirings⟩ := h.fresh hfew
  have hnumbered := h.numbered.steps hsteps
  obtain ⟨-, hissued, -⟩ := h.numbered.scheduled hnumbered hsteps.issued_le hs
  have hkept {t : Timer τ} (ht : t ∈ d'.scheduler.timers.toList) :
      (t.callback = name ∧ t.interval = if repeats then some (Instant.clean delay) else none) ∨
        t.id ≠ d.scheduler.nextId := by
    rw [hs] at ht
    rcases mem_push.mp ht with rfl | ht
    · exact .inl ⟨rfl, rfl⟩
    · exact .inr (bearers_eq_zero.mp hborne t ht)
  refine ⟨hnumbered, hissued, fun c hc hhas => ?_, fun hrepeats => ⟨?_, fun t ht hid => ?_⟩⟩
  · rcases hhas with hmem | hmem
    · obtain ⟨t, ht, rfl⟩ := List.mem_map.mp hmem
      rcases hkept ht with ⟨hname, -⟩ | hne
      · exact hname
      · exact absurd (Option.some.inj hc) hne
    · rw [hhand] at hmem
      exact absurd hc (firings_eq_zero.mp hfirings c hmem)
  · rw [hs, hhand, hfirings]
    have hone : (d.addTimer name delay repeats).scheduler.borne d.scheduler.nextId = _ :=
      borne_addTimer name delay repeats
    rw [hborne, if_pos rfl] at hone
    exact Nat.le_of_eq hone
  · rcases hkept ht with ⟨-, hinterval⟩ | hne
    · rw [hinterval, hrepeats]
      rfl
    · exact absurd hid hne

omit [Instant τ] in
/-- Of a timer that does not repeat, the turn that is kept is the only one. -/
theorem Assigned.single (h : d.Assigned id name false)
    (hpending : ∃ t ∈ d.scheduler.pending, t.id = id) :
    d.scheduler.borne id ≤ 1 ∧ firings id d.inHand = 0 := by
  have htotal := (h.lone rfl).total
  obtain ⟨t, ht, hid⟩ := hpending
  have hborne : d.scheduler.borne id ≠ 0 := fun hnone =>
    bearers_eq_zero.mp hnone t (List.mem_filter.mp ht).1 hid
  omega

end Logbook

namespace Vm

open Logbook Machine Scheduler

namespace Moment

variable {μ μ' : Moment ν} {image : Image ν} {m m' : Machine} {i : Instruction}

/-! ## 3. Moments -/

/-- At a moment, code is about to carry out an instruction. -/
structure Executes (μ : Moment ν) (image : Image ν) (m : Machine) (i : Instruction) : Prop where
  running : μ.running = some m
  loaded : μ.vm.image = some image
  aboutTo : m.AboutTo image i

/-- Code goes on by a turn, or its call closes. -/
theorem Executes.goes_cases (h : μ.Executes image m i) (hg : μ.Goes μ') :
    (∃ m' d, Machine.Turn (μ.vm.context image) m m' ∧ Uses μ.log d ∧
      d.scheduler = m'.store.scheduler ∧ μ' = ⟨μ.vm, d, some m'⟩) ∨
    ∃ o, Closes (μ.vm.context image) m o ∧ μ'.running = none := by
  obtain ⟨hrunning, hloaded, -⟩ := h
  cases hg with
  | turn hrun hi ht huses hd =>
      rw [hrunning] at hrun
      rw [hloaded] at hi
      cases hrun
      cases hi
      exact .inl ⟨_, _, ht, huses, hd, rfl⟩
  | returns hrun hi hc | throws hrun hi hc =>
      rw [hrunning] at hrun
      rw [hloaded] at hi
      cases hrun
      cases hi
      exact .inr ⟨_, hc, rfl⟩
  | host hidle | call hidle | take hidle | pass hidle | callback hidle | refused hidle =>
      rw [hrunning] at hidle
      cases hidle

/-- The code of a moment goes on by a turn. -/
theorem Executes.turn (h : μ.Executes image m i) (hg : μ.Goes μ') (hm' : μ'.running = some m') :
    Machine.Turn (μ.vm.context image) m m' ∧ Uses μ.log μ'.log ∧
      μ'.log.scheduler = m'.store.scheduler := by
  rcases h.goes_cases hg with ⟨m₁, d, ht, huses, hd, rfl⟩ | ⟨o, hc, hidle⟩
  · cases hm'
    exact ⟨ht, huses, hd⟩
  · rw [hidle] at hm'
    cases hm'

/-- Where an instruction has nothing left to do, the next moment is that after it. -/
theorem Executes.next (h : μ.Executes image m i)
    (hstep : (step (μ.vm.context image)).run m = .ok .next m') (hg : μ.Goes μ') :
    μ'.running = some m' := by
  rcases h.goes_cases hg with ⟨m₁, d, ht, -, -, rfl⟩ | ⟨o, hc, -⟩
  · cases ht with
    | next hstep' =>
        cases hstep.symm.trans hstep'
        rfl
    | allocate hstep' | invoke hstep' => cases hstep.symm.trans hstep'
  · cases hc with
    | finished hstep' | raised hstep' | refused hstep' => cases hstep.symm.trans hstep'

/-- **A timer is silent**: as long as identifiers do not begin anew, no drain is handed a turn of it
    and none will fire. -/
def Silent (id : UInt32) (μ : Moment ν) : Prop :=
  ∀ μ', μ.Later μ' → μ'.log.issued.length < UInt32.size →
    (∀ c ∈ μ'.log.inHand, c.timer ≠ some id) ∧ ∀ t ∈ μ'.scheduler.pending, t.id ≠ id

/-- At most one turn of a timer is kept, and none is in hand. -/
structure SingleTurn (id : UInt32) (μ : Moment ν) : Prop where
  kept : μ.scheduler.borne id ≤ 1
  hand : firings id μ.log.inHand = 0

end Moment

open Moment

/-- **A timer is cancelled**, and no other: nothing of it will fire, and all else as before. -/
structure Cancelled (id : UInt32) (name : String) (m m' : Machine) : Prop where
  pushed : m'.stack = m.stack.pop.push (.bool true)
  pending : m'.store.scheduler.pending = m.store.scheduler.pending.filter (·.id != id)
  named : ∀ t ∈ m.store.scheduler.pending, t.id = id → t.callback = name

/-- The scheduler of a moment is that of its logbook. -/
theorem Moment.Executes.scheduler_eq {μ : Moment ν} {image : Image ν} {m : Machine}
    {i : Instruction} (h : μ.Executes image m i) (hk : μ.Kept) :
    μ.log.scheduler = m.store.scheduler := by
  unfold Kept Moment.scheduler at hk
  rw [h.running] at hk
  exact hk

/-- A moment's identifiers are in order. -/
theorem Moment.Reached.ordered {μ : Moment ν} (h : μ.Reached) : μ.log.Ordered := by
  obtain ⟨⟨wall, hsteps⟩, -⟩ := h.steps
  exact (ordered_opened wall).steps hsteps

/-- **What a cancellation by a value does**, of a timer that will fire: it pushes true for a positive
    one, and the timer will not fire. -/
theorem Moment.Executes.cancels {μ : Moment ν} {image : Image ν} {m : Machine} {id : UInt32}
    {name : String} {repeats : Bool} (h : μ.Executes image m (.simple .timerCancel))
    (hkept : μ.Kept) (hassigned : μ.log.Assigned id name repeats)
    (hpending : ∃ t ∈ m.store.scheduler.pending, t.id = id) (hpos : 0 < id.toInt32) :
    Cancelled id name m (m.fetched.cancelled id.toInt32) ∧
      (m.fetched.cancelled id.toInt32).store.scheduler = (m.store.scheduler.cancel id).1 := by
  obtain ⟨hfound, hgone⟩ := cancel_of_pending hpending
  obtain ⟨hstack, hstore, -⟩ := fetched_same m
  have hscheduler : (m.fetched.cancelled id.toInt32).store.scheduler =
      (m.store.scheduler.cancel id).1 := by
    unfold Machine.cancelled
    rw [if_pos hpos, hstore, UInt32.toUInt32_toInt32]
  refine ⟨⟨?_, ?_, fun t ht hid => ?_⟩, hscheduler⟩
  · unfold Machine.cancelled
    dsimp only
    rw [if_pos hpos, hstore, hstack, UInt32.toUInt32_toInt32, hfound]
  · rw [hscheduler]
    exact hgone
  · refine hassigned.named t.turn (congrArg some hid) (.inl ?_)
    rw [h.scheduler_eq hkept]
    exact List.mem_map_of_mem (List.mem_filter.mp ht).1

/-- **A cancellation silences a timer for good** of which a single turn is kept and none is in
    hand. -/
theorem Moment.Goes.silent {μ μ' : Moment ν} {id : UInt32} {name : String} {repeats : Bool}
    (h : μ.Goes μ') (hkept : μ.Kept) (hassigned : μ.log.Assigned id name repeats)
    (hmuted : μ'.scheduler.Muted id) (hhand : firings id μ'.log.inHand = 0) : μ'.Silent id := by
  obtain ⟨hsteps, hkept'⟩ := h.steps hkept
  intro μ'' hlater hfew
  obtain ⟨hsteps', hkept''⟩ := hlater.steps hkept'
  have hhushed : μ'.log.Hushed id := ⟨hkept' ▸ hmuted, hhand⟩
  obtain ⟨hnone, hsilent, -⟩ := Hushed.silent (Steps.carry
    (fun hs hnew hI => Hushed.step hI hs hnew) (hassigned.numbered.steps hsteps)
    (Nat.le_trans hassigned.issued hsteps.issued_le) hsteps' hfew hhushed)
  exact ⟨hnone, hkept'' ▸ hsilent⟩

/-- **What is cancelled with its only turn stays silent.** -/
theorem Moment.Executes.silences {μ : Moment ν} {image : Image ν} {m : Machine} {id : UInt32}
    {name : String} {repeats : Bool} (h : μ.Executes image m (.simple .timerCancel))
    (hkept : μ.Kept) (hassigned : μ.log.Assigned id name repeats)
    (hpending : ∃ t ∈ m.store.scheduler.pending, t.id = id) (hpos : 0 < id.toInt32)
    (hstep : (step (μ.vm.context image)).run m = .ok .next (m.fetched.cancelled id.toInt32))
    (hsingle : repeats = false ∨ μ.SingleTurn id) :
    (∃ t, m.store.scheduler.pending.Perm
      (t :: (m.fetched.cancelled id.toInt32).store.scheduler.pending)) ∧
    ∀ μ', μ.Goes μ' →
      μ'.running = some (m.fetched.cancelled id.toInt32) ∧ μ'.Silent id := by
  have hlog : μ.log.scheduler = m.store.scheduler := h.scheduler_eq hkept
  have hturns : μ.log.scheduler.borne id ≤ 1 ∧ firings id μ.log.inHand = 0 := by
    rcases hsingle with rfl | ⟨hone, hnone⟩
    · exact hassigned.single (hlog ▸ hpending)
    · exact ⟨hkept ▸ hone, hnone⟩
  obtain ⟨hperm, hmuted⟩ := muted_cancel hpending (hlog ▸ hturns.1)
  rw [← (h.cancels hkept hassigned hpending hpos).2] at hperm hmuted
  refine ⟨hperm, fun μ' hg => ?_⟩
  have hrunning := h.next hstep hg
  have hhand : μ'.log.inHand = μ.log.inHand := (h.turn hg hrunning).2.1.left.inHand
  refine ⟨hrunning, hg.silent hkept hassigned ?_ (hhand ▸ hturns.2)⟩
  unfold Moment.scheduler
  rw [hrunning]
  exact hmuted

/-! ## 4. Main statement -/

/-- **A timer can be cancelled by the value that was pushed for it.** At every moment of every life
    of a machine, code that schedules a timer is handed the identifier of the timer as an integer. It
    is positive for the first half of all identifiers. Before identifiers begin anew, at every later
    moment at which the timer will still fire, a cancellation by this integer goes through:

    - where it is not positive, false is pushed and nothing is cancelled;
    - where it is positive, true is pushed, and what will fire is what would have fired, but for the
      turns of this timer;
    - and where in addition the timer does not repeat, or a single turn of it is kept and none is in
      hand, exactly one turn goes, and the timer is silent from then on. -/
theorem pushed_timers_cancel {μ μ₁ : Moment ν} {image : Image ν} {m m₁ : Machine}
    {kind : Callback} {g : UInt32} {repeats : Bool} (h : μ.Reached)
    (he : μ.Executes image m (.callback kind g)) (hk : kind.repeats? = some repeats)
    (hg : μ.Goes μ₁) (hm₁ : μ₁.running = some m₁) :
    ∃ id name, m₁.stack.back? = some (.int id.toInt32) ∧
      (μ₁.log.issued.length < UInt32.size / 2 → 0 < id.toInt32) ∧
      ∀ μ₂ image₂ m₂, μ₁.Later μ₂ → μ₂.log.issued.length < UInt32.size →
        μ₂.Executes image₂ m₂ (.simple .timerCancel) → m₂.floor < m₂.stack.size →
        m₂.stack.back? = some (.int id.toInt32) →
        (∃ t ∈ m₂.store.scheduler.pending, t.id = id) →
        ∃ m₃, (step (μ₂.vm.context image₂)).run m₂ = .ok .next m₃ ∧
          (¬ 0 < id.toInt32 →
            m₃.stack = m₂.stack.pop.push (.bool false) ∧ m₃.store = m₂.store) ∧
          (0 < id.toInt32 → Cancelled id name m₂ m₃ ∧
            (repeats = false ∨ μ₂.SingleTurn id →
              (∃ t, m₂.store.scheduler.pending.Perm (t :: m₃.store.scheduler.pending)) ∧
              ∀ μ₃, μ₂.Goes μ₃ → μ₃.running = some m₃ ∧ μ₃.Silent id)) := by
  -- the turn schedules a timer under the next identifier
  obtain ⟨hturn, huses, hlog₁⟩ := he.turn hg hm₁
  obtain ⟨name, delay, hscheduled⟩ : ∃ name delay, Schedules m repeats name delay m₁ := by
    cases hturn with
    | next hstep => exact (he.aboutTo.schedules hk hstep).2
    | allocate hstep | invoke hstep => cases (he.aboutTo.schedules hk hstep).1
  have hlog : μ.log.scheduler = m.store.scheduler := he.scheduler_eq h.steps.2
  have hs₁ : μ₁.log.scheduler = (μ.log.scheduler.addTimer name delay repeats).1 := by
    rw [hlog₁, hlog]
    exact hscheduled.scheduler
  obtain ⟨hmore, hissued, hpos⟩ := h.ordered.numbered.scheduled
    (h.ordered.numbered.steps huses.steps) (Steps.issued_le huses.steps) hs₁
  refine ⟨μ.log.scheduler.nextId, name, ?_, fun hfew => ?_, ?_⟩
  · rw [hscheduled.stack, hlog]
    exact Array.back?_push
  · exact (pos_toInt32 _).mpr ⟨hpos, Nat.lt_of_le_of_lt hissued hfew⟩
  intro μ₂ image₂ m₂ hlater hfew he₂ hfloor hback hpending
  -- from then on the identifier is that of this timer
  obtain ⟨hsteps, hkept₂⟩ := hlater.steps (h.later hg.single).steps.2
  have hassigned := (h.ordered.assigned huses.steps
    (Nat.lt_of_le_of_lt (Nat.le_trans hmore (Steps.issued_le hsteps)) hfew) hs₁
    huses.left.inHand).steps hsteps hfew
  have hstep : (step (μ₂.vm.context image₂)).run m₂ =
      .ok .next (m₂.fetched.cancelled μ.log.scheduler.nextId.toInt32) :=
    AboutTo.cancels he₂.aboutTo hfloor hback
  refine ⟨_, hstep, fun hnot => ?_, fun hyes => ?_⟩
  · obtain ⟨hstack, hstore, -⟩ := fetched_same m₂
    unfold Machine.cancelled
    rw [if_neg hnot, hstack, hstore]
    exact ⟨rfl, rfl⟩
  exact ⟨(he₂.cancels hkept₂ hassigned hpending hyes).1,
    he₂.silences hkept₂ hassigned hpending hyes hstep⟩

/-- A module that schedules a timer and cancels it at once. -/
def brief : Module where
  flags := 0
  name := "brief"
  strings := []
  functions := [
    ⟨"main", 0, 0, Instruction.encodeBody
      [.pushFloat .zero, .callback .timerOnce 1, .simple .timerCancel, .simple .ret]⟩,
    ⟨"tick", 0, 0, Instruction.encodeBody [.simple .retVoid]⟩]
  classes := []
  natives := []
  entry := 0

/-- Its functions, linked. -/
def briefFunctions : List LinkedFunction :=
  [⟨"main", 0, 0, #[⟨.pushFloat .zero, 0⟩, ⟨.callback .timerOnce 1, 0⟩, ⟨.simple .timerCancel, 0⟩,
      ⟨.simple .ret, 0⟩]⟩,
    ⟨"tick", 0, 0, #[⟨.simple .retVoid, 0⟩]⟩]

/-- The module, linked. -/
def briefImage : Image Unit := ⟨brief, briefFunctions.toArray, {}, Image.usesOf briefFunctions⟩

/-- The machine that has loaded it. -/
def briefMachine : Vm Unit := { create {} 0 with image := some briefImage }

theorem load_brief : (load brief).run (create {} 0 : Vm Unit) = .ok () briefMachine := by
  have hprepared : prepare (create {} 0 : Vm Unit).natives brief = .ok briefImage :=
    prepare_eq_ok.mpr ⟨by decide +kernel, rfl⟩
  unfold load
  refine check_bind_eq_ok.mpr ⟨(), rfl, check_bind_eq_ok.mpr ⟨briefImage, hprepared, ?_⟩⟩
  rfl

/-- Its main function at an instruction. -/
def briefMain (ip : Nat) (scheduler : Scheduler Binary64) (stack : Array Value) : Machine where
  store := { briefMachine.store with scheduler }
  stack
  frames := [{ function := 0, ip, base := 0, floor := 0 }]

/-- Its timer is cancelled by the value that was pushed. -/
theorem brief_timer_cancels :
    ∃ (μ : Moment Unit) (m m' : Machine), μ.Reached ∧
      μ.Executes briefImage m (.simple .timerCancel) ∧
      (step (μ.vm.context briefImage)).run m = .ok .next m' ∧ m'.stack = #[.bool true] ∧
      ∃ t, m.store.scheduler.pending.Perm (t :: m'.store.scheduler.pending) := by
  let d : Logbook Binary64 := opened (.empty 0)
  let issue := d.scheduler.addTimer "tick" Binary64.zero false
  let before := briefMain 1 d.scheduler #[.float Binary64.zero]
  let after := briefMain 2 issue.1 #[.int issue.2.toInt32]
  have hload : Goes (Moment.start {} 0) ⟨briefMachine, d, none⟩ :=
    .host rfl rfl (.load load_brief) rfl
  have henters : Enters (briefMachine.context briefImage) briefMachine.store 0 []
      (briefMain 0 d.scheduler #[]) := ⟨_, .done _, rfl⟩
  have hcall : Goes ⟨briefMachine, d, none⟩
      ⟨briefMachine, d, some (briefMain 0 d.scheduler #[])⟩ := .call rfl rfl rfl henters
  have hpush : Goes ⟨briefMachine, d, some (briefMain 0 d.scheduler #[])⟩
      ⟨briefMachine, d, some before⟩ := .turn rfl rfl (.next rfl) .refl rfl
  have hadd : Goes ⟨briefMachine, d, some before⟩
      ⟨briefMachine, d.addTimer "tick" Binary64.zero false, some after⟩ :=
    .turn rfl rfl (.next rfl) (.single (.addTimer "tick" Binary64.zero false)) rfl
  have hreached : Moment.Reached ⟨briefMachine, d, some before⟩ :=
    ⟨{}, 0, (hload.single.tail hcall).tail hpush⟩
  have hexecutes : Executes ⟨briefMachine, d.addTimer "tick" Binary64.zero false, some after⟩
      briefImage after (.simple .timerCancel) := ⟨rfl, rfl, _, _, _, _, rfl, rfl, rfl, rfl⟩
  obtain ⟨id, name, hid, hpos, hcancel⟩ := pushed_timers_cancel hreached
    ⟨rfl, rfl, _, _, _, _, rfl, rfl, rfl, rfl⟩ (rfl : Callback.timerOnce.repeats? = some false)
    hadd rfl
  obtain rfl : id = 1 := by
    have hvalue : id.toInt32 = (1 : UInt32).toInt32 := by
      cases hid
      rfl
    rw [← UInt32.toUInt32_toInt32 id, hvalue, UInt32.toUInt32_toInt32]
  have hpending : ∃ t ∈ after.store.scheduler.pending, t.id = 1 := by decide +kernel
  obtain ⟨m', hstep, -, hcancelled⟩ := hcancel _ briefImage after .refl
    (by decide : 1 < UInt32.size) hexecutes (by decide : 0 < 1) rfl hpending
  obtain ⟨hdone, hturns⟩ := hcancelled (by decide)
  exact ⟨_, after, m', hreached.later hadd.single, hexecutes, hstep, hdone.pushed,
    (hturns (.inl rfl)).1⟩

/-- A module with a timer that throws and one that repeats, whose identifier it keeps. -/
def restless : Module where
  flags := 0
  name := "restless"
  strings := ["boom"]
  functions := [
    ⟨"main", 0, 0, Instruction.encodeBody
      [.pushFloat .zero, .callback .timerOnce 1, .simple .pop,
        .pushFloat Ticking.oneSecond, .callback .timerEvery 2, .storeStatic 0 0, .simple .retVoid]⟩,
    ⟨"bad", 0, 0, Instruction.encodeBody [.pushString 0, .simple .throw]⟩,
    ⟨"tick", 0, 0, Instruction.encodeBody [.simple .retVoid]⟩,
    ⟨"stop", 0, 0, Instruction.encodeBody
      [.loadStatic 0 0, .simple .timerCancel, .simple .ret]⟩]
  classes := [⟨"A", [⟨"id", .null⟩], []⟩]
  natives := []
  entry := 0

/-- The machine when a drain has failed. -/
def restlessMachine : Vm Unit :=
  (create {} 0).after [.load restless, .callEntry, .drainCooperative (some Ticking.oneSecond) 0]

/-- **A timer can fire after its cancellation was acknowledged.** Its identifier is cancelled by the
    value that was pushed, true is pushed and nothing will fire; and a second later it fires. -/
theorem restless_runs_on :
    Reachable restlessMachine ∧ restlessMachine.getStatic "A" "id" = .ok (.int 2) ∧
      restlessMachine.store.scheduler.pendingTurns = [⟨"tick", some 2⟩, ⟨"tick", some 2⟩] ∧
      ∃ vm, (restlessMachine.callFunction "stop" []).Ends (.ok (.bool true), vm) ∧
        vm.store.scheduler.pendingTurns = [] ∧
        ∃ vm', (vm.drainCooperative (some Ticking.oneSecond) 0).Ends (.ok 1, vm') := by
  refine ⟨(Reachable.create {} 0).after _, by decide +kernel, by decide +kernel, ?_⟩
  have hstop : ((restlessMachine.callFunction "stop" []).against obliging ()).map (fun e =>
      (e.1.1, e.1.2.store.scheduler.pendingTurns,
        ((e.1.2.drainCooperative (some Ticking.oneSecond) 0).against obliging ()).map (·.1.1))) =
      some (.ok (.bool true), [], some (.ok 1)) := by decide +kernel
  obtain ⟨⟨⟨answer, vm⟩, s⟩, hcall, hstop⟩ := Option.map_eq_some_iff.mp hstop
  obtain ⟨hanswer, hpending, hdrain⟩ : _ ∧ _ ∧ _ := by simpa only [Prod.mk.injEq] using hstop
  obtain ⟨⟨⟨fired, vm'⟩, s'⟩, hdrain, hfired⟩ := Option.map_eq_some_iff.mp hdrain
  cases hanswer
  cases hfired
  exact ⟨vm, Run.ends_of_against hcall, hpending, vm', Run.ends_of_against hdrain⟩

end Vm

end EmbeddedVm
