import EmbeddedVm.Proofs.Events.Conservation
import EmbeddedVm.Proofs.Vm.Soundness

/-!
# Drains lose nothing

A drain of the scheduler takes a list before it runs anything, goes through it in order, and stops
at the first callback that throws. `GoesThrough` is such a drain with its logbook: what it calls is
code of the loaded module, and all that code does to the scheduler is to schedule and to cancel
(`storeInvariant_uses`). So what is scheduled meanwhile is not in the list and waits for the next
drain, however short its delay, and what stands behind a callback that throws is put back.

`History` goes on from one drain to a whole session of the host. Its logbook tells of every timer
where it is, and `drains_lose_nothing` puts both together.
-/

namespace EmbeddedVm.Vm

open Logbook

variable {ν : Type}

/-! ## 1. Calls -/

/-- Whether the loaded module has the function of a callback. -/
def serves (vm : Vm ν) (c : DueCallback) : Bool :=
  (vm.image.bind (·.functionIndex? c.callback)).isSome

/-- The scheduler changes. -/
def withScheduler (vm : Vm ν) (scheduler : Scheduler Binary64) : Vm ν :=
  { vm with store := { vm.store with scheduler } }

/-- **Code of the machine does nothing to the scheduler but use it.** -/
theorem storeInvariant_uses (ctx : Context ν) (d : Logbook Binary64) :
    Machine.StoreInvariant ctx fun s => ∃ d', Uses d d' ∧ d'.scheduler = s.scheduler where
  heap _ _ h := h
  change _ _ hc h := by
    obtain ⟨d', huses, hd'⟩ := h
    cases hc with
    | cancel id =>
        refine ⟨d'.cancel id, huses.tail (.cancel id), ?_⟩
        show (d'.scheduler.cancel id).1 = _
        rw [hd']
    | @addTimer g f hf hp delay repeats =>
        refine ⟨d'.addTimer f.name delay repeats, huses.tail (.addTimer _ _ _), ?_⟩
        show (d'.scheduler.addTimer f.name delay repeats).1 = _
        rw [hd']
    | @addMainLoop g f hf hp =>
        refine ⟨d'.addMainLoop f.name, huses.tail (.addMainLoop _), ?_⟩
        show d'.scheduler.addMainLoop f.name = _
        rw [hd']
    | pop | push | setLocal | setStatic | submit => exact ⟨d', huses, hd'⟩

/-- A call of a sound machine uses the scheduler, and leaves the machine sound. -/
theorem Sound.uses_callIndex {vm vm' : Vm ν} (h : vm.Sound) {image : Image ν}
    (hi : vm.image = some image) {function : Nat} {args : List Scalar}
    {result : Except VmError Scalar} (hcall : (vm.callIndex image function args).Ends (result, vm'))
    {d : Logbook Binary64} (hd : d.scheduler = vm.store.scheduler) :
    vm'.Sound ∧ vm'.image = some image ∧
      ∃ d', Uses d d' ∧ d'.scheduler = vm'.store.scheduler := by
  obtain ⟨o, ho, -, rfl⟩ := callIndex_ends hcall
  exact ⟨h.change (.call hi ho), hi,
    (storeInvariant_uses _ d).call (h.image hi) (h.shapes hi) ⟨d, .refl, hd⟩ ho⟩

/-! ## 2. One drain -/

/-- **A drain goes through what it has in hand**, after `ran` callbacks: the next one is called, or
    passed over where the module has no function of its name, until nothing is left or one throws.
    The logbook follows what the code of the callbacks does. -/
inductive GoesThrough : (ran : Nat) → Vm ν → Logbook Binary64 → Except VmError Nat → Vm ν →
    Logbook Binary64 → Prop where
  | through {ran : Nat} {vm : Vm ν} {d : Logbook Binary64} (hhand : d.inHand = []) :
    GoesThrough ran vm d (.ok ran) vm d
  | pass {ran : Nat} {vm vm' : Vm ν} {d d' : Logbook Binary64} {c : DueCallback}
      {rest : List DueCallback} {result : Except VmError Nat} (hhand : d.inHand = c :: rest)
      (hmissing : vm.serves c = false)
      (hrest : GoesThrough ran vm (d.pass c rest) result vm' d') :
    GoesThrough ran vm d result vm' d'
  | call {ran : Nat} {vm vm₁ vm' : Vm ν} {d d₁ d' : Logbook Binary64} {c : DueCallback}
      {rest : List DueCallback} {image : Image ν} {function : Nat} {v : Scalar}
      {result : Except VmError Nat} (hhand : d.inHand = c :: rest) (himage : vm.image = some image)
      (hfunction : image.functionIndex? c.callback = some function)
      (hcall : (vm.callIndex image function []).Ends (.ok v, vm₁))
      (huses : Uses (d.call c rest) d₁) (hd₁ : d₁.scheduler = vm₁.store.scheduler)
      (hrest : GoesThrough (ran + 1) vm₁ d₁ result vm' d') :
    GoesThrough ran vm d result vm' d'
  | throw {ran : Nat} {vm vm₁ : Vm ν} {d d₁ : Logbook Binary64} {c : DueCallback}
      {rest : List DueCallback} {image : Image ν} {function : Nat} {e : VmError}
      (hhand : d.inHand = c :: rest) (himage : vm.image = some image)
      (hfunction : image.functionIndex? c.callback = some function)
      (hcall : (vm.callIndex image function []).Ends (.error e, vm₁))
      (huses : Uses (d.call c rest) d₁) (hd₁ : d₁.scheduler = vm₁.store.scheduler) :
    GoesThrough ran vm d (.error e) (vm₁.withScheduler d₁.putBack.scheduler) d₁.putBack

section

variable {vm : Vm ν} {image : Image ν} {function : Nat} {c : DueCallback}

/-- The function that a callback is looked up to. -/
theorem callback_eq (himage : vm.image = some image)
    (hfunction : image.functionIndex? c.callback = some function) :
    (vm.image.bind fun image => (image.functionIndex? c.callback).map (image, ·)) =
      some (image, function) := by
  rw [himage, Option.bind_some, hfunction]
  rfl

theorem serves_of_functionIndex (himage : vm.image = some image)
    (hfunction : image.functionIndex? c.callback = some function) : vm.serves c = true := by
  unfold serves
  rw [himage, Option.bind_some, hfunction]
  rfl

/-- A callback that the module does not serve is looked up to nothing. -/
theorem callback_eq_none :
    (vm.image.bind fun image => (image.functionIndex? c.callback).map (image, ·)) = none ↔
      vm.serves c = false := by
  unfold serves
  cases vm.image with
  | none => exact ⟨fun _ => rfl, fun _ => rfl⟩
  | some image => simp

end

/-- **Every drain of a sound machine is one of these.** -/
theorem goesThrough_of_runDue {due : List DueCallback} {ran : Nat} {vm vm' : Vm ν}
    {result : Except VmError Nat} {d : Logbook Binary64} (h : vm.Sound)
    (hr : (vm.runDue due ran).Ends (result, vm')) (hd : d.scheduler = vm.store.scheduler)
    (hhand : d.inHand = due) :
    ∃ d', GoesThrough ran vm d result vm' d' ∧ d'.scheduler = vm'.store.scheduler := by
  induction due generalizing ran vm d with
  | nil =>
      cases Run.ends_done.mp hr
      exact ⟨d, .through hhand, hd⟩
  | cons c rest ih =>
      unfold runDue at hr
      split at hr
      · rename_i hc
        obtain ⟨d', hthrough, hd'⟩ := ih (d := d.pass c rest) h hr hd rfl
        exact ⟨d', .pass hhand (callback_eq_none.mp hc) hthrough, hd'⟩
      · rename_i image function hc
        obtain ⟨himage, hfunction⟩ := callback_eq_some hc
        obtain ⟨⟨called, vm₁⟩, hcall, hr⟩ := Run.ends_bind.mp hr
        obtain ⟨hsound₁, -, d₁, huses, hd₁⟩ :=
          h.uses_callIndex (d := d.call c rest) himage hcall hd
        cases called with
        | ok v =>
            obtain ⟨d', hthrough, hd'⟩ := ih hsound₁ hr hd₁ huses.left.inHand
            exact ⟨d', .call hhand himage hfunction hcall huses hd₁ hthrough, hd'⟩
        | error e =>
            have hend : vm' = vm₁.withScheduler d₁.putBack.scheduler := by
              show _ = vm₁.withScheduler (d₁.scheduler.defer d₁.inHand)
              rw [hd₁, huses.left.inHand]
              exact congrArg Prod.snd (Run.ends_done.mp hr)
            have hresult : result = .error e := congrArg Prod.fst (Run.ends_done.mp hr)
            rw [hend, hresult]
            exact ⟨_, .throw hhand himage hfunction hcall huses hd₁, rfl⟩

/-- **What goes through ends**, where the calls do. -/
theorem GoesThrough.runDue {ran : Nat} {vm vm' : Vm ν} {d d' : Logbook Binary64}
    {result : Except VmError Nat} (h : GoesThrough ran vm d result vm' d') :
    (vm.runDue d.inHand ran).Ends (result, vm') := by
  induction h with
  | through hhand =>
      rw [hhand]
      exact .done _
  | pass hhand hmissing _ ih =>
      rw [hhand]
      unfold Vm.runDue
      rw [callback_eq_none.mpr hmissing]
      exact ih
  | call hhand himage hfunction hcall huses hd₁ _ ih =>
      rw [hhand]
      unfold Vm.runDue
      rw [callback_eq himage hfunction]
      refine Run.ends_bind.mpr ⟨_, hcall, ?_⟩
      rw [huses.left.inHand] at ih
      exact ih
  | @throw ran vm vm₁ d d₁ c rest image function e hhand himage hfunction hcall huses hd₁ =>
      rw [hhand]
      unfold Vm.runDue
      rw [callback_eq himage hfunction]
      refine Run.ends_bind.mpr ⟨_, hcall, ?_⟩
      refine Run.ends_done.mpr ?_
      show _ = (_, _)
      refine congrArg (Prod.mk _) ?_
      show vm₁.withScheduler (d₁.scheduler.defer d₁.inHand) = _
      rw [hd₁, huses.left.inHand]
      rfl

/-- **What is put back**: of every timer callback, in this order, a timer that is due now and does
    not repeat, and it is pending unless it was cancelled. -/
def PutBack (back : List DueCallback) (d : Logbook Binary64) : Prop :=
  ∃ kept others : List (Timer Binary64),
    d.scheduler.timers.toList.Perm (kept ++ others) ∧
    kept.map Timer.turn = back.filter (·.timer.isSome) ∧ kept.Pairwise (·.rank < ·.rank) ∧
    ∀ t ∈ kept, t.due = d.scheduler.clock ∧ t.interval = none ∧
      (t.id ∉ d.withdrawn → t ∈ d.scheduler.pending)

/-- **What a drain comes to**: a front part of what it had in hand was called, less what the module
    does not serve, and this was all of it, or its last callback threw and the back part is put
    back. The clock stands, and no callback of every sweep is lost. -/
structure Orderly (serves : DueCallback → Bool) (ran : Nat) (d : Logbook Binary64)
    (result : Except VmError Nat) (d' : Logbook Binary64) : Prop where
  inHand : d'.inHand = []
  clock : d'.scheduler.clock = d.scheduler.clock
  mainLoop : d.scheduler.mainLoop <+: d'.scheduler.mainLoop
  split : ∃ front back, d.inHand = front ++ back ∧
    d'.called = d.called ++ front.filter serves ∧
    d'.missing = d.missing ++ front.filter (!serves ·) ∧
    match result with
    | .ok n => back = [] ∧ n = ran + (front.filter serves).length
    | .error _ => (∃ earlier c, front = earlier ++ [c] ∧ serves c = true) ∧
        PutBack back d'

/-- What is in hand is of no timer that is cancelled, unless it was cancelled meanwhile. -/
def HandLive (d : Logbook Binary64) : Prop :=
  ∀ c ∈ d.inHand, ∀ id, c.timer = some id → d.scheduler.isCancelled id = true → id ∈ d.withdrawn

/-- The drain has come to a callback, and it is called or passed over, as the module serves it. -/
structure ComesTo (vm : Vm ν) (c : DueCallback) (rest : List DueCallback)
    (d d' : Logbook Binary64) : Prop where
  hand : d.inHand = c :: rest
  inHand : d'.inHand = rest
  scheduler : d'.scheduler = d.scheduler
  withdrawn : d'.withdrawn = d.withdrawn
  called : d'.called = d.called ++ [c].filter vm.serves
  missing : d'.missing = d.missing ++ [c].filter (!vm.serves ·)

theorem comesTo_call {vm : Vm ν} {c : DueCallback} {rest : List DueCallback}
    {d : Logbook Binary64} (hhand : d.inHand = c :: rest) (hserved : vm.serves c = true) :
    ComesTo vm c rest d (d.call c rest) := by
  refine ⟨hhand, rfl, rfl, rfl, ?_, ?_⟩
  · rw [List.filter_cons_of_pos hserved]
    rfl
  · rw [List.filter_cons_of_neg (by rw [hserved]; decide)]
    exact (List.append_nil _).symm

theorem comesTo_pass {vm : Vm ν} {c : DueCallback} {rest : List DueCallback}
    {d : Logbook Binary64} (hhand : d.inHand = c :: rest) (hmissing : vm.serves c = false) :
    ComesTo vm c rest d (d.pass c rest) := by
  refine ⟨hhand, rfl, rfl, rfl, ?_, ?_⟩
  · rw [List.filter_cons_of_neg (by rw [hmissing]; decide)]
    exact (List.append_nil _).symm
  · rw [List.filter_cons_of_pos (by rw [hmissing]; rfl)]
    rfl

/-- What a drain has not come to stays live, whatever code does meanwhile. -/
theorem HandLive.comesTo {vm : Vm ν} {d d₁ d₂ : Logbook Binary64} {c : DueCallback}
    {rest : List DueCallback} (h : HandLive d) (hc : ComesTo vm c rest d d₁) (hleft : Left d₁ d₂) :
    HandLive d₂ := by
  intro c' hc' id hid hcancelled
  rw [hleft.inHand, hc.inHand] at hc'
  rcases hleft.cancelled id hcancelled with hbefore | hnow
  · refine hleft.withdrawn ?_
    rw [hc.scheduler] at hbefore
    rw [hc.withdrawn]
    exact h c' (hc.hand ▸ List.mem_cons_of_mem c hc') id hid hbefore
  · exact hnow

theorem HandLive.putBack {d : Logbook Binary64} (h : HandLive d) : PutBack d.inHand d.putBack := by
  obtain ⟨kept, hperm, hturns, hkept, hranks, hsame⟩ :=
    Scheduler.defer_perm d.inHand d.scheduler
  refine ⟨kept, _, hperm, hturns, hranks, fun t ht => ⟨?_, (hkept t ht).2, fun hid => ?_⟩⟩
  · exact (hkept t ht).1.trans hsame.clock.symm
  · have hmem : t.turn ∈ d.inHand := by
      have hturn := List.mem_map_of_mem (f := Timer.turn) ht
      rw [hturns] at hturn
      exact (List.mem_filter.mp hturn).1
    have hlive : d.scheduler.isCancelled t.id = false :=
      Bool.eq_false_iff.mpr fun hc => hid (h _ hmem t.id rfl hc)
    refine List.mem_filter.mpr ⟨hperm.mem_iff.mpr (List.mem_append_left _ ht), ?_⟩
    unfold Scheduler.isCancelled at hlive ⊢
    show (!(d.scheduler.defer d.inHand).cancelled.contains t.id) = true
    rw [hsame.cancelled, hlive]
    rfl

/-- A drain that goes on in order was in order before it came to a callback. -/
theorem Orderly.cons {vm : Vm ν} {ran : Nat} {d d₁ d₂ d' : Logbook Binary64} {c : DueCallback}
    {rest : List DueCallback} {result : Except VmError Nat}
    (h : Orderly vm.serves (ran + ([c].filter vm.serves).length) d₂ result d')
    (hc : ComesTo vm c rest d d₁) (hleft : Left d₁ d₂) : Orderly vm.serves ran d result d' := by
  obtain ⟨hin, hclock, hmain, front, back, hsplit, hcalled, hmissing, hresult⟩ := h
  refine ⟨hin, ?_, ?_, c :: front, back, ?_, ?_, ?_, ?_⟩
  · rw [hclock, hleft.clock, hc.scheduler]
  · rw [← hc.scheduler]
    exact hleft.mainLoop.trans hmain
  · rw [hc.hand, ← hc.inHand, ← hleft.inHand, hsplit]
    rfl
  · rw [hcalled, hleft.called, hc.called, List.append_assoc, ← List.filter_append]
    rfl
  · rw [hmissing, hleft.missing, hc.missing, List.append_assoc, ← List.filter_append]
    rfl
  · cases result with
    | ok n =>
        refine ⟨hresult.1, hresult.2.trans ?_⟩
        rw [Nat.add_assoc, ← List.length_append, ← List.filter_append]
        rfl
    | error e =>
        obtain ⟨⟨earlier, last, rfl, hlast⟩, hback⟩ := hresult
        exact ⟨⟨c :: earlier, last, rfl, hlast⟩, hback⟩

/-- **Drains are orderly.** -/
theorem GoesThrough.orderly {ran : Nat} {vm vm' : Vm ν} {d d' : Logbook Binary64}
    {result : Except VmError Nat} (h : GoesThrough ran vm d result vm' d') (hlive : HandLive d) :
    Orderly vm.serves ran d result d' := by
  induction h with
  | through hhand =>
      exact ⟨hhand, rfl, List.prefix_refl _, [], [], hhand, (List.append_nil _).symm,
        (List.append_nil _).symm, rfl, rfl⟩
  | pass hhand hmissing _ ih =>
      have hc := comesTo_pass hhand hmissing
      have horder := ih (hlive.comesTo hc (.refl _))
      refine Orderly.cons ?_ hc (.refl _)
      rw [List.filter_cons_of_neg (by rw [hmissing]; decide)]
      exact horder
  | @call ran vm vm₁ vm' d d₁ d' c rest image function v result hhand himage hfunction hcall huses
      hd₁ _ ih =>
      have hserved := serves_of_functionIndex himage hfunction
      have hc := comesTo_call hhand hserved
      have horder := ih (hlive.comesTo hc huses.left)
      obtain ⟨o, -, -, rfl⟩ := callIndex_ends hcall
      refine Orderly.cons ?_ hc huses.left
      rw [List.filter_cons_of_pos hserved]
      exact horder
  | @throw ran vm vm₁ d d₁ c rest image function e hhand himage hfunction hcall huses hd₁ =>
      have hserved := serves_of_functionIndex himage hfunction
      have hc := comesTo_call hhand hserved
      have hback := (hlive.comesTo hc huses.left).putBack
      rw [huses.left.inHand] at hback
      obtain ⟨-, -, -, -, -, hsame⟩ := Scheduler.defer_perm d₁.inHand d₁.scheduler
      refine ⟨rfl, hsame.clock.trans huses.left.clock, ?_, [c], rest, hhand, ?_, ?_,
        ⟨[], c, rfl, hserved⟩, hback⟩
      · show _ <+: (d₁.scheduler.defer d₁.inHand).mainLoop
        rw [hsame.mainLoop]
        exact huses.left.mainLoop
      · exact huses.left.called.trans hc.called
      · exact huses.left.missing.trans hc.missing

/-- What a sweep has just handed out is of no cancelled timer. -/
theorem handLive_take (d : Logbook Binary64) (hint : Option Binary64) (wall : Nat) :
    HandLive (d.take hint wall) := by
  intro c hc id hid hcancelled
  have hlive : (d.take hint wall).scheduler.isCancelled id = false :=
    Scheduler.due_live _ c hc id hid
  rw [hlive] at hcancelled
  cases hcancelled

theorem GoesThrough.steps {ran : Nat} {vm vm' : Vm ν} {d d' : Logbook Binary64}
    {result : Except VmError Nat} (h : GoesThrough ran vm d result vm' d') : Steps d d' := by
  induction h with
  | through hhand => exact .refl
  | pass hhand _ _ ih => exact (Step.pass hhand).single.trans ih
  | call hhand _ _ _ huses _ _ ih => exact ((Step.call hhand).single.trans huses.steps).trans ih
  | throw hhand _ _ _ huses _ =>
      exact ((Step.call hhand).single.trans huses.steps).trans Step.putBack.single

/-! ## 3. Other operations -/

/-- From `d`, the scheduler of a machine was only used, and not even that where nothing was
    loaded. -/
def OnlyUsed (d : Logbook Binary64) (vm vm' : Vm ν) : Prop :=
  ∃ d', Uses d d' ∧ d'.scheduler = vm'.store.scheduler ∧ (vm.isLoaded = false → d' = d)

section

variable {d : Logbook Binary64} {vm vm' : Vm ν}

theorem onlyUsed_of_eq (hd : d.scheduler = vm.store.scheduler)
    (h : vm'.store.scheduler = vm.store.scheduler) : OnlyUsed d vm vm' :=
  ⟨d, .refl, hd.trans h.symm, fun _ => rfl⟩

/-- A machine with a module is not one without. -/
theorem not_isLoaded_of_image {image : Image ν} (hi : vm.image = some image) :
    ¬ vm.isLoaded = false := by
  unfold isLoaded
  rw [hi]
  exact nofun

theorem onlyUsed_callWith (h : vm.Sound) (hd : d.scheduler = vm.store.scheduler)
    {find : Image ν → Except VmError Nat} {args : List Scalar} {result : Except VmError Scalar}
    (hr : (vm.callWith find args).Ends (result, vm')) : OnlyUsed d vm vm' := by
  rcases callWith_cases hr with rfl | ⟨image, function, hi, hcall⟩
  · exact onlyUsed_of_eq hd rfl
  · obtain ⟨-, -, d', huses, hd'⟩ := h.uses_callIndex hi hcall hd
    exact ⟨d', huses, hd', fun hl => absurd hl (not_isLoaded_of_image hi)⟩

/-- Handing reads over uses the scheduler. -/
theorem uses_runReads {ready : List ReadCompletion} {ran : Nat} {result : Except VmError Nat}
    (h : vm.Sound) (hr : (vm.runReads ready ran).Ends (result, vm'))
    (hd : d.scheduler = vm.store.scheduler) :
    ∃ d', Uses d d' ∧ d'.scheduler = vm'.store.scheduler := by
  induction ready generalizing ran vm d with
  | nil =>
      cases Run.ends_done.mp hr
      exact ⟨d, .refl, hd⟩
  | cons c rest ih =>
      have hsound : ({ vm with store := { vm.store with
          reactor := vm.store.reactor.dispatched c.id } } : Vm ν).Sound :=
        h.change (.events vm.store.scheduler _)
      unfold Vm.runReads at hr
      dsimp only at hr
      split at hr
      · exact ih hsound hr hd
      · rename_i image function hc
        obtain ⟨⟨called, vm₁⟩, hcall, hr⟩ := Run.ends_bind.mp hr
        obtain ⟨hsound₁, -, d₁, huses, hd₁⟩ :=
          hsound.uses_callIndex (by exact (callback_eq_some hc).1) hcall hd
        cases called with
        | ok v =>
            obtain ⟨d', huses', hd'⟩ := ih hsound₁ hr hd₁
            exact ⟨d', huses.trans huses', hd'⟩
        | error e =>
            cases Run.ends_done.mp hr
            exact ⟨d₁, huses, hd₁⟩

theorem onlyUsed_drainReads (h : vm.Sound) (hd : d.scheduler = vm.store.scheduler)
    {result : Except VmError Nat} (hr : vm.drainReads.Ends (result, vm')) : OnlyUsed d vm vm' := by
  unfold drainReads at hr
  split at hr
  · rename_i hl
    obtain ⟨d', huses, hd'⟩ :=
      uses_runReads (h.change (.events vm.store.scheduler vm.store.reactor.takeReady.1)) hr hd
    exact ⟨d', huses, hd', fun hno => absurd (hl.symm.trans hno) (by decide)⟩
  · cases Run.ends_done.mp hr
    exact onlyUsed_of_eq hd rfl

/-- **Every operation but a drain of the scheduler only uses it.** -/
theorem onlyUsed_perform (h : vm.Sound) (hd : d.scheduler = vm.store.scheduler)
    {op : Operation ν} {answer : Answer} (hop : (vm.perform op).Ends (answer, vm'))
    (hother : ∀ hint wall, op = .drainCooperative hint wall → vm.isLoaded = false) :
    OnlyUsed d vm vm' := by
  unfold perform at hop
  cases op with
  | load m =>
      refine of_answering (allOrNothing_load m) (onlyUsed_of_eq hd rfl) (fun _ vm' hload => ?_)
        (Run.ends_done.mp hop)
      obtain ⟨-, image, -, rfl⟩ := load_eq_ok hload
      exact onlyUsed_of_eq hd rfl
  | callEntry | callFunction | callStatic =>
      exact of_answer (fun _ _ => onlyUsed_callWith h hd) hop
  | setStatic cls field v =>
      refine of_answering (allOrNothing_setStatic cls field v) (onlyUsed_of_eq hd rfl)
        (fun _ vm' hset => ?_) (Run.ends_done.mp hop)
      obtain ⟨ci, fi, f, -, -, rfl⟩ := setStatic_eq_ok hset
      exact onlyUsed_of_eq hd rfl
  | drainCooperative hint wall =>
      refine of_answer (fun result vm' hr => ?_) hop
      unfold Vm.drainCooperative at hr
      rw [if_neg (Bool.eq_false_iff.mp (hother hint wall rfl))] at hr
      cases Run.ends_done.mp hr
      exact onlyUsed_of_eq hd rfl
  | drainReads => exact of_answer (fun _ _ => onlyUsed_drainReads h hd) hop
  | patch m =>
      refine of_answering (allOrNothing_patch m) (onlyUsed_of_eq hd rfl) (fun _ vm' hp => ?_)
        (Run.ends_done.mp hop)
      obtain ⟨old, image, inherited, -, -, -, -, -, rfl⟩ := patch_eq_ok hp
      exact onlyUsed_of_eq hd rfl
  | collectGarbage =>
      refine of_answer (fun result vm' hr => ?_) hop
      unfold collectGarbage at hr
      cases hr with
      | pause stopped hr =>
          cases stopped with
          | none | some n =>
              cases Run.ends_done.mp hr
              exact onlyUsed_of_eq hd rfl
  | registerNative | getStatic | sendRead | settleRead | gcStats =>
      cases Run.ends_done.mp hop
      exact onlyUsed_of_eq hd rfl

end

/-- **Where nothing was ever loaded, nothing is scheduled.** -/
theorem Reachable.idle {vm : Vm ν} (h : Reachable vm) (hl : vm.isLoaded = false) :
    vm.store.scheduler.timers = #[] ∧ vm.store.scheduler.mainLoop = [] := by
  induction h with
  | create options wall => exact ⟨rfl, rfl⟩
  | @perform vm vm' op answer h hop ih =>
      have hbefore : vm.isLoaded = false :=
        Bool.eq_false_iff.mpr fun hloaded =>
          Bool.eq_false_iff.mp hl ((changes_perform hop).isLoaded hloaded)
      obtain ⟨d', -, hd', hsame⟩ := onlyUsed_perform (d := { scheduler := vm.store.scheduler })
        h.sound rfl hop fun _ _ _ => hbefore
      rw [← hd', hsame hbefore]
      exact ih hbefore

/-! ## 4. Sessions -/

/-- **One operation in the logbook**: a drain goes through what it takes, and code of any other
    operation uses the scheduler. -/
inductive Recorded (vm : Vm ν) (d : Logbook Binary64) : Operation ν → Vm ν → Logbook Binary64 →
    Prop where
  | drain {hint : Option Binary64} {wall : Nat} {result : Except VmError Nat} {vm' : Vm ν}
      {d' : Logbook Binary64} (hl : vm.isLoaded = true)
      (hdrain : GoesThrough 0 (vm.withScheduler (d.take hint wall).scheduler) (d.take hint wall)
        result vm' d') :
    Recorded vm d (.drainCooperative hint wall) vm' d'
  | other {op : Operation ν} {answer : Answer} {vm' : Vm ν} {d' : Logbook Binary64}
      (hother : ∀ hint wall, op = .drainCooperative hint wall → vm.isLoaded = false)
      (hop : (vm.perform op).Ends (answer, vm')) (huses : Uses d d') : Recorded vm d op vm' d'

/-- **A session with its logbook**; the log lists the operations, each with the machine that carried
    it out. -/
inductive History : Vm ν → Logbook Binary64 → List (Vm ν × Operation ν) → Vm ν →
    Logbook Binary64 → Prop where
  | start (vm : Vm ν) (d : Logbook Binary64) : History vm d [] vm d
  | next {vm vm₁ vm' : Vm ν} {d d₁ d' : Logbook Binary64} {op : Operation ν}
      {log : List (Vm ν × Operation ν)} (hop : Recorded vm d op vm₁ d₁)
      (hd₁ : d₁.scheduler = vm₁.store.scheduler) (hrest : History vm₁ d₁ log vm' d') :
    History vm d ((vm, op) :: log) vm' d'

/-- A drain of a sound machine that has a module goes through what it takes. -/
theorem drainCooperative_ends {vm vm' : Vm ν} {d : Logbook Binary64} {hint : Option Binary64}
    {wall : Nat} {result : Except VmError Nat} (h : vm.Sound) (hl : vm.isLoaded = true)
    (hd : d.scheduler = vm.store.scheduler) :
    (vm.drainCooperative hint wall).Ends (result, vm') ↔
      ∃ d', GoesThrough 0 (vm.withScheduler (d.take hint wall).scheduler) (d.take hint wall)
        result vm' d' ∧ d'.scheduler = vm'.store.scheduler := by
  have hscheduler : (d.take hint wall).scheduler =
      (vm.store.scheduler.advance hint wall).takeDue.1 := by
    rw [← hd]
    rfl
  have hhand : (d.take hint wall).inHand = (vm.store.scheduler.advance hint wall).takeDue.2 := by
    rw [← hd]
    rfl
  have hdrain : vm.drainCooperative hint wall =
      (vm.withScheduler (d.take hint wall).scheduler).runDue (d.take hint wall).inHand 0 := by
    unfold Vm.drainCooperative
    rw [if_pos hl, hscheduler, hhand]
    rfl
  rw [hdrain]
  constructor
  · exact fun hr => goesThrough_of_runDue (h.change (.events _ vm.store.reactor)) hr rfl rfl
  · rintro ⟨d', hthrough, -⟩
    exact hthrough.runDue

/-- Every operation of a sound machine can be recorded. -/
theorem Sound.recorded {vm vm' : Vm ν} {d : Logbook Binary64} {op : Operation ν} {answer : Answer}
    (h : vm.Sound) (hd : d.scheduler = vm.store.scheduler)
    (hop : (vm.perform op).Ends (answer, vm')) :
    ∃ d', Recorded vm d op vm' d' ∧ d'.scheduler = vm'.store.scheduler := by
  by_cases hdrain : ∃ hint wall, op = .drainCooperative hint wall ∧ vm.isLoaded = true
  · obtain ⟨hint, wall, rfl, hl⟩ := hdrain
    obtain ⟨⟨result, vm₁⟩, hr, hanswer⟩ := Run.ends_bind.mp hop
    cases Run.ends_done.mp hanswer
    obtain ⟨d', hthrough, hd'⟩ := (drainCooperative_ends h hl hd).mp hr
    exact ⟨d', .drain hl hthrough, hd'⟩
  · have hother : ∀ hint wall, op = .drainCooperative hint wall → vm.isLoaded = false :=
      fun hint wall heq => Bool.eq_false_iff.mpr fun hl => hdrain ⟨hint, wall, heq, hl⟩
    obtain ⟨d', huses, hd', -⟩ := onlyUsed_perform h hd hop hother
    exact ⟨d', .other hother hop huses, hd'⟩

/-- **Every session has a history.** -/
theorem Sound.history {ops : List (Operation ν)} {vm vm' : Vm ν} {d : Logbook Binary64}
    {answers : List Answer} (h : vm.Sound) (hd : d.scheduler = vm.store.scheduler)
    (hs : (vm.session ops).Ends (answers, vm')) :
    ∃ log d', History vm d log vm' d' ∧ log.map (·.2) = ops := by
  induction ops generalizing vm d answers with
  | nil =>
      cases Run.ends_done.mp hs
      exact ⟨[], d, .start _ d, rfl⟩
  | cons op rest ih =>
      obtain ⟨⟨answer, vm₁⟩, hop, hs⟩ := Run.ends_bind.mp hs
      obtain ⟨⟨answers', vm₂⟩, hs, hanswers⟩ := Run.ends_bind.mp hs
      cases Run.ends_done.mp hanswers
      have hsound₁ : vm₁.Sound :=
        (changes_perform hop).induct (fun _ _ ha hab => ha.change hab) h
      obtain ⟨d₁, hrecorded, hd₁⟩ := h.recorded hd hop
      obtain ⟨log, d', hhistory, hlog⟩ := ih hsound₁ hd₁ hs
      exact ⟨(vm, op) :: log, d', .next hrecorded hd₁ hhistory, congrArg (op :: ·) hlog⟩

/-- Between two operations nothing is in hand, and an operation is a run of steps. -/
theorem Recorded.steps {vm vm' : Vm ν} {d d' : Logbook Binary64} {op : Operation ν}
    (h : Recorded vm d op vm' d') (hhand : d.inHand = []) : Steps d d' ∧ d'.inHand = [] := by
  cases h with
  | drain hl hdrain =>
      exact ⟨(Step.take hhand _ _).single.trans hdrain.steps,
        (hdrain.orderly (handLive_take d _ _)).inHand⟩
  | other hother hop huses => exact ⟨huses.steps, huses.left.inHand.trans hhand⟩

theorem History.steps {vm vm' : Vm ν} {d d' : Logbook Binary64} {log : List (Vm ν × Operation ν)}
    (h : History vm d log vm' d') (hhand : d.inHand = []) : Steps d d' ∧ d'.inHand = [] := by
  induction h with
  | start vm d => exact ⟨.refl, hhand⟩
  | next hop _ _ ih =>
      obtain ⟨hsteps, hhand₁⟩ := hop.steps hhand
      obtain ⟨hrest, hhand'⟩ := ih hhand₁
      exact ⟨hsteps.trans hrest, hhand'⟩

/-- A drain takes only what is pending, and passes over only what the module does not serve. -/
theorem Recorded.missing {vm vm' : Vm ν} {d d' : Logbook Binary64} {op : Operation ν}
    {c : DueCallback} {id : UInt32} {n : Nat} (h : Recorded vm d op vm' d')
    (hd : d.scheduler = vm.store.scheduler) (hc : c.timer = some id) (hb : d.Balanced c id n)
    (hstays : c ∈ vm.store.scheduler.pendingTurns → vm.serves c = true) :
    d'.missing.count c = d.missing.count c := by
  cases h with
  | @drain hint wall result _ _ hl hdrain =>
      obtain ⟨front, back, hsplit, -, hmissing, -⟩ :=
        (hdrain.orderly (handLive_take d hint wall)).split
      rw [hmissing, List.count_append]
      refine Nat.add_eq_left.mpr (List.count_eq_zero.mpr fun hmem => ?_)
      obtain ⟨hfront, hunserved⟩ := List.mem_filter.mp hmem
      have hserved : vm.serves c = true :=
        hstays (hd ▸ hb.pending_of_take hc (hsplit ▸ List.mem_append_left _ hfront))
      have hunserved' : (!vm.serves c) = true := hunserved
      rw [hserved] at hunserved'
      cases hunserved'
  | other hother hop huses => rw [huses.left.missing]

/-- **Through a session a timer stays in one place**, if it does not repeat, is not cancelled, and
    is served while it is pending. -/
theorem History.conserved {vm vm' : Vm ν} {d d' : Logbook Binary64}
    {log : List (Vm ν × Operation ν)} {c : DueCallback} {id : UInt32} {n : Nat}
    (h : History vm d log vm' d') (hd : d.scheduler = vm.store.scheduler) (hhand : d.inHand = [])
    (hc : c.timer = some id) (hb : d.Balanced c id n) (hu : d'.Undisturbed c id)
    (hstays : ∀ e ∈ log, c ∈ e.1.store.scheduler.pendingTurns → e.1.serves c = true) :
    d'.Balanced c id n ∧ d'.scheduler = vm'.store.scheduler ∧
      d'.missing.count c = d.missing.count c := by
  induction h with
  | start vm d => exact ⟨hb, hd, rfl⟩
  | @next vm vm₁ vm' d d₁ d' op log hop hd₁ hrest ih =>
      obtain ⟨hsteps, hhand₁⟩ := hop.steps hhand
      have hb₁ := hb.steps hc hsteps ((hrest.steps hhand₁).1.undisturbed hu)
      obtain ⟨hb', hd', hmissing'⟩ := ih hd₁ hhand₁ hb₁ hu
        fun e he => hstays e (List.mem_cons_of_mem _ he)
      have hmissing := hop.missing hd hc hb (hstays _ List.mem_cons_self)
      exact ⟨hb', hd', hmissing'.trans hmissing⟩

/-! ## 5. Main statement -/

/-- **Drains are bounded, ordered and lose nothing.** A drain goes through the list that is taken
    before anything runs, and so runs nothing that is scheduled meanwhile: a front part of it, in
    its order, less what the module does not serve. It ends with the number of callbacks that ran,
    and then this is the whole list; or with the error of the first one that throws, and then every
    timer callback behind it whose timer was not cancelled meanwhile is pending again, due at once,
    in the same order, and no callback of every sweep is lost. A machine without a module has
    nothing scheduled.

    Every session from then on has a history, and in every history it goes with a timer as follows.
    Say that it does not repeat, no cancellation of it finds anything, and the module serves it
    while it is pending. Then what is pending at the end and what was called are together what was
    pending at the start and what was issued: if this is one, the timer is pending exactly once or
    was called exactly once. -/
theorem drains_lose_nothing {vm : Vm ν} (h : Reachable vm) :
    (vm.isLoaded = true → ∀ hint wall result vm',
      let d := (opened vm.store.scheduler).take hint wall
      ((vm.drainCooperative hint wall).Ends (result, vm') ↔
        ∃ d', GoesThrough 0 (vm.withScheduler d.scheduler) d result vm' d' ∧
          d'.scheduler = vm'.store.scheduler) ∧
      d.scheduler.clock = (vm.store.scheduler.advance hint wall).clock ∧
      d.scheduler.mainLoop = vm.store.scheduler.mainLoop ∧
      ∀ d', GoesThrough 0 (vm.withScheduler d.scheduler) d result vm' d' →
        Orderly vm.serves 0 d result d') ∧
    (vm.isLoaded = false → ∀ hint wall result vm',
      (vm.store.scheduler.advance hint wall).takeDue.2 = [] ∧
      ((vm.drainCooperative hint wall).Ends (result, vm') ↔ result = .ok 0 ∧ vm' = vm)) ∧
    (∀ ops answers vm', (vm.session ops).Ends (answers, vm') →
      ∃ log d', History vm (opened vm.store.scheduler) log vm' d' ∧ log.map (·.2) = ops) ∧
    ∀ log vm' d', History vm (opened vm.store.scheduler) log vm' d' →
      ∀ c id, c.timer = some id → vm.store.scheduler.isCancelled id = false →
      (∀ t ∈ vm.store.scheduler.pending, t.turn = c → t.interval = none) →
      d'.Undisturbed c id →
      (∀ e ∈ log, c ∈ e.1.store.scheduler.pendingTurns → e.1.serves c = true) →
      vm'.store.scheduler.pendingTurns.count c + d'.called.count c =
        vm.store.scheduler.pendingTurns.count c + d'.issued.count (c, false) := by
  refine ⟨fun hl hint wall result vm' => ?_, fun hl hint wall result vm' => ⟨?_, ?_⟩,
    fun ops answers vm' hs => h.sound.history rfl hs, ?_⟩
  · obtain ⟨hclock, hmain⟩ := take_same (opened vm.store.scheduler) hint wall
    exact ⟨drainCooperative_ends h.sound hl rfl, hclock, hmain, fun d' hthrough =>
      hthrough.orderly (handLive_take _ _ _)⟩
  · obtain ⟨htimers, hmain⟩ := h.idle hl
    obtain ⟨htimers', -, hmain'⟩ := Scheduler.advance_same vm.store.scheduler hint wall
    exact Scheduler.takeDue_of_idle (htimers'.trans htimers) (hmain'.trans hmain)
  · unfold Vm.drainCooperative
    rw [if_neg (Bool.eq_false_iff.mp hl), Run.ends_done, Prod.mk.injEq]
  · intro log vm' d' hhistory c id hc hlive honce hu hstays
    obtain ⟨hb, hd', hmissing⟩ := hhistory.conserved rfl rfl hc (balanced_opened hc hlive honce) hu
      hstays
    have htotal := hb.total
    unfold places at htotal
    rw [(hhistory.steps rfl).2, hmissing] at htotal
    rw [← hd', Scheduler.count_pendingTurns hc hb.live]
    exact htotal

/-- A module that schedules two timers without a delay; the callback of the first one throws. -/
def faulty : Module where
  flags := 0
  name := "faults"
  strings := ["bad timer"]
  functions := [
    ⟨"main", 0, 0, Instruction.encodeBody
      [.pushFloat .zero, .callback .timerOnce 1, .simple .pop,
        .pushFloat .zero, .callback .timerOnce 2, .simple .pop, .simple .retVoid]⟩,
    ⟨"bad", 0, 0, Instruction.encodeBody [.pushString 0, .simple .throw]⟩,
    ⟨"good", 0, 0, Instruction.encodeBody [.simple .retVoid]⟩]
  classes := []
  natives := []
  entry := 0

/-- The faulty module, when it has scheduled its timers. -/
def faultyMachine : Vm Unit := (create {} 0).after [.load faulty, .callEntry]

deriving instance DecidableEq for Scheduler

/-- Its drain ends with the error of the first callback, and the second timer is pending again. -/
theorem faulty_loses_nothing :
    let d := (opened faultyMachine.store.scheduler).take (some .zero) 0
    ∃ e vm' d', (faultyMachine.drainCooperative (some .zero) 0).Ends (.error e, vm') ∧
      Orderly faultyMachine.serves 0 d (.error e) d' ∧ d'.called = [⟨"bad", some 1⟩] ∧
      vm'.store.scheduler.pendingTurns.count ⟨"good", some 2⟩ = 1 := by
  intro d
  have hreachable : Reachable faultyMachine := (Reachable.create {} 0).after _
  obtain ⟨hdrain, -, -, hconserved⟩ := drains_lose_nothing hreachable
  have hl : faultyMachine.isLoaded = true := by decide +kernel
  have hhand : d.inHand = [⟨"bad", some 1⟩, ⟨"good", some 2⟩] := by decide +kernel
  have hfound : faultyMachine.image.bind (·.functionIndex? "bad") = some 1 := by decide +kernel
  obtain ⟨image, himage, hfunction⟩ := Option.bind_eq_some_iff.mp hfound
  have hbad : (faultyMachine.image.bind fun image =>
      ((((faultyMachine.withScheduler d.scheduler).callIndex image 1 []).against obliging ()).map
        fun r => (r.1.1.isOk, r.1.2.store.scheduler))) = some (false, d.scheduler) := by
    decide +kernel
  rw [himage] at hbad
  obtain ⟨⟨⟨called, vm₁⟩, s⟩, hagainst, hcalled⟩ := Option.map_eq_some_iff.mp hbad
  cases called with
  | ok v => cases hcalled
  | error e =>
      have hcall := Run.ends_of_against hagainst
      have hscheduler : vm₁.store.scheduler = d.scheduler := congrArg Prod.snd hcalled
      have hthrough : GoesThrough 0 (faultyMachine.withScheduler d.scheduler) d (.error e) _ _ :=
        .throw hhand (by exact himage) hfunction hcall .refl hscheduler.symm
      have hrecorded : Recorded faultyMachine (opened faultyMachine.store.scheduler)
          (.drainCooperative (some .zero) 0) _ _ := .drain hl hthrough
      have hhistory := History.next hrecorded rfl (.start _ _)
      refine ⟨e, _, _, ((hdrain hl _ _ _ _).1).mpr ⟨_, hthrough, rfl⟩,
        (hdrain hl _ _ _ _).2.2.2 _ hthrough, rfl, ?_⟩
      have hstart : faultyMachine.store.scheduler.pendingTurns.count ⟨"good", some 2⟩ = 1 := by
        decide +kernel
      have hserved : faultyMachine.serves ⟨"good", some 2⟩ = true := by decide +kernel
      have htotal := hconserved _ _ _ hhistory ⟨"good", some 2⟩ 2 rfl (by decide +kernel)
        (by decide +kernel) ⟨by decide, by decide⟩ fun e he _ => by
          rw [List.mem_singleton.mp he]
          exact hserved
      rw [hstart] at htotal
      exact htotal

end EmbeddedVm.Vm
