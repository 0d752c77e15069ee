import EmbeddedVm.Proofs.Events.Delivery
import EmbeddedVm.Proofs.Vm.Soundness

/-!
# Reads are delivered exactly once

A drain of the machine is a run of the moments of `Delivery`: it takes what waits, strikes each
completion from the table before it calls its callback, and puts the rest back when one throws. What
it calls is code of the loaded module, and all that code does to the reactor is to submit reads
(`storeInvariant_submits`). So what every order of moments keeps holds between the drains of the
machine, and `reads_delivered_once` says what that is.
-/

namespace EmbeddedVm.Vm

open Delivery

variable {ν : Type}

/-! ## 1. Calls submit -/

/-- From `d`, some submissions lead to the reactor of a store. -/
def Submits (d : Delivery) (s : Store) : Prop :=
  s.reactor.deferred ++ s.reactor.channel = d.reactor.deferred ++ d.reactor.channel ∧
    ∃ submitted, Steps d { d with reactor := s.reactor, submitted }

/-- **Code of the machine does nothing to the reactor but submit reads.** -/
theorem storeInvariant_submits (ctx : Context ν) (d : Delivery) :
    Machine.StoreInvariant ctx (Submits d) where
  heap _ _ h := h
  change _ _ hc h := by
    cases hc with
    | submit hf hp path =>
        obtain ⟨hwaiting, submitted, hsteps⟩ := h
        exact ⟨hwaiting, _, hsteps.trans (Step.submit path _).single⟩
    | pop | push | setLocal | setStatic | cancel | addTimer | addMainLoop => exact h

/-- A call of a sound machine submits, and leaves it sound. -/
theorem Sound.callIndex {vm vm' : Vm ν} (h : vm.Sound) {image : Image ν}
    (hi : vm.image = some image) {function : Nat} {args : List Scalar}
    {result : Except VmError Scalar} (hcall : (vm.callIndex image function args).Ends (result, vm'))
    {d : Delivery} (hd : d.reactor = vm.store.reactor) :
    vm'.Sound ∧ Submits d vm'.store := by
  obtain ⟨o, ho, -, rfl⟩ := callIndex_ends hcall
  have hstart : Submits d vm.store := by
    refine ⟨by rw [hd], d.submitted, ?_⟩
    rw [← hd]
    exact .refl
  exact ⟨h.change (.call hi ho),
    (storeInvariant_submits _ d).call (h.image hi) (h.shapes hi) hstart ho⟩

/-! ## 2. Drains -/

/-- **What a drain leaves** of the completions that were ready: those handed over come first, in
    their order, and those put back follow; none are put back unless a callback throws, and then it
    was handed something. -/
structure HandedOver (ready : List ReadCompletion) (result : Except VmError Nat)
    (d d' : Delivery) : Prop where
  steps : Steps d d'
  between : d'.taken = none
  arrived : d'.arrived = d.arrived
  split : ∃ now, d'.handed = d.handed ++ now ∧
    ready = now ++ (d'.reactor.deferred ++ d'.reactor.channel) ∧
    ((∃ n, result = .ok n) → now = ready) ∧ ((∃ e, result = .error e) → now ≠ [])

/-- What is handed over before a drain goes on is handed over first. -/
theorem HandedOver.cons {c : ReadCompletion} {rest : List ReadCompletion}
    {result : Except VmError Nat} {d d₁ d' : Delivery} (h : HandedOver rest result d₁ d')
    (hsteps : Steps d d₁) (hhanded : d₁.handed = d.handed ++ [c])
    (harrived : d₁.arrived = d.arrived) : HandedOver (c :: rest) result d d' := by
  obtain ⟨now, hnow, hsplit, hok, -⟩ := h.split
  refine ⟨hsteps.trans h.steps, h.between, h.arrived.trans harrived, c :: now, ?_, ?_, ?_, ?_⟩
  · rw [hnow, hhanded, List.append_assoc]
    rfl
  · rw [hsplit]
    rfl
  · exact fun hresult => by rw [hok hresult]
  · exact fun _ => List.cons_ne_nil _ _

/-- **Handing over is a run of moments.** -/
theorem runReads_handedOver {ready : List ReadCompletion} {ran : Nat} {vm vm' : Vm ν}
    {result : Except VmError Nat} {d : Delivery} (h : vm.Sound)
    (hr : (vm.runReads ready ran).Ends (result, vm')) (hd : d.reactor = vm.store.reactor)
    (htaken : d.taken = some ready) (hempty : d.reactor.deferred ++ d.reactor.channel = []) :
    ∃ d', d'.reactor = vm'.store.reactor ∧ HandedOver ready result d d' := by
  induction ready generalizing ran vm d with
  | nil =>
      cases Run.ends_done.mp hr
      refine ⟨d.close [], hd, (Step.close htaken).single, rfl, rfl, [], ?_, ?_, ?_⟩
      · exact (List.append_nil _).symm
      · exact hempty.symm
      · exact ⟨fun _ => rfl, nofun⟩
  | cons c rest ih =>
      -- the completion is struck from the table before anything is called
      have hhand : Steps d (d.hand c rest) := (Step.hand htaken).single
      have hd₁ : (d.hand c rest).reactor = vm.store.reactor.dispatched c.id := by
        rw [← hd]
        rfl
      have hsound : ({ vm with store := { vm.store with
          reactor := vm.store.reactor.dispatched c.id } } : Vm ν).Sound :=
        h.change (.events vm.store.scheduler _)
      unfold Vm.runReads at hr
      dsimp only at hr
      split at hr
      · obtain ⟨d', hd', hover⟩ := ih hsound hr hd₁ rfl hempty
        exact ⟨d', hd', hover.cons hhand rfl rfl⟩
      · rename_i image function hc
        obtain ⟨⟨called, vm₁⟩, hcall, hr⟩ := Run.ends_bind.mp hr
        obtain ⟨hsound₁, hwaiting, submitted, hsubmits⟩ :=
          hsound.callIndex (by exact (callback_eq_some hc).1) hcall hd₁
        have hsteps := hhand.trans hsubmits
        have hempty₁ := hwaiting.trans hempty
        cases called with
        | ok v =>
            obtain ⟨d', hd', hover⟩ := ih hsound₁ hr
              (d := { d.hand c rest with reactor := vm₁.store.reactor, submitted }) rfl rfl hempty₁
            exact ⟨d', hd', hover.cons hsteps rfl rfl⟩
        | error e =>
            cases Run.ends_done.mp hr
            refine ⟨_, rfl, hsteps.trans (Step.close rfl).single, rfl, rfl, [c], rfl, ?_, nofun, ?_⟩
            · show c :: rest =
                [c] ++ (rest ++ vm₁.store.reactor.deferred ++ vm₁.store.reactor.channel)
              rw [List.append_assoc, hempty₁, List.append_nil]
              rfl
            · exact fun _ => List.cons_ne_nil _ _

/-- **A drain is a run of moments**, from what waits at its start. -/
theorem drainReads_handedOver {vm vm' : Vm ν} {result : Except VmError Nat} {d : Delivery}
    (h : vm.Sound) (hr : vm.drainReads.Ends (result, vm')) (hl : vm.isLoaded = true)
    (hd : d.reactor = vm.store.reactor) (hbetween : d.taken = none) :
    ∃ d', d'.reactor = vm'.store.reactor ∧
      HandedOver (d.reactor.deferred ++ d.reactor.channel) result d d' := by
  unfold Vm.drainReads at hr
  rw [if_pos hl] at hr
  have hsound : ({ vm with store := { vm.store with
      reactor := vm.store.reactor.takeReady.1 } } : Vm ν).Sound :=
    h.change (.events vm.store.scheduler _)
  have hd₁ : d.take.reactor = vm.store.reactor.takeReady.1 := by
    rw [← hd]
    rfl
  obtain ⟨d', hd', hover⟩ := runReads_handedOver (d := d.take) hsound hr hd₁ (by rw [← hd]; rfl) rfl
  refine ⟨d', hd', (Step.take hbetween).single.trans hover.steps, hover.between, hover.arrived, ?_⟩
  have hsplit := hover.split
  rw [← hd] at hsplit
  exact hsplit

/-! ## 3. Main statement -/

/-- **Reads are delivered exactly once**, whatever the order in which they are submitted, finish in
    the background and are handed over, and wherever a callback throws. Between drains every request
    is in one place; the table lists the requests that are not dispatched with their callbacks, and
    no request is dispatched twice. What was dispatched, then what was put back, then what is on the
    channel is what arrived, in the order of arrival. When no read is in flight, whatever is
    outstanding was put back or is on the channel, and is seen to be ready. A drain of the machine
    is part of such an order: it hands over what was put back before what is on the channel, each in
    order, all of it if no callback throws, and puts back in order what is behind one that does. -/
theorem reads_delivered_once {d : Delivery} (h : Reached d) (hbetween : d.taken = none) :
    (∀ id ∈ d.submitted.map (·.1), ∃! p, id ∈ d.atPlace p) ∧
    d.reactor.outstanding.Perm (d.reactor.held []) ∧
    (d.reactor.outstanding ++ d.handed.map ReadCompletion.entry).Perm d.submitted ∧
    (d.handed.map (·.id)).Nodup ∧
    d.handed ++ d.reactor.deferred ++ d.reactor.channel = d.arrived ∧
    (d.reactor.inFlight = 0 →
      d.reactor.outstanding.Perm
        ((d.reactor.channel ++ d.reactor.deferred).map ReadCompletion.entry) ∧
      (d.reactor.hasReady = true ↔ d.reactor.outstanding ≠ [])) ∧
    ∀ (vm vm' : Vm ν) (result : Except VmError Nat), Reachable vm → vm.isLoaded = true →
      d.reactor = vm.store.reactor → vm.drainReads.Ends (result, vm') →
      ∃ d', Reached d' ∧ d'.reactor = vm'.store.reactor ∧
        HandedOver (d.reactor.deferred ++ d.reactor.channel) result d d' := by
  have hkept := h.kept
  have htable := hkept.accounted.table
  have horder := hkept.order
  unfold inHand at htable horder
  rw [hbetween] at htable horder
  rw [Option.getD_none, List.append_nil] at horder
  refine ⟨fun id hid => hkept.existsUnique_place hbetween hid, htable.symm, hkept.places,
    hkept.nodup_handed, horder, hkept.settled hbetween, ?_⟩
  intro vm vm' result hreachable hl hd hr
  obtain ⟨d', hd', hover⟩ := drainReads_handedOver hreachable.sound hr hl hd hbetween
  exact ⟨d', h.steps hover.steps, hd', hover⟩

/-- A module that reads two files, whose callback throws when it is handed a text. -/
def reader : Module where
  flags := 0
  name := "reader"
  strings := ["a.txt", "b.txt"]
  functions := [
    ⟨"main", 0, 0, Instruction.encodeBody
      [.pushString 0, .callback .asyncRead 1, .pushString 1, .callback .asyncRead 1,
        .simple .retVoid]⟩,
    ⟨"take", 1, 1, Instruction.encodeBody
      [.loadLocal 0, .pushInt 1, .simple (.int .add), .simple .ret]⟩]
  classes := []
  natives := []
  entry := 0

/-- The reader, when its second read has finished, and then the first. -/
def readerMachine : Vm Unit :=
  (create {} 0).after
    [.load reader, .callEntry, .sendRead 2 (.ok "beta"), .sendRead 1 (.ok "alpha")]

/-- What happened to its reads. -/
def readerDelivery : Delivery :=
  ((((({} : Delivery).submit "a.txt" "take").submit "b.txt" "take").send
    ⟨2, "b.txt", "take"⟩ (.ok "beta")).send ⟨1, "a.txt", "take"⟩ (.ok "alpha"))

/-- The second read is handed over, its callback throws, and the first read is put back. -/
theorem reader_hands_over_one :
    Reached readerDelivery ∧ readerDelivery.taken = none ∧
      readerDelivery.reactor = readerMachine.store.reactor ∧ (∃! p, 1 ∈ readerDelivery.atPlace p) ∧
      ∃ e vm' d', readerMachine.drainReads.Ends (.error e, vm') ∧
        d'.reactor = vm'.store.reactor ∧ vm'.store.reactor.deferred.map (·.id) = [1] ∧
        HandedOver [⟨2, "take", .ok "beta"⟩, ⟨1, "take", .ok "alpha"⟩] (.error e)
          readerDelivery d' := by
  have hreached : Reached readerDelivery :=
    (((Step.submit _ _).single.trans (Step.submit _ _).single).trans
      (Step.send (by decide) _).single).trans (Step.send (by decide) _).single
  have hreactor : readerDelivery.reactor = readerMachine.store.reactor := rfl
  have hreachable : Reachable readerMachine := (Reachable.create {} 0).after _
  obtain ⟨hplace, -, -, -, -, -, hdrain⟩ := reads_delivered_once (ν := Unit) hreached rfl
  have hends : (readerMachine.drainReads.against obliging ()).map
      (fun r => (r.1.1.isOk, r.1.2.store.reactor.deferred.map (·.id))) = some (false, [1]) := by
    decide +kernel
  obtain ⟨⟨⟨result, vm'⟩, s⟩, hagainst, hresult⟩ := Option.map_eq_some_iff.mp hends
  cases result with
  | ok n => cases hresult
  | error e =>
      have hr := Run.ends_of_against hagainst
      obtain ⟨d', -, hd', hover⟩ := hdrain _ _ _ hreachable (by decide +kernel) hreactor hr
      exact ⟨hreached, rfl, hreactor, hplace 1 (by decide), e, vm', d', hr, hd',
        congrArg Prod.snd hresult, hover⟩

end EmbeddedVm.Vm
