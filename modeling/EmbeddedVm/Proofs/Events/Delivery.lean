import EmbeddedVm.Proofs.Events.Reactor
import Mathlib.Data.List.Nodup
import Mathlib.Data.List.Pairwise
import Mathlib.Logic.Relation

/-!
# Reads beside a drain

Reads are submitted, finish in the background and are handed over by drains, and none of these waits
for another: a read sends and settles at two moments of its own, a drain takes what waits and hands
it over one by one, and the callbacks it calls submit further reads. `Step` is one such moment, with
nothing said of their order, and `Delivery` keeps beside the reactor what a run of them has done so
far.

What every moment keeps is `Kept`. Requests are numbered as they come and never leave the account;
completions are handed over in the order in which they arrived, over all drains together, because a
drain that fails puts back in front what it had taken; and the count of reads in flight covers those
that run and those that have sent and not settled.
-/

namespace EmbeddedVm

/-- A reactor in use, with what was done with it. -/
structure Delivery where
  reactor : Reactor := {}
  /-- What a drain has in its hands, while there is one. -/
  taken : Option (List ReadCompletion) := none
  /-- The reads that have sent and not settled. -/
  settling : List Nat := []
  /-- Identifier and callback of every request, the first one first. -/
  submitted : List (Nat × String) := []
  /-- Every completion that was sent, the first one first. -/
  arrived : List ReadCompletion := []
  /-- Every completion that was handed to its callback, the first one first. -/
  handed : List ReadCompletion := []

namespace Delivery

/-- The completions in the hands of a drain. -/
def inHand (d : Delivery) : List ReadCompletion := d.taken.getD []

/-! ## 1. Moments -/

/-- A read is submitted. -/
def submit (d : Delivery) (path callback : String) : Delivery :=
  { d with
    reactor := d.reactor.submit path callback
    submitted := d.submitted ++ [(d.reactor.nextId, callback)] }

/-- A read puts its completion on the channel. -/
def send (d : Delivery) (q : ReadRequest) (result : Except String String) : Delivery :=
  { d with
    reactor := d.reactor.send q.id result
    settling := q.id :: d.settling
    arrived := d.arrived ++ [⟨q.id, q.callback, result⟩] }

/-- A read that has sent is no longer in flight. -/
def settle (d : Delivery) (id : Nat) : Delivery :=
  { d with reactor := d.reactor.settle, settling := d.settling.erase id }

/-- A drain takes what waits. -/
def take (d : Delivery) : Delivery :=
  { d with reactor := d.reactor.takeReady.1, taken := some d.reactor.takeReady.2 }

/-- The drain hands over a completion and keeps the rest in its hands. -/
def hand (d : Delivery) (c : ReadCompletion) (rest : List ReadCompletion) : Delivery :=
  { d with
    reactor := d.reactor.dispatched c.id, taken := some rest, handed := d.handed ++ [c] }

/-- The drain puts the rest back and is over. -/
def close (d : Delivery) (rest : List ReadCompletion) : Delivery :=
  { d with reactor := d.reactor.defer rest, taken := none }

/-- **One moment**: of the host or a callback that submits, of a read in the background, or of the
    one drain that may run. -/
inductive Step (d : Delivery) : Delivery → Prop where
  | submit (path callback : String) : Step d (d.submit path callback)
  | send {q : ReadRequest} (hq : q ∈ d.reactor.running) (result : Except String String) :
    Step d (d.send q result)
  | settle {id : Nat} (h : id ∈ d.settling) : Step d (d.settle id)
  | take (h : d.taken = none) : Step d d.take
  | hand {c : ReadCompletion} {rest : List ReadCompletion} (h : d.taken = some (c :: rest)) :
    Step d (d.hand c rest)
  /-- Nothing is left, or a callback throws. -/
  | close {rest : List ReadCompletion} (h : d.taken = some rest) : Step d (d.close rest)

/-- Moments one after the other. -/
def Steps : Delivery → Delivery → Prop := Relation.ReflTransGen Step

theorem Step.single {d d' : Delivery} (h : Step d d') : Steps d d' := Relation.ReflTransGen.single h

theorem Steps.trans {a b c : Delivery} (h : Steps a b) (h' : Steps b c) : Steps a c :=
  Relation.ReflTransGen.trans h h'

/-- What some order of moments leads to. -/
def Reached (d : Delivery) : Prop := Steps {} d

theorem Reached.steps {d d' : Delivery} (h : Reached d) (hs : Steps d d') : Reached d' := h.trans hs

/-! ## 2. What every moment keeps -/

/-- **The account of a run.** -/
structure Kept (d : Delivery) : Prop where
  /-- The table lists what is not handed over. -/
  accounted : d.reactor.Accounted d.inHand
  /-- Every request is in the table or was handed over. -/
  places : (d.reactor.outstanding ++ d.handed.map ReadCompletion.entry).Perm d.submitted
  /-- Requests are numbered from one. -/
  numbered : d.submitted.map (·.1) = List.range' 1 d.submitted.length
  next : d.reactor.nextId = d.submitted.length + 1
  /-- What was handed over, is in hand, was put back and waits is what arrived, in this order. -/
  order : d.handed ++ d.inHand ++ d.reactor.deferred ++ d.reactor.channel = d.arrived
  /-- While a drain runs, nothing is put back. -/
  drain : d.taken.isSome → d.reactor.deferred = []
  flight : d.reactor.inFlight = d.reactor.running.length + d.settling.length

theorem kept_start : Kept {} where
  accounted := Reactor.accounted_empty
  places := .refl _
  numbered := rfl
  next := rfl
  order := rfl
  drain _ := rfl
  flight := rfl

variable {d d' : Delivery}

theorem Kept.submit (h : d.Kept) (path callback : String) : (d.submit path callback).Kept where
  accounted := h.accounted.submit path callback
  places := by
    show (d.reactor.outstanding ++ [(d.reactor.nextId, callback)] ++ _).Perm _
    exact (Reactor.append_swap _ _ _).trans (h.places.append_right _)
  numbered := by
    show (d.submitted ++ [_]).map _ = List.range' 1 (d.submitted ++ [_]).length
    rw [List.map_append, h.numbered, List.length_append, List.length_singleton, List.range'_concat,
      Nat.one_mul, Nat.add_comm 1, ← h.next]
    rfl
  next := by
    show d.reactor.nextId + 1 = (d.submitted ++ [_]).length + 1
    rw [List.length_append, List.length_singleton, ← h.next]
  order := h.order
  drain := h.drain
  flight := by
    show d.reactor.inFlight + 1 = (d.reactor.running ++ [_]).length + d.settling.length
    rw [List.length_append, List.length_singleton, h.flight]
    omega

theorem Kept.send (h : d.Kept) {q : ReadRequest} (hq : q ∈ d.reactor.running)
    (result : Except String String) : (d.send q result).Kept := by
  have haccounted := h.accounted.send q.id result
  have hids := h.accounted.nodup_running
  have hlength := (Reactor.perm_cons_filter hids hq).length_eq
  unfold Delivery.send
  rw [Reactor.send_eq hids hq] at haccounted ⊢
  refine ⟨haccounted, h.places, h.numbered, h.next, ?_, h.drain, ?_⟩
  · show d.handed ++ d.inHand ++ d.reactor.deferred ++ (d.reactor.channel ++ [_]) = _
    rw [← List.append_assoc, h.order]
  · -- the read goes from those that run to those that settle
    show d.reactor.inFlight = List.length (List.filter _ _) + (q.id :: d.settling).length
    rw [h.flight, hlength, List.length_cons, List.length_cons]
    omega

theorem Kept.settle (h : d.Kept) {id : Nat} (hid : id ∈ d.settling) : (d.settle id).Kept where
  accounted := h.accounted.settle
  places := h.places
  numbered := h.numbered
  next := h.next
  order := h.order
  drain := h.drain
  flight := by
    have hpositive : 0 < d.settling.length := List.length_pos_of_mem hid
    show d.reactor.inFlight - 1 = d.reactor.running.length + (d.settling.erase id).length
    rw [h.flight, List.length_erase_of_mem hid]
    omega

theorem Kept.take (h : d.Kept) (hnone : d.taken = none) : d.take.Kept := by
  have haccounted := h.accounted
  have horder := h.order
  unfold inHand at haccounted horder
  rw [hnone] at haccounted horder
  refine ⟨haccounted.takeReady, h.places, h.numbered, h.next, ?_, fun _ => rfl, h.flight⟩
  show d.handed ++ (d.reactor.deferred ++ d.reactor.channel) ++ [] ++ [] = d.arrived
  rw [List.append_nil, List.append_nil, ← List.append_assoc, ← horder, Option.getD_none,
    List.append_nil]

theorem Kept.hand (h : d.Kept) {c : ReadCompletion} {rest : List ReadCompletion}
    (hsome : d.taken = some (c :: rest)) : (d.hand c rest).Kept := by
  have haccounted := h.accounted
  have horder := h.order
  unfold inHand at haccounted horder
  rw [hsome] at haccounted horder
  refine ⟨haccounted.dispatched, ?_, h.numbered, h.next, ?_, fun _ => ?_, h.flight⟩
  · -- its line goes from the table to the end of what was handed over
    have hc : c.entry ∈ d.reactor.outstanding := haccounted.mem_outstanding List.mem_cons_self
    have hline := Reactor.perm_cons_filter haccounted.distinct hc
    refine .trans ?_ h.places
    refine .trans ?_ (hline.symm.append_right _)
    show (List.filter _ _ ++ (d.handed ++ [c]).map ReadCompletion.entry).Perm _
    rw [List.map_append, ← List.append_assoc]
    exact List.perm_append_singleton _ _
  · show d.handed ++ [c] ++ rest ++ d.reactor.deferred ++ d.reactor.channel = d.arrived
    rw [← horder, Option.getD_some, List.append_assoc d.handed]
    rfl
  · exact h.drain (by rw [hsome]; rfl)

theorem Kept.close (h : d.Kept) {rest : List ReadCompletion} (hsome : d.taken = some rest) :
    (d.close rest).Kept := by
  have haccounted := h.accounted
  have horder := h.order
  unfold inHand at haccounted horder
  rw [hsome] at haccounted horder
  refine ⟨haccounted.defer, h.places, h.numbered, h.next, ?_, nofun, h.flight⟩
  show d.handed ++ [] ++ (rest ++ d.reactor.deferred) ++ d.reactor.channel = d.arrived
  rw [← horder, List.append_nil, ← List.append_assoc]
  rfl

/-- **Every moment keeps the account.** -/
theorem Kept.step (h : d.Kept) (hs : Step d d') : d'.Kept := by
  cases hs with
  | submit path callback => exact h.submit path callback
  | send hq result => exact h.send hq result
  | settle hid => exact h.settle hid
  | take hnone => exact h.take hnone
  | hand hsome => exact h.hand hsome
  | close hsome => exact h.close hsome

/-- **Every order of moments keeps it.** -/
theorem Kept.steps (h : d.Kept) (hs : Steps d d') : d'.Kept := by
  induction hs with
  | refl => exact h
  | tail _ hstep ih => exact ih.step hstep

theorem Reached.kept (h : Reached d) : d.Kept := kept_start.steps h

/-! ## 3. Where a read is -/

/-- Where a request can be between drains. -/
inductive Place where
  | running
  | channel
  | deferred
  | dispatched
deriving DecidableEq, Repr

/-- The places. -/
def Place.all : List Place := [.running, .channel, .deferred, .dispatched]

theorem Place.mem_all (p : Place) : p ∈ all := by
  cases p <;> decide

/-- The requests that are in a place. -/
def atPlace (d : Delivery) : Place → List Nat
  | .running => d.reactor.running.map (·.id)
  | .channel => d.reactor.channel.map (·.id)
  | .deferred => d.reactor.deferred.map (·.id)
  | .dispatched => d.handed.map (·.id)

/-- **The places hold the requests between them**, each once. -/
theorem Kept.perm_places (h : d.Kept) (hbetween : d.taken = none) :
    (Place.all.flatMap d.atPlace).Perm (d.submitted.map (·.1)) := by
  have haccounted := h.accounted
  unfold inHand at haccounted
  rw [hbetween] at haccounted
  have hheld := haccounted.table.append_right (d.handed.map ReadCompletion.entry)
  refine .trans (.of_eq ?_) ((hheld.trans h.places).map (·.1))
  unfold Reactor.held Place.all
  simp only [List.flatMap_cons, List.flatMap_nil, List.map_append, List.map_map, Option.getD_none,
    List.map_nil, List.append_nil, List.append_assoc]
  rfl

/-- The requests are all different. -/
theorem Kept.nodup_submitted (h : d.Kept) : (d.submitted.map (·.1)).Nodup := by
  rw [h.numbered]
  exact List.nodup_range'

/-- **Every request is in one place.** -/
theorem Kept.existsUnique_place (h : d.Kept) (hbetween : d.taken = none) {id : Nat}
    (hid : id ∈ d.submitted.map (·.1)) : ∃! p, id ∈ d.atPlace p := by
  have hplaces := h.perm_places hbetween
  obtain ⟨p, -, hp⟩ := List.mem_flatMap.mp (hplaces.mem_iff.mpr hid)
  refine ⟨p, hp, fun p' hp' => ?_⟩
  have hnodup := hplaces.nodup_iff.mpr h.nodup_submitted
  have hdisjoint := (List.nodup_flatMap.mp hnodup).2
  have : Std.Symm (Function.onFun List.Disjoint d.atPlace) :=
    ⟨fun _ _ happart a ha ha' => happart ha' ha⟩
  by_contra hne
  exact hdisjoint.forall p'.mem_all p.mem_all hne hp' hp

/-- Nothing is handed over twice. -/
theorem Kept.nodup_handed (h : d.Kept) : (d.handed.map (·.id)).Nodup := by
  have hnodup := (h.places.map (·.1)).nodup_iff.mpr h.nodup_submitted
  rw [List.map_append, List.map_map] at hnodup
  exact (List.nodup_append.mp hnodup).2.1

/-- **When nothing is in flight, what is outstanding waits**, and it is seen to wait. -/
theorem Kept.settled (h : d.Kept) (hbetween : d.taken = none) (hzero : d.reactor.inFlight = 0) :
    d.reactor.outstanding.Perm
        ((d.reactor.channel ++ d.reactor.deferred).map ReadCompletion.entry) ∧
      (d.reactor.hasReady = true ↔ d.reactor.outstanding ≠ []) := by
  have hflight := h.flight
  rw [hzero] at hflight
  have hrunning : d.reactor.running = [] := List.eq_nil_of_length_eq_zero (by omega)
  have htable := h.accounted.table
  unfold inHand Reactor.held at htable
  rw [hbetween, hrunning, Option.getD_none, List.map_nil, List.map_nil, List.nil_append,
    List.append_nil, ← List.map_append] at htable
  refine ⟨htable.symm, ?_⟩
  have hnil : d.reactor.outstanding = [] ↔ d.reactor.channel ++ d.reactor.deferred = [] := by
    rw [← List.perm_nil, ← List.map_eq_nil_iff (f := ReadCompletion.entry), ← List.perm_nil]
    exact ⟨htable.trans, htable.symm.trans⟩
  rw [Ne, hnil, List.append_eq_nil_iff]
  unfold Reactor.hasReady
  cases d.reactor.deferred with
  | nil => simp
  | cons c rest => simp

end Delivery

end EmbeddedVm
