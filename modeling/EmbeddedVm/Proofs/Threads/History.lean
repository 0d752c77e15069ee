import EmbeddedVm.Proofs.Threads.Keeping

/-!
# Histories of interleavings

`Crew.Reached` says what threads can come to and forgets how. `Crew.Ran` keeps for every move who
made it, whether it began something new, and what could be seen of the state before and after. So it
can be said that a thread was not alone between two of its moves.

The history is a list with the latest move first. What a thread did since it began what it is at is
then the list up to its latest beginning (`Turn.since`).
-/

namespace EmbeddedVm

variable {κ S ν : Type}

/-- Nothing is left to do. -/
def Program.isHalt : Program κ S → Bool
  | .halt => true
  | _ => false

theorem Program.eq_halt {p : Program κ S} (h : p.isHalt = true) : p = .halt := by
  cases p with
  | halt => rfl
  | _ => cases h

/-- A move, as it is seen from outside. -/
structure Turn (ν : Type) where
  thread : ThreadId
  /-- The thread had nothing left to do, and began something. -/
  begins : Bool
  before : ν
  after : ν
deriving DecidableEq, Repr

namespace Turn

/-- Something could be seen of the move. -/
def IsVisible (turn : Turn ν) : Prop := turn.before ≠ turn.after

instance [DecidableEq ν] (turn : Turn ν) : Decidable turn.IsVisible :=
  inferInstanceAs (Decidable (turn.before ≠ turn.after))

/-- The moves of all threads since a thread began what it is at. -/
def since (t : ThreadId) (past : List (Turn ν)) : List (Turn ν) :=
  past.takeWhile fun turn => !(turn.thread == t && turn.begins)

variable {t : ThreadId} {turn : Turn ν} {past : List (Turn ν)}

theorem since_cons (h : turn.thread = t → turn.begins = false) :
    since t (turn :: past) = turn :: since t past := by
  refine List.takeWhile_cons_of_pos ?_
  by_cases ht : turn.thread = t
  · simp [h ht]
  · simp [ht]

/-- All that could be seen, from the beginning on. -/
def values (first : ν) (past : List (Turn ν)) : List ν := first :: past.reverse.map (·.after)

theorem values_cons (first : ν) :
    values first (turn :: past) = values first past ++ [turn.after] := by
  simp [values]

end Turn

/-- **A run with its history**, of threads that begin with nothing to do. -/
inductive Crew.Ran (starts : ThreadId → Program κ S → Prop) (view : S → ν) (s : S) :
    List (Turn ν) → Crew κ S → Prop where
  | begin : Ran starts view s [] ⟨s, fun _ => .halt⟩
  | move {past : List (Turn ν)} {c c' : Crew κ S} {t : ThreadId} {posted : Option κ}
      (h : Ran starts view s past c) (hm : c.Moves starts t posted c') :
    Ran starts view s (⟨t, (c.current t).isHalt, view c.state, view c'.state⟩ :: past) c'

variable {starts : ThreadId → Program κ S → Prop} {view : S → ν} {s : S} {c c' : Crew κ S}
  {t : ThreadId} {past : List (Turn ν)} {posted : Option κ}

/-- **Histories leave nothing out**: what is reached is reached by a run. -/
theorem Crew.Reached.ran (h : Crew.Reached starts s c) (view : S → ν) :
    ∃ past, Crew.Ran starts view s past c := by
  induction h with
  | begin => exact ⟨[], .begin⟩
  | move _ hm ih =>
      obtain ⟨past, h⟩ := ih
      exact ⟨_, h.move hm⟩

/-- What can be seen of a run is in order if it is in order in every move. -/
theorem Crew.Ran.pairwise {r : ν → ν → Prop} (hrefl : ∀ v, r v v)
    (htrans : ∀ {u v v'}, r u v → r v v' → r u v') (h : Crew.Ran starts view s past c)
    (hr : ∀ turn ∈ past, r turn.before turn.after) :
    (Turn.values (view s) past).Pairwise r ∧
      ∀ v ∈ Turn.values (view s) past, r v (view c.state) := by
  induction h with
  | begin =>
      refine ⟨List.pairwise_singleton _ _, fun v hv => ?_⟩
      obtain rfl := List.mem_singleton.mp hv
      exact hrefl _
  | @move past c c' t posted _ _ ih =>
      obtain ⟨hpairs, hall⟩ := ih fun turn hturn => hr turn (List.mem_cons_of_mem _ hturn)
      have hthis : r (view c.state) (view c'.state) := hr _ List.mem_cons_self
      have hnow (v : ν) (hv : v ∈ Turn.values (view s) past) : r v (view c'.state) :=
        htrans (hall v hv) hthis
      rw [Turn.values_cons]
      refine ⟨List.pairwise_append.mpr ⟨hpairs, List.pairwise_singleton _ _, ?_⟩, ?_⟩
      · intro v hv v' hv'
        obtain rfl := List.mem_singleton.mp hv'
        exact hnow v hv
      · intro v hv
        rcases List.mem_append.mp hv with hv | hv
        · exact hnow v hv
        · obtain rfl := List.mem_singleton.mp hv
          exact hrefl _

/-- A thread that begins something does nothing else in that move. -/
theorem Crew.Moves.state_of_halt (h : c.Moves starts t posted c') (hc : c.current t = .halt) :
    c'.state = c.state := by
  cases h with
  | start _ _ => rfl
  | woken _ => rfl
  | clock h _ => cases hc.symm.trans h
  | post h => cases hc.symm.trans h
  | region h _ => cases hc.symm.trans h
  | regionUntil h _ => cases hc.symm.trans h
  | late h => cases hc.symm.trans h

/-- A thread with nothing left to do rests. -/
theorem Protocol.Follows.eq_rest {P : Protocol κ S} {φ : P.Phase} (h : P.Follows t φ .halt) :
    φ = P.rest := by
  cases h
  rfl

end EmbeddedVm
