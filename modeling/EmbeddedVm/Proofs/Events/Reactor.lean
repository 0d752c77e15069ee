import EmbeddedVm.Events.Reactor
import Mathlib.Data.List.Perm.Basic
import Mathlib.Data.List.Nodup

/-!
# Every read is in one place

A read that is not dispatched runs, waits on the channel, is in the hands of a drain or was put back
by one. `Accounted` says that the table of outstanding reads lists exactly these, each once: every
operation moves reads from one place to the next and keeps the account, and only handing a
completion to its callback strikes it from the table.
-/

namespace EmbeddedVm

/-- Identifier and callback of a read. -/
def ReadRequest.entry (q : ReadRequest) : Nat × String := (q.id, q.callback)

/-- Identifier and callback of a finished read. -/
def ReadCompletion.entry (c : ReadCompletion) : Nat × String := (c.id, c.callback)

namespace Reactor

/-- All reads that are not dispatched, place by place; `taken` are those in the hands of a drain. -/
def held (r : Reactor) (taken : List ReadCompletion) : List (Nat × String) :=
  r.running.map ReadRequest.entry ++ r.channel.map ReadCompletion.entry ++
    taken.map ReadCompletion.entry ++ r.deferred.map ReadCompletion.entry

/-- **The table lists what is held, and nothing twice.** -/
structure Accounted (r : Reactor) (taken : List ReadCompletion) : Prop where
  table : (r.held taken).Perm r.outstanding
  distinct : (r.outstanding.map (·.1)).Nodup
  issued : ∀ p ∈ r.outstanding, p.1 < r.nextId

theorem accounted_empty : Accounted {} [] :=
  ⟨.refl _, List.nodup_nil, fun _ hp => absurd hp List.not_mem_nil⟩

variable {r : Reactor} {taken : List ReadCompletion}

/-! ## 1. Identifiers that occur once -/

/-- What bears one identifier goes, and all else stays. -/
theorem perm_cons_filter {α : Type} {key : α → Nat} {l : List α} (h : (l.map key).Nodup) {a : α}
    (ha : a ∈ l) : l.Perm (a :: l.filter fun b => key b != key a) := by
  induction l with
  | nil => cases ha
  | cons b rest ih =>
      rw [List.map_cons, List.nodup_cons] at h
      rcases List.mem_cons.mp ha with rfl | ha
      · have hall : rest.filter (fun b => key b != key a) = rest := by
          refine List.filter_eq_self.mpr fun c hc => bne_iff_ne.mpr fun hca => ?_
          exact h.1 (List.mem_map.mpr ⟨c, hc, hca⟩)
        rw [List.filter_cons_of_neg (by simp), hall]
      · have hne : key b ≠ key a := fun hba =>
          h.1 (List.mem_map.mpr ⟨a, ha, hba.symm⟩)
        rw [List.filter_cons_of_pos (p := fun b => key b != key a) (bne_iff_ne.mpr hne)]
        exact ((ih h.2 ha).cons b).trans (.swap a b _)

/-- The identifiers of all reads that are held are distinct. -/
theorem Accounted.nodup (h : r.Accounted taken) : ((r.held taken).map (·.1)).Nodup :=
  (h.table.map _).nodup_iff.mpr h.distinct

/-- Two lists behind a third change places. -/
theorem append_swap {α : Type} (l a b : List α) : (l ++ a ++ b).Perm (l ++ b ++ a) := by
  rw [List.append_assoc, List.append_assoc]
  exact List.perm_append_comm.append_left l

/-! ## 2. From place to place -/

/-- A new read is held and in the table, under a new identifier. -/
theorem Accounted.submit (h : r.Accounted taken) (path callback : String) :
    (r.submit path callback).Accounted taken := by
  refine ⟨?_, ?_, fun p hp => ?_⟩
  · -- the new read passes over all that stands behind those that run
    refine .trans ?_ (h.table.append_right [(r.nextId, callback)])
    show (List.map ReadRequest.entry (r.running ++ [_]) ++ _ ++ _ ++ _).Perm _
    rw [List.map_append]
    refine (((append_swap _ _ _).append_right _).append_right _).trans ?_
    exact ((append_swap _ _ _).append_right _).trans (append_swap _ _ _)
  · show ((r.outstanding ++ [(r.nextId, callback)]).map (·.1)).Nodup
    rw [List.map_append, List.nodup_append]
    refine ⟨h.distinct, List.nodup_singleton _, fun a ha b hb => ?_⟩
    obtain ⟨p, hp, rfl⟩ := List.mem_map.mp ha
    rw [List.mem_singleton.mp hb]
    exact Nat.ne_of_lt (h.issued p hp)
  · rcases List.mem_append.mp hp with hp | hp
    · exact Nat.lt_succ_of_lt (h.issued p hp)
    · rw [List.mem_singleton.mp hp]
      exact Nat.lt_succ_self _

/-- The reads that run are distinct. -/
theorem Accounted.nodup_running (h : r.Accounted taken) : (r.running.map (·.id)).Nodup := by
  have hn := h.nodup
  unfold held at hn
  rw [List.map_append, List.map_append, List.map_append, List.append_assoc, List.append_assoc,
    List.map_map] at hn
  exact (List.nodup_append.mp hn).1

/-- What a running read sends. -/
theorem send_eq (h : (r.running.map (·.id)).Nodup) {q : ReadRequest} (hq : q ∈ r.running)
    (result : Except String String) :
    r.send q.id result = { r with
      running := r.running.filter (·.id != q.id)
      channel := r.channel ++ [⟨q.id, q.callback, result⟩] } := by
  unfold Reactor.send
  split
  · rename_i hnone
    have hne := List.find?_eq_none.mp hnone q hq
    exact absurd (beq_self_eq_true q.id) hne
  · rename_i p hp
    have hid : p.id = q.id :=
      beq_iff_eq.mp (List.find?_some (p := fun p : ReadRequest => p.id == q.id) hp)
    obtain rfl := List.inj_on_of_nodup_map h (List.mem_of_find?_eq_some hp) hq hid
    rfl

/-- A finished read goes from those that run to the channel. -/
theorem Accounted.send (h : r.Accounted taken) (id : Nat) (result : Except String String) :
    (r.send id result).Accounted taken := by
  cases hfind : r.running.find? (·.id == id) with
  | none =>
      unfold Reactor.send
      rw [hfind]
      exact h
  | some q =>
      obtain rfl : q.id = id :=
        beq_iff_eq.mp (List.find?_some (p := fun q : ReadRequest => q.id == id) hfind)
      have hq : q ∈ r.running := List.mem_of_find?_eq_some hfind
      have hrunning := (perm_cons_filter h.nodup_running hq).map ReadRequest.entry
      rw [send_eq h.nodup_running hq]
      refine ⟨.trans ?_ h.table, h.distinct, h.issued⟩
      unfold held
      dsimp only
      rw [List.map_append, ← List.append_assoc]
      refine List.Perm.append_right _ (List.Perm.append_right _ ?_)
      refine .trans ?_ (hrunning.symm.append_right _)
      exact List.perm_append_singleton _ _

theorem Accounted.settle (h : r.Accounted taken) : r.settle.Accounted taken :=
  ⟨h.table, h.distinct, h.issued⟩

/-- A drain takes what waits into its hands. -/
theorem Accounted.takeReady (h : r.Accounted []) : r.takeReady.1.Accounted r.takeReady.2 := by
  refine ⟨.trans ?_ h.table, h.distinct, h.issued⟩
  show (r.running.map _ ++ [] ++ (r.deferred ++ r.channel).map _ ++ []).Perm
    (r.running.map _ ++ r.channel.map _ ++ [] ++ r.deferred.map _)
  rw [List.map_append, List.append_nil, List.append_nil, List.append_nil, ← List.append_assoc]
  exact append_swap _ _ _

/-- **Handing a completion over strikes it from the table.** -/
theorem Accounted.dispatched {c : ReadCompletion} {rest : List ReadCompletion}
    (h : r.Accounted (c :: rest)) : (r.dispatched c.id).Accounted rest := by
  have hheld : (r.held (c :: rest)).Perm (c.entry :: r.held rest) := by
    unfold held
    rw [List.map_cons]
    exact List.perm_middle.append_right _
  have htable := hheld.symm.trans h.table
  have hids : ((c.entry :: r.held rest).map (·.1)).Nodup :=
    (htable.map _).nodup_iff.mpr h.distinct
  rw [List.map_cons, List.nodup_cons] at hids
  refine ⟨?_, ?_, fun p hp => h.issued p (List.mem_filter.mp hp).1⟩
  · -- the identifier is that of the completion alone
    refine .trans (.of_eq ?_) (htable.filter _)
    rw [List.filter_cons_of_neg (by simp [ReadCompletion.entry])]
    refine (List.filter_eq_self.mpr fun p hp => bne_iff_ne.mpr fun hid => ?_).symm
    exact hids.1 (List.mem_map.mpr ⟨p, hp, hid⟩)
  · exact (List.filter_sublist.map _).nodup h.distinct

/-- **What a drain puts back is held again**, ahead of what arrived since. -/
theorem Accounted.defer (h : r.Accounted taken) : (r.defer taken).Accounted [] := by
  refine ⟨.trans (.of_eq ?_) h.table, h.distinct, h.issued⟩
  show r.running.map _ ++ r.channel.map _ ++ [] ++ (taken ++ r.deferred).map _ = r.held taken
  rw [List.map_append, List.append_nil, ← List.append_assoc]
  rfl

/-- A completion in the hands of a drain is in the table. -/
theorem Accounted.mem_outstanding (h : r.Accounted taken) {c : ReadCompletion} (hc : c ∈ taken) :
    c.entry ∈ r.outstanding := by
  refine h.table.mem_iff.mp ?_
  unfold held
  exact List.mem_append_left _ (List.mem_append_right _ (List.mem_map_of_mem hc))

end Reactor

end EmbeddedVm
