import EmbeddedVm.Proofs.Threads.Quiet

/-!
# The counters of the registry

A registry is `Accounted` when every thread has one slot and at least one registration, the
brackets counted are those open in the slots, and safepoints see whether there is a collector. Every
operation keeps it so. Nearly all of them replace one slot, and for these the reason is one
(`Accounted.setSlot`): what the slot has more or less, the count of brackets has more or less.

From it follows that nothing is taken from a counter that it does not have (`Covered`).
-/

namespace EmbeddedVm.ThreadRegistry

variable {r r' : ThreadRegistry} {id me : ThreadId} {slot slot' : ThreadSlot}
  {entries rest : List (ThreadId × ThreadSlot)}

/-- The brackets open in slots, all together. -/
def openBrackets : List (ThreadId × ThreadSlot) → Nat
  | [] => 0
  | entry :: rest => entry.2.blockingDepth + openBrackets rest

theorem openBrackets_perm (h : entries.Perm rest) : openBrackets entries = openBrackets rest := by
  induction h with
  | nil => rfl
  | cons entry _ ih => rw [openBrackets, openBrackets, ih]
  | swap entry entry' rest =>
      rw [openBrackets, openBrackets, openBrackets, openBrackets, Nat.add_left_comm]
  | trans _ _ ih ih' => exact ih.trans ih'

/-- **The counters are right.** -/
structure Accounted (r : ThreadRegistry) : Prop where
  /-- No thread has two slots, -/
  nodup : (r.threads.map (·.1)).Nodup
  /-- and none stays without a registration. -/
  registered : ∀ entry ∈ r.threads, 1 ≤ entry.2.registrations
  /-- What is counted is what is open. -/
  outstanding : r.outstanding = openBrackets r.threads
  /-- Safepoints see whether there is a collector. -/
  pending : r.pausePending = r.collector.isSome

theorem accounted_start (pauseTimeout : Nat) : Accounted { pauseTimeout } :=
  ⟨List.nodup_nil, nofun, rfl, rfl⟩

/-! ## 1. One slot and the others -/

/-- **The slot of a thread, and all other entries**, which are of other threads. -/
structure Apart (r : ThreadRegistry) (id : ThreadId) (slot : ThreadSlot)
    (rest : List (ThreadId × ThreadSlot)) : Prop where
  threads : r.threads.Perm ((id, slot) :: rest)
  others : ∀ entry ∈ rest, entry.1 ≠ id

theorem Accounted.apart (h : r.Accounted) (hs : r.slot? id = some slot) :
    ∃ rest, r.Apart id slot rest := by
  obtain ⟨before, after, heq, -⟩ := List.lookup_eq_some_iff.mp hs
  have hthreads : r.threads.Perm ((id, slot) :: (before ++ after)) := heq ▸ List.perm_middle
  refine ⟨before ++ after, hthreads, fun entry hmem hid => ?_⟩
  have hnodup := (hthreads.map (·.1)).nodup_iff.mp h.nodup
  exact (List.nodup_cons.mp hnodup).1 (List.mem_map.mpr ⟨entry, hmem, hid⟩)

/-- Replacing the slot leaves the other entries. -/
theorem Apart.setSlot (h : r.Apart id slot rest) : (r.setSlot id slot').Apart id slot' rest := by
  refine ⟨(h.threads.map _).trans (.of_eq ?_), h.others⟩
  rw [List.map_cons]
  refine congr (congrArg List.cons (if_pos (beq_self_eq_true id))) ?_
  refine (List.map_congr_left fun entry hmem => ?_).trans (List.map_id _)
  exact if_neg fun heq => h.others entry hmem (eq_of_beq heq)

/-- So does taking it away. -/
theorem Apart.filter (h : r.Apart id slot rest) : (r.threads.filter (·.1 != id)).Perm rest := by
  refine (h.threads.filter _).trans (.of_eq ?_)
  rw [List.filter_cons_of_neg (by simp)]
  exact List.filter_eq_self.mpr fun entry hmem => bne_iff_ne.mpr (h.others entry hmem)

theorem Accounted.registrations (h : r.Accounted) (hs : r.slot? id = some slot) :
    1 ≤ slot.registrations := h.registered _ (mem_of_slot? hs)

/-- **A slot is replaced**, and the count of brackets follows it. -/
theorem Accounted.setSlot (h : r.Accounted) (hs : r.slot? id = some slot)
    (hreg : 1 ≤ slot.registrations → 1 ≤ slot'.registrations) {n : Nat}
    (hn : n + slot.blockingDepth = r.outstanding + slot'.blockingDepth) :
    Accounted { r.setSlot id slot' with outstanding := n } := by
  obtain ⟨rest, hrest⟩ := h.apart hs
  have hset : (r.setSlot id slot').Apart id slot' rest := hrest.setSlot
  have hnodup := (hrest.threads.map (·.1)).nodup_iff.mp h.nodup
  refine ⟨(hset.threads.map (·.1)).nodup_iff.mpr hnodup, fun entry hmem => ?_, ?_, h.pending⟩
  · rcases List.mem_cons.mp (hset.threads.mem_iff.mp hmem) with rfl | hin
    · exact hreg (h.registrations hs)
    · exact h.registered entry (hrest.threads.mem_iff.mpr (List.mem_cons_of_mem _ hin))
  · show n = openBrackets (r.setSlot id slot').threads
    have hout := h.outstanding
    rw [openBrackets_perm hrest.threads, openBrackets] at hout
    rw [openBrackets_perm hset.threads, openBrackets]
    dsimp only at hout ⊢
    omega

/-- A slot is replaced by one with as many brackets. -/
theorem Accounted.setSlot_of_depth (h : r.Accounted) (hs : r.slot? id = some slot)
    (hreg : 1 ≤ slot.registrations → 1 ≤ slot'.registrations)
    (hd : slot'.blockingDepth = slot.blockingDepth) :
    (r.setSlot id slot').Accounted :=
  h.setSlot hs hreg (congrArg (r.outstanding + ·) hd.symm)

/-- No thread has more brackets open than are counted. -/
theorem Accounted.depth_le (h : r.Accounted) (hs : r.slot? id = some slot) :
    slot.blockingDepth ≤ r.outstanding := by
  obtain ⟨rest, hrest⟩ := h.apart hs
  rw [h.outstanding, openBrackets_perm hrest.threads, openBrackets]
  exact Nat.le_add_right _ _

/-! ## 2. One operation after the other -/

theorem Accounted.register? (h : r.Accounted) {n : Nat} (hr : r.register? me = some (n, r')) :
    r'.Accounted := by
  unfold ThreadRegistry.register? at hr
  split at hr
  · rename_i slot hs
    cases hr
    exact h.setSlot_of_depth hs (fun _ => Nat.le_add_left 1 _) rfl
  · rename_i hs
    split at hr
    · cases hr
    · cases hr
      -- the new entry comes behind all others, with no bracket
      have hthreads : (r.threads ++ [(me, ({ registrations := 1 } : ThreadSlot))]).Perm
          ((me, { registrations := 1 }) :: r.threads) := List.perm_append_singleton _ _
      refine ⟨(hthreads.map (·.1)).nodup_iff.mpr (List.nodup_cons.mpr ⟨fun hmem => ?_, h.nodup⟩),
        fun entry hmem => ?_, ?_, h.pending⟩
      · obtain ⟨⟨i, s⟩, hin, rfl⟩ := List.mem_map.mp hmem
        have hreg : r.isRegistered i = true := isRegistered_iff.mpr ⟨s, hin⟩
        unfold isRegistered at hreg
        rw [hs] at hreg
        cases hreg
      · rcases List.mem_cons.mp (hthreads.mem_iff.mp hmem) with rfl | hin
        · exact Nat.le_refl 1
        · exact h.registered entry hin
      · show r.outstanding = openBrackets (r.threads ++ [(me, { registrations := 1 })])
        rw [openBrackets_perm hthreads, openBrackets, h.outstanding]
        exact (Nat.zero_add _).symm

theorem Accounted.unregister (h : r.Accounted) (me : ThreadId) : (r.unregister me).2.Accounted := by
  unfold ThreadRegistry.unregister
  split
  · exact h
  · rename_i slot hs
    dsimp only
    split
    · -- the slot goes, with its brackets
      obtain ⟨rest, hrest⟩ := h.apart hs
      have hnodup := (hrest.threads.map (·.1)).nodup_iff.mp h.nodup
      refine ⟨(hrest.filter.map (·.1)).nodup_iff.mpr (List.nodup_cons.mp hnodup).2,
        fun entry hmem => h.registered entry (List.mem_filter.mp hmem).1, ?_, h.pending⟩
      show r.outstanding - slot.blockingDepth = openBrackets (r.threads.filter (·.1 != me))
      rw [h.outstanding, openBrackets_perm hrest.threads, openBrackets,
        openBrackets_perm hrest.filter, Nat.add_sub_cancel_left]
    · rename_i hleft
      exact h.setSlot_of_depth hs (fun _ => Nat.pos_of_ne_zero hleft) rfl

theorem Accounted.blockingBegin (h : r.Accounted) (id : ThreadId) :
    (r.blockingBegin id).2.Accounted := by
  unfold ThreadRegistry.blockingBegin
  split
  · exact h
  · rename_i slot hs
    refine h.setSlot hs ?_ ?_
    · exact fun hreg => hreg
    · dsimp only
      omega

theorem Accounted.blockingEnd? (h : r.Accounted) {a : RegistryResult Nat}
    (hr : r.blockingEnd? id = some (a, r')) : r'.Accounted := by
  unfold ThreadRegistry.blockingEnd? at hr
  split at hr
  · cases hr
    exact h
  · rename_i slot hs
    split at hr
    · cases hr
      exact h
    · split at hr
      · cases hr
      · cases hr
        have hle := h.depth_le hs
        refine h.setSlot hs ?_ ?_
        · exact fun hreg => hreg
        · dsimp only
          omega

theorem Accounted.hold (h : r.Accounted) (id : ThreadId) : (r.hold id).2.Accounted := by
  unfold ThreadRegistry.hold
  split
  · exact h
  · rename_i slot hs
    split
    · exact h
    · exact h.setSlot_of_depth hs (fun hreg => hreg) rfl

theorem Accounted.release? (h : r.Accounted) {a : RegistryResult Unit}
    (hr : r.release? id = some (a, r')) : r'.Accounted := by
  unfold ThreadRegistry.release? at hr
  split at hr
  · cases hr
    exact h
  · rename_i slot hs
    split at hr
    · cases hr
      exact h
    · split at hr
      · cases hr
      · cases hr
        exact h.setSlot_of_depth hs (fun hreg => hreg) rfl

theorem Accounted.park (h : r.Accounted) (me : ThreadId) : (r.park me).2.Accounted := by
  unfold ThreadRegistry.park
  split
  · rename_i slot hs
    split
    · exact h.setSlot_of_depth hs (fun hreg => hreg) rfl
    · exact h
  · exact h

theorem Accounted.unpark? (h : r.Accounted) (hr : r.unpark? me = some r') : r'.Accounted := by
  unfold ThreadRegistry.unpark? at hr
  split at hr
  · cases hr
  · split at hr
    · rename_i slot hs
      cases hr
      exact h.setSlot_of_depth hs (fun hreg => hreg) rfl
    · cases hr
      exact h

/-- Whoever is the collector, and whatever was given up. -/
theorem Accounted.collector (h : r.Accounted) (collector : Option ThreadId) (stalled : Nat) :
    Accounted { r with collector, pausePending := collector.isSome, stalled } :=
  ⟨h.nodup, h.registered, h.outstanding, rfl⟩

theorem Accounted.beginPause (h : r.Accounted) (me : ThreadId) : (r.beginPause me).2.Accounted := by
  unfold ThreadRegistry.beginPause
  split
  · exact h
  · exact h.collector (some me) r.stalled

theorem Accounted.endPause (h : r.Accounted) : r.endPause.Accounted := h.collector none r.stalled

theorem Accounted.refusePause (h : r.Accounted) : r.refusePause.2.Accounted :=
  ⟨h.nodup, h.registered, h.outstanding, h.pending⟩

theorem Accounted.abandonPause (h : r.Accounted) (me : ThreadId) :
    (r.abandonPause me).2.Accounted := by
  unfold ThreadRegistry.abandonPause
  split
  · exact h
  · exact h.collector none (r.stalled + 1)

/-! ## 3. What is taken from the counters -/

/-- **Nothing is taken from a counter that it does not have**: a count that was taken off can be put
    on again. -/
structure Covered (r : ThreadRegistry) : Prop where
  /-- A registration, and with the last one the brackets of the thread, -/
  unregister : ∀ me slot n r', r.slot? me = some slot → r.unregister me = (.ok n, r') →
    n + 1 = slot.registrations ∧
      (n = 0 → r'.outstanding + slot.blockingDepth = r.outstanding)
  /-- and a bracket. -/
  blockingEnd : ∀ id slot n r', r.slot? id = some slot → r.blockingEnd? id = some (.ok n, r') →
    n + 1 = slot.blockingDepth ∧ r'.outstanding + 1 = r.outstanding

theorem Accounted.covered (h : r.Accounted) : r.Covered := by
  refine ⟨fun me slot n r' hs hr => ?_, fun id slot n r' hs hr => ?_⟩
  · have hreg := h.registrations hs
    have hdepth := h.depth_le hs
    unfold ThreadRegistry.unregister at hr
    rw [hs] at hr
    dsimp only at hr
    split at hr
    · cases hr
      exact ⟨by omega, fun _ => Nat.sub_add_cancel hdepth⟩
    · cases hr
      exact ⟨by omega, by omega⟩
  · have hdepth := h.depth_le hs
    unfold ThreadRegistry.blockingEnd? at hr
    rw [hs] at hr
    dsimp only at hr
    split at hr
    · cases hr
    · split at hr
      · cases hr
      · cases hr
        exact ⟨by omega, Nat.sub_add_cancel (by omega)⟩

/-! ## 4. Refusals -/

theorem unregister_error {e : ThreadError} (h : r.unregister me = (.error e, r')) : r' = r := by
  unfold unregister at h
  split at h
  · cases h
    rfl
  · dsimp only at h
    split at h <;> cases h

theorem blockingBegin_error {e : ThreadError} (h : r.blockingBegin id = (.error e, r')) :
    r' = r := by
  unfold blockingBegin at h
  split at h
  · cases h
    rfl
  · cases h

theorem hold_error {e : ThreadError} (h : r.hold id = (.error e, r')) : r' = r := by
  unfold hold at h
  split at h
  · cases h
    rfl
  · split at h
    · cases h
      rfl
    · cases h

theorem blockingEnd?_error {e : ThreadError} (h : r.blockingEnd? id = some (.error e, r')) :
    r' = r := by
  unfold blockingEnd? at h
  split at h
  · cases h
    rfl
  · split at h
    · cases h
      rfl
    · split at h <;> cases h

theorem release?_error {e : ThreadError} (h : r.release? id = some (.error e, r')) : r' = r := by
  unfold release? at h
  split at h
  · cases h
    rfl
  · split at h
    · cases h
      rfl
    · split at h <;> cases h

end EmbeddedVm.ThreadRegistry
