import EmbeddedVm.Threads.Registry

/-!
# Quiet threads stay quiet

While a thread has its pause, or waits for one, no operation on the registry takes the pause from
it, makes a quiet thread loud or registers a thread anew: this is `Steady`, and every operation is
steady that neither begins nor ends a pause. The reason is one for all that replace a slot, in
`Steady.setSlot`: where another thread's pause is under way, the new slot is quiet if the old one
was.
-/

namespace EmbeddedVm.ThreadRegistry

variable {r r' : ThreadRegistry} {id me : ThreadId} {slot slot' : ThreadSlot}

/-! ## 1. What a pause waits for -/

theorem mem_of_slot? (h : r.slot? id = some slot) : (id, slot) ∈ r.threads := by
  obtain ⟨before, after, heq, -⟩ := List.lookup_eq_some_iff.mp h
  rw [heq]
  exact List.mem_append_right _ List.mem_cons_self

theorem isRegistered_iff : r.isRegistered id ↔ ∃ slot, (id, slot) ∈ r.threads := by
  unfold isRegistered slot?
  rw [List.lookup_isSome_iff]
  constructor
  · rintro ⟨⟨i, slot⟩, hmem, heq⟩
    obtain rfl := eq_of_beq heq
    exact ⟨slot, hmem⟩
  · rintro ⟨slot, hmem⟩
    exact ⟨(id, slot), hmem, beq_self_eq_true id⟩

theorem blocks_eq_true : r.blocks me = true ↔ ∃ c, r.collector = some c ∧ c ≠ me := by
  unfold blocks
  split
  · rename_i c hc
    rw [hc]
    exact ⟨fun h => ⟨c, rfl, bne_iff_ne.mp h⟩, fun ⟨_, h, hne⟩ => by
      cases h
      exact bne_iff_ne.mpr hne⟩
  · rename_i hc
    rw [hc]
    exact ⟨nofun, nofun⟩

/-- **A pause waits for nobody** once every other thread is quiet. -/
theorem unresponsive_eq_zero :
    r.unresponsive me = 0 ↔ ∀ i slot, (i, slot) ∈ r.threads → i ≠ me → slot.isQuiet = true := by
  unfold unresponsive
  rw [List.countP_eq_zero]
  constructor
  · intro h i slot hmem hne
    have := h _ hmem
    simpa [hne] using this
  · rintro h ⟨i, slot⟩ hmem
    by_cases hi : i = me
    · simp [hi]
    · simp [h i slot hmem hi]

/-- What it is to be quiet, spelt out. -/
theorem isQuiet_iff :
    slot.isQuiet = true ↔ slot.parked = true ∨ slot.held = true ∨ 0 < slot.blockingDepth := by
  simp [ThreadSlot.isQuiet, or_assoc]

/-! ## 2. Operations that leave a pause alone -/

/-- **An operation that leaves a pause alone**, from the registry before to the registry after. -/
structure Steady (r r' : ThreadRegistry) : Prop where
  collector : r'.collector = r.collector
  /-- If all other threads are quiet, they still are. -/
  quiet : ∀ c, r.collector = some c → r.unresponsive c = 0 → r'.unresponsive c = 0
  /-- No other thread is registered anew. -/
  registered : ∀ c, r.collector = some c → ∀ u, u ≠ c → r'.isRegistered u → r.isRegistered u

theorem Steady.refl : Steady r r := ⟨rfl, fun _ _ h => h, fun _ _ _ _ h => h⟩

/-- The count of brackets plays no part. -/
theorem Steady.outstanding (h : Steady r r') (n : Nat) : Steady r { r' with outstanding := n } :=
  ⟨h.collector, h.quiet, h.registered⟩

/-- A slot is replaced: what is quiet stays quiet where a pause asks for it. -/
theorem Steady.setSlot (h : r.slot? id = some slot)
    (hq : r.blocks id = true → slot.isQuiet = true → slot'.isQuiet = true) :
    Steady r (r.setSlot id slot') := by
  have hmem := mem_of_slot? h
  -- an entry of the new table is an old one, or stands for the old slot
  have hold {i : ThreadId} {s : ThreadSlot} (hs : (i, s) ∈ (r.setSlot id slot').threads) :
      (i, s) ∈ r.threads ∨ (i = id ∧ s = slot') := by
    obtain ⟨⟨j, t⟩, hj, heq⟩ := List.mem_map.mp hs
    dsimp only at heq
    split at heq
    · rename_i hid
      cases heq
      exact .inr ⟨eq_of_beq hid, rfl⟩
    · cases heq
      exact .inl hj
  refine ⟨rfl, fun c hc hall => ?_, fun c _ u _ hu => ?_⟩
  · rw [unresponsive_eq_zero] at hall ⊢
    intro i s hs hne
    rcases hold hs with hin | ⟨rfl, rfl⟩
    · exact hall i s hin hne
    · exact hq (blocks_eq_true.mpr ⟨c, hc, hne.symm⟩) (hall _ _ hmem hne)
  · rw [isRegistered_iff] at hu ⊢
    obtain ⟨s, hs⟩ := hu
    rcases hold hs with hin | ⟨rfl, rfl⟩
    · exact ⟨s, hin⟩
    · exact ⟨slot, hmem⟩

/-- Threads are taken away. -/
theorem Steady.filter (p : ThreadId × ThreadSlot → Bool) :
    Steady r { r with threads := r.threads.filter p } := by
  refine ⟨rfl, fun c _ hall => ?_, fun c _ u _ hu => ?_⟩
  · rw [unresponsive_eq_zero] at hall ⊢
    exact fun i s hs => hall i s (List.mem_filter.mp hs).1
  · rw [isRegistered_iff] at hu ⊢
    obtain ⟨s, hs⟩ := hu
    exact ⟨s, (List.mem_filter.mp hs).1⟩

/-- A thread is registered that no pause keeps out. -/
theorem Steady.append (h : r.blocks me = false) :
    Steady r { r with threads := r.threads ++ [(me, slot)] } := by
  have hme {c : ThreadId} (hc : r.collector = some c) : c = me := by
    refine Decidable.byContradiction fun hne => ?_
    rw [blocks_eq_true.mpr ⟨c, hc, hne⟩] at h
    cases h
  -- so the new entry is one of the collector's own
  have hold {c i : ThreadId} {s : ThreadSlot} (hc : r.collector = some c) (hne : i ≠ c)
      (hs : (i, s) ∈ r.threads ++ [(me, slot)]) : (i, s) ∈ r.threads := by
    rcases List.mem_append.mp hs with hin | hin
    · exact hin
    · cases List.mem_singleton.mp hin
      exact absurd (hme hc).symm hne
  refine ⟨rfl, fun c hc hall => ?_, fun c hc u hne hu => ?_⟩
  · rw [unresponsive_eq_zero] at hall ⊢
    exact fun i s hs hne => hall i s (hold hc hne hs) hne
  · rw [isRegistered_iff] at hu ⊢
    obtain ⟨s, hs⟩ := hu
    exact ⟨s, hold hc hne hs⟩

/-! ## 3. One by one -/

theorem register?_steady {n : Nat} (h : r.register? me = some (n, r')) : Steady r r' := by
  unfold register? at h
  split at h
  · rename_i slot hslot
    cases h
    exact .setSlot hslot fun _ hq => hq
  · split at h
    · cases h
    · rename_i hb
      cases h
      exact .append (by simpa using hb)

theorem unregister_steady : Steady r (r.unregister me).2 := by
  unfold unregister
  split
  · exact .refl
  · rename_i slot hslot
    dsimp only
    split
    · exact (Steady.filter _).outstanding _
    · exact .setSlot hslot fun _ hq => hq

theorem blockingBegin_steady : Steady r (r.blockingBegin id).2 := by
  unfold blockingBegin
  split
  · exact .refl
  · rename_i slot hslot
    refine (Steady.setSlot hslot fun _ _ => ?_).outstanding _
    exact isQuiet_iff.mpr (.inr (.inr (Nat.succ_pos _)))

/-- The last bracket stays open while a pause asks for it; under any other there is one more. -/
theorem blockingEnd?_steady {a : RegistryResult Nat} (h : r.blockingEnd? id = some (a, r')) :
    Steady r r' := by
  unfold blockingEnd? at h
  split at h
  · cases h
    exact .refl
  · rename_i slot hslot
    split at h
    · cases h
      exact .refl
    · rename_i hzero
      split at h
      · cases h
      · rename_i hlast
        cases h
        refine (Steady.setSlot hslot fun hb _ => ?_).outstanding _
        have hone : slot.blockingDepth ≠ 1 := by
          intro hone
          exact hlast (by rw [hone, hb]; rfl)
        exact isQuiet_iff.mpr (.inr (.inr (by dsimp only; omega)))

theorem hold_steady : Steady r (r.hold id).2 := by
  unfold hold
  split
  · exact .refl
  · rename_i slot hslot
    split
    · exact .refl
    · exact .setSlot hslot fun _ _ => isQuiet_iff.mpr (.inr (.inl rfl))

/-- A thread is released while a pause asks for it only if a bracket keeps it quiet. -/
theorem release?_steady {a : RegistryResult Unit} (h : r.release? id = some (a, r')) :
    Steady r r' := by
  unfold release? at h
  split at h
  · cases h
    exact .refl
  · rename_i slot hslot
    split at h
    · cases h
      exact .refl
    · split at h
      · cases h
      · rename_i hlast
        cases h
        refine .setSlot hslot fun hb _ => isQuiet_iff.mpr (.inr (.inr ?_))
        refine Nat.pos_of_ne_zero fun hzero => hlast ?_
        rw [hzero, hb]
        rfl

theorem park_steady : Steady r (r.park me).2 := by
  unfold park
  split
  · rename_i slot hslot
    split
    · exact .setSlot hslot fun _ _ => isQuiet_iff.mpr (.inl rfl)
    · exact .refl
  · exact .refl

theorem unpark?_steady (h : r.unpark? me = some r') : Steady r r' := by
  unfold unpark? at h
  split at h
  · cases h
  · rename_i hb
    split at h
    · rename_i slot hslot
      cases h
      exact .setSlot hslot fun hblocks => absurd hblocks hb
    · cases h
      exact .refl

theorem refusePause_steady : Steady r r.refusePause.2 := ⟨rfl, fun _ _ h => h, fun _ _ _ _ h => h⟩

end EmbeddedVm.ThreadRegistry
