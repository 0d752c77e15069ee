import EmbeddedVm.Proofs.Machine.Safety

/-!
# What a call keeps of the store

The heap of a store changes with every string; everything else in it changes by elementary changes
only. So a property that neither a change of the heap nor an elementary change breaks is one that no
call breaks, however the call ends and whatever its host answers (`StoreInvariant.call`).
-/

namespace EmbeddedVm.Machine

variable {ν : Type} {ctx : Context ν}

/-- **A property of the store that no part of an instruction breaks.** -/
structure StoreInvariant (ctx : Context ν) (I : Store → Prop) : Prop where
  /-- The heap is of no matter. -/
  heap : ∀ (s : Store) (heap : Heap), I s → I { s with heap }
  /-- Every elementary change keeps the property. -/
  change : ∀ m m' : Machine, Change ctx m m' → I m.store → I m'.store

namespace StoreInvariant

variable {I : Store → Prop}

theorem changes (h : StoreInvariant ctx I) {m m' : Machine} (hm : I m.store)
    (hc : Changes ctx m m') : I m'.store :=
  hc.induct (I := fun m => I m.store) (fun _ _ ha hab => h.change _ _ hab ha) hm

theorem pushScalar (h : StoreInvariant ctx I) {m m' : Machine} {v : Scalar} (hm : I m.store)
    (hp : (m.pushScalar v : Run ν Machine).Ends m') : I m'.store := by
  obtain ⟨heap, w, rfl⟩ := pushScalar_ends hp
  exact h.heap m.store heap hm

theorem pushScalars (h : StoreInvariant ctx I) : ∀ {args : List Scalar} {m m' : Machine},
    I m.store → (m.pushScalars args : Run ν Machine).Ends m' → I m'.store
  | [], m, m', hm, hp => by
      rw [Run.ends_done.mp hp]
      exact hm
  | v :: rest, m, m', hm, hp => by
      obtain ⟨m₁, hv, hp⟩ := Run.ends_bind.mp hp
      exact h.pushScalars (h.pushScalar hm hv) hp

/-- The store behind the fetching of a step is the store before. -/
theorem fetched {m : Machine} (hm : I m.store) : I m.fetched.store := by
  unfold Machine.fetched
  split
  · exact hm
  · exact hm

theorem movedTo {m : Machine} (hm : I m.store) (ip : Nat) : I (m.movedTo ip).store := by
  unfold Machine.movedTo
  split
  · exact hm
  · exact hm

/-- What an instruction leaves has the property. -/
theorem steps (h : StoreInvariant ctx I) {s : Step} {m m' : Machine} {effect : Effect ν}
    (hm : I m.store) (hs : Steps ctx s m effect m') : I m'.store := by
  obtain ⟨m₁, hc, hst⟩ := hs
  have hm₁ : I m₁.store := h.changes hm hc
  cases hst with
  | onward | called | returned | finished => exact hm₁
  | jumped => exact movedTo hm₁ _

/-- After a step that succeeds or fails, the property holds. -/
theorem after_step (h : StoreInvariant ctx I) (hsound : ctx.image.Sound) {m : Machine}
    (hwf : WellFormed ctx m) (hm : I m.store) :
    After (Machine.step ctx) m (fun _ m' => I m'.store) (fun _ m' => I m'.store) := by
  obtain ⟨f, rest, g, s, -, -, -, -, hafter⟩ := hwf.step hsound
  exact hafter.mono (fun _ _ hs => h.steps (fetched hm) hs)
    fun _ _ hf => h.changes (fetched hm) hf.1

theorem turn (h : StoreInvariant ctx I) (hsound : ctx.image.Sound) {m m' : Machine}
    (hwf : WellFormed ctx m) (hm : I m.store) (ht : Turn ctx m m') : I m'.store := by
  have hafter := h.after_step hsound hwf hm
  cases ht with
  | next hstep => exact hafter.ok hstep
  | allocate hstep hp | invoke hstep answer hp => exact h.pushScalar (hafter.ok hstep) hp

theorem closes (h : StoreInvariant ctx I) (hsound : ctx.image.Sound) {m : Machine}
    (hwf : WellFormed ctx m) (hm : I m.store) {o : Outcome} (hc : Closes ctx m o) : I o.store := by
  have hafter := h.after_step hsound hwf hm
  cases hc with
  | raised hstep => exact hafter.error hstep
  | refused hstep message | finished hstep => exact hafter.ok hstep

/-- Turns keep a machine well formed, and the property with it. -/
theorem turns (h : StoreInvariant ctx I) (hsound : ctx.image.Sound) {m m' : Machine}
    (hwf : WellFormed ctx m) (hm : I m.store) (ht : Turns ctx m m') :
    WellFormed ctx m' ∧ I m'.store := by
  induction ht with
  | refl => exact ⟨hwf, hm⟩
  | tail _ ht ih => exact ⟨ih.1.turn hsound ht, h.turn hsound ih.1 ih.2 ht⟩

/-- **However a call of sound code ends, it leaves the property in place.** -/
theorem call (h : StoreInvariant ctx I) (hsound : ctx.image.Sound) {store : Store}
    (hst : ctx.image.Shapes store.statics) (hI : I store) {function : Nat} {args : List Scalar}
    {o : Outcome} (ho : (Machine.call ctx store function args).Ends o) : I o.store := by
  cases over_of_ends ho with
  | missing _ | arity _ _ => exact hI
  | refused hg _ hp henter =>
      exact h.changes (h.pushScalars hI hp) ((after_enter _ hg).error henter).1
  | closed hg hm hc =>
      obtain ⟨m₀, m₁, hp, henter, hturns⟩ := hm
      obtain ⟨rfl, -, -⟩ := (after_enter m₀ hg).ok henter
      have hI₀ : I m₀.store := h.pushScalars hI hp
      have hwf₁ : WellFormed ctx (m₀.entered function _) :=
        Reached.wellFormed hsound hst hg ⟨m₀, _, hp, henter, .refl⟩
      obtain ⟨hwf, hI'⟩ := h.turns hsound hwf₁ hI₀ hturns
      exact h.closes hsound hwf hI' hc

end StoreInvariant

/-- The arrangement of the static fields is one of these properties. -/
theorem storeInvariant_shapes : StoreInvariant ctx fun s => ctx.image.Shapes s.statics where
  heap _ _ h := h
  change _ _ hc h := by
    cases hc with
    | setStatic _ _ => exact shapes_modify h _ _ _
    | _ => exact h

end EmbeddedVm.Machine
