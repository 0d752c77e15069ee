import EmbeddedVm.Proofs.Machine.Collection

/-!
# Handles in reach refer to what was allocated

A machine that is alike to itself is one whose handles all refer to a text, so the reading of a
swept slot, which would give an empty text or null, never happens. More than that, a text never
changes while its handle is in reach (`Resolves`): an instruction changes no text and brings no
handle into reach, and a new string gets a handle that nothing in reach has.
-/

namespace EmbeddedVm.Machine

variable {ν : Type} {ctx : Context ν}

/-! ## 1. Machines alike to themselves -/

/-- A handle on the stack or in a static field. -/
theorem mem_roots {m : Machine} {r : Handle} :
    r ∈ m.roots ↔ (∃ fields ∈ m.store.statics, ∃ v ∈ fields, v.handle? = some r) ∨
      ∃ v ∈ m.stack, v.handle? = some r := by
  unfold roots
  rw [List.mem_append, List.mem_flatMap, List.mem_filterMap]
  simp only [List.mem_filterMap, Array.mem_toList_iff]

/-- Related by a relation that roots of the first machine satisfy. -/
theorem Alike.self {m₁ m₂ : Machine} (h : m₁.Alike m₂) {S : Handle → Handle → Prop}
    (hS : ∀ r ∈ m₁.roots, S r r) : Beside .same S m₁.store.heap m₁.store.heap m₁ m₁ :=
  ⟨rfl, rfl,
    h.store.statics.self fun fields hf v hv r hr =>
      hS r (mem_roots.mpr (.inl ⟨fields, hf, v, hv, hr⟩)),
    h.stack.self fun v hv _ hvw => hvw.self fun r hr => hS r (mem_roots.mpr (.inr ⟨v, hv, hr⟩)),
    rfl, rfl, Pairing.framesAlike_same.mpr rfl⟩

theorem Alike.refl_left {m₁ m₂ : Machine} (h : m₁.Alike m₂) : m₁.Alike m₁ :=
  Beside.alike (h.self (S := Handle.Any) fun _ _ => trivial) h.store.tidy_left h.store.tidy_left

/-- Every root of a machine beside another refers to a text and is related to some handle. -/
theorem Beside.of_root {S : Handle → Handle → Prop} {h₁ h₂ : Heap} {m₁ m₂ : Machine}
    (h : Beside .same S h₁ h₂ m₁ m₂) {r : Handle} (hr : r ∈ m₁.roots) :
    (∃ r', S r r') ∧ ∃ text, m₁.store.heap.get? r = some text := by
  rw [h.left]
  rcases mem_roots.mp hr with ⟨fields, hf, v, hv, hr⟩ | ⟨v, hv, hr⟩
  · obtain ⟨i, hi⟩ := Array.mem_iff_getElem?.mp hf
    obtain ⟨j, hj⟩ := Array.mem_iff_getElem?.mp hv
    rcases Pairing.lookup_abreast h.statics i j with ⟨x, w, hx, -, hxw⟩ | ⟨hx, -⟩
    · rw [hi, Option.bind_some, hj] at hx
      cases hx
      exact hxw.of_handle hr
    · rw [hi, Option.bind_some, hj] at hx
      cases hx
  · obtain ⟨i, hi⟩ := Array.mem_iff_getElem?.mp hv
    rcases h.stack.lookup i with ⟨x, w, hx, -, hxw⟩ | ⟨hx, -⟩
    · rw [hi] at hx
      cases hx
      exact hxw.of_handle hr
    · rw [hi] at hx
      cases hx

/-! ## 2. Texts stay while their handles are in reach -/

/-- **A new string gets a handle that nothing in reach has**, and every text in reach stays, whether
    or not a collection came first. -/
structure Allocates (m : Machine) (text : String) (m' : Machine) (r : Handle) : Prop where
  fresh : r ∉ m.roots
  stack : m'.stack = m.stack.push (.string r)
  statics : m'.store.statics = m.store.statics
  text : m'.store.heap.get? r = some text
  kept : ∀ q ∈ m.roots, m'.store.heap.get? q = m.store.heap.get? q

theorem Alike.allocates {m₁ m₂ m' : Machine} (h : m₁.Alike m₂) {text : String}
    (hp : (m₁.pushScalar (.string text) : Run ν Machine).Ends m') :
    ∃ r, m₁.Allocates text m' r := by
  have live {r : Handle} (hr : r ∈ m₁.roots) : ∃ t, m₁.store.heap.get? r = some t :=
    (h.beside.of_root hr).2
  -- allocation in any heap that keeps the texts of the roots
  have key {heap : Heap} (ht : heap.Tidy)
      (hkept : ∀ r ∈ m₁.roots, heap.get? r = m₁.store.heap.get? r) :
      ∃ r, m₁.Allocates text
        (Machine.pushText { m₁ with store := { m₁.store with heap } } text) r := by
    refine ⟨(heap.alloc text).2, fun hr => ?_, rfl, rfl, Heap.get?_new ht text, fun q hq => ?_⟩
    · obtain ⟨t, hlive⟩ := live hr
      rw [← hkept _ hr, Heap.get?_of_fresh ht] at hlive
      cases hlive
    · obtain ⟨t, hlive⟩ := live hq
      rw [hlive]
      exact Heap.get?_alloc_of_some ht ((hkept q hq).trans hlive)
  have plain := key h.store.tidy_left fun _ _ => rfl
  unfold pushScalar at hp
  dsimp only at hp
  split at hp
  · cases hp with
    | pause answer hp =>
        cases answer with
        | none =>
            rw [Run.ends_done.mp hp]
            refine key (h.store.tidy_left.collect _) fun r hr => ?_
            rw [h.store.tidy_left.get?_collect, if_pos hr]
        | some n =>
            rw [Run.ends_done.mp hp]
            exact plain
  · rw [Run.ends_done.mp hp]
    exact plain

/-- **What can be read at a machine and behind its next instruction is what was allocated.** -/
structure Resolves (ctx : Context ν) (m : Machine) : Prop where
  /-- Every handle in reach refers to a text. -/
  live : ∀ r ∈ m.roots, ∃ text, m.store.heap.get? r = some text
  /-- The next instruction changes no text, and brings no handle into reach. -/
  step : ∀ effect m₁, (Machine.step ctx).run m = .ok effect m₁ →
    m₁.store.heap = m.store.heap ∧ ∀ r ∈ m₁.roots, r ∈ m.roots
  /-- A string allocated behind it is new, and takes no text from any handle in reach. -/
  alloc : ∀ effect m₁ text m₂, (Machine.step ctx).run m = .ok effect m₁ →
    (m₁.pushScalar (.string text) : Run ν Machine).Ends m₂ → ∃ r, m₁.Allocates text m₂ r

/-- The machine behind an instruction, beside itself. -/
theorem Alike.step_self {m m' m₁ : Machine} (h : m.Alike m') {effect : Effect ν}
    (hs : (Machine.step ctx).run m = .ok effect m₁) :
    Beside .same (fun r _ => r ∈ m.roots) m.store.heap m.store.heap m₁ m₁ := by
  have hstep : Matched .same (fun r _ => r ∈ m.roots) m.store.heap m.store.heap (· = ·)
      ((step ctx).run m) ((step ctx).run m) :=
    agree_step (Pairing.fits_same ctx) m m (h.self fun _ hr => hr)
  rw [hs] at hstep
  cases hstep with
  | ok _ hm => exact hm

theorem Alike.step {m m' m₁ : Machine} (h : m.Alike m') {effect : Effect ν}
    (hs : (Machine.step ctx).run m = .ok effect m₁) : m₁.Alike m₁ := by
  have hstep : Matched .same Handle.Any m.store.heap m.store.heap (· = ·)
      ((Machine.step ctx).run m) ((Machine.step ctx).run m) :=
    agree_step (Pairing.fits_same ctx) m m h.refl_left.beside
  rw [hs] at hstep
  cases hstep with
  | ok _ hm => exact hm.alike h.store.tidy_left h.store.tidy_left

/-- **A machine that is alike to some other reads exactly.** -/
theorem Alike.resolves {m m' : Machine} (h : m.Alike m') : Resolves ctx m where
  live _ hr := (h.beside.of_root hr).2
  step _ _ hs := by
    have hself := h.step_self hs
    refine ⟨hself.left, fun r hr => ?_⟩
    obtain ⟨⟨_, hroot⟩, -⟩ := hself.of_root hr
    exact hroot
  alloc _ _ _ _ hs hp := (h.step hs).allocates hp

/-! ## 3. Calls -/

theorem Alike.pushScalar {m m' : Machine} (h : m.Alike m) {v : Scalar}
    (hp : (m.pushScalar v : Run ν Machine).Ends m') : m'.Alike m' := by
  obtain ⟨_, -, hm'⟩ := (pushScalar_lockstep h v).ends_left hp
  exact hm'.refl_left

theorem Alike.turn {m m' : Machine} (h : m.Alike m) (ht : Turn ctx m m') : m'.Alike m' := by
  cases ht with
  | next hs => exact h.step hs
  | allocate hs hp => exact (h.step hs).pushScalar hp
  | invoke hs answer hp => exact (h.step hs).pushScalar hp

/-- Every machine that a call reaches is alike to itself if the store it starts with is. -/
theorem Alike.reached {store : Store} (h : store.Alike store) {function : Nat} {args : List Scalar}
    {m : Machine} (hm : Reached ctx store function args m) : m.Alike m := by
  obtain ⟨m₀, m₁, hp, henter, hturns⟩ := hm
  have hstart : Machine.Alike { store } { store } := ⟨h, .empty, rfl⟩
  obtain ⟨_, -, hm₀⟩ := (pushScalars_lockstep hstart args).ends_left hp
  have hm₀ := hm₀.refl_left
  have hentered : Matched .same Handle.Any m₀.store.heap m₀.store.heap (fun _ _ => True)
      ((enter ctx function).run m₀) ((enter ctx function).run m₀) :=
    agree_enter (Pairing.fits_same ctx) rfl m₀ m₀ hm₀.beside
  rw [henter] at hentered
  cases hentered with
  | ok _ hm₁ =>
      induction hturns with
      | refl => exact hm₁.alike hm₀.store.tidy_left hm₀.store.tidy_left
      | tail _ ht ih => exact ih.turn ht

end EmbeddedVm.Machine
