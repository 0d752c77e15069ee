import EmbeddedVm.Proofs.Host.Lockstep
import EmbeddedVm.Proofs.Machine.Agreement
import EmbeddedVm.Proofs.Machine.Turns

/-!
# Calls on two machines

Between instructions the heaps change: a string is allocated, maybe after a collection, and whether
there is one depends on the threshold of the heap and on the other threads. None of this matters.
The roots of a machine hold every handle in it, so a collection leaves it alike to what it was alike
to, and machines that are alike make calls of paired functions in lockstep
(`Pairing.Fits.call_lockstep`). A module is paired with itself, so that holds of machines that
differ in their heaps only.
-/

namespace EmbeddedVm

/-! ## 1. Heaps change, texts do not -/

namespace Pairing

variable {ν : Type} {P : Pairing} {c₁ c₂ : Context ν} {m₁ m₂ : Machine}

theorem MachinesAlike.beside (h : P.MachinesAlike m₁ m₂) :
    Machine.Beside P Handle.Any m₁.store.heap m₂.store.heap m₁ m₂ :=
  ⟨rfl, rfl, h.store.statics, h.stack, h.store.scheduler, h.store.reactor, h.frames⟩

theorem alike_of_beside {h₁ h₂ : Heap} (h : Machine.Beside P Handle.Any h₁ h₂ m₁ m₂)
    (ht₁ : h₁.Tidy) (ht₂ : h₂.Tidy) : P.MachinesAlike m₁ m₂ := by
  obtain ⟨rfl, rfl, hstatics, hstack, hscheduler, hreactor, hframes⟩ := h
  exact ⟨⟨ht₁, ht₂, hstatics, hscheduler, hreactor⟩, hstack, hframes⟩

/-- Both heaps give way to others that keep the texts of all roots. -/
theorem MachinesAlike.heaps (h : P.MachinesAlike m₁ m₂) {heap₁ heap₂ : Heap} (ht₁ : heap₁.Tidy)
    (ht₂ : heap₂.Tidy)
    (hl : ∀ r ∈ m₁.roots, ∀ text, m₁.store.heap.get? r = some text → heap₁.get? r = some text)
    (hr : ∀ r ∈ m₂.roots, ∀ text, m₂.store.heap.get? r = some text → heap₂.get? r = some text) :
    P.MachinesAlike { m₁ with store := { m₁.store with heap := heap₁ } }
      { m₂ with store := { m₂.store with heap := heap₂ } } := by
  have inStatics {m : Machine} {fields : Array Value} {v : Value} {r : Handle}
      (hf : fields ∈ m.store.statics) (hv : v ∈ fields) (hr : v.handle? = some r) : r ∈ m.roots :=
    List.mem_append_left _ (mem_handles hf hv hr)
  have onStack {m : Machine} {v : Value} {r : Handle} (hv : v ∈ m.stack)
      (hr : v.handle? = some r) : r ∈ m.roots :=
    List.mem_append_right _ (List.mem_filterMap.mpr ⟨v, Array.mem_toList_iff.mpr hv, hr⟩)
  refine ⟨h.store.heaps ht₁ ht₂ ?_ ?_, h.stack.imp fun v hv w hw hvw => hvw.heaps ?_ ?_, h.frames⟩
  · exact fun fields hf v hv r text hr => hl r (inStatics hf hv hr) text
  · exact fun fields hf v hv r text hr' => hr r (inStatics hf hv hr') text
  · exact fun r text hr => hl r (onStack hv hr) text
  · exact fun r text hr' => hr r (onStack hw hr') text

/-- A collection keeps the texts of all roots. -/
theorem collect_keeps {m : Machine} (ht : m.store.heap.Tidy) :
    ∀ r ∈ m.roots, ∀ text, m.store.heap.get? r = some text →
      (m.store.heap.collect m.roots).1.get? r = some text := by
  intro r hr text htext
  rw [ht.get?_collect, if_pos hr]
  exact htext

/-- **A collection is not noticed**, on either side. -/
theorem MachinesAlike.collect_left (h : P.MachinesAlike m₁ m₂) :
    P.MachinesAlike m₁.collect m₂ :=
  h.heaps (h.store.tidy_left.collect _) h.store.tidy_right (collect_keeps h.store.tidy_left)
    fun _ _ _ ht => ht

theorem MachinesAlike.collect_right (h : P.MachinesAlike m₁ m₂) :
    P.MachinesAlike m₁ m₂.collect :=
  h.heaps h.store.tidy_left (h.store.tidy_right.collect _) (fun _ _ _ ht => ht)
    (collect_keeps h.store.tidy_right)

/-- The same text, allocated in both heaps, is the same operand. -/
theorem MachinesAlike.pushText (h : P.MachinesAlike m₁ m₂) (text : String) :
    P.MachinesAlike (m₁.pushText text) (m₂.pushText text) := by
  have ht₁ := h.store.tidy_left
  have ht₂ := h.store.tidy_right
  have hboth := h.heaps (ht₁.alloc text) (ht₂.alloc text)
    (fun _ _ _ hr => Heap.get?_alloc_of_some ht₁ hr) fun _ _ _ hr => Heap.get?_alloc_of_some ht₂ hr
  refine ⟨hboth.store, hboth.stack.push ?_, hboth.frames⟩
  exact .string trivial (Heap.get?_new ht₁ text) (Heap.get?_new ht₂ text)

theorem MachinesAlike.push (h : P.MachinesAlike m₁ m₂) {v w : Value}
    (hvw : v.Alike Handle.Any m₁.store.heap m₂.store.heap w) :
    P.MachinesAlike { m₁ with stack := m₁.stack.push v } { m₂ with stack := m₂.stack.push w } :=
  ⟨h.store, h.stack.push hvw, h.frames⟩

/-! ## 2. Scalars become operands -/

/-- A string is pushed after a collection or without one; if either way leads on in lockstep, so
    does pushing it. -/
theorem pushString_lockstep {α : Type} {R : Machine → α → Prop} {m : Machine} {text : String}
    {r : Run ν α} (hc : Run.Lockstep R (.done (m.collect.pushText text)) r)
    (hp : Run.Lockstep R (.done (m.pushText text)) r) :
    Run.Lockstep R (m.pushScalar (.string text)) r := by
  unfold Machine.pushScalar
  dsimp only
  split
  · refine .left fun answer => ?_
    cases answer with
    | none => exact hc
    | some n => exact hp
  · exact hp

/-- **Pushing a scalar goes in lockstep**, wherever it needs a collection first. -/
theorem pushScalar_lockstep (h : P.MachinesAlike m₁ m₂) (v : Scalar) :
    Run.Lockstep P.MachinesAlike (m₁.pushScalar v : Run ν Machine) (m₂.pushScalar v) := by
  cases v with
  | string text =>
      have right {a : Machine} (ha : P.MachinesAlike a m₂) :
          Run.Lockstep P.MachinesAlike (.done (a.pushText text) : Run ν Machine)
            (m₂.pushScalar (.string text)) := by
        unfold Machine.pushScalar
        dsimp only
        split
        · refine .right fun answer => ?_
          cases answer with
          | none => exact .done (ha.collect_right.pushText text)
          | some n => exact .done (ha.pushText text)
        · exact .done (ha.pushText text)
      exact pushString_lockstep (right h.collect_left) (right h)
  | null => exact .done (h.push .null)
  | bool b => exact .done (h.push (.bool b))
  | int n => exact .done (h.push (.int n))
  | float x => exact .done (h.push (.float x))

theorem pushScalars_lockstep (h : P.MachinesAlike m₁ m₂) (args : List Scalar) :
    Run.Lockstep P.MachinesAlike (m₁.pushScalars args : Run ν Machine) (m₂.pushScalars args) := by
  induction args generalizing m₁ m₂ with
  | nil => exact .done h
  | cons v rest ih => exact (pushScalar_lockstep h v).bind fun a b hab => ih hab

/-! ## 3. Calls -/

/-- The same result, and stores that are alike. -/
structure OutcomesAlike (P : Pairing) (o₁ o₂ : Machine.Outcome) : Prop where
  result : o₁.result = o₂.result
  store : P.StoresAlike o₁.store o₂.store

/-- **Runs from machines that are alike go in lockstep.** -/
theorem Fits.run_lockstep (hP : P.Fits c₁ c₂) (h : P.MachinesAlike m₁ m₂) (fuel : Nat) :
    Run.Lockstep P.OutcomesAlike (Machine.run c₁ fuel m₁) (Machine.run c₂ fuel m₂) := by
  induction fuel generalizing m₁ m₂ with
  | zero => exact .exhausted
  | succ fuel ih =>
      have hstep : Machine.Matched P Handle.Any m₁.store.heap m₂.store.heap (· = ·)
          ((Machine.step c₁).run m₁) ((Machine.step c₂).run m₂) :=
        Machine.agree_step hP m₁ m₂ h.beside
      have alike {a b : Machine}
          (hm : Machine.Beside P Handle.Any m₁.store.heap m₂.store.heap a b) :
          P.MachinesAlike a b := alike_of_beside hm h.store.tidy_left h.store.tidy_right
      rw [Machine.run_succ, Machine.run_succ]
      generalize (Machine.step c₁).run m₁ = r₁ at hstep ⊢
      generalize (Machine.step c₂).run m₂ = r₂ at hstep ⊢
      cases hstep with
      | error e hm => exact .done ⟨rfl, (alike hm).store⟩
      | @ok effect _ a b hR hm =>
          cases hR
          cases effect with
          | next => exact ih (alike hm)
          | allocate text =>
              exact (pushScalar_lockstep (alike hm) _).bind fun _ _ hab => ih hab
          | invoke handler name args =>
              refine .invoke fun answer => ?_
              cases answer with
              | ok v => exact (pushScalar_lockstep (alike hm) v).bind fun _ _ hab => ih hab
              | error message =>
                  exact .done ⟨congrArg Except.error (hm.exception hP _), (alike hm).store⟩
          | finish v => exact .done ⟨rfl, (alike hm).store⟩

/-- **Calls of paired functions go in lockstep**, with stores that are alike. -/
theorem Fits.call_lockstep (hP : P.Fits c₁ c₂) {s₁ s₂ : Store} (h : P.StoresAlike s₁ s₂) {i j : Nat}
    (hij : P.function i j) (args : List Scalar) :
    Run.Lockstep P.OutcomesAlike (Machine.call c₁ s₁ i args) (Machine.call c₂ s₂ j args) := by
  unfold Machine.call
  cases hi : c₁.image.functions[i]? with
  | none =>
      obtain rfl := hP.missing hij hi
      rw [← hP.linked hij, hi]
      exact .done ⟨rfl, h⟩
  | some f =>
      rw [← hP.linked hij, hi]
      dsimp only
      split
      · have hstart : P.MachinesAlike { store := s₁ } { store := s₂ } := ⟨h, .empty, .nil⟩
        refine (pushScalars_lockstep hstart args).bind fun m₁ m₂ hm => ?_
        have henter : Machine.Matched P Handle.Any m₁.store.heap m₂.store.heap (fun _ _ => True)
            ((Machine.enter c₁ i).run m₁) ((Machine.enter c₂ j).run m₂) :=
          Machine.agree_enter hP hij m₁ m₂ hm.beside
        generalize (Machine.enter c₁ i).run m₁ = r₁ at henter ⊢
        generalize (Machine.enter c₂ j).run m₂ = r₂ at henter ⊢
        cases henter with
        | error e hm' =>
            exact .done ⟨rfl, (alike_of_beside hm' hm.store.tidy_left hm.store.tidy_right).store⟩
        | ok _ hm' =>
            exact hP.run_lockstep (alike_of_beside hm' hm.store.tidy_left hm.store.tidy_right) _
      · exact .done ⟨rfl, h⟩

end Pairing

/-! ## 4. Machines that differ in their heaps only -/

namespace Machine

variable {ν : Type} {m₁ m₂ : Machine}

theorem Alike.beside (h : m₁.Alike m₂) :
    Beside .same Handle.Any m₁.store.heap m₂.store.heap m₁ m₂ :=
  (Pairing.machinesAlike_same.mpr h).beside

theorem Beside.alike {h₁ h₂ : Heap} (h : Beside .same Handle.Any h₁ h₂ m₁ m₂) (ht₁ : h₁.Tidy)
    (ht₂ : h₂.Tidy) : m₁.Alike m₂ :=
  Pairing.machinesAlike_same.mp (Pairing.alike_of_beside h ht₁ ht₂)

theorem pushScalar_lockstep (h : m₁.Alike m₂) (v : Scalar) :
    Run.Lockstep Alike (m₁.pushScalar v : Run ν Machine) (m₂.pushScalar v) :=
  (Pairing.pushScalar_lockstep (Pairing.machinesAlike_same.mpr h) v).imp
    fun _ _ => Pairing.machinesAlike_same.mp

theorem pushScalars_lockstep (h : m₁.Alike m₂) (args : List Scalar) :
    Run.Lockstep Alike (m₁.pushScalars args : Run ν Machine) (m₂.pushScalars args) :=
  (Pairing.pushScalars_lockstep (Pairing.machinesAlike_same.mpr h) args).imp
    fun _ _ => Pairing.machinesAlike_same.mp

end Machine

end EmbeddedVm
