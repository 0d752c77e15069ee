import EmbeddedVm.Proofs.Machine.Alike
import Mathlib.Data.List.Forall2

/-!
# Modules that stand for each other

Two modules may number their functions and their static fields differently and still mean the same.
A `Pairing` tells which function of one stands for which of the other, and which static field for
which. It `Fits` two contexts if paired functions are linked alike and every operand in them refers
to the same on both sides. Every module is paired with itself, index by index (`Pairing.same`), and
then only the heaps can differ.
-/

namespace EmbeddedVm

/-! ## 1. Pairings -/

/-- **Which functions and which static fields stand for each other**, by index on either side. -/
structure Pairing where
  function : Nat → Nat → Prop
  /-- Static fields, each by the indices of its class and of the field. -/
  field : Nat → Nat → Nat → Nat → Prop
  /-- Static fields whose values are related wherever they are paired. -/
  statics : (Value → Value → Prop) → Array (Array Value) → Array (Array Value) → Prop
  /-- Paired fields hold related values, or there is neither. -/
  lookup : ∀ {R : Value → Value → Prop} {a b : Array (Array Value)} {c f c' f' : Nat},
    statics R a b → field c f c' f' →
      (∃ v w, a[c]?.bind (·[f]?) = some v ∧ b[c']?.bind (·[f']?) = some w ∧ R v w) ∨
      (a[c]?.bind (·[f]?) = none ∧ b[c']?.bind (·[f']?) = none)
  /-- Paired fields may be written at once. -/
  store : ∀ {R : Value → Value → Prop} {a b : Array (Array Value)} {c f c' f' : Nat} {v w : Value},
    statics R a b → field c f c' f' → R v w →
      statics R (a.modify c (·.setIfInBounds f v)) (b.modify c' (·.setIfInBounds f' w))
  imp : ∀ {R R' : Value → Value → Prop} {a b : Array (Array Value)}, statics R a b →
    (∀ fields ∈ a, ∀ v ∈ fields, ∀ fields' ∈ b, ∀ w ∈ fields', R v w → R' v w) → statics R' a b

namespace Pairing

/-- A static field, found in both of two arrangements or in none. -/
theorem lookup_abreast {R : Value → Value → Prop} {a b : Array (Array Value)}
    (h : Abreast (Abreast R) a b) (cls field : Nat) :
    (∃ v w, a[cls]?.bind (·[field]?) = some v ∧ b[cls]?.bind (·[field]?) = some w ∧ R v w) ∨
      (a[cls]?.bind (·[field]?) = none ∧ b[cls]?.bind (·[field]?) = none) := by
  rcases h.lookup cls with ⟨x, y, hx, hy, hxy⟩ | ⟨hx, hy⟩
  · rw [hx, hy]
    exact hxy.lookup field
  · rw [hx, hy]
    exact .inr ⟨rfl, rfl⟩

/-- A module and itself. -/
def same : Pairing where
  function := (· = ·)
  field c f c' f' := c = c' ∧ f = f'
  statics R := Abreast (Abreast R)
  lookup := by
    rintro R a b c f _ _ h ⟨rfl, rfl⟩
    exact lookup_abreast h c f
  store := by
    rintro R a b c f _ _ v w h ⟨rfl, rfl⟩ hvw
    exact h.modify c fun _ _ hf => hf.setIfInBounds f hvw
  imp h hR := h.imp fun fields hf fields' hf' h => h.imp fun v hv w hw =>
    hR fields hf v hv fields' hf' w hw

/-! ## 2. Contexts -/

variable {ν : Type} {P : Pairing} {c₁ c₂ : Context ν}

/-- An instruction whose operands refer to the same in two contexts. -/
def Aligned (P : Pairing) (c₁ c₂ : Context ν) : Instruction → Prop
  | .pushString index =>
    c₁.image.module.strings[index.toNat]? = c₂.image.module.strings[index.toNat]?
  | .loadStatic cls field => P.field cls.toNat field.toNat cls.toNat field.toNat
  | .storeStatic cls field =>
    P.field cls.toNat field.toNat cls.toNat field.toNat ∧
      (c₁.image.static? cls.toNat field.toNat).map (fun p => (p.1.name, p.2.name, p.2.kind?)) =
        (c₂.image.static? cls.toNat field.toNat).map fun p => (p.1.name, p.2.name, p.2.kind?)
  | .call function | .callback _ function => P.function function.toNat function.toNat
  | .callNative native _ =>
    c₁.image.imports.get? native.toNat = c₂.image.imports.get? native.toNat
  | .simple _ | .pushInt _ | .pushFloat _ | .loadLocal _ | .storeLocal _ | .jump _ _ => True

/-- **Contexts in which paired functions do the same.** -/
structure Fits (P : Pairing) (c₁ c₂ : Context ν) : Prop where
  depth : c₁.maxDepth = c₂.maxDepth
  linked : ∀ {i j : Nat}, P.function i j → c₁.image.functions[i]? = c₂.image.functions[j]?
  /-- A function that is missing is missing at the same index. -/
  missing : ∀ {i j : Nat}, P.function i j → c₁.image.functions[i]? = none → i = j
  aligned : ∀ {i j : Nat} {g : LinkedFunction} {s : Step}, P.function i j →
    c₁.image.functions[i]? = some g → s ∈ g.code → P.Aligned c₁ c₂ s.instruction

/-- A context fits itself. -/
theorem fits_same (ctx : Context ν) : same.Fits ctx ctx where
  depth := rfl
  linked := congrArg (ctx.image.functions[·]?)
  missing h _ := h
  aligned {_ _ _ s} _ _ _ := by
    obtain ⟨i, target⟩ := s
    cases i with
    | pushString | callNative => exact rfl
    | loadStatic => exact ⟨rfl, rfl⟩
    | storeStatic => exact ⟨⟨rfl, rfl⟩, rfl⟩
    | call | callback => exact rfl
    | simple | pushInt | pushFloat | loadLocal | storeLocal | jump => trivial

/-! ## 3. Machines -/

/-- Frames of paired functions that stand at the same place. -/
structure FramesAlike (P : Pairing) (f g : Frame) : Prop where
  function : P.function f.function g.function
  ip : f.ip = g.ip
  base : f.base = g.base
  floor : f.floor = g.floor

/-- Stores that hold the same wherever their modules are paired. -/
structure StoresAlike (P : Pairing) (s₁ s₂ : Store) : Prop where
  tidy_left : s₁.heap.Tidy
  tidy_right : s₂.heap.Tidy
  statics : P.statics (Value.Alike Handle.Any s₁.heap s₂.heap) s₁.statics s₂.statics
  scheduler : s₁.scheduler = s₂.scheduler
  reactor : s₁.reactor = s₂.reactor

/-- **Machines that are at the same point of paired functions.** -/
structure MachinesAlike (P : Pairing) (m₁ m₂ : Machine) : Prop where
  store : P.StoresAlike m₁.store m₂.store
  stack : Abreast (Value.Alike Handle.Any m₁.store.heap m₂.store.heap) m₁.stack m₂.stack
  frames : List.Forall₂ P.FramesAlike m₁.frames m₂.frames

/-- Both heaps give way to others that keep the texts of the static fields. -/
theorem StoresAlike.heaps {s₁ s₂ : Store} (h : P.StoresAlike s₁ s₂) {heap₁ heap₂ : Heap}
    (ht₁ : heap₁.Tidy) (ht₂ : heap₂.Tidy)
    (hl : ∀ fields ∈ s₁.statics, ∀ v ∈ fields, ∀ r text, v.handle? = some r →
      s₁.heap.get? r = some text → heap₁.get? r = some text)
    (hr : ∀ fields ∈ s₂.statics, ∀ v ∈ fields, ∀ r text, v.handle? = some r →
      s₂.heap.get? r = some text → heap₂.get? r = some text) :
    P.StoresAlike { s₁ with heap := heap₁ } { s₂ with heap := heap₂ } :=
  ⟨ht₁, ht₂, P.imp h.statics fun fields hf v hv fields' hf' w hw hvw =>
    hvw.heaps (hl fields hf v hv) (hr fields' hf' w hw), h.scheduler, h.reactor⟩

/-- Frames of the same function at the same place are the same. -/
theorem framesAlike_same {l₁ l₂ : List Frame} : List.Forall₂ same.FramesAlike l₁ l₂ ↔ l₁ = l₂ := by
  have key {f g : Frame} : same.FramesAlike f g ↔ f = g := by
    constructor
    · obtain ⟨_, _, _, _⟩ := f
      obtain ⟨_, _, _, _⟩ := g
      rintro ⟨rfl, rfl, rfl, rfl⟩
      rfl
    · rintro rfl
      exact ⟨rfl, rfl, rfl, rfl⟩
  rw [← List.forall₂_eq_eq_eq]
  exact ⟨fun h => h.imp fun _ _ => key.mp, fun h => h.imp fun _ _ => key.mpr⟩

/-- Where a module is paired with itself, stores differ in their heaps only. -/
theorem storesAlike_same {s₁ s₂ : Store} : same.StoresAlike s₁ s₂ ↔ s₁.Alike s₂ :=
  ⟨fun ⟨h₁, h₂, hs, hc, hr⟩ => ⟨h₁, h₂, hs, hc, hr⟩,
    fun ⟨h₁, h₂, hs, hc, hr⟩ => ⟨h₁, h₂, hs, hc, hr⟩⟩

/-- So do machines. -/
theorem machinesAlike_same {m₁ m₂ : Machine} : same.MachinesAlike m₁ m₂ ↔ m₁.Alike m₂ :=
  ⟨fun h => ⟨storesAlike_same.mp h.store, h.stack, framesAlike_same.mp h.frames⟩,
    fun h => ⟨storesAlike_same.mpr h.store, h.stack, framesAlike_same.mpr h.frames⟩⟩

end Pairing

end EmbeddedVm
