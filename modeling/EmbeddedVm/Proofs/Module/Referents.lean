import EmbeddedVm.Proofs.Module.Names

/-!
# What the operands of a body refer to

A body names nothing. It refers to strings, functions, static fields and imports by number, and
what stands there is in the tables of its module: `Module.referent?` reads an operand in them. So
the same body can mean different things in two modules, and modules can be numbered differently and
still be `Synonymous`: every operand of their bodies refers to the same in both, they start with the
same function, and what both declare has the same kind.
-/

namespace EmbeddedVm

/-! ## 1. Operands -/

/-- What an operand refers to, whatever its number. -/
inductive Referent where
  | text (text : String)
  | function (name : String)
  | field (cls field : String)
  | native (name : String)
deriving DecidableEq, Repr

/-- The instructions of a function; none if its body does not decode. -/
def Function.instructions (f : Function) : List Instruction :=
  match Instruction.decodeBody f.code with
  | .ok body => body.map (·.2)
  | .error _ => []

namespace Module

/-- The names of the class and of the static field that stand at these indices. -/
def fieldName? (m : Module) (cls field : Nat) : Option (String × String) := do
  let c ← m.classes[cls]?
  let f ← c.statics[field]?
  some (c.name, f.name)

/-- **What the operand of an instruction refers to**, read in the tables of a module. -/
def referent? (m : Module) : Instruction → Option Referent
  | .pushString index => (m.strings[index.toNat]?).map .text
  | .call function | .callback _ function =>
    (m.functions[function.toNat]?).map fun f => .function f.name
  | .loadStatic cls field | .storeStatic cls field =>
    (m.fieldName? cls.toNat field.toNat).map fun n => .field n.1 n.2
  | .callNative native _ => (m.natives[native.toNat]?).map .native
  | .simple _ | .pushInt _ | .pushFloat _ | .loadLocal _ | .storeLocal _ | .jump _ _ => none

/-- **Modules whose bodies mean the same**, however they are numbered. -/
structure Synonymous (m m' : Module) : Prop where
  /-- Every operand refers to the same. -/
  operands : ∀ f ∈ m.functions, ∀ i ∈ f.instructions, m.referent? i = m'.referent? i
  /-- The function to start with has the same name. -/
  entry : m.entryFunction?.map (·.name) = m'.entryFunction?.map (·.name)
  /-- Static fields of both have the same kind. -/
  kinds : ∀ c ∈ m.classes, ∀ f ∈ c.statics, ∀ c' ∈ m'.classes, c'.name = c.name →
    ∀ f' ∈ c'.statics, f'.name = f.name → f'.kind? = f.kind?

/-! ## 2. Static fields by index -/

theorem fieldName?_eq_some {m : Module} {cls field : Nat} {n : String × String} :
    m.fieldName? cls field = some n ↔
      ∃ c f, m.classes[cls]? = some c ∧ c.statics[field]? = some f ∧ n = (c.name, f.name) := by
  unfold fieldName?
  constructor
  · intro h
    obtain ⟨c, hc, h⟩ := Option.bind_eq_some_iff.mp h
    obtain ⟨f, hf, h⟩ := Option.bind_eq_some_iff.mp h
    exact ⟨c, f, hc, hf, (Option.some.inj h).symm⟩
  · rintro ⟨c, f, hc, hf, rfl⟩
    rw [hc, Option.bind_eq_bind, Option.bind_some, hf]
    rfl

/-- **Where names are distinct, a static field stands at one place only.** -/
theorem WellNamed.fieldName?_inj {m : Module} (h : m.WellNamed) {c f c' f' : Nat}
    {n : String × String} (hn : m.fieldName? c f = some n) (hn' : m.fieldName? c' f' = some n) :
    c = c' ∧ f = f' := by
  obtain ⟨C, F, hC, hF, rfl⟩ := fieldName?_eq_some.mp hn
  obtain ⟨C', F', hC', hF', heq⟩ := fieldName?_eq_some.mp hn'
  obtain ⟨hcls, hfield⟩ := Prod.mk.inj heq
  have hi := (findIdx?_eq_some h.classes).mpr ⟨C, hC, rfl⟩
  have hj := (findIdx?_eq_some h.classes).mpr ⟨C', hC', hcls.symm⟩
  obtain rfl : c = c' := Option.some.inj (hi.symm.trans hj)
  rw [hC] at hC'
  cases hC'
  have hstatics := (h.members C (List.mem_of_getElem? hC)).statics
  have hi := (findIdx?_eq_some hstatics).mpr ⟨F, hF, rfl⟩
  have hj := (findIdx?_eq_some hstatics).mpr ⟨F', hF', hfield.symm⟩
  exact ⟨rfl, Option.some.inj (hi.symm.trans hj)⟩

end Module

end EmbeddedVm
