import EmbeddedVm.Module.Verify
import EmbeddedVm.Proofs.Checks
import Mathlib.Data.List.Nodup

/-!
# Names in a verified module

The verifier meets every name once and remembers those it has seen. What that establishes is
`WellNamed`: functions, classes, and the static fields and the methods of each class have distinct
names, and every method is bound to a function that exists. Where names are distinct the first
entry with a name is the only one, so looking a name up and standing at an index are the same thing
(`findIdx?_eq_some`).
-/

namespace EmbeddedVm

/-! ## 1. Looking up by a name that occurs once -/

/-- **Where names are distinct, a name finds the index at which it stands.** -/
theorem findIdx?_eq_some {α : Type} {key : α → String} {l : List α} (h : (l.map key).Nodup)
    {name : String} {i : Nat} :
    l.findIdx? (key · == name) = some i ↔ ∃ a, l[i]? = some a ∧ key a = name := by
  rw [List.findIdx?_eq_some_iff_getElem]
  constructor
  · rintro ⟨hi, hname, -⟩
    exact ⟨l[i], List.getElem?_eq_getElem hi, beq_iff_eq.mp hname⟩
  · rintro ⟨a, ha, rfl⟩
    obtain ⟨hi, rfl⟩ := List.getElem?_eq_some_iff.mp ha
    refine ⟨hi, beq_self_eq_true _, fun j hj hfound => ?_⟩
    -- an earlier entry of that name would be the same one
    have hj' : j < (l.map key).length := by rw [List.length_map]; omega
    have hi' : i < (l.map key).length := by rw [List.length_map]; omega
    have hsame : (l.map key)[j] = (l.map key)[i] := by
      rw [List.getElem_map, List.getElem_map]
      exact beq_iff_eq.mp hfound
    exact absurd (h.getElem_inj_iff.mp hsame) (Nat.ne_of_lt hj)

namespace Module

/-! ## 2. What the verifier establishes of names -/

/-- In a class, names are distinct and methods are bound to one of so many functions. -/
structure ClassNamed (functions : Nat) (c : Class) : Prop where
  statics : (c.statics.map (·.name)).Nodup
  methods : (c.methods.map (·.name)).Nodup
  bound : ∀ b ∈ c.methods, b.function.toNat < functions

/-- **Names are distinct where they have to be, and methods are bound.** -/
structure WellNamed (m : Module) : Prop where
  functions : (m.functions.map (·.name)).Nodup
  classes : (m.classes.map (·.name)).Nodup
  members : ∀ c ∈ m.classes, ClassNamed m.functions.length c

/-- The entries have names of their own, and none of these has been seen. -/
def New {α : Type} (key : α → String) (seen : List String) (l : List α) : Prop :=
  (l.map key).Nodup ∧ ∀ a ∈ l, key a ∉ seen

section New

variable {α : Type} {key : α → String} {seen : List String} {a : α} {l rest : List α}

theorem new_nil : New key seen [] :=
  ⟨List.nodup_nil, fun _ ha => absurd ha List.not_mem_nil⟩

/-- Names are new one by one: the first is new, and the others are where it has been seen too. -/
theorem new_cons : New key seen (a :: rest) ↔ key a ∉ seen ∧ New key (key a :: seen) rest := by
  constructor
  · rintro ⟨hnodup, hunseen⟩
    obtain ⟨hhead, htail⟩ := List.nodup_cons.mp hnodup
    refine ⟨hunseen a List.mem_cons_self, htail, fun b hb hseen => ?_⟩
    rcases List.mem_cons.mp hseen with hba | hb'
    · exact hhead (hba ▸ List.mem_map_of_mem hb)
    · exact hunseen b (List.mem_cons_of_mem _ hb) hb'
  · rintro ⟨hhead, hnodup, hunseen⟩
    refine ⟨List.nodup_cons.mpr ⟨fun hmem => ?_, hnodup⟩, fun b hb => ?_⟩
    · obtain ⟨b, hb, hab⟩ := List.mem_map.mp hmem
      exact hunseen b hb (by rw [hab]; exact List.mem_cons_self)
    · rcases List.mem_cons.mp hb with rfl | hb
      · exact hhead
      · exact fun hseen => hunseen b hb (List.mem_cons_of_mem _ hseen)

/-- Where nothing has been seen, names are new exactly when they are distinct. -/
theorem new_unseen : New key [] l ↔ (l.map key).Nodup :=
  ⟨And.left, fun h => ⟨h, fun _ _ => List.not_mem_nil⟩⟩

end New

theorem checkFunctions_eq_ok : ∀ {l : List Function} {seen : List String},
    checkFunctions seen l = .ok () ↔
      New (·.name) seen l ∧ ∀ f ∈ l, f.paramCount ≤ f.localCount
  | [], _ => ⟨fun _ => ⟨new_nil, fun _ hf => absurd hf List.not_mem_nil⟩, fun _ => rfl⟩
  | f :: rest, seen => by
      unfold checkFunctions
      rw [Checks.refuse_eq_ok, Checks.refuse_eq_ok, checkFunctions_eq_ok, new_cons,
        List.forall_mem_cons, UInt16.not_lt]
      tauto

theorem checkStatics_eq_ok {cls : String} : ∀ {l : List StaticField} {seen : List String},
    checkStatics cls seen l = .ok () ↔ New (·.name) seen l
  | [], _ => ⟨fun _ => new_nil, fun _ => rfl⟩
  | f :: rest, seen => by
      unfold checkStatics
      rw [Checks.refuse_eq_ok, checkStatics_eq_ok, new_cons]

theorem checkMethods_eq_ok {functions : Nat} {cls : String} :
    ∀ {l : List Method} {seen : List String}, checkMethods functions cls seen l = .ok () ↔
      New (·.name) seen l ∧ ∀ b ∈ l, b.function.toNat < functions
  | [], _ => ⟨fun _ => ⟨new_nil, fun _ hb => absurd hb List.not_mem_nil⟩, fun _ => rfl⟩
  | b :: rest, seen => by
      unfold checkMethods
      rw [Checks.refuse_eq_ok, Checks.refuse_eq_ok, checkMethods_eq_ok, new_cons,
        List.forall_mem_cons, Nat.not_le]
      tauto

theorem checkClasses_eq_ok {functions : Nat} : ∀ {l : List Class} {seen : List String},
    checkClasses functions seen l = .ok () ↔
      New (·.name) seen l ∧ ∀ c ∈ l, ClassNamed functions c
  | [], _ => ⟨fun _ => ⟨new_nil, fun _ hc => absurd hc List.not_mem_nil⟩, fun _ => rfl⟩
  | c :: rest, seen => by
      have hclass : checkStatics c.name [] c.statics = .ok () ∧
          checkMethods functions c.name [] c.methods = .ok () ↔ ClassNamed functions c := by
        rw [checkStatics_eq_ok, checkMethods_eq_ok, new_unseen, new_unseen]
        exact ⟨fun h => ⟨h.1, h.2.1, h.2.2⟩, fun h => ⟨h.statics, h.methods, h.bound⟩⟩
      unfold checkClasses
      rw [Checks.refuse_eq_ok, Checks.andThen_eq_ok, Checks.andThen_eq_ok, checkClasses_eq_ok,
        new_cons, List.forall_mem_cons, ← hclass]
      tauto

/-- The names of a module pass the verifier exactly when they are as they have to be and parameters
    are locals. -/
theorem checkNames_eq_ok {m : Module} :
    (checkFunctions [] m.functions = .ok () ∧
        checkClasses m.functions.length [] m.classes = .ok ()) ↔
      m.WellNamed ∧ ∀ f ∈ m.functions, f.paramCount ≤ f.localCount := by
  rw [checkFunctions_eq_ok, checkClasses_eq_ok, new_unseen, new_unseen]
  constructor
  · rintro ⟨⟨hfunctions, hlocals⟩, hclasses, hmembers⟩
    exact ⟨⟨hfunctions, hclasses, hmembers⟩, hlocals⟩
  · rintro ⟨hnamed, hlocals⟩
    exact ⟨⟨hnamed.functions, hlocals⟩, hnamed.classes, hnamed.members⟩

/-- What a module passes that is verified: its names, its entry and its bodies. -/
theorem verify_eq_ok {m : Module} : m.verify = .ok () ↔
    (m.WellNamed ∧ ∀ f ∈ m.functions, f.paramCount ≤ f.localCount) ∧
      m.checkEntry = .ok () ∧ ∀ f ∈ m.functions, m.checkBody f = .ok () := by
  unfold verify
  rw [Checks.andThen_eq_ok, Checks.andThen_eq_ok, Checks.andThen_eq_ok, Checks.forM_eq_ok,
    ← checkNames_eq_ok, and_assoc]

/-- **The names of a verified module are as they have to be.** -/
theorem wellNamed_of_verify {m : Module} (h : m.verify = .ok ()) : m.WellNamed :=
  (verify_eq_ok.mp h).1.1

/-! ## 3. Functions by name -/

/-- Of a verified module, a function's name finds its index. -/
theorem functionIndex?_eq_some {m : Module} (h : m.WellNamed) {name : String} {i : Nat} :
    m.functionIndex? name = some i ↔ ∃ f, m.functions[i]? = some f ∧ f.name = name :=
  findIdx?_eq_some h.functions

/-- The function of a name. -/
def function? (m : Module) (name : String) : Option Function :=
  m.functions.find? (·.name == name)

/-- Where names are distinct, a function is what its name finds. -/
theorem function?_eq_some {m : Module} (h : m.WellNamed) {f : Function} (hf : f ∈ m.functions) :
    m.function? f.name = some f := by
  obtain ⟨i, hi⟩ := List.mem_iff_getElem?.mp hf
  unfold function?
  rw [List.find?_eq_bind_findIdx?_getElem?, (findIdx?_eq_some h.functions).mpr ⟨f, hi, rfl⟩]
  exact hi

/-- What a name finds is a function of that name. -/
theorem mem_of_function? {m : Module} {name : String} {f : Function}
    (h : m.function? name = some f) : f ∈ m.functions ∧ f.name = name :=
  ⟨List.mem_of_find?_eq_some h,
    beq_iff_eq.mp (List.find?_some (p := fun f : Function => f.name == name) h)⟩

/-- A function is found by name where its index is. -/
theorem function?_eq_bind (m : Module) (name : String) :
    m.function? name = (m.functionIndex? name).bind (m.functions[·]?) :=
  List.find?_eq_bind_findIdx?_getElem?

theorem function?_of_index {m : Module} {name : String} {i : Nat}
    (h : m.functionIndex? name = some i) :
    ∃ f, m.functions[i]? = some f ∧ m.function? name = some f := by
  obtain ⟨hi, -⟩ := List.findIdx?_eq_some_iff_getElem.mp h
  have hf : m.functions[i]? = some m.functions[i] := List.getElem?_eq_getElem hi
  refine ⟨m.functions[i], hf, ?_⟩
  rw [function?_eq_bind, h, Option.bind_some, hf]

theorem function?_of_no_index {m : Module} {name : String} (h : m.functionIndex? name = none) :
    m.function? name = none := by
  rw [function?_eq_bind, h, Option.bind_none]

end Module

end EmbeddedVm
