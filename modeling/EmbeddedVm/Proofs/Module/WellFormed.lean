import EmbeddedVm.Proofs.Module.Names

/-!
# Well-formed modules

The verifier goes through a module once and stops at the first fault. `Module.WellFormed` says what
a module without a fault is, with no word on the order in which faults are looked for: names are
distinct where they have to be, the function to start with can be started, and every body is a list
of instructions whose operands refer to something that exists and whose last one ends it. A check
that is missing would let a module through that the machine cannot carry out, and one too many would
refuse a program that is sound; `verify_eq_ok_iff` says there is neither.
-/

namespace EmbeddedVm

/-! ## 1. Bodies -/

/-- Every operand of an instruction that stands at an offset of a body refers to something that
    exists. A jump leads to one of the instructions of the body, and a callback takes as many
    parameters as it is handed. -/
def Instruction.Refers (m : Module) (f : Function) (body : List (Nat × Instruction))
    (offset : Nat) (i : Instruction) : Prop :=
  match i with
  | .pushString index => index.toNat < m.strings.length
  | .loadLocal slot | .storeLocal slot => slot.toNat < f.localCount.toNat
  | .loadStatic cls field | .storeStatic cls field =>
    ∃ c, m.classes[cls.toNat]? = some c ∧ field.toNat < c.statics.length
  | .jump _ relative => ∃ p ∈ body, (p.1 : Int) = (offset + i.size : Nat) + relative.toInt
  | .call function => function.toNat < m.functions.length
  | .callNative native _ => native.toNat < m.natives.length
  | .callback kind function =>
    ∃ callee, m.functions[function.toNat]? = some callee ∧
      callee.paramCount = if kind = .asyncRead then 1 else 0
  | .simple _ | .pushInt _ | .pushFloat _ => True

/-- Instructions that can all be carried out, with a last one behind which control does not
    continue. -/
structure Instruction.Sound (m : Module) (f : Function) (body : List (Nat × Instruction)) :
    Prop where
  refers : ∀ p ∈ body, p.2.Refers m f body p.1
  ends : ∃ p, body.getLast? = some p ∧ p.2.opcode.isTerminator = true

namespace Module

variable {m : Module} {f : Function}

/-! ## 2. Modules -/

/-- **A well-formed module.** -/
structure WellFormed (m : Module) : Prop where
  /-- Names are distinct where they have to be, and methods are bound. -/
  named : m.WellNamed
  /-- Parameters are locals. -/
  locals : ∀ f ∈ m.functions, f.paramCount ≤ f.localCount
  /-- There is a function to start with, and it takes no parameters. -/
  entry : ∃ f, m.functions[m.entry.toNat]? = some f ∧ f.paramCount = 0
  /-- The code of every function is a sound list of instructions. -/
  bodies : ∀ f ∈ m.functions, ∃ body,
    Instruction.decodeBody f.code = .ok body ∧ Instruction.Sound m f body

/-! ## 3. One check -/

/-- What an intrinsic hands over. -/
theorem arity_eq (kind : Callback) : kind.arity = if kind = .asyncRead then 1 else 0 := by
  cases kind <;> rfl

/-- A jump passes exactly when it leads to an instruction of the body; the offset it leads to is
    counted among the integers, so one before the body does not come back as a large one. -/
theorem target_mem_starts {body : List (Nat × Instruction)} {target : Int} :
    (0 ≤ target ∧ target.toNat ∈ body.map (·.1)) ↔ ∃ p ∈ body, (p.1 : Int) = target := by
  rw [List.mem_map]
  constructor
  · rintro ⟨hpos, p, hp, htarget⟩
    exact ⟨p, hp, by rw [htarget]; exact Int.toNat_of_nonneg hpos⟩
  · rintro ⟨p, hp, rfl⟩
    exact ⟨Int.natCast_nonneg p.1, p, hp, rfl⟩

/-- A local passes exactly when the function has it. -/
theorem checkSlot_eq_ok {slot : UInt16} {e : VerifyError} :
    (if slot < f.localCount then .ok () else .error e : Except VerifyError Unit) = .ok () ↔
      slot.toNat < f.localCount.toNat := by
  rw [Checks.require_eq_ok, UInt16.lt_iff_toNat_lt]

/-- **An instruction passes exactly when its operands refer to something that exists.** -/
theorem checkInstruction_eq_ok {body : List (Nat × Instruction)} {offset : Nat} {i : Instruction} :
    m.checkInstruction f (body.map (·.1)) offset i = .ok () ↔ i.Refers m f body offset := by
  cases i with
  | simple op | pushInt value | pushFloat value => exact ⟨fun _ => trivial, fun _ => rfl⟩
  | pushString index | call function | callNative native argc => exact Checks.require_eq_ok
  | loadLocal slot | storeLocal slot => exact checkSlot_eq_ok
  | loadStatic cls field | storeStatic cls field =>
      simp only [checkInstruction, Instruction.Refers]
      cases m.classes[cls.toNat]? with
      | none => simp
      | some c => simp
  | jump kind relative => exact Checks.require_eq_ok.trans target_mem_starts
  | callback kind function =>
      simp only [checkInstruction, Instruction.Refers]
      cases m.functions[function.toNat]? with
      | none => simp
      | some callee => simp [arity_eq]

theorem endsWell_eq_true {body : List (Nat × Instruction)} :
    endsWell body = true ↔ ∃ p, body.getLast? = some p ∧ p.2.opcode.isTerminator = true := by
  unfold endsWell
  split
  · rename_i offset i hlast
    rw [hlast]
    refine ⟨fun h => ⟨_, rfl, h⟩, ?_⟩
    rintro ⟨_, ⟨⟩, h⟩
    exact h
  · rename_i hlast
    rw [hlast]
    exact ⟨(fun h => nomatch h), fun ⟨_, hp, _⟩ => nomatch hp⟩

/-- **A body passes exactly when it is a sound list of instructions.** -/
theorem checkBody_eq_ok : m.checkBody f = .ok () ↔
    ∃ body, Instruction.decodeBody f.code = .ok body ∧ Instruction.Sound m f body := by
  unfold checkBody
  simp only [Checks.bind_eq_ok, Checks.mapError_eq_ok]
  refine exists_congr fun body => and_congr_right fun _ => ?_
  rw [← Checks.bind_eq_ok, Checks.andThen_eq_ok, Checks.forM_eq_ok, Checks.require_eq_ok,
    endsWell_eq_true]
  simp only [checkInstruction_eq_ok]
  exact ⟨fun h => ⟨h.1, h.2⟩, fun h => ⟨h.refers, h.ends⟩⟩

theorem checkEntry_eq_ok : m.checkEntry = .ok () ↔
    ∃ f, m.functions[m.entry.toNat]? = some f ∧ f.paramCount = 0 := by
  unfold checkEntry entryFunction?
  split
  · rename_i g hg
    rw [Checks.require_eq_ok]
    exact ⟨fun h => ⟨g, hg, h⟩, fun ⟨_, hf, h⟩ => by rw [hg] at hf; exact Option.some.inj hf ▸ h⟩
  · rename_i hnone
    exact ⟨(fun h => nomatch h), fun ⟨_, hf, _⟩ => by rw [hnone] at hf; cases hf⟩

/-! ## 4. All checks -/

/-- **The verifier accepts exactly the well-formed modules.** -/
theorem verify_eq_ok_iff (m : Module) : m.verify = .ok () ↔ m.WellFormed := by
  rw [verify_eq_ok, checkEntry_eq_ok]
  simp only [checkBody_eq_ok]
  constructor
  · rintro ⟨⟨hnamed, hlocals⟩, hentry, hbodies⟩
    exact ⟨hnamed, hlocals, hentry, hbodies⟩
  · rintro ⟨hnamed, hlocals, hentry, hbodies⟩
    exact ⟨⟨hnamed, hlocals⟩, hentry, hbodies⟩

end Module

end EmbeddedVm
