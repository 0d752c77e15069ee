import EmbeddedVm.Module.Verify
import EmbeddedVm.Proofs.Checks
import EmbeddedVm.Proofs.Code.Listing

/-!
# Modules that number their texts differently

The strings and the imports of a module may stand in another order, and with others between them,
if the code counts in the new order too. No check looks at more than whether a number is that of
some entry, and an instruction takes the same bytes whatever its number is. So all offsets stay, and
two such modules pass the same checks and fail in the same words (`verify_renumbered`).
-/

namespace EmbeddedVm

/-- An instruction that refers neither to a string nor to an import. -/
def Instruction.WithoutText : Instruction → Prop
  | pushString _ | callNative _ _ => False
  | _ => True

instance : (i : Instruction) → Decidable i.WithoutText
  | .pushString _ | .callNative .. => .isFalse id
  | .simple _ | .pushInt _ | .pushFloat _ | .loadLocal _ | .storeLocal _ | .loadStatic ..
  | .storeStatic .. | .jump .. | .call _ | .callback .. => .isTrue trivial

/-- **One instruction in two modules**: it is the same in both, or it refers to the same text under
    the number that each of them has for it. The number is cut off to the bits of the operand. -/
inductive Instruction.Renumbered (m m' : Module) : Instruction → Instruction → Prop where
  | same {i : Instruction} (h : i.WithoutText) : Renumbered m m' i i
  | string {text : String} {k k' : Nat} (h : m.strings[k]? = some text)
      (h' : m'.strings[k']? = some text) :
      Renumbered m m' (.pushString (.ofNat k)) (.pushString (.ofNat k'))
  | native {name : String} {k k' : Nat} (argc : UInt8) (h : m.natives[k]? = some name)
      (h' : m'.natives[k']? = some name) :
      Renumbered m m' (.callNative (.ofNat k) argc) (.callNative (.ofNat k') argc)

/-- One function in two modules. -/
structure Function.Renumbered (m m' : Module) (f f' : Function) : Prop where
  name : f.name = f'.name
  paramCount : f.paramCount = f'.paramCount
  localCount : f.localCount = f'.localCount
  code : ∃ is is', f.code = Instruction.encodeBody is ∧ f'.code = Instruction.encodeBody is' ∧
    List.Forall₂ (Instruction.Renumbered m m') is is'

/-- Two modules that differ in their strings and imports and in the numbers of these. -/
structure Module.Renumbered (m m' : Module) : Prop where
  flags : m.flags = m'.flags
  name : m.name = m'.name
  functions : List.Forall₂ (Function.Renumbered m m') m.functions m'.functions
  classes : m.classes = m'.classes
  entry : m.entry = m'.entry

/-! ## 1. Instructions -/

/-- The number of a place in a table, cut off or not, is that of some place. -/
theorem number32_lt {α : Type} {l : List α} {k : Nat} {a : α} (h : l[k]? = some a) :
    (UInt32.ofNat k).toNat < l.length :=
  Nat.lt_of_le_of_lt (Nat.mod_le _ _) (List.getElem?_eq_some_iff.mp h).1

theorem number16_lt {α : Type} {l : List α} {k : Nat} {a : α} (h : l[k]? = some a) :
    (UInt16.ofNat k).toNat < l.length :=
  Nat.lt_of_le_of_lt (Nat.mod_le _ _) (List.getElem?_eq_some_iff.mp h).1

namespace Instruction

variable {m m' : Module}

theorem Renumbered.opcode {i i' : Instruction} (h : Renumbered m m' i i') :
    i.opcode = i'.opcode := by
  cases h <;> rfl

theorem Renumbered.size {i i' : Instruction} (h : Renumbered m m' i i') : i.size = i'.size :=
  congrArg (1 + ·.operandSize) h.opcode

/-- Renumbering makes no body longer or shorter. -/
theorem Renumbered.length_encodeBody {is is' : List Instruction}
    (h : List.Forall₂ (Renumbered m m') is is') :
    (encodeBody is).length = (encodeBody is').length := by
  induction h with
  | nil => rfl
  | cons hi _ ih =>
      rw [encodeBody_cons, encodeBody_cons, List.length_append, List.length_append, length_encode,
        length_encode, hi.size, ih]

/-- Renumbering moves nothing. -/
theorem Renumbered.listing {is is' : List Instruction} (h : List.Forall₂ (Renumbered m m') is is')
    (offset : Nat) :
    List.Forall₂ (fun q q' => q.1 = q'.1 ∧ Renumbered m m' q.2 q'.2) (listing offset is)
      (listing offset is') := by
  induction h generalizing offset with
  | nil => exact .nil
  | cons hi _ ih =>
      rw [Instruction.listing, Instruction.listing, hi.size]
      exact .cons ⟨rfl, hi⟩ (ih _)

end Instruction

/-! ## 2. The checks -/

namespace Module

variable {m m' : Module} {f f' : Function}

theorem checkFunctions_renumbered {fs fs' : List Function}
    (h : List.Forall₂ (Function.Renumbered m m') fs fs') (seen : List String) :
    checkFunctions seen fs = checkFunctions seen fs' := by
  induction h generalizing seen with
  | nil => rfl
  | cons hf _ ih =>
      rw [checkFunctions, checkFunctions, hf.name, hf.paramCount, hf.localCount, ih]

/-- A place that has a function in one module has the same function in the other. -/
theorem Renumbered.function_at (h : m.Renumbered m') (k : Nat) :
    (m.functions[k]? = none ∧ m'.functions[k]? = none) ∨
      ∃ f f', m.functions[k]? = some f ∧ m'.functions[k]? = some f' ∧ f.Renumbered m m' f' := by
  have hlength := h.functions.length_eq
  by_cases hk : k < m.functions.length
  · have hk' : k < m'.functions.length := hlength ▸ hk
    exact .inr ⟨_, _, List.getElem?_eq_getElem hk, List.getElem?_eq_getElem hk',
      h.functions.get hk hk'⟩
  · exact .inl ⟨List.getElem?_eq_none (Nat.le_of_not_lt hk),
      List.getElem?_eq_none (hlength ▸ Nat.le_of_not_lt hk)⟩

theorem checkEntry_renumbered (h : m.Renumbered m') : m.checkEntry = m'.checkEntry := by
  unfold checkEntry entryFunction?
  rw [← h.entry]
  rcases h.function_at m.entry.toNat with ⟨hm, hm'⟩ | ⟨f, f', hm, hm', hf⟩
  · rw [hm, hm']
  · rw [hm, hm']
    dsimp only
    rw [hf.paramCount]

theorem checkInstruction_renumbered (h : m.Renumbered m') (hf : f.Renumbered m m' f')
    (starts : List Nat) (offset : Nat) {i i' : Instruction}
    (hi : Instruction.Renumbered m m' i i') :
    m.checkInstruction f starts offset i = m'.checkInstruction f' starts offset i' := by
  cases hi with
  | string hk hk' =>
      unfold checkInstruction
      dsimp only
      rw [if_pos (number32_lt hk), if_pos (number32_lt hk')]
  | native argc hk hk' =>
      unfold checkInstruction
      dsimp only
      rw [if_pos (number16_lt hk), if_pos (number16_lt hk')]
  | same hi =>
      unfold checkInstruction
      cases i with
      | pushString _ | callNative _ _ => exact hi.elim
      | simple _ | pushInt _ | pushFloat _ => rfl
      | loadLocal slot | storeLocal slot => dsimp only; rw [hf.name, hf.localCount]
      | loadStatic cls field | storeStatic cls field => dsimp only; rw [hf.name, h.classes]
      | jump kind relative => dsimp only; rw [hf.name]
      | call function => dsimp only; rw [hf.name, h.functions.length_eq]
      | callback kind function =>
          dsimp only
          rcases h.function_at function.toNat with ⟨hm, hm'⟩ | ⟨g, g', hm, hm', hg⟩
          · rw [hm, hm', hf.name]
          · rw [hm, hm']
            dsimp only
            rw [hg.paramCount, hg.name, hf.name]

theorem endsWell_renumbered {l l' : List (Nat × Instruction)}
    (h : List.Forall₂ (fun q q' => q.1 = q'.1 ∧ Instruction.Renumbered m m' q.2 q'.2) l l') :
    endsWell l = endsWell l' := by
  have hops : l.map (·.2.opcode) = l'.map (·.2.opcode) :=
    List.forall₂_eq_eq_eq ▸ List.forall₂_map_left_iff.mpr
      (List.forall₂_map_right_iff.mpr (h.imp fun _ _ hq => hq.2.opcode))
  have hends : ∀ l : List (Nat × Instruction),
      endsWell l = ((l.map (·.2.opcode)).getLast?.map (·.isTerminator)).getD false := fun l => by
    rw [List.getLast?_map]
    unfold endsWell
    cases l.getLast? <;> rfl
  rw [hends, hends, hops]

/-- The check of a body that is the code of instructions. -/
theorem checkBody_encodeBody {is : List Instruction} (hcode : f.code = Instruction.encodeBody is) :
    m.checkBody f =
      ((Instruction.listing 0 is).forM fun q =>
          m.checkInstruction f ((Instruction.listing 0 is).map (·.1)) q.1 q.2) >>= fun _ =>
        if endsWell (Instruction.listing 0 is) then .ok () else .error (.fallOffEnd f.name) := by
  unfold checkBody
  rw [hcode, Instruction.decodeBody_encodeBody]
  rfl

theorem checkBody_renumbered (h : m.Renumbered m') (hf : f.Renumbered m m' f') :
    m.checkBody f = m'.checkBody f' := by
  obtain ⟨is, is', hcode, hcode', his⟩ := hf.code
  have hlisting := Instruction.Renumbered.listing his 0
  have hstarts : (Instruction.listing 0 is).map (·.1) = (Instruction.listing 0 is').map (·.1) :=
    List.forall₂_eq_eq_eq ▸ List.forall₂_map_left_iff.mpr
      (List.forall₂_map_right_iff.mpr (hlisting.imp fun _ _ hq => hq.1))
  rw [checkBody_encodeBody hcode, checkBody_encodeBody hcode', hstarts,
    endsWell_renumbered hlisting, hf.name]
  refine congrArg (· >>= _) (Checks.forM_congr hlisting fun q q' hq => ?_)
  rw [hq.1]
  exact checkInstruction_renumbered h hf _ _ hq.2

/-- **Modules that number their texts differently** pass the same checks, or fail with the same
    fault. -/
theorem verify_renumbered (h : m.Renumbered m') : m.verify = m'.verify := by
  unfold verify
  rw [checkFunctions_renumbered h.functions, h.functions.length_eq, h.classes,
    checkEntry_renumbered h, Checks.forM_congr h.functions fun _ _ hf => checkBody_renumbered h hf]

end Module

end EmbeddedVm
