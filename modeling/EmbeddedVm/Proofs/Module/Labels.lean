import EmbeddedVm.Proofs.Module.Drafts

/-!
# Labels and the places they name

A jump is written before the place of its label is known, and its operand is filled in from offsets
that were noted on the way. What comes of that is what was meant (`labels_resolve`): the code of the
function decodes to the instructions that were emitted, every jump leads from the instruction behind
it to the place where its label was bound last, and the bytes that are not operands of jumps are
those that were written first.
-/

namespace EmbeddedVm

open Instruction

/-! ## 1. Where jumps lead -/

/-- **An emission and what is listed for it in the end**: an instruction is listed as it was
    emitted. A jump leads from the instruction behind it to where its label was bound last. -/
def Emission.Resolved (body : List BodyOp) : Emission → Nat × Instruction → Prop
  | plain i, (_, listed) => listed = i
  | jump kind l, (offset, listed) => ∃ rel target, listed = .jump kind rel ∧
      BodyOp.BoundAt body l target ∧ ((offset + listed.size : Nat) : Int) + rel.toInt = target

/-- A distance inside a body does not wrap. -/
theorem Draft.operand_add_distance {operand target n : Nat} (hoperand : operand + 4 ≤ n)
    (htarget : target ≤ n) (hn : n < 2 ^ 31) :
    ((operand + 4 : Nat) : Int) + (distance operand target).toInt = target := by
  unfold distance
  rw [Int32.toInt_ofInt_of_le (by omega) (by omega)]
  omega

namespace Emission

variable {body : List BodyOp} {labels : List (Option Nat)}

/-- What stands at an offset in the end is what is meant. -/
theorem resolved_filled {e : Emission} {offset : Nat}
    (hlabels : ∀ l target, labels[l]?.join = some target → BodyOp.BoundAt body l target)
    (hbound : ∀ kind l, e = .jump kind l → (labels[l]?.join).isSome = true)
    (hsize : BodyOp.length body < 2 ^ 31) (he : offset + e.placeholder.size ≤ BodyOp.length body) :
    Resolved body e (offset, e.filled labels offset) := by
  cases e with
  | plain i => rfl
  | jump kind l =>
      obtain ⟨target, htarget⟩ := Option.isSome_iff_exists.mp (hbound kind l rfl)
      have hplace := hlabels l target htarget
      refine ⟨Draft.distance (offset + 1) target, target, ?_, hplace, ?_⟩
      · rw [filled, htarget]
        rfl
      · have hoperand : offset + 1 + 4 ≤ BodyOp.length body := he
        exact Draft.operand_add_distance hoperand hplace.le hsize

theorem resolved_fill {es : List Emission} {offset : Nat}
    (hlabels : ∀ l target, labels[l]?.join = some target → BodyOp.BoundAt body l target)
    (hbound : ∀ kind l, .jump kind l ∈ es → (labels[l]?.join).isSome = true)
    (hsize : BodyOp.length body < 2 ^ 31)
    (hes : offset + (bytes es).length ≤ BodyOp.length body) :
    List.Forall₂ (Resolved body) es (listing offset (fill labels offset es)) := by
  induction es generalizing offset with
  | nil => exact .nil
  | cons e rest ih =>
      rw [bytes_cons, List.length_append, length_encode] at hes
      rw [fill, listing, size_filled]
      refine .cons (resolved_filled hlabels ?_ hsize (by omega)) (ih ?_ (by omega))
      · rintro kind l rfl
        exact hbound kind l List.mem_cons_self
      · exact fun kind l h => hbound kind l (List.mem_cons_of_mem _ h)

/-- The places where an instruction keeps the operand of a jump. -/
def InJumpOperand (k : Nat) : Nat × Instruction → Prop
  | (offset, .jump _ _) => offset < k ∧ k ≤ offset + 4
  | _ => False

theorem getElem?_filled {e : Emission} {offset k : Nat} (hk : k < e.placeholder.size)
    (h : ¬ InJumpOperand (offset + k) (offset, e.filled labels offset)) :
    (e.filled labels offset).encode[k]? = e.placeholder.encode[k]? := by
  cases e with
  | plain i => rfl
  | jump kind l =>
      cases k with
      | zero => rfl
      | succ k => exact absurd ⟨by omega, Nat.add_le_add_left (Nat.lt_succ_iff.mp hk) _⟩ h

/-- **Outside the operands of jumps filling in changes nothing.** -/
theorem getElem?_fill {es : List Emission} {offset k : Nat}
    (h : ∀ q ∈ listing offset (fill labels offset es), ¬ InJumpOperand (offset + k) q) :
    (encodeBody (fill labels offset es))[k]? = (bytes es)[k]? := by
  induction es generalizing offset k with
  | nil => rfl
  | cons e rest ih =>
      rw [fill, listing, size_filled, List.forall_mem_cons] at h
      have hlength : (e.filled labels offset).encode.length = e.placeholder.encode.length := by
        rw [length_encode, length_encode, size_filled]
      rw [fill, encodeBody_cons, bytes_cons]
      by_cases hk : k < e.placeholder.size
      · rw [List.getElem?_append_left (by rw [hlength, length_encode]; exact hk),
          List.getElem?_append_left (by rw [length_encode]; exact hk)]
        exact getElem?_filled hk h.1
      · have hle := Nat.le_of_not_lt hk
        rw [List.getElem?_append_right (by rw [hlength, length_encode]; exact hle),
          List.getElem?_append_right (by rw [length_encode]; exact hle), hlength, length_encode]
        refine ih ?_
        rw [Nat.add_assoc, Nat.add_sub_cancel' hle]
        exact h.2

theorem length_fill (es : List Emission) (offset : Nat) :
    (encodeBody (fill labels offset es)).length = (bytes es).length := by
  induction es generalizing offset with
  | nil => rfl
  | cons e rest ih =>
      rw [fill, encodeBody_cons, bytes_cons, List.length_append, List.length_append, length_encode,
        length_encode, size_filled, ih]

end Emission

namespace Draft

variable {d : Draft} {body : List BodyOp} {es : List Emission}

/-- **A finished draft**: it decodes to what was emitted, the jumps lead to where their labels are
    bound, and nothing but their operands is another than before. -/
theorem Written.resolved (h : Written body es d)
    (hbound : ∀ kind l, .jump kind l ∈ es → .bind l ∈ body) (hsize : BodyOp.length body < 2 ^ 31) :
    ∃ listed, decodeBody d.finish.1 = .ok listed ∧
      List.Forall₂ (Emission.Resolved body) es listed ∧
      d.finish.1.length = d.code.length ∧
      ∀ k, (∀ q ∈ listed, ¬ Emission.InJumpOperand k q) → d.finish.1[k]? = d.code[k]? := by
  have hlabels : ∀ kind l, .jump kind l ∈ es → (d.labels[l]?.join).isSome = true := by
    intro kind l hjump
    obtain ⟨offset, hoffset⟩ := BodyOp.exists_boundAt (hbound kind l hjump)
    rw [(h.bound l offset).mpr hoffset]
    rfl
  have hes : 0 + (Emission.bytes es).length ≤ BodyOp.length body := by
    rw [Nat.zero_add, ← h.code]
    exact Nat.le_of_eq h.length
  refine ⟨_, h.decode, ?_, ?_, fun k hk => ?_⟩
  · exact Emission.resolved_fill (fun l target => (h.bound l target).mp) hlabels hsize hes
  · rw [h.finish, h.code]
    exact Emission.length_fill es 0
  · rw [h.finish, h.code]
    exact Emission.getElem?_fill (by rwa [Nat.zero_add])

end Draft

namespace ModuleBuilder

/-- **Labels resolve to what was bound.** A body that makes its labels before it uses them, that
    binds every label it jumps to, before or after the jump, once or again, and that is shorter than
    2 GiB is defined: the function's code decodes to exactly the instructions that were emitted, in
    this order, and each jump leads to the offset at which its label was bound last. Filling in
    the operands of these jumps changes no other byte of what was written. -/
theorem labels_resolve (b : ModuleBuilder) (index : UInt32) (params locals : UInt16)
    (body : List BodyOp) (name : String) (slot : Option Function)
    (hdeclared : b.functions[index.toNat]? = some (name, slot))
    (hadmissible : BodyOp.AllAdmissible 0 body)
    (hbound : ∀ kind l, .jump kind l ∈ body → .bind l ∈ body)
    (hsize : BodyOp.length body < 2 ^ 31) :
    ∃ b' d f listed, b.define index params locals body = some b' ∧
      b'.functions = b.functions.set index.toNat (name, some f) ∧ b'.unbound = b.unbound ∧
      Draft.applyAll name b.pools {} body = some (b'.pools, d) ∧
      decodeBody f.code = .ok listed ∧
      List.Forall₂ (Emission.Resolved body) (BodyOp.emitted name b.pools body) listed ∧
      f.code.length = d.code.length ∧
      ∀ k, (∀ q ∈ listed, ¬ Emission.InJumpOperand k q) → f.code[k]? = d.code[k]? := by
  obtain ⟨d, hd, hwritten⟩ :=
    Draft.written_empty.applyAll name b.pools hadmissible
  rw [List.nil_append, List.nil_append] at hwritten
  have hjumps : ∀ kind l, .jump kind l ∈ BodyOp.emitted name b.pools body → .bind l ∈ body :=
    fun kind l h => hbound kind l (BodyOp.mem_emitted h)
  obtain ⟨listed, hlisted, hresolved, hlength, huntouched⟩ := hwritten.resolved hjumps hsize
  refine ⟨_, d, _, listed, define_eq hdeclared hd, rfl, ?_, hd, hlisted, hresolved, hlength,
    huntouched⟩
  dsimp only
  rw [hwritten.complete hjumps, if_neg Bool.false_ne_true]

/-- A loop with a jump back to a label bound before and one forward to a label bound twice. -/
def loopBody : List BodyOp :=
  [.label, .label, .bind 0, .bind 1, .pushText "go on", .jump .ifFalse 1, .raw (.simple .nop),
    .jump .always 0, .bind 1, .emit (.simple .retVoid)]

theorem loopBody_resolves :
    ({ name := "m", functions := [("main", none)] } : ModuleBuilder).functions[0]? =
        some ("main", none) ∧
      BodyOp.AllAdmissible 0 loopBody ∧
      (∀ kind l, .jump kind l ∈ loopBody → .bind l ∈ loopBody) ∧
      BodyOp.length loopBody < 2 ^ 31 ∧
      ∃ b' d f listed,
        ({ name := "m", functions := [("main", none)] } : ModuleBuilder).define 0 0 0 loopBody =
          some b' ∧ b'.functions = [("main", none)].set 0 ("main", some f) ∧ b'.unbound = [] ∧
        Draft.applyAll "main" {} {} loopBody = some (b'.pools, d) ∧
        decodeBody f.code = .ok listed ∧
        List.Forall₂ (Emission.Resolved loopBody) (BodyOp.emitted "main" {} loopBody) listed ∧
        f.code.length = d.code.length ∧
        ∀ k, (∀ q ∈ listed, ¬ Emission.InJumpOperand k q) → f.code[k]? = d.code[k]? := by
  have hbound : ∀ kind l, .jump kind l ∈ loopBody → .bind l ∈ loopBody := by
    intro kind l h
    simp only [loopBody, List.mem_cons, List.not_mem_nil, or_false, reduceCtorEq, false_or,
      BodyOp.jump.injEq] at h ⊢
    rcases h with ⟨-, rfl⟩ | ⟨-, rfl⟩ <;> decide
  exact ⟨rfl, by decide, hbound, by decide,
    labels_resolve { name := "m", functions := [("main", none)] } 0 0 0 loopBody "main" none rfl
      (by decide) hbound (by decide)⟩

end ModuleBuilder

end EmbeddedVm
