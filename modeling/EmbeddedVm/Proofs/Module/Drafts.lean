import EmbeddedVm.Module.Builder
import EmbeddedVm.Proofs.Code.Listing
import Mathlib.Algebra.GroupWithZero.Nat
import Mathlib.Data.List.Induction

/-!
# Bodies under construction

While a body is written a jump is an operation code with four empty bytes behind it, and the draft
remembers where these bytes are and which label is meant. A label may be bound before or after the
jumps to it and may be bound again; only when the body is complete are the operands filled in.

`Emission` is what an action puts into the body, a jump with the label it is meant for. The
invariant of a draft (`Written`) says what the three tables of a draft are in terms of the actions
done so far: the bytes are the emissions one behind the other, the fixups are the places of their
jumps, and a label is bound where the last `bind` of it stood. Filling in then replaces every
emission by one of the same size, so nothing moves and the places stay right.
-/

namespace EmbeddedVm

open Instruction

/-! ## 1. What a body emits -/

/-- What stands in a body under construction: an instruction, or a jump to a label. -/
inductive Emission where
  | plain (i : Instruction)
  | jump (kind : Jump) (label : Nat)

namespace Emission

/-- The instruction that is written at first: a jump has an empty operand. -/
def placeholder : Emission → Instruction
  | plain i => i
  | jump kind _ => .jump kind 0

/-- The instruction that stands at an offset in the end, where labels are bound. -/
def filled (labels : List (Option Nat)) (offset : Nat) : Emission → Instruction
  | plain i => i
  | jump kind l => .jump kind (((labels[l]?.join).map (Draft.distance (offset + 1))).getD 0)

/-- **Filling in moves nothing.** -/
theorem size_filled (labels : List (Option Nat)) (offset : Nat) (e : Emission) :
    (e.filled labels offset).size = e.placeholder.size := by
  cases e <;> rfl

/-- The bytes of emissions before any operand is filled in. -/
def bytes (es : List Emission) : Bytes := encodeBody (es.map placeholder)

/-- The operands that have to be filled in, with their labels. -/
def operands : (offset : Nat) → List Emission → List (Nat × Nat)
  | _, [] => []
  | offset, plain i :: rest => operands (offset + i.size) rest
  | offset, jump kind l :: rest =>
    (offset + 1, l) :: operands (offset + (Instruction.jump kind 0).size) rest

/-- The instructions in the end. -/
def fill (labels : List (Option Nat)) : (offset : Nat) → List Emission → List Instruction
  | _, [] => []
  | offset, e :: rest => e.filled labels offset :: fill labels (offset + e.placeholder.size) rest

theorem bytes_cons (e : Emission) (rest : List Emission) :
    bytes (e :: rest) = e.placeholder.encode ++ bytes rest := encodeBody_cons _ _

theorem bytes_append (es es' : List Emission) : bytes (es ++ es') = bytes es ++ bytes es' := by
  unfold bytes encodeBody
  rw [List.map_append, List.flatMap_append]

theorem bytes_plain (is : List Instruction) : bytes (is.map .plain) = encodeBody is := by
  unfold bytes
  rw [List.map_map]
  exact congrArg encodeBody (List.map_id _)

theorem operands_plain (is : List Instruction) (offset : Nat) :
    operands offset (is.map .plain) = [] := by
  induction is generalizing offset with
  | nil => rfl
  | cons i rest ih => exact ih _

theorem operands_append (es es' : List Emission) (offset : Nat) :
    operands offset (es ++ es') =
      operands offset es ++ operands (offset + (bytes es).length) es' := by
  induction es generalizing offset with
  | nil => rfl
  | cons e rest ih =>
      rw [bytes_cons, List.length_append, length_encode, ← Nat.add_assoc]
      cases e with
      | plain i => exact ih _
      | jump kind l => exact congrArg (_ :: ·) (ih _)

theorem fill_append (labels : List (Option Nat)) (es es' : List Emission) (offset : Nat) :
    fill labels offset (es ++ es') =
      fill labels offset es ++ fill labels (offset + (bytes es).length) es' := by
  induction es generalizing offset with
  | nil => rfl
  | cons e rest ih =>
      rw [bytes_cons, List.length_append, length_encode, ← Nat.add_assoc]
      exact congrArg (_ :: ·) (ih _)

end Emission

namespace BodyOp

/-- What an action emits, and the pools behind it. -/
def emits (name : String) (p : Pools) : BodyOp → Pools × List Emission
  | label | bind _ => (p, [])
  | jump kind l => (p, [.jump kind l])
  | emit i => (p, [.plain i])
  | raw (.simple op) => (p, [.plain (.simple op)])
  | raw _ => (p, [])
  | pushText text => ((p.string text).1, [.plain (.pushString (p.string text).2)])
  | pushName => ((p.string name).1, [.plain (.pushString (p.string name).2)])
  | throwText text =>
    ((p.string text).1, [.plain (.pushString (p.string text).2), .plain (.simple .throw)])
  | callNative native argc =>
    ((p.native native).1, [.plain (.callNative (p.native native).2 argc)])

/-- **What a body emits**, action by action. -/
def emitted (name : String) (p : Pools) : List BodyOp → List Emission
  | [] => []
  | op :: rest => (op.emits name p).2 ++ emitted name (op.emits name p).1 rest

/-- Only a jump emits a jump to a label. -/
theorem mem_emits {name : String} {p : Pools} {op : BodyOp} {kind : Jump} {l : Nat}
    (h : .jump kind l ∈ (op.emits name p).2) : op = .jump kind l := by
  cases op with
  | jump kind' l' => cases List.mem_singleton.mp h; rfl
  | raw op => cases op <;> simp [emits] at h
  | _ => simp [emits] at h

theorem mem_emitted {name : String} {p : Pools} {body : List BodyOp} {kind : Jump} {l : Nat}
    (h : .jump kind l ∈ emitted name p body) : .jump kind l ∈ body := by
  induction body generalizing p with
  | nil => cases h
  | cons op rest ih =>
      rcases List.mem_append.mp h with h | h
      · exact mem_emits h ▸ List.mem_cons_self
      · exact List.mem_cons_of_mem _ (ih h)

/-- The pools when a body is complete. -/
def poolsAfter (name : String) (p : Pools) : List BodyOp → Pools
  | [] => p
  | op :: rest => poolsAfter name (op.emits name p).1 rest

/-- The number of bytes an action adds to a body. -/
def size : BodyOp → Nat
  | label | bind _ => 0
  | jump .. => 5
  | emit i => i.size
  | raw _ => 1
  | pushText _ | pushName => 5
  | throwText _ => 6
  | callNative .. => 4

/-- The length of a body. -/
def length (body : List BodyOp) : Nat := (body.map size).sum

/-- An action that can be carried out when so many labels are made: labels are made before they are
    bound or jumped to, and only operations without operands stand alone. -/
def Admissible (made : Nat) : BodyOp → Prop
  | bind l | jump _ l => l < made
  | raw op => op.operandSize = 0
  | _ => True

/-- The number of labels an action makes. -/
def makes : BodyOp → Nat
  | label => 1
  | _ => 0

/-- Actions that can all be carried out, one after the other. -/
def AllAdmissible : (made : Nat) → List BodyOp → Prop
  | _, [] => True
  | made, op :: rest => op.Admissible made ∧ AllAdmissible (made + op.makes) rest

instance (made : Nat) : (op : BodyOp) → Decidable (op.Admissible made)
  | bind l | jump _ l => inferInstanceAs (Decidable (l < made))
  | raw op => inferInstanceAs (Decidable (op.operandSize = 0))
  | label | emit _ | pushText _ | pushName | throwText _ | callNative .. => .isTrue trivial

instance decidableAllAdmissible :
    (made : Nat) → (body : List BodyOp) → Decidable (AllAdmissible made body)
  | _, [] => .isTrue trivial
  | made, op :: rest =>
    have := decidableAllAdmissible (made + op.makes) rest
    inferInstanceAs (Decidable (op.Admissible made ∧ AllAdmissible (made + op.makes) rest))

/-- **Where a label is bound**: the offset at which the last `bind` of it stands. -/
def BoundAt (body : List BodyOp) (l offset : Nat) : Prop :=
  ∃ before after, body = before ++ .bind l :: after ∧ .bind l ∉ after ∧ offset = length before

/-- Another action binds its own label and no other. -/
theorem boundAt_concat {body : List BodyOp} {op : BodyOp} {l offset : Nat} :
    BoundAt (body ++ [op]) l offset ↔
      if op = .bind l then offset = length body else BoundAt body l offset := by
  split
  · rename_i hop
    subst hop
    refine ⟨?_, fun hoffset => ⟨body, [], rfl, List.not_mem_nil, hoffset⟩⟩
    rintro ⟨before, after, hbody, hafter, rfl⟩
    rcases List.eq_nil_or_concat after with rfl | ⟨after, last, rfl⟩
    · rw [(List.append_inj' hbody rfl).1]
    · -- the last action would be a later `bind`
      rw [List.concat_eq_append, ← List.cons_append, ← List.append_assoc] at hbody
      obtain rfl := List.singleton_inj.mp (List.append_inj' hbody rfl).2
      exact absurd (by simp) hafter
  · rename_i hop
    constructor
    · rintro ⟨before, after, hbody, hafter, rfl⟩
      rcases List.eq_nil_or_concat after with rfl | ⟨after, last, rfl⟩
      · exact absurd (List.singleton_inj.mp (List.append_inj' hbody rfl).2) hop
      · rw [List.concat_eq_append] at hbody hafter
        rw [← List.cons_append, ← List.append_assoc] at hbody
        exact ⟨before, after, (List.append_inj' hbody rfl).1,
          fun hmem => hafter (List.mem_append_left _ hmem), rfl⟩
    · rintro ⟨before, after, rfl, hafter, rfl⟩
      refine ⟨before, after ++ [op], by rw [List.append_assoc, List.cons_append], ?_, rfl⟩
      rw [List.mem_append, List.mem_singleton]
      rintro (hmem | hlast)
      · exact hafter hmem
      · exact hop hlast.symm

/-- A label that is bound somewhere is bound at one place. -/
theorem exists_boundAt {body : List BodyOp} {l : Nat} (h : .bind l ∈ body) :
    ∃ offset, BoundAt body l offset := by
  induction body using List.reverseRecOn with
  | nil => cases h
  | append_singleton body op ih =>
      by_cases hop : op = .bind l
      · exact ⟨length body, by rw [boundAt_concat, if_pos hop]⟩
      · have hbody : .bind l ∈ body :=
          (List.mem_append.mp h).resolve_right fun hlast => hop (List.mem_singleton.mp hlast).symm
        obtain ⟨offset, hoffset⟩ := ih hbody
        exact ⟨offset, by rw [boundAt_concat, if_neg hop]; exact hoffset⟩

theorem length_concat (body : List BodyOp) (op : BodyOp) :
    length (body ++ [op]) = length body + op.size := by
  unfold length
  rw [List.map_append, List.sum_append, List.map_singleton, List.sum_singleton]

/-- A label is bound inside the body or at its end. -/
theorem BoundAt.le {body : List BodyOp} {l offset : Nat} (h : BoundAt body l offset) :
    offset ≤ length body := by
  obtain ⟨before, after, rfl, -, rfl⟩ := h
  unfold length
  rw [List.map_append, List.sum_append]
  exact Nat.le_add_right _ _

end BodyOp

/-- Behind the last entry there is nothing, made or not. -/
theorem join_getElem?_concat {α : Type} (l : List (Option α)) (i : Nat) :
    (l ++ [none])[i]?.join = l[i]?.join := by
  rw [List.getElem?_append]
  split
  · rfl
  · rename_i hi
    rw [List.getElem?_eq_none (Nat.le_of_not_lt hi)]
    cases i - l.length <;> rfl

namespace Draft

/-! ## 2. The invariant of a draft -/

theorem write_write (d : Draft) (bs bs' : Bytes) : (d.write bs).write bs' = d.write (bs ++ bs') :=
  congrArg (fun code => { d with code }) (List.append_assoc ..)

/-- An action is carried out exactly if it can be. -/
theorem isSome_apply {name : String} {p : Pools} {d : Draft} {op : BodyOp} :
    (d.apply name p op).isSome = true ↔ op.Admissible d.labels.length := by
  cases op <;> simp [apply, BodyOp.Admissible]

/-- **What a draft holds** after some actions and what they have emitted. -/
structure Written (done : List BodyOp) (es : List Emission) (d : Draft) : Prop where
  /-- The emissions stand one behind the other. -/
  code : d.code = Emission.bytes es
  /-- The operands of the jumps among them are still to be filled in. -/
  fixups : d.fixups = Emission.operands 0 es
  /-- A label is bound where the last `bind` of it stood. -/
  bound : ∀ l offset, d.labels[l]?.join = some offset ↔ BodyOp.BoundAt done l offset
  length : d.code.length = BodyOp.length done

theorem written_empty : Written [] [] {} where
  code := rfl
  fixups := rfl
  bound l offset := by
    refine ⟨(nomatch ·), ?_⟩
    rintro ⟨before, after, h, -⟩
    exact absurd h (by simp)
  length := rfl

section Written

variable {name : String} {p : Pools} {d : Draft} {done : List BodyOp} {es : List Emission}
  {op : BodyOp}

/-- Instructions that are written stand behind the others. -/
theorem Written.write (h : Written done es d) (is : List Instruction)
    (hsize : op.size = (encodeBody is).length) (hbind : ∀ l, op ≠ .bind l) :
    Written (done ++ [op]) (es ++ is.map .plain) (d.write (encodeBody is)) where
  code := by rw [Emission.bytes_append, Emission.bytes_plain, ← h.code]; rfl
  fixups := by rw [Emission.operands_append, Emission.operands_plain, List.append_nil, ← h.fixups]; rfl
  bound l offset := by rw [BodyOp.boundAt_concat, if_neg (hbind l)]; exact h.bound l offset
  length := by
    rw [BodyOp.length_concat, ← h.length, hsize]
    exact List.length_append

/-- An instruction that is written stands behind the others. -/
theorem Written.writeOne (h : Written done es d) (i : Instruction) (hsize : op.size = i.size)
    (hbind : ∀ l, op ≠ .bind l) :
    Written (done ++ [op]) (es ++ [.plain i]) (d.write i.encode) := by
  have hi : encodeBody [i] = i.encode := List.flatMap_singleton ..
  rw [← hi]
  exact h.write [i] (by rw [hi, length_encode, hsize]) hbind

/-- A jump that is written leaves its operand to be filled in. -/
theorem Written.jump (h : Written done es d) (kind : Jump) (l : Nat) :
    Written (done ++ [.jump kind l]) (es ++ [.jump kind l])
      { d.write (Instruction.jump kind 0).encode with
        fixups := d.fixups ++ [(d.code.length + 1, l)] } where
  code := by
    rw [Emission.bytes_append, ← h.code]
    exact congrArg (d.code ++ ·) (List.flatMap_singleton ..).symm
  fixups := by
    rw [Emission.operands_append, Nat.zero_add, ← h.fixups, ← h.code]
    rfl
  bound l offset := by rw [BodyOp.boundAt_concat, if_neg nofun]; exact h.bound l offset
  length := by
    rw [BodyOp.length_concat, ← h.length]
    exact List.length_append

/-- A label that is made is not bound yet. -/
theorem Written.label (h : Written done es d) :
    Written (done ++ [.label]) (es ++ []) { d with labels := d.labels ++ [none] } where
  code := by rw [List.append_nil]; exact h.code
  fixups := by rw [List.append_nil]; exact h.fixups
  bound l offset := by
    rw [BodyOp.boundAt_concat, if_neg nofun, ← h.bound l offset, join_getElem?_concat]
  length := by rw [BodyOp.length_concat]; exact h.length

/-- Binding a label forgets where it was bound before. -/
theorem Written.bind (h : Written done es d) {l : Nat} (hl : l < d.labels.length) :
    Written (done ++ [.bind l]) (es ++ [])
      { d with labels := d.labels.set l (some d.code.length) } where
  code := by rw [List.append_nil]; exact h.code
  fixups := by rw [List.append_nil]; exact h.fixups
  bound other offset := by
    rw [BodyOp.boundAt_concat, ← h.length, List.getElem?_set]
    by_cases hother : l = other
    · subst hother
      rw [if_pos rfl, if_pos hl, if_pos rfl]
      exact Option.some_inj.trans eq_comm
    · rw [if_neg hother, if_neg fun hop => hother (BodyOp.bind.inj hop)]
      exact h.bound other offset
  length := by rw [BodyOp.length_concat]; exact h.length

/-- **One action**: what can be carried out is carried out, and the draft holds what was emitted. -/
theorem Written.apply (name : String) (p : Pools) (h : Written done es d) (hop : op.Admissible d.labels.length) :
    ∃ d', d.apply name p op = some ((op.emits name p).1, d') ∧
      Written (done ++ [op]) (es ++ (op.emits name p).2) d' := by
  cases op with
  | label => exact ⟨_, rfl, h.label⟩
  | bind l => exact ⟨_, if_pos hop, h.bind hop⟩
  | jump kind l => exact ⟨_, if_pos hop, h.jump kind l⟩
  | emit i => exact ⟨_, rfl, h.writeOne i rfl nofun⟩
  | raw op =>
      cases op with
      | simple op => exact ⟨_, rfl, h.writeOne (.simple op) rfl nofun⟩
      | _ => cases hop
  | pushText text => exact ⟨_, rfl, h.writeOne (.pushString _) rfl nofun⟩
  | pushName => exact ⟨_, rfl, h.writeOne (.pushString _) rfl nofun⟩
  | throwText text =>
      refine ⟨_, rfl, ?_⟩
      rw [write_write]
      exact h.write [.pushString _, .simple .throw] rfl nofun
  | callNative native argc => exact ⟨_, rfl, h.writeOne (.callNative _ argc) rfl nofun⟩

/-- An action adds the labels it makes. -/
theorem length_labels_apply {p' : Pools} {d' : Draft} (h : d.apply name p op = some (p', d')) :
    d'.labels.length = d.labels.length + op.makes := by
  cases op with
  | label =>
      cases h
      rw [List.length_append]
      rfl
  | bind l =>
      obtain ⟨-, h⟩ := Option.ite_none_right_eq_some.mp h
      cases h
      exact List.length_set
  | jump kind l | raw op =>
      obtain ⟨-, h⟩ := Option.ite_none_right_eq_some.mp h
      cases h
      rfl
  | emit i | pushText text | pushName | throwText text | callNative native argc =>
      cases h
      rfl

/-- **All actions**, one after the other. -/
theorem Written.applyAll (name : String) (p : Pools) (h : Written done es d) {rest : List BodyOp}
    (hrest : BodyOp.AllAdmissible d.labels.length rest) :
    ∃ d', Draft.applyAll name p d rest = some (BodyOp.poolsAfter name p rest, d') ∧
      Written (done ++ rest) (es ++ BodyOp.emitted name p rest) d' := by
  induction rest generalizing p d done es with
  | nil => exact ⟨d, rfl, by rw [List.append_nil, BodyOp.emitted, List.append_nil]; exact h⟩
  | cons op rest ih =>
      obtain ⟨d₁, hd₁, h₁⟩ := h.apply name p hrest.1
      have hlater := hrest.2
      rw [← length_labels_apply hd₁] at hlater
      obtain ⟨d', hd', h'⟩ := ih (op.emits name p).1 h₁ hlater
      rw [List.append_assoc, List.append_assoc] at h'
      refine ⟨d', ?_, h'⟩
      unfold Draft.applyAll
      rw [hd₁]
      exact hd'

/-- Actions that are all carried out are ones that can be. -/
theorem allAdmissible_of_applyAll {body : List BodyOp} {r : Pools × Draft}
    (h : Draft.applyAll name p d body = some r) : BodyOp.AllAdmissible d.labels.length body := by
  induction body generalizing p d with
  | nil => trivial
  | cons op rest ih =>
      unfold Draft.applyAll at h
      obtain ⟨⟨p₁, d₁⟩, hd₁, hrest⟩ := Option.bind_eq_some_iff.mp h
      refine ⟨isSome_apply.mp (Option.isSome_iff_exists.mpr ⟨_, hd₁⟩), ?_⟩
      rw [← length_labels_apply hd₁]
      exact ih hrest

/-- **What a draft is** after a body has been carried out. -/
theorem written_of_applyAll {body : List BodyOp} {p' : Pools} {d' : Draft}
    (h : Draft.applyAll name p {} body = some (p', d')) :
    p' = BodyOp.poolsAfter name p body ∧ Written body (BodyOp.emitted name p body) d' := by
  obtain ⟨d, hd, hwritten⟩ :=
    written_empty.applyAll name p (allAdmissible_of_applyAll h)
  rw [h] at hd
  cases hd
  exact ⟨rfl, hwritten⟩

end Written

/-! ## 3. Filling in -/

/-- A word that is overwritten where it stands. -/
theorem overwriteWord?_append (before old after : Bytes) (word : UInt32) (hold : old.length = 4) :
    Bytes.overwriteWord? (before ++ old ++ after) before.length word =
      some (before ++ Bytes.u32 word ++ after) := by
  have hbefore : (before ++ old ++ after).take before.length = before := by
    rw [List.append_assoc, List.take_left]
  have hafter : (before ++ old ++ after).drop (before.length + 4) = after := by
    rw [← hold, ← List.length_append, List.drop_left]
  unfold Bytes.overwriteWord?
  rw [if_pos (by rw [List.length_append, List.length_append]; omega), hbefore, hafter]

/-- The operand of a jump, filled in. -/
theorem overwriteWord?_jump (before after : Bytes) (kind : Jump) (offset rel : Int32) :
    Bytes.overwriteWord? (before ++ ((Instruction.jump kind offset).encode ++ after))
        (before.length + 1) rel.toUInt32 =
      some (before ++ ((Instruction.jump kind rel).encode ++ after)) := by
  have hsplit : ∀ r, before ++ ((Instruction.jump kind r).encode ++ after) =
      before ++ [(Opcode.jump kind).toByte] ++ Bytes.u32 r.toUInt32 ++ after := fun r => by
    rw [List.append_assoc, List.append_assoc]
    rfl
  have hlength : before.length + 1 = (before ++ [(Opcode.jump kind).toByte]).length := by
    rw [List.length_append, List.length_singleton]
  rw [hsplit, hsplit, hlength]
  exact overwriteWord?_append _ _ _ _ (Bytes.length_littleEndian 4 _)

/-- **Filling in the operands** of what is emitted behind some bytes leaves these bytes alone and
    makes every jump the one that is meant. -/
theorem resolve_bytes (labels : List (Option Nat)) (es : List Emission) (before : Bytes) :
    (resolve labels (before ++ Emission.bytes es) (Emission.operands before.length es)).1 =
      before ++ encodeBody (Emission.fill labels before.length es) := by
  induction es generalizing before with
  | nil => rfl
  | cons e rest ih =>
      -- what comes of the first emission joins the bytes before the others
      have hrest := ih (before ++ (e.filled labels before.length).encode)
      rw [List.length_append, length_encode, Emission.size_filled, List.append_assoc,
        List.append_assoc, ← encodeBody_cons] at hrest
      rw [Emission.bytes_cons]
      cases e with
      | plain i => exact hrest
      | jump kind l =>
          rw [Emission.fill, ← hrest, Emission.operands, resolve]
          cases hl : labels[l]?.join with
          | none =>
              have hfilled : (Emission.jump kind l).filled labels before.length = .jump kind 0 := by
                rw [Emission.filled, hl]
                rfl
              rw [hfilled]
              rfl
          | some target =>
              have hfilled : (Emission.jump kind l).filled labels before.length =
                  .jump kind (distance (before.length + 1) target) := by
                rw [Emission.filled, hl]
                rfl
              rw [hfilled]
              dsimp only [Emission.placeholder]
              rw [overwriteWord?_jump]
              rfl

/-- Whether a label was missing is read off the fixups. -/
theorem resolve_missing (labels : List (Option Nat)) (code : Bytes) (fixups : List (Nat × Nat)) :
    (resolve labels code fixups).2 = fixups.any fun f => (labels[f.2]?.join).isNone := by
  induction fixups generalizing code with
  | nil => rfl
  | cons f rest ih =>
      unfold resolve
      rw [List.any_cons]
      split
      · rename_i target htarget
        rw [htarget]
        exact ih _
      · rename_i hnone
        rw [hnone]
        rfl

/-- The fixups are those of jumps that were emitted. -/
theorem mem_operands {es : List Emission} {offset : Nat} {f : Nat × Nat}
    (h : f ∈ Emission.operands offset es) : ∃ kind, .jump kind f.2 ∈ es := by
  induction es generalizing offset with
  | nil => cases h
  | cons e rest ih =>
      cases e with
      | plain i =>
          obtain ⟨kind, hkind⟩ := ih h
          exact ⟨kind, List.mem_cons_of_mem _ hkind⟩
      | jump kind l =>
          rcases List.mem_cons.mp h with rfl | h
          · exact ⟨kind, List.mem_cons_self⟩
          · obtain ⟨kind, hkind⟩ := ih h
            exact ⟨kind, List.mem_cons_of_mem _ hkind⟩

variable {d : Draft} {done : List BodyOp} {es : List Emission}

/-- What a finished draft is. -/
theorem Written.finish (h : Written done es d) :
    d.finish.1 = encodeBody (Emission.fill d.labels 0 es) := by
  unfold Draft.finish
  rw [h.code, h.fixups]
  exact resolve_bytes d.labels es []

/-- **A finished draft decodes** to the listing of what was emitted, filled in. -/
theorem Written.decode (h : Written done es d) :
    decodeBody d.finish.1 = .ok (listing 0 (Emission.fill d.labels 0 es)) := by
  rw [h.finish]
  exact decodeBody_encodeBody _

/-- A draft is complete when the labels of its jumps are bound. -/
theorem Written.complete (h : Written done es d)
    (hbound : ∀ kind l, .jump kind l ∈ es → .bind l ∈ done) : d.finish.2 = false := by
  unfold Draft.finish
  rw [resolve_missing, List.any_eq_false]
  intro f hf
  rw [h.fixups] at hf
  obtain ⟨kind, hkind⟩ := mem_operands hf
  obtain ⟨offset, hoffset⟩ := BodyOp.exists_boundAt (hbound kind f.2 hkind)
  rw [(h.bound f.2 offset).mpr hoffset]
  exact Bool.false_ne_true

end Draft

namespace ModuleBuilder

/-- A function is defined by the finished draft of its body. -/
theorem define_eq {b : ModuleBuilder} {index : UInt32} {params locals : UInt16}
    {body : List BodyOp} {name : String} {slot : Option Function} {pools : Pools} {d : Draft}
    (hdeclared : b.functions[index.toNat]? = some (name, slot))
    (hd : Draft.applyAll name b.pools {} body = some (pools, d)) :
    b.define index params locals body = some { b with
      pools
      functions := b.functions.set index.toNat (name, some
        ⟨name, params, if locals < params then params else locals, d.finish.1⟩)
      unbound := if d.finish.2 then b.unbound ++ [name] else b.unbound } := by
  unfold define
  rw [hdeclared]
  simp only [Option.bind_eq_bind, Option.bind_some, hd]

end ModuleBuilder

end EmbeddedVm
